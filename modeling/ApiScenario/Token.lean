import ApiScenario.Position
import ApiScenario.Text.Decimal
import ApiScenario.Text.Visible

/-!
# Tokens

The words and marks of the scenario language. Keywords are set apart from identifiers by their
spelling alone. The last token of a whole text is its end.
-/

namespace ApiScenario

/-- The reserved words of the language. -/
inductive Keyword where
  | config
  | baseUrl
  | header
  | var
  | test
  | get
  | post
  | put
  | delete
  | body
  | assertStatus
  | assertStatusRange
  | assertHeader
  | assertHeaderContains
  | assertBodyContains
deriving DecidableEq, Repr, Inhabited

namespace Keyword

/-- The spelling of a keyword. -/
def word : Keyword → String
  | config => "config"
  | baseUrl => "base_url"
  | header => "header"
  | var => "var"
  | test => "test"
  | get => "GET"
  | post => "POST"
  | put => "PUT"
  | delete => "DELETE"
  | body => "body"
  | assertStatus => "assert_status"
  | assertStatusRange => "assert_status_range"
  | assertHeader => "assert_header"
  | assertHeaderContains => "assert_header_contains"
  | assertBodyContains => "assert_body_contains"

/-- All keywords. -/
def all : List Keyword :=
  [config, baseUrl, header, var, test, get, post, put, delete, body, assertStatus,
    assertStatusRange, assertHeader, assertHeaderContains, assertBodyContains]

/-- The keyword with a given spelling. -/
def ofWord? (w : String) : Option Keyword := all.find? (·.word == w)

@[simp] theorem ofWord?_word (k : Keyword) : ofWord? k.word = some k := by
  cases k <;> decide

theorem word_of_ofWord? {w : String} {k : Keyword} (h : ofWord? w = some k) : k.word = w := by
  simpa using List.find?_some h

/-- A keyword as messages name it. -/
def text (k : Keyword) : String := "'" ++ k.word ++ "'"

end Keyword

/-- The punctuation of the language. -/
inductive Punct where
  | openBrace
  | closeBrace
  | openParen
  | closeParen
  | semicolon
  | comma
  | equals
deriving DecidableEq, Repr, Inhabited

namespace Punct

/-- The character of a punctuation mark. -/
def char : Punct → Char
  | openBrace => '\x7b'
  | closeBrace => '\x7d'
  | openParen => '('
  | closeParen => ')'
  | semicolon => ';'
  | comma => ','
  | equals => '='

/-- All punctuation marks. -/
def all : List Punct :=
  [openBrace, closeBrace, openParen, closeParen, semicolon, comma, equals]

/-- The punctuation mark of a character. -/
def ofChar? (c : Char) : Option Punct := all.find? (·.char == c)

@[simp] theorem ofChar?_char (p : Punct) : ofChar? p.char = some p := by
  cases p <;> decide

theorem char_of_ofChar? {c : Char} {p : Punct} (h : ofChar? c = some p) : p.char = c := by
  simpa using List.find?_some h

/-- A punctuation mark as messages name it. -/
def text (p : Punct) : String := "'" ++ p.char.toString ++ "'"

end Punct

/-- What a token says, apart from where it stands. -/
inductive TokenKind where
  | keyword (k : Keyword)
  | ident (name : String)
  | str (value : String)
  | int (value : Int64)
  | punct (p : Punct)
  /-- The end of the text. -/
  | eof
deriving DecidableEq, Inhabited

/-- A token as messages name it. -/
def TokenKind.text : TokenKind → String
  | keyword k => "keyword " ++ k.text
  | ident name => "identifier '" ++ name ++ "'"
  | str value => "string " ++ Visible.string value
  | int value => "integer " ++ Decimal.text value
  | punct p => p.text
  | eof => "end of input"

/-- A token and the place of its first character. -/
structure Token where
  kind : TokenKind
  position : Position
deriving DecidableEq, Inhabited

/-- A token in a listing: its place, a tab and what it says. -/
def Token.listing (t : Token) : String := t.position.text ++ "\t" ++ t.kind.text

end ApiScenario
