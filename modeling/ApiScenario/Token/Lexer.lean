import ApiScenario.Error
import ApiScenario.Text.Identifier
import ApiScenario.Text.Literal
import ApiScenario.Token

/-!
# From text to tokens

A text is cut into tokens and the blanks and comments between them. `lex` lists the tokens in
order and ends with the end of the text or with the first piece that is no token.

## How a token is found

After blanks and complete comments the next character decides: a double quote opens a literal, a
digit, or a minus sign before a digit, an integer, a letter or underscore a word, and the rest is
punctuation. A comment that is never closed is no blank and so becomes an error where it starts.

## Why the loops end

* `trivia` and `scan` go on with what `closeComment?`, `dropWhile` or `cut` leave, which is
  shorter than what they were given (`closeComment?_length`, `cut_length`).
-/

namespace ApiScenario

/-- One step of reading a text: a token, or the piece that is none. -/
abbrev Lexed := Except LexicalError Token

namespace Lexer

/-- What makes a piece of text no token. -/
inductive Fault where
  | unrecognized
  | unterminatedString
  | unterminatedComment
  | integerOutOfRange
  | unknownEscape
deriving DecidableEq, Repr

/-- A fault in words. -/
def Fault.reason : Fault → String
  | unrecognized => "unrecognized character"
  | unterminatedString => "unterminated string literal"
  | unterminatedComment => "unterminated block comment"
  | integerOutOfRange => "integer literal out of range"
  | unknownEscape => "unknown escape sequence"

/-! ## Blanks and comments -/

/-- The characters that separate tokens. -/
def isBlank (c : Char) : Bool := c == ' ' || c == '\t' || c == '\r' || c == '\n'

/-- What a comment to the end of its line can hold. -/
def isInLine (c : Char) : Bool := c != '\n' && c != '\r'

/-- The rest of a block comment, its closing mark included, and what follows it. -/
def closeComment? : List Char → Option (List Char × List Char)
  | [] => none
  | '*' :: '/' :: rest => some (['*', '/'], rest)
  | c :: rest => (closeComment? rest).map fun (body, rest) => (c :: body, rest)

theorem closeComment?_append {cs body rest : List Char}
    (h : closeComment? cs = some (body, rest)) : body ++ rest = cs := by
  fun_induction closeComment? cs generalizing body rest with
  | case1 => simp at h
  | case2 r =>
    cases h
    rfl
  | case3 c r _ ih =>
    obtain ⟨⟨b, r'⟩, hb, he⟩ := Option.map_eq_some_iff.mp h
    cases he
    simp [ih hb]

theorem closeComment?_length {cs body rest : List Char}
    (h : closeComment? cs = some (body, rest)) : rest.length ≤ cs.length := by
  have h' := congrArg List.length (closeComment?_append h)
  simp only [List.length_append] at h'
  omega

/-- The blanks and complete comments at the front of a text, and what follows them. -/
def trivia (cs : List Char) : List Char × List Char :=
  match cs with
  | [] => ([], [])
  | '/' :: '/' :: rest =>
    let more := trivia (rest.dropWhile isInLine)
    ('/' :: '/' :: (rest.takeWhile isInLine ++ more.1), more.2)
  | '/' :: '*' :: rest =>
    match _closed : closeComment? rest with
    | some (body, rest') =>
      let more := trivia rest'
      ('/' :: '*' :: (body ++ more.1), more.2)
    | none => ([], '/' :: '*' :: rest)
  | c :: rest =>
    if isBlank c then
      let more := trivia rest
      (c :: more.1, more.2)
    else ([], c :: rest)
termination_by cs.length
decreasing_by
  · have := (List.dropWhile_sublist (l := rest) isInLine).length_le
    simp only [List.length_cons]
    omega
  · have := closeComment?_length _closed
    simp only [List.length_cons]
    omega
  · simp only [List.length_cons]
    omega

theorem trivia_append (cs : List Char) : (trivia cs).1 ++ (trivia cs).2 = cs := by
  fun_induction trivia cs with
  | case1 => rfl
  | case2 rest more ih => simp [more, ih]
  | case3 rest body rest' h more ih => simp [more, ih, closeComment?_append h]
  | case4 => rfl
  | case5 c rest _ _ _ more ih => simp [more, ih]
  | case6 => rfl

theorem trivia_length (cs : List Char) : (trivia cs).2.length ≤ cs.length := by
  have h := congrArg List.length (trivia_append cs)
  simp only [List.length_append] at h
  omega

/-! ## One token -/

/-- What stands at the front of a text that begins with no blank and no complete comment. -/
inductive Cut where
  /-- A token, its spelling and what follows it. -/
  | token (kind : TokenKind) (lexeme rest : List Char)
  /-- A fault, the character at fault and how many columns into the piece it is reported. -/
  | fault (offset : Nat) (found : Char) (fault : Fault)

/-- What a literal is whose opening quote has been read. -/
def cutLiteral (cs : List Char) : Cut :=
  match Literal.close? cs with
  | none => .fault 0 '"' .unterminatedString
  | some (body, rest) =>
    match Literal.unescape body with
    | .ok value => .token (.str (String.ofList value)) ('"' :: (body ++ ['"'])) rest
    | .error e => .fault (e.offset + 1) e.found .unknownEscape

/-- What an integer is that begins with `c`. -/
def cutInteger (c : Char) (cs : List Char) : Cut :=
  let lexeme := c :: cs.takeWhile Char.isDigit
  match Decimal.read? lexeme with
  | some n => .token (.int n) lexeme (cs.dropWhile Char.isDigit)
  | none => .fault 0 c .integerOutOfRange

/-- A word is a keyword if it is spelled like one. -/
def wordKind (word : String) : TokenKind :=
  match Keyword.ofWord? word with
  | some k => .keyword k
  | none => .ident word

/-- What a word is that begins with `c`. -/
def cutWord (c : Char) (cs : List Char) : Cut :=
  let lexeme := c :: cs.takeWhile Identifier.isNext
  .token (wordKind (String.ofList lexeme)) lexeme (cs.dropWhile Identifier.isNext)

/-- What a single character is. -/
def cutMark (c : Char) (cs : List Char) : Cut :=
  match Punct.ofChar? c with
  | some p => .token (.punct p) [c] cs
  | none => .fault 0 c .unrecognized

/-- Whether an integer begins with `c` when `cs` follows. -/
def beginsInteger (c : Char) (cs : List Char) : Bool :=
  c.isDigit || (c == '-' && cs.head?.any Char.isDigit)

/-- What stands at the front of the text `c :: cs`. -/
def cut (c : Char) (cs : List Char) : Cut :=
  if c = '"' then cutLiteral cs
  else if c = '/' ∧ cs.head? = some '*' then .fault 0 c .unterminatedComment
  else if beginsInteger c cs then cutInteger c cs
  else if Identifier.isFirst c then cutWord c cs
  else cutMark c cs

/-- A lexeme is the front of the text: its first character, and some of what follows. -/
def IsFront (c : Char) (cs lexeme rest : List Char) : Prop :=
  ∃ more, lexeme = c :: more ∧ more ++ rest = cs

theorem cutLiteral_front {cs lexeme rest : List Char} {kind : TokenKind}
    (h : cutLiteral cs = .token kind lexeme rest) : IsFront '"' cs lexeme rest := by
  unfold cutLiteral at h
  split at h
  · cases h
  · next body rest' hc =>
    split at h
    · cases h
      exact ⟨body ++ ['"'], rfl, by simp [Literal.close?_eq hc]⟩
    · cases h

theorem cutInteger_front {c : Char} {cs lexeme rest : List Char} {kind : TokenKind}
    (h : cutInteger c cs = .token kind lexeme rest) : IsFront c cs lexeme rest := by
  unfold cutInteger at h
  dsimp only at h
  split at h
  · cases h
    exact ⟨_, rfl, List.takeWhile_append_dropWhile⟩
  · cases h

theorem cutWord_front {c : Char} {cs lexeme rest : List Char} {kind : TokenKind}
    (h : cutWord c cs = .token kind lexeme rest) : IsFront c cs lexeme rest := by
  cases h
  exact ⟨_, rfl, List.takeWhile_append_dropWhile⟩

theorem cutMark_front {c : Char} {cs lexeme rest : List Char} {kind : TokenKind}
    (h : cutMark c cs = .token kind lexeme rest) : IsFront c cs lexeme rest := by
  unfold cutMark at h
  split at h
  · cases h
    exact ⟨[], rfl, rfl⟩
  · cases h

theorem cut_front {c : Char} {cs lexeme rest : List Char} {kind : TokenKind}
    (h : cut c cs = .token kind lexeme rest) : IsFront c cs lexeme rest := by
  unfold cut at h
  split at h
  · next hq => exact hq ▸ cutLiteral_front h
  · split at h
    · cases h
    · split at h
      · exact cutInteger_front h
      · split at h
        · exact cutWord_front h
        · exact cutMark_front h

theorem cut_length {c : Char} {cs lexeme rest : List Char} {kind : TokenKind}
    (h : cut c cs = .token kind lexeme rest) : rest.length ≤ cs.length := by
  obtain ⟨more, -, h'⟩ := cut_front h
  rw [← h', List.length_append]
  omega

/-! ## All tokens -/

/-- The tokens of a text whose first character stands at `p`. -/
def scan (p : Position) (cs : List Char) : List Lexed :=
  let place := p.after (trivia cs).1
  match _left : (trivia cs).2 with
  | [] => [.ok ⟨.eof, place⟩]
  | c :: rest =>
    match _first : cut c rest with
    | .token kind lexeme rest' => .ok ⟨kind, place⟩ :: scan (place.after lexeme) rest'
    | .fault offset found fault => [.error ⟨place.moveRight offset, found, fault.reason⟩]
termination_by cs.length
decreasing_by
  have h₁ := trivia_length cs
  have h₂ := cut_length _first
  rw [_left, List.length_cons] at h₁
  omega

/-- The tokens up to the end of the text or the first piece that is none. -/
def collect : List Lexed → Except LexicalError (List Token)
  | [] => .ok []
  | .ok t :: rest => (collect rest).map (t :: ·)
  | .error e :: _ => .error e

end Lexer

/-- The tokens of a text, ended by the end of the text or by the piece that is no token. -/
def lex (source : String) : List Lexed := Lexer.scan .start source.toList

/-- All tokens of a text, its end included. -/
def tokenize (source : String) : Except LexicalError (List Token) := Lexer.collect (lex source)

end ApiScenario
