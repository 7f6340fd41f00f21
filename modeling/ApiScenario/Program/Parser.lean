import ApiScenario.Program.Draft
import ApiScenario.Token.Lexer

/-!
# From tokens to programs

A program is read by handing its tokens to a draft, one after the other. Reading stops at the
first token that the draft refuses, at the first piece of text that is no token, or at the end of
the text. What comes later is never looked at, so of two faults the earlier one is reported.
-/

namespace ApiScenario

namespace Program

/-- The error for a token that a draft refuses. -/
def unexpected (draft : ProgramDraft) (t : Token) : UnexpectedToken where
  position := t.position
  expected := draft.expected.map Expectation.text
  found := t.kind.text

/-- The error for a list of tokens that stops before the end of its text, after the place `last`. -/
def exhausted (last : Position) : UnexpectedToken where
  position := last
  expected := ["more input"]
  found := TokenKind.eof.text

/-- The program that a draft becomes by taking tokens, when the token before them is at `last`. -/
def readFrom (last : Position) (draft : ProgramDraft) : List Lexed → Except SourceError Program
  | [] => .error (.unexpected (exhausted last))
  | .error e :: _ => .error (.lexical e)
  | .ok t :: rest =>
    match draft.step t with
    | none => .error (.unexpected (unexpected draft t))
    | some (.more draft) => readFrom t.position draft rest
    | some (.done p) => .ok p

/-- The program that a list of tokens spells. -/
def ofTokens (items : List Lexed) : Except SourceError Program := readFrom .start .start items

/-- The program that a text spells. -/
def parse (source : String) : Except SourceError Program := ofTokens (lex source)

end Program

end ApiScenario
