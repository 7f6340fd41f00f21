import ApiScenario.Text.Literal
import ApiScenario.Token

/-!
# Spelling of tokens

Each token has one canonical spelling. The end of a text has none.
-/

namespace ApiScenario

/-- The spelling of a token. -/
def TokenKind.spelling : TokenKind → List Char
  | keyword k => k.word.toList
  | ident name => name.toList
  | str value => Literal.quoted value.toList
  | int value => Decimal.chars value
  | punct p => [p.char]
  | eof => []

end ApiScenario
