import Sharding.Text.Numeral
import Sharding.Text.Quoted
/-!
# Tokens

The words of placeholder bodies.
-/

namespace Sharding.Inline

inductive Token where
  | int (n : Int64)
  | text (s : String)
  | word (name : String)
  | plus
  | minus
  | star
  | slash
  | percent
  | openParen
  | closeParen
  | openBracket
  | closeBracket
  | comma
  | dots
  deriving DecidableEq

namespace Token

/-- The token that a character is by itself. -/
def ofSymbol? : Char → Option Token
  | '+' => some plus
  | '-' => some minus
  | '*' => some star
  | '/' => some slash
  | '%' => some percent
  | '(' => some openParen
  | ')' => some closeParen
  | '[' => some openBracket
  | ']' => some closeBracket
  | ',' => some comma
  | _ => none

/-- The token as fault messages show it. -/
def describe : Token → String
  | int n => s!"Int({Text.Numeral.print n})"
  | text s => s!"Str({Text.quoted s})"
  | word name => s!"Ident({Text.quoted name})"
  | plus => "Plus"
  | minus => "Minus"
  | star => "Star"
  | slash => "Slash"
  | percent => "Percent"
  | openParen => "LParen"
  | closeParen => "RParen"
  | openBracket => "LBracket"
  | closeBracket => "RBracket"
  | comma => "Comma"
  | dots => "DotDot"

/-- What was found where a token was looked for: a token, or the end. -/
def describeFound : Option Token → String
  | some token => s!"Some({token.describe})"
  | none => "None"

end Token

end Sharding.Inline
