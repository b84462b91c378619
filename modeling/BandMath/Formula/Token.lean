/-
# Tokens

The words of a formula.  `Lexeme` is a token together with the characters it was read from and the
place where they start, counted in characters.

A token is what matters to the grammar.  A number carries its value and not its spelling, and the
two spellings of the power operator are one token.  What a lexeme keeps besides the token is needed
for two things only: the place, for faults, and the characters, to say that cutting a text into
tokens loses nothing but blanks.  The reader of expressions looks at tokens and places alone
(`BandMath.Formula.Reading`).

A token that is out of place is shown in the message about it, by `Token.text`: its class, and for a
number or a name also what it is.  A number is shown by its value, so `1e1` is shown as
`Number(10.0)`, and a name between double quotes, with escapes for what could not be seen.
-/
import BandMath.Decimal.Layout
import BandMath.Text.Quoted

namespace BandMath.Formula

/-! ## 1. Tokens -/

/-- The words that formulas are made of. -/
inductive Token where
  | number (value : Float)
  | name (text : String)
  | plus
  | minus
  | times
  | divide
  /-- Written `^` or `**`. -/
  | power
  | openParen
  | closeParen
  deriving DecidableEq

/-- How messages show a token. -/
def Token.text : Token → String
  | number v => "Number(" ++ Decimal.Layout.message.text v ++ ")"
  | name s => "Ident(" ++ Text.quoted s ++ ")"
  | plus => "Op('+')"
  | minus => "Op('-')"
  | times => "Op('*')"
  | divide => "Op('/')"
  | power => "Pow"
  | openParen => "LParen"
  | closeParen => "RParen"

/-! ## 2. Lexemes -/

/-- A token where it stands in a formula. -/
structure Lexeme where
  token : Token
  /-- Number of characters before it. -/
  start : Nat
  /-- The characters that make it up. -/
  source : List Char
  deriving DecidableEq

end BandMath.Formula
