/-
# Formulas

A formula is a text without blanks together with the expression it denotes.  It is made from any
text: blanks divide tokens and mean nothing else, and faults are reported at places of the text as
it was given.

Reading goes through two steps, which are modules of their own:

1. `lexemes` (`tokenize`) cuts the text into tokens (`BandMath.Formula.Lexeme`).
2. `Expr.ofLexemes` reads the expression off the tokens (`BandMath.Formula.Reading`).

`Formula.ofText` does both and keeps the text without its blanks (`normalize`).  It does not read
that text but the one that was given.  This makes a difference where a blank is all that divides two
tokens: `N R` are two names, of which the second is out of place, whereas `NR` is one name, and
`N * * R` has an operator too many, whereas `N**R` is a power.  In a text that is a formula no blank
does that, so what is kept is read as the same expression again, which is a theorem about both steps
(`BandMath.Proofs.Formula.Normalization`).

`Formula.parse` reports faults together with the text they are about, as an error that a caller
sees; a definition of an index reports them with the name of the index besides
(`IndexDefinition.ofFormula`).
-/
import BandMath.Formula.Lexeme
import BandMath.Formula.Reading

namespace BandMath

/-- A text without blanks and the expression that it denotes. -/
structure Formula where
  /-- The text, without blanks. -/
  text : String
  expr : Formula.Expr
  deriving DecidableEq

namespace Formula

/-- The text without its blanks. -/
def normalize (text : String) : String :=
  String.ofList (Text.strip text.toList)

/-- The expression that a text denotes. -/
def Expr.ofText (text : List Char) : Except Fault Expr := do
  Expr.ofLexemes text.length (← lexemes text)

/-- The formula that a text denotes, or the fault in it. -/
def ofText (text : String) : Except Fault Formula := do
  return ⟨normalize text, ← Expr.ofText text.toList⟩

/-- Reads a formula; an error says what text it is about. -/
def parse (text : String) : Except Error Formula :=
  (ofText text).mapError (.malformedFormula text)

/-- The names that need a value, in the order of their first mention. -/
def symbols (f : Formula) : List String :=
  f.expr.symbols

end Formula

end BandMath
