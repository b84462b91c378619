/-
# Reading an expression off lexemes

The grammar of formulas, as a reader for each of its rules (`parse_expr` and those it calls):

    sum     = product (('+' | '-') product)*
    product = signed (('*' | '/') signed)*
    signed  = ('-' | '+') signed | power
    power   = primary ('^' signed)?
    primary = numeral | name | name '(' sum ')' | '(' sum ')'

Sums and products group to the left and powers to the right; a power binds tighter than the sign
before it and looser than the sign after it, so `-x^2` is `-(x^2)` and `2^-1` is `2^(-1)`.  A plus
sign before an operand leaves no trace in the tree.

Two limits keep trees small: `signed` may be entered `maxDepth` times inside itself, and no tree may
be deeper than `maxDepth`.  The first limit is what the recursion of the grammar descends on; the
second bounds the operators of a sum or product, each of which makes the tree deeper.  Parentheses
make no tree deeper, but `signed` is entered inside them, so they count for the first limit.

A reader takes an expression off the front of a list of lexemes and gives back the others.  Each
rule is given the readers of the rules inside it as arguments, and the recursion is tied once, in
`signedWithin`; so a rule can be looked at by itself, and what is said about its parts is said about
any readers.  A reader never goes back.  It decides by the next lexeme, or the two next in the case
of a name, and where it fails is therefore the earliest place where the text stops being the
beginning of a formula (`BandMath.Proofs.Formula.Beginnings`).

A fault is reported at the lexeme that comes next, or at the end of the text if none is left.
-/
import BandMath.Error
import BandMath.Formula.Expr

namespace BandMath.Formula

/-- Greatest depth of a tree, and of signs, exponents, parentheses and calls inside each other. -/
def maxDepth : Nat := 256

/-! ## 1. Readers -/

/-- Reads an expression off the front of a list of lexemes and returns it with the others. -/
abbrev Reader := List Lexeme → Except Fault (Expr × List Lexeme)

/-- Where the next lexeme starts; `stop` is the length of the text. -/
def place (stop : Nat) : List Lexeme → Nat
  | [] => stop
  | l :: _ => l.start

/-- A fault at the next lexeme. -/
def failAt {α : Type} (stop : Nat) (ls : List Lexeme) (reason : Reason) : Except Fault α :=
  .error ⟨place stop ls, reason⟩

/-- A finished tree, unless it is too deep. -/
def bounded (stop : Nat) (e : Expr) (ls : List Lexeme) : Except Fault (Expr × List Lexeme) :=
  if e.depth ≤ maxDepth then .ok (e, ls) else failAt stop ls .tooDeep

/-! ## 2. The rules of the grammar -/

/-- What follows the sum between two parentheses. -/
def closing (stop : Nat) : List Lexeme → Except Fault (List Lexeme)
  | ⟨.closeParen, _, _⟩ :: ls => .ok ls
  | ls => failAt stop ls .missingParenthesis

/-- `primary`, with `inner` for the sum between parentheses. -/
def primary (stop : Nat) (inner : Reader) : Reader
  | [] => failAt stop [] .unexpectedEnd
  | ⟨.number v, _, _⟩ :: ls => .ok (.number v, ls)
  | ⟨.name f, _, _⟩ :: ⟨.openParen, _, _⟩ :: ls => do
    let (argument, ls) ← inner ls
    let ls ← closing stop ls
    bounded stop (.call f argument) ls
  | ⟨.name x, _, _⟩ :: ls => .ok (.symbol x, ls)
  | ⟨.openParen, _, _⟩ :: ls => do
    let (e, ls) ← inner ls
    let ls ← closing stop ls
    return (e, ls)
  | l :: ls => failAt stop (l :: ls) (.unexpectedToken l.token)

/-- `power`, with `operand` for the exponent. -/
def power (stop : Nat) (inner operand : Reader) : Reader := fun ls => do
  match ← primary stop inner ls with
  | (base, ⟨.power, _, _⟩ :: ls) =>
    let (exponent, ls) ← operand ls
    bounded stop (.binary .power base exponent) ls
  | r => return r

/-- `signed`, with `operand` for what a sign or an exponent applies to. -/
def signed (stop : Nat) (inner operand : Reader) : Reader
  | ⟨.minus, _, _⟩ :: ls => do
    let (e, ls) ← operand ls
    bounded stop (.negate e) ls
  | ⟨.plus, _, _⟩ :: ls => operand ls
  | ls => power stop inner operand ls

/-- Operators of a sum. -/
def sumOp? : Token → Option BinaryOp
  | .plus => some .add
  | .minus => some .subtract
  | _ => none

/-- Operators of a product. -/
def productOp? : Token → Option BinaryOp
  | .times => some .multiply
  | .divide => some .divide
  | _ => none

/-- Operators and operands after `left`, grouped to the left; there may be `room` of them. -/
def chainAfter (stop : Nat) (op? : Token → Option BinaryOp) (operand : Reader) :
    (room : Nat) → Expr → Reader
  | _, left, [] => .ok (left, [])
  | room, left, l :: ls =>
    match op? l.token, room with
    | none, _ => .ok (left, l :: ls)
    | some _, 0 => failAt stop (l :: ls) .tooDeep
    | some op, room + 1 => do
      let (right, ls) ← operand ls
      let (e, ls) ← bounded stop (.binary op left right) ls
      chainAfter stop op? operand room e ls

/-- Operands divided by the operators of one rank. -/
def chain (stop : Nat) (op? : Token → Option BinaryOp) (operand : Reader) : Reader := fun ls => do
  let (first, ls) ← operand ls
  chainAfter stop op? operand maxDepth first ls

/-- `sum`, with `operand` for the operands of its products. -/
def sum (stop : Nat) (operand : Reader) : Reader :=
  chain stop sumOp? (chain stop productOp? operand)

/-- `signed` that may be entered `room` times inside itself. -/
def signedWithin (stop : Nat) : (room : Nat) → Reader
  | 0 => fun ls => failAt stop ls .tooDeep
  | room + 1 =>
    let operand := signedWithin stop room
    signed stop (sum stop operand) operand

/-! ## 3. Whole formulas -/

/-- The expression that the lexemes of a text of length `stop` make up. -/
def Expr.ofLexemes (stop : Nat) : List Lexeme → Except Fault Expr
  | [] => failAt stop [] .empty
  | l :: ls => do
    match ← sum stop (signedWithin stop maxDepth) (l :: ls) with
    | (e, []) => return e
    | (_, next :: rest) => failAt stop (next :: rest) (.trailingToken next.token)

end BandMath.Formula
