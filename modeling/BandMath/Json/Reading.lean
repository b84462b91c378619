/-
# Reading JSON

The grammar is strict: no comments, no comma after the last item, no leading zeros, at least one
digit on either side of a point, and no controls inside strings.  Only space, tab, line feed and
carriage return may stand between tokens.  `read?` reads a whole text, of which nothing but such
characters may be left over.

* Numbers are kept digit by digit (`numeral?`), since it is decided later what they are worth.
* A string is first cut into pieces, code units and characters (`pieces?`), and the pieces are then
  put together (`textOf?`).  Two steps are needed because two escapes may write one character.  If
  they cannot be put together, the string is still read, and it is no text.
* Arrays and objects are read by `value?`, `items?` and `members?` in turn.

What is read inside an array is again a value, and is not a part of the text that is known in
advance, so the three functions descend on a number of steps, `fuel`.  `read?` starts with more
steps than a text can need: every step but the first reads a character, or follows one that does.
Texts that are refused are not told apart; there is one way to fail.
-/
import BandMath.Json.Basic
import BandMath.Json.Quoted

namespace BandMath.Json

/-! ## 1. Tokens -/

/-- The characters that may stand between tokens. -/
def isSpace (c : Char) : Bool :=
  c = ' ' || c = '\n' || c = '\r' || c = '\t'

/-- The text from its first token on. -/
def skipSpace (cs : List Char) : List Char :=
  cs.dropWhile isSpace

/-- The text after a given beginning. -/
def after? (start : List Char) (cs : List Char) : Option (List Char) :=
  if start.isPrefixOf cs then some (cs.drop start.length) else none

/-- Digits at the front of a text, one at least, and the text after them. -/
def digits? (cs : List Char) : Option (List Char × List Char) :=
  let digits := cs.takeWhile Decimal.isDigit
  if digits.isEmpty then none else some (digits, cs.dropWhile Decimal.isDigit)

/-- Digits before the point: `0`, or digits that do not start with it. -/
def whole? (cs : List Char) : Option (List Char × List Char) :=
  match digits? cs with
  | some (digits, rest) =>
    if digits.head? = some '0' && digits.length ≠ 1 then none else some (digits, rest)
  | none => none

/-- The number at the front of a text. -/
def numeral? (cs : List Char) : Option (Numeral × List Char) := do
  let (negative, cs) := match cs with
    | '-' :: rest => (true, rest)
    | _ => (false, cs)
  let (whole, cs) ← whole? cs
  let (fraction, cs) ← match cs with
    | '.' :: rest => (digits? rest).map fun (digits, rest) => (some digits, rest)
    | _ => some (none, cs)
  let (exponent, cs) ← match cs with
    | mark :: rest =>
      if Decimal.isExponentMark mark then
        let (minus, rest) := Decimal.splitSign rest
        (digits? rest).map fun (digits, rest) => (some (minus, digits), rest)
      else some (none, cs)
    | [] => some (none, cs)
  return ({ negative, whole, fraction, exponent }, cs)

/-! ## 2. Strings -/

/-- What one item of a string contributes: a code unit of UTF-16 written as an escape, or a
character written as itself. -/
inductive Piece where
  | unit (code : Nat)
  | char (c : Char)

/-- The value of a hexadecimal digit, in either case. -/
def hexValue? (c : Char) : Option Nat :=
  if Decimal.isDigit c then some (c.toNat - '0'.toNat)
  else if 'a' ≤ c && c ≤ 'f' then some (c.toNat - 'a'.toNat + 10)
  else if 'A' ≤ c && c ≤ 'F' then some (c.toNat - 'A'.toNat + 10)
  else none

/-- The character that a backslash and one letter stand for.  A slash may be escaped and need not
be. -/
def escaped? (letter : Char) : Option Char :=
  if letter = '/' then some '/'
  else (escapes.find? fun (_, l) => l = letter).map (·.1)

/-- The pieces of a string up to its closing quote, after those already found, latest first. -/
def pieces? (found : List Piece) : List Char → Option (List Piece × List Char)
  | '"' :: rest => some (found.reverse, rest)
  | '\\' :: 'u' :: a :: b :: c :: d :: rest => do
    let code := (((← hexValue? a) * 16 + (← hexValue? b)) * 16 + (← hexValue? c)) * 16 +
      (← hexValue? d)
    pieces? (.unit code :: found) rest
  | '\\' :: c :: rest => do
    pieces? (.char (← escaped? c) :: found) rest
  | c :: rest => if c.toNat < 0x20 then none else pieces? (.char c :: found) rest
  | [] => none

/-- The text of some pieces; none if half of a surrogate pair stands alone. -/
def textOf? : List Piece → Option (List Char)
  | [] => some []
  | .char c :: rest => (textOf? rest).map (c :: ·)
  | .unit high :: rest =>
    if high < 0xD800 || 0xDFFF < high then (textOf? rest).map (Char.ofNat high :: ·)
    else if 0xDC00 ≤ high then none
    else
      match rest with
      | .unit low :: rest =>
        if 0xDC00 ≤ low && low ≤ 0xDFFF then
          let code := 0x10000 + (high - 0xD800) * 0x400 + (low - 0xDC00)
          (textOf? rest).map (Char.ofNat code :: ·)
        else none
      | _ => none

/-- A string whose opening quote has been read. -/
def string? (cs : List Char) : Option (Option String × List Char) := do
  let (pieces, rest) ← pieces? [] cs
  return ((textOf? pieces).map String.ofList, rest)

/-! ## 3. Values -/

mutual

/-- The value at the front of a text; `fuel` bounds the number of steps. -/
def value? (fuel : Nat) (cs : List Char) : Option (Json × List Char) :=
  match fuel with
  | 0 => none
  | fuel + 1 =>
    match skipSpace cs with
    | '"' :: rest => (string? rest).map fun (s, rest) => (.string s, rest)
    | '[' :: rest =>
      match skipSpace rest with
      | ']' :: rest => some (.array [], rest)
      | rest => (items? fuel [] rest).map fun (items, rest) => (.array items, rest)
    | '\x7b' :: rest =>
      match skipSpace rest with
      | '\x7d' :: rest => some (.object [], rest)
      | rest => (members? fuel [] rest).map fun (members, rest) => (.object members, rest)
    | 'n' :: rest => (after? ['u', 'l', 'l'] rest).map fun rest => (.null, rest)
    | 't' :: rest => (after? ['r', 'u', 'e'] rest).map fun rest => (.bool true, rest)
    | 'f' :: rest => (after? ['a', 'l', 's', 'e'] rest).map fun rest => (.bool false, rest)
    | rest => (numeral? rest).map fun (n, rest) => (.number n, rest)

/-- The items of an array up to its closing bracket, after those already found, latest first. -/
def items? (fuel : Nat) (found : List Json) (cs : List Char) : Option (List Json × List Char) :=
  match fuel with
  | 0 => none
  | fuel + 1 => do
    let (item, rest) ← value? fuel cs
    match skipSpace rest with
    | ',' :: rest => items? fuel (item :: found) rest
    | ']' :: rest => return ((item :: found).reverse, rest)
    | _ => none

/-- The members of an object up to its closing brace, after those already found, latest first. -/
def members? (fuel : Nat) (found : List (Option String × Json)) (cs : List Char) :
    Option (List (Option String × Json) × List Char) :=
  match fuel with
  | 0 => none
  | fuel + 1 =>
    match skipSpace cs with
    | '"' :: rest => do
      let (key, rest) ← string? rest
      match skipSpace rest with
      | ':' :: rest => do
        let (v, rest) ← value? fuel rest
        match skipSpace rest with
        | ',' :: rest => members? fuel ((key, v) :: found) rest
        | '\x7d' :: rest => return (((key, v) :: found).reverse, rest)
        | _ => none
      | _ => none
    | _ => none

end

/-- The value of a whole text. -/
def read? (text : String) : Option Json := do
  let cs := text.toList
  -- every step but the first reads a character
  let (v, rest) ← value? (2 * cs.length + 2) cs
  if (skipSpace rest).isEmpty then some v else none

end BandMath.Json
