/-
# Lexemes of a text

`lexemes` (`tokenize`) cuts a text into tokens, each as long as its class allows, and skips the
blanks between them.  Every lexeme keeps its characters and its place, so that nothing but blanks is
lost on the way.

* `**` is one token, not two; `1e-3` is one numeral, but in `1e` and `1ex` the numeral ends before
  the `e`, since no digit follows.
* Letters and digits are those of ASCII.  Blanks are those of Unicode (`Text.isBlank`).
* A run of digits and points is taken as a whole before it is asked whether it is a numeral, so
  `1.2.3` is a fault at its first character and not two numerals.
* A letter may follow a numeral directly: `2N` are two tokens.

`firstToken` decides on the token at the front of a text, and `scan` goes through the text with it.
`scan` descends on the text one character at a time, and counts those that belong to the token found
last; skipping the token in one stride would do the same, but the count keeps the recursion
structural, and the places come out as a by-product.

The first place where no token can be read ends the scan with a fault, and whatever was found before
it is given up (`BandMath.Proofs.Formula.Scanning`).
-/
import BandMath.Decimal.Numeral
import BandMath.Error
import BandMath.Text.Blank

namespace BandMath.Formula

/-! ## 1. Classes of characters -/

/-- Characters that may start a name. -/
def startsName (c : Char) : Bool :=
  ('a' ≤ c && c ≤ 'z') || ('A' ≤ c && c ≤ 'Z') || c = '_'

/-- Characters that may continue a name. -/
def continuesName (c : Char) : Bool :=
  startsName c || Decimal.isDigit c

/-- Characters of a numeral before its exponent. -/
def inNumeral (c : Char) : Bool :=
  Decimal.isDigit c || c = '.'

/-! ## 2. The longest numeral -/

/-- Digits after an exponent mark and its sign; empty when there are none. -/
def exponentDigits (before cs : List Char) : List Char :=
  let digits := cs.takeWhile Decimal.isDigit
  if digits.isEmpty then [] else before ++ digits

/-- The exponent at the front of a text, if it is complete. -/
def exponentSource : List Char → List Char
  | mark :: cs =>
    if Decimal.isExponentMark mark then
      match cs with
      | '+' :: rest => exponentDigits [mark, '+'] rest
      | '-' :: rest => exponentDigits [mark, '-'] rest
      | _ => exponentDigits [mark] cs
    else []
  | [] => []

/-- The characters at the front of a text that are read as one numeral. -/
def numeralSource (cs : List Char) : List Char :=
  cs.takeWhile inNumeral ++ exponentSource (cs.dropWhile inNumeral)

/-! ## 3. One token -/

/-- The token at the front of a text whose first character is not blank, and the characters that
belong to it. -/
def firstToken : List Char → Except Reason (Token × List Char)
  | [] => .error .unexpectedEnd
  | '*' :: '*' :: _ => .ok (.power, ['*', '*'])
  | '^' :: _ => .ok (.power, ['^'])
  | '+' :: _ => .ok (.plus, ['+'])
  | '-' :: _ => .ok (.minus, ['-'])
  | '*' :: _ => .ok (.times, ['*'])
  | '/' :: _ => .ok (.divide, ['/'])
  | '(' :: _ => .ok (.openParen, ['('])
  | ')' :: _ => .ok (.closeParen, [')'])
  | c :: cs =>
    if inNumeral c then
      let source := numeralSource (c :: cs)
      match Decimal.unsigned? source with
      | some v => .ok (.number v, source)
      | none => .error (.invalidNumber (String.ofList source))
    else if startsName c then
      let source := c :: cs.takeWhile continuesName
      .ok (.name (String.ofList source), source)
    else .error (.unexpectedCharacter c)

/-! ## 4. All tokens -/

/-- The lexemes of a text that starts at place `start`, after those already found, latest first.
The first `inside` characters belong to the lexeme found last and are passed over. -/
def scan (found : List Lexeme) (start inside : Nat) : List Char → Except Fault (List Lexeme)
  | [] => .ok found.reverse
  | c :: rest =>
    match inside with
    | more + 1 => scan found (start + 1) more rest
    | 0 =>
      if Text.isBlank c then scan found (start + 1) 0 rest
      else
        match firstToken (c :: rest) with
        | .error reason => .error ⟨start, reason⟩
        | .ok (token, source) =>
          scan (⟨token, start, source⟩ :: found) (start + 1) (source.length - 1) rest

/-- The lexemes of a text, in order. -/
def lexemes (text : List Char) : Except Fault (List Lexeme) :=
  scan [] 0 0 text

end BandMath.Formula
