/-
# Quoted texts and lists

Messages show names between double quotes and lists between square brackets.  A quote, a backslash
and the common controls have escapes of two characters; any other character that would not be seen
is written by its code point in hexadecimal.  Apostrophes stand for themselves.

Which characters would not be seen is decided by `isPrintable` (`BandMath.Text.Printable`).  All
others are shown as they are, those beyond ASCII included, so a name in a message looks like the
name that was given.  This is the way in which messages quote, and not that of JSON
(`Json.quoted`), where fewer characters are escaped and the code has another form.

* `quoted` shows one name, `quotedList` a list of names and `sizeList` a list of sizes.
* `bracketed` takes items that are texts already, such as the numbers of an array.
* `padRight` is for columns.  It counts characters, and a text that is too long stays as it is.
-/
import BandMath.Text.Printable

namespace BandMath.Text

/-! ## 1. Quoted texts -/

/-- A number in lower-case hexadecimal, without leading zeros. -/
def hexText (n : Nat) : String :=
  String.ofList (Nat.toDigits 16 n)

/-- How a character is written between double quotes. -/
def quotedChar (c : Char) : String :=
  if c = '"' then "\\\""
  else if c = '\\' then "\\\\"
  else if c = '\n' then "\\n"
  else if c = '\t' then "\\t"
  else if c = '\r' then "\\r"
  else if c.toNat = 0 then "\\0"
  else if isPrintable c then c.toString
  else "\\u\x7b" ++ hexText c.toNat ++ "\x7d"

/-- A text between double quotes. -/
def quoted (s : String) : String :=
  "\"" ++ String.join (s.toList.map quotedChar) ++ "\""

/-! ## 2. Lists -/

/-- Items between square brackets, divided by a comma and a space. -/
def bracketed (items : List String) : String :=
  "[" ++ ", ".intercalate items ++ "]"

/-- A list of names, each quoted. -/
def quotedList (names : List String) : String :=
  bracketed (names.map quoted)

/-- A list of sizes. -/
def sizeList (sizes : List Nat) : String :=
  bracketed (sizes.map Nat.repr)

/-! ## 3. Columns -/

/-- Pads a text with spaces on the right up to `width` characters. -/
def padRight (width : Nat) (s : String) : String :=
  s ++ String.ofList (List.replicate (width - s.length) ' ')

end BandMath.Text
