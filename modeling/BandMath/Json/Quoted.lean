/-
# Strings of a JSON text

A string stands between double quotes.  Only the quote, the backslash and the controls below U+0020
are escaped, five of the controls by a letter and the others by four hexadecimal digits.  All other
characters, those beyond ASCII included, stand for themselves.

This is the way in which strings are written; the reader accepts more (`BandMath.Json.Reading`): any
character may be written by its code, and a slash may be escaped.  Both share the table of letters,
`escapes`, so that what is written here is read as the same text again.

As a quote inside a string is always escaped, a string ends at the first quote that is not.  This is
why a text that begins with a string says where the string ends, and why no two strings are written
alike (`BandMath.Proofs.Json.Quoted`).
-/

namespace BandMath.Json

/-- A number below 16 as a lower-case hexadecimal digit. -/
def hexDigit (n : Nat) : Char :=
  Nat.digitChar n

/-- The characters that are escaped by one letter after a backslash, each with its letter. -/
def escapes : List (Char × Char) :=
  [('"', '"'), ('\\', '\\'), ('\x08', 'b'), ('\x0c', 'f'), ('\n', 'n'), ('\r', 'r'), ('\t', 't')]

/-- How a character is written inside a string. -/
def quotedChar (c : Char) : List Char :=
  match escapes.lookup c with
  | some letter => ['\\', letter]
  | none =>
    if c.toNat < 0x20 then
      ['\\', 'u', '0', '0', hexDigit (c.toNat / 16), hexDigit (c.toNat % 16)]
    else [c]

/-- A text as a JSON string. -/
def quoted (s : String) : List Char :=
  '"' :: s.toList.flatMap quotedChar ++ ['"']

end BandMath.Json
