/-
# What is quoted is read back

The reader of strings stops at the quote that ends a string and at no other (`string?_quoted`):
every character is written so that the reader finds one piece, the character itself or the code of
a control, and the quote is among the characters that are escaped.  So where a text begins with a
quoted string, it says which string and where it ends (`quoted_cancel`).

The proof is in two halves, as the reader is.  First, for each character the reader finds one piece
(`pieces?_quotedChar`), by the three ways in which a character can be written: by a letter after a
backslash, by four digits, or as itself.  So the pieces of a quoted text are found up to the quote
after it, whatever comes then (`pieces?_flatMap`).  Second, these pieces make up the text again
(`textOf?_map_pieceOf`).  Surrogate pairs do not occur: codes are written for controls only.

What is used elsewhere is `quoted_cancel`, a statement about writing alone.  It says that the reader
could tell, without a reader in it, and is how the strings in a serialized graph are told apart
(`BandMath.Proofs.Remote.Serialization`).
-/
import BandMath.Json.Reading

namespace BandMath.Json

/-! ## 1. Characters -/

/-- What the reader finds where a character is written. -/
def pieceOf (c : Char) : Piece :=
  if (escapes.lookup c).isNone && c.toNat < 0x20 then .unit c.toNat else .char c

/-- The letters of escapes are told apart, and none of them begins a code. -/
theorem escaped?_of_mem_escapes : ∀ e ∈ escapes, e.2 ≠ 'u' ∧ escaped? e.2 = some e.1 := by
  decide

theorem hexValue?_hexDigit : ∀ n < 16, hexValue? (hexDigit n) = some n := by
  decide

theorem pieces?_escape {letter c : Char} (hu : letter ≠ 'u') (h : escaped? letter = some c)
    (found : List Piece) (rest : List Char) :
    pieces? found ('\\' :: letter :: rest) = pieces? (.char c :: found) rest := by
  rw [pieces?]
  · rw [h]
    rfl
  · exact fun _ _ _ _ _ hletter => absurd hletter hu

theorem pieces?_code {n : Nat} (hn : n < 0x20) (found : List Piece) (rest : List Char) :
    pieces? found ('\\' :: 'u' :: '0' :: '0' :: hexDigit (n / 16) :: hexDigit (n % 16) :: rest) =
      pieces? (.unit n :: found) rest := by
  have hhigh := hexValue?_hexDigit (n / 16) (by omega)
  have hlow := hexValue?_hexDigit (n % 16) (by omega)
  have hzero : hexValue? '0' = some 0 := by decide
  have hvalue : ((0 * 16 + 0) * 16 + n / 16) * 16 + n % 16 = n := by omega
  rw [pieces?]
  simp only [hzero, hhigh, hlow, hvalue, Option.bind_eq_bind, Option.bind_some]

theorem pieces?_plain {c : Char} (hquote : c ≠ '"') (hbackslash : c ≠ '\\')
    (hc : ¬ c.toNat < 0x20) (found : List Piece) (rest : List Char) :
    pieces? found (c :: rest) = pieces? (.char c :: found) rest := by
  rw [pieces?]
  · exact if_neg hc
  · exact hquote
  · exact fun _ _ _ _ _ hfirst => absurd hfirst hbackslash
  · exact fun _ _ hfirst => absurd hfirst hbackslash

/-- The reader finds one piece where a character is written. -/
theorem pieces?_quotedChar (c : Char) (found : List Piece) (rest : List Char) :
    pieces? found (quotedChar c ++ rest) = pieces? (pieceOf c :: found) rest := by
  unfold quotedChar pieceOf
  cases hlookup : escapes.lookup c with
  | some letter =>
    obtain ⟨before, after, hescapes, -⟩ := List.lookup_eq_some_iff.mp hlookup
    have hmem : (c, letter) ∈ escapes := by
      rw [hescapes]
      exact List.mem_append_right _ (List.mem_cons_self ..)
    obtain ⟨hu, hread⟩ := escaped?_of_mem_escapes _ hmem
    exact pieces?_escape hu hread found rest
  | none =>
    have hnot : ∀ e ∈ escapes, c ≠ e.1 := fun e he =>
      bne_iff_ne.mp (List.lookup_eq_none_iff.mp hlookup e he)
    by_cases hc : c.toNat < 0x20
    · simp only [hc, if_true, Option.isNone_none, Bool.true_and, decide_true]
      exact pieces?_code hc found rest
    · simp only [hc, if_false, Option.isNone_none, Bool.true_and, decide_false]
      exact pieces?_plain (hnot _ (by decide : ('"', '"') ∈ escapes))
        (hnot _ (by decide : ('\\', '\\') ∈ escapes)) hc found rest

/-! ## 2. Strings -/

/-- A code below those of surrogate pairs stands for a character by itself. -/
theorem textOf?_unit {n : Nat} (hn : n < 0xD800) (rest : List Piece) :
    textOf? (.unit n :: rest) = (textOf? rest).map (Char.ofNat n :: ·) := by
  rw [textOf?.eq_def]
  simp [hn]

/-- The pieces of a text make up the text. -/
theorem textOf?_map_pieceOf : ∀ cs : List Char, textOf? (cs.map pieceOf) = some cs
  | [] => rfl
  | c :: cs => by
    have ih := textOf?_map_pieceOf cs
    rw [List.map_cons, pieceOf]
    split
    · rename_i h
      have hc : c.toNat < 0x20 := by simpa using (Bool.and_eq_true_iff.mp h).2
      rw [textOf?_unit (by omega), ih, Option.map_some, Char.ofNat_toNat]
    · rw [textOf?, ih, Option.map_some]

/-- The pieces of a text are found up to the quote after it. -/
theorem pieces?_flatMap (rest : List Char) : ∀ (cs : List Char) (found : List Piece),
    pieces? found (cs.flatMap quotedChar ++ '"' :: rest) =
      some (found.reverse ++ cs.map pieceOf, rest)
  | [], found => by simp [pieces?]
  | c :: cs, found => by
    rw [List.flatMap_cons, List.append_assoc, pieces?_quotedChar, pieces?_flatMap rest cs]
    simp

/-- **A string is read back from where it is quoted**, and with it the rest of the text. -/
theorem string?_quoted (s : String) (rest : List Char) :
    string? (s.toList.flatMap quotedChar ++ '"' :: rest) = some (some s, rest) := by
  unfold string?
  simp [pieces?_flatMap, textOf?_map_pieceOf]

/-- **Where a text begins with a quoted string, it says which one.** -/
theorem quoted_cancel {s t : String} {r r' : List Char} (h : quoted s ++ r = quoted t ++ r') :
    s = t ∧ r = r' := by
  have hbody : s.toList.flatMap quotedChar ++ '"' :: r =
      t.toList.flatMap quotedChar ++ '"' :: r' := by
    simpa [quoted] using h
  have hread := congrArg string? hbody
  rw [string?_quoted, string?_quoted] at hread
  simpa using hread

end BandMath.Json
