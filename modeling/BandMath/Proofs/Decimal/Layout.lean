/-
# The texts of floats

A text is the sign of a float and a numeral of its shortest decimal.  The numeral tells the decimal
(`value_eq_of_magnitude`), the decimal tells significand and exponent (`eq_of_value_shortest`), and
these and the sign are all there is to a finite float.  So two finite floats, positive and negative
zero among them, never have the same text (`Layout.eq_of_text`).

Each of these steps is a module of its own, and nothing in them is about one layout rather than
another: `BandMath.Proofs.Decimal.Numeral` reads a numeral back, `BandMath.Proofs.Decimal.Shortest`
goes from the decimal to the float, and `BandMath.Proofs.Decimal.Binary` from its parts to its bits.
What is left for this module is the sign.  A numeral begins with a digit, so a minus sign in front
of it cannot be mistaken (`Writes.signed_inj`).

For graphs it is needed besides that the text of a number cannot be confused with what stands around
it.  All its characters are digits, points, signs and the mark of an exponent
(`isDigit_or_mem_of_mem_documentText`), none of which divides or closes anything in a document.
Floats that are not finite are all written as null and are left out.
-/
import BandMath.Proofs.Decimal.Binary
import BandMath.Proofs.Decimal.Numeral

namespace BandMath.Decimal

variable {x y : Float}

/-! ## 1. Signs -/

theorem toList_signed (negative : Bool) (cs : List Char) :
    (signed negative cs).toList = if negative then '-' :: cs else cs :=
  String.toList_ofList

/-- A numeral does not begin with a sign, so the sign before it is seen. -/
theorem Writes.signed_inj {cs ds : List Char} {s t : Scaled} (hs : Writes cs s) (ht : Writes ds t)
    {negative negative' : Bool} (h : signed negative cs = signed negative' ds) :
    negative = negative' ∧ cs = ds := by
  have hminus : ∀ {cs : List Char} {s : Scaled}, Writes cs s → ∀ rest, cs ≠ '-' :: rest := by
    rintro _ _ hw rest rfl
    obtain ⟨c, tail, hcons, hc⟩ := hw.exists_digit
    obtain ⟨rfl, -⟩ := List.cons.inj hcons
    exact absurd hc (by decide)
  have hlists := congrArg String.toList h
  rw [toList_signed, toList_signed] at hlists
  cases negative with
  | true =>
    cases negative' with
    | true => exact ⟨rfl, (List.cons.inj hlists).2⟩
    | false => exact absurd hlists.symm (hminus ht cs)
  | false =>
    cases negative' with
    | true => exact absurd hlists (hminus hs ds)
    | false => exact ⟨rfl, hlists⟩

/-! ## 2. Texts -/

/-- **Finite floats with the same text are the same**, in every layout. -/
theorem Layout.eq_of_text (l : Layout) (hx : x.isFinite = true) (hy : y.isFinite = true)
    (h : l.text x = l.text y) : x = y := by
  obtain ⟨n, m, q, hfx⟩ := Binary.exists_ofFloat_of_isFinite hx
  obtain ⟨n', m', q', hfy⟩ := Binary.exists_ofFloat_of_isFinite hy
  rw [text, text, hfx, hfy] at h
  obtain ⟨s, hs, -⟩ := exists_writes_magnitude l (shortest l.tie m q)
  obtain ⟨t, ht, -⟩ := exists_writes_magnitude l (shortest l.tie m' q')
  obtain ⟨rfl, hmagnitude⟩ := hs.signed_inj ht h
  obtain ⟨rfl, rfl⟩ := eq_of_value_shortest (Binary.canonical_of_ofFloat hfx)
    (Binary.canonical_of_ofFloat hfy) (value_eq_of_magnitude hmagnitude)
  exact Binary.eq_of_ofFloat hfx hfy

theorem Layout.isDigit_or_mem_of_mem_text (l : Layout) (hx : x.isFinite = true) {c : Char}
    (hc : c ∈ (l.text x).toList) : isDigit c = true ∨ c ∈ ['.', 'e', '+', '-'] := by
  obtain ⟨n, m, q, hfx⟩ := Binary.exists_ofFloat_of_isFinite hx
  obtain ⟨s, hs, -⟩ := exists_writes_magnitude l (shortest l.tie m q)
  rw [text, hfx, toList_signed] at hc
  cases n with
  | true =>
    rcases List.mem_cons.mp hc with rfl | hc
    · exact Or.inr (by decide)
    · exact hs.isDigit_or_mem hc
  | false => exact hs.isDigit_or_mem hc

/-! ## 3. Texts in serialized graphs -/

theorem documentText_of_isFinite (hx : x.isFinite = true) :
    documentText x = Layout.document.text x :=
  if_pos hx

theorem eq_of_documentText (hx : x.isFinite = true) (hy : y.isFinite = true)
    (h : documentText x = documentText y) : x = y := by
  rw [documentText_of_isFinite hx, documentText_of_isFinite hy] at h
  exact Layout.document.eq_of_text hx hy h

theorem isDigit_or_mem_of_mem_documentText (hx : x.isFinite = true) {c : Char}
    (hc : c ∈ (documentText x).toList) : isDigit c = true ∨ c ∈ ['.', 'e', '+', '-'] := by
  rw [documentText_of_isFinite hx] at hc
  exact Layout.document.isDigit_or_mem_of_mem_text hx hc

end BandMath.Decimal
