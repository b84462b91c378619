/-
# What the text of a number says

Whatever the layout, the text of a decimal is a numeral (`exists_writes_magnitude`): digits with a
point among them, perhaps followed by an exponent.  The reader of numerals rounds a decimal that it
finds in the text (`unsigned?_eq`), and this is the one that was written (`Writes.decimal?_eq`), in
value if not in digits, since a layout may write zeros that the decimal has in its exponent.  So the
text tells decimals of different value apart.

`Writes cs s` says that `cs` is a numeral that writes the decimal `s`, without a reader: its digits,
leaving out the point, are those of `s`, and the exponent at its end, less the number of digits
behind the point, is that of `s`.  Between this and a text there are two bridges:

* The reader of numerals finds that decimal (`Writes.decimal?_eq`), and what it gives is the float
  nearest to it (`unsigned?_eq`).
* Each of the ways to set a decimal is a numeral that writes it: in place, with zeros after its
  digits or a point among them, and with an exponent (`exists_writes_positional`,
  `writes_scientific`).

The two together say that no layout writes different decimals alike (`value_eq_of_magnitude`).  It
is decimals by value that are told apart: `12` under the exponent 1 and `120` under 0 are written
alike, and are the same number.
-/
import BandMath.Decimal.Layout
import BandMath.Decimal.Numeral
import BandMath.Proofs.Decimal.Shortest
import BandMath.Proofs.Text.Word

namespace BandMath.Decimal

/-! ## 1. Digits -/

theorem isDigit_of_mem_digitText {n : Nat} {c : Char} (h : c ∈ digitText n) : isDigit c = true :=
  Nat.isDigit_of_mem_toDigits (by decide) (by decide) h

theorem digitText_ne_nil (n : Nat) : digitText n ≠ [] :=
  Nat.toDigits_ne_nil

theorem digitsValue_eq (cs : List Char) : digitsValue cs = Nat.ofDigitChars 10 cs 0 := rfl

@[simp] theorem digitsValue_digitText (n : Nat) : digitsValue (digitText n) = n :=
  Nat.ofDigitChars_ten_toDigits

/-- Zeros at the end are factors of ten. -/
theorem digitsValue_append_zeros (cs : List Char) (n : Nat) :
    digitsValue (cs ++ List.replicate n '0') = digitsValue cs * 10 ^ n := by
  rw [digitsValue_eq, Nat.ofDigitChars_append, Nat.ofDigitChars_replicate_zero, digitsValue_eq,
    Nat.mul_comm]

/-- Zeros at the beginning do not count. -/
theorem digitsValue_zeros_append (cs : List Char) (n : Nat) :
    digitsValue (List.replicate n '0' ++ cs) = digitsValue cs := by
  rw [digitsValue_eq, Nat.ofDigitChars_append, Nat.ofDigitChars_replicate_zero, Nat.mul_zero,
    digitsValue_eq]

/-! ## 2. Numerals -/

/-- Digits, and a point with further digits if there are any. -/
def pointed (whole fraction : List Char) : List Char :=
  whole ++ if fraction.isEmpty then [] else '.' :: fraction

/-- A text is a numeral that writes a decimal: all its digits, and the exponent said at the end less
the places behind the point. -/
inductive Writes : List Char → Scaled → Prop
  | inPlace {whole fraction : List Char} (hwhole : whole ≠ [])
      (hdigits : ∀ c ∈ whole ++ fraction, isDigit c = true) :
      Writes (pointed whole fraction) ⟨digitsValue (whole ++ fraction), -fraction.length⟩
  | scientific {whole fraction sign digits : List Char} {e : Int} (hwhole : whole ≠ [])
      (hdigits : ∀ c ∈ whole ++ fraction, isDigit c = true)
      (hsign : sign ∈ [[], ['+'], ['-']]) (hexponent : ∀ c ∈ digits, isDigit c = true)
      (he : exponent? (sign ++ digits) = some e) :
      Writes (pointed whole fraction ++ 'e' :: (sign ++ digits))
        ⟨digitsValue (whole ++ fraction), e - fraction.length⟩

/-- The decimal that an unsigned numeral writes. -/
def decimal? (cs : List Char) : Option Scaled := do
  let body := cs.takeWhile fun c => !isExponentMark c
  let (m, places) ← mantissa? body
  let e ← match cs.drop body.length with
    | [] => some 0
    | _ :: rest => exponent? rest
  return ⟨m, e - places⟩

/-- The value of an unsigned numeral is the float nearest to that decimal. -/
theorem unsigned?_eq (cs : List Char) :
    unsigned? cs = (decimal? cs).map fun s => scaledFloat s.digits s.exponent := by
  unfold unsigned? decimal?
  dsimp only
  cases mantissa? (cs.takeWhile fun c => !isExponentMark c) with
  | none => rfl
  | some r =>
    dsimp only [Option.bind_eq_bind, Option.bind_some]
    cases cs.drop (cs.takeWhile fun c => !isExponentMark c).length with
    | nil => rfl
    | cons mark rest =>
      dsimp only
      cases exponent? rest with
      | none => rfl
      | some e => rfl

theorem mantissa?_pointed {whole fraction : List Char} (hwhole : whole ≠ [])
    (hdigits : ∀ c ∈ whole ++ fraction, isDigit c = true) :
    mantissa? (pointed whole fraction) =
      some (digitsValue (whole ++ fraction), fraction.length) := by
  rw [List.forall_mem_append] at hdigits
  have hpoint : Ends isDigit (if fraction.isEmpty then [] else '.' :: fraction) := by
    cases fraction <;> simp [Ends, isDigit]
  have hnonempty : whole.isEmpty = false := by simpa using hwhole
  unfold mantissa? pointed
  dsimp only
  rw [takeWhile_word hdigits.1 hpoint, dropWhile_word hdigits.1 hpoint]
  cases fraction with
  | nil => simp [hnonempty]
  | cons c cs =>
    have hall : (c :: cs).all isDigit = true := List.all_eq_true.mpr hdigits.2
    simp [hnonempty, hall]

theorem mem_pointed {whole fraction : List Char} {c : Char} (hc : c ∈ pointed whole fraction) :
    c ∈ whole ++ fraction ∨ c = '.' := by
  unfold pointed at hc
  cases fraction with
  | nil => exact Or.inl hc
  | cons d ds =>
    rcases List.mem_append.mp hc with hc | hc
    · exact Or.inl (List.mem_append_left _ hc)
    · rcases List.mem_cons.mp hc with rfl | hc
      · exact Or.inr rfl
      · exact Or.inl (List.mem_append_right _ hc)

theorem isExponentMark_of_isDigit {c : Char} (h : isDigit c = true) :
    isExponentMark c = false := by
  by_contra hmark
  rw [Bool.not_eq_false, isExponentMark, Bool.or_eq_true, decide_eq_true_iff,
    decide_eq_true_iff] at hmark
  rcases hmark with rfl | rfl
  · exact absurd h (by decide)
  · exact absurd h (by decide)

theorem isExponentMark_of_mem_pointed {whole fraction : List Char} {c : Char}
    (hdigits : ∀ c ∈ whole ++ fraction, isDigit c = true) (hc : c ∈ pointed whole fraction) :
    (!isExponentMark c) = true := by
  rcases mem_pointed hc with hc | rfl
  · rw [isExponentMark_of_isDigit (hdigits c hc), Bool.not_false]
  · rfl

/-- **A numeral is read as the decimal that it writes.** -/
theorem Writes.decimal?_eq {cs : List Char} {s : Scaled} (h : Writes cs s) :
    decimal? cs = some s := by
  cases h with
  | @inPlace whole fraction hwhole hdigits =>
    have hbody : (pointed whole fraction).takeWhile (fun c => !isExponentMark c) =
        pointed whole fraction := by
      rw [← List.append_nil (pointed whole fraction),
        List.takeWhile_append_of_pos fun c hc => isExponentMark_of_mem_pointed hdigits hc,
        List.takeWhile_nil]
    unfold decimal?
    dsimp only
    rw [hbody, mantissa?_pointed hwhole hdigits, List.drop_length]
    simp
  | @scientific whole fraction sign digits e hwhole hdigits hsign hexponent he =>
    have hbody : (pointed whole fraction ++ 'e' :: (sign ++ digits)).takeWhile
        (fun c => !isExponentMark c) = pointed whole fraction := by
      rw [List.takeWhile_append_of_pos fun c hc => isExponentMark_of_mem_pointed hdigits hc]
      simp [isExponentMark]
    unfold decimal?
    dsimp only
    rw [hbody, mantissa?_pointed hwhole hdigits, List.drop_left]
    simp [he]

/-- What is neither a digit nor a point of a numeral belongs to its exponent. -/
theorem Writes.isDigit_or_mem {cs : List Char} {s : Scaled} (h : Writes cs s) {c : Char}
    (hc : c ∈ cs) : isDigit c = true ∨ c ∈ ['.', 'e', '+', '-'] := by
  have hpointed : ∀ {whole fraction : List Char}, (∀ c ∈ whole ++ fraction, isDigit c = true) →
      c ∈ pointed whole fraction → isDigit c = true ∨ c ∈ ['.', 'e', '+', '-'] := by
    intro whole fraction hdigits hc
    rcases mem_pointed hc with hc | rfl
    · exact Or.inl (hdigits c hc)
    · exact Or.inr (by decide)
  cases h with
  | inPlace hwhole hdigits => exact hpointed hdigits hc
  | scientific hwhole hdigits hsign hexponent he =>
    rcases List.mem_append.mp hc with hc | hc
    · exact hpointed hdigits hc
    · rcases List.mem_cons.mp hc with rfl | hc
      · exact Or.inr (by decide)
      · rcases List.mem_append.mp hc with hc | hc
        · refine Or.inr ?_
          simp only [List.mem_cons, List.not_mem_nil, or_false] at hsign
          rcases hsign with rfl | rfl | rfl
          · exact absurd hc List.not_mem_nil
          · obtain rfl := List.mem_singleton.mp hc
            decide
          · obtain rfl := List.mem_singleton.mp hc
            decide
        · exact Or.inl (hexponent c hc)

/-- A numeral begins with a digit. -/
theorem Writes.exists_digit {cs : List Char} {s : Scaled} (h : Writes cs s) :
    ∃ c rest, cs = c :: rest ∧ isDigit c = true := by
  have hpointed : ∀ {whole fraction rest : List Char}, whole ≠ [] →
      (∀ c ∈ whole ++ fraction, isDigit c = true) →
      ∃ c tail, pointed whole fraction ++ rest = c :: tail ∧ isDigit c = true := by
    intro whole fraction rest hwhole hdigits
    obtain ⟨c, tail, rfl⟩ := List.exists_cons_of_ne_nil hwhole
    exact ⟨c, _, rfl, hdigits c (List.mem_cons_self ..)⟩
  cases h with
  | inPlace hwhole hdigits => simpa using @hpointed _ _ [] hwhole hdigits
  | scientific hwhole hdigits hsign hexponent he => exact hpointed hwhole hdigits

/-! ## 3. Layouts -/

/-- Digits, perhaps behind a sign, are read as an integer. -/
theorem exponent?_digits {digits : List Char} (hne : digits ≠ [])
    (hdigits : ∀ c ∈ digits, isDigit c = true) :
    exponent? digits = some (digitsValue digits : Int) ∧
      exponent? ('+' :: digits) = some (digitsValue digits : Int) ∧
      exponent? ('-' :: digits) = some (-(digitsValue digits : Int)) := by
  have hall : digits.all isDigit = true := List.all_eq_true.mpr hdigits
  have hsplit : splitSign digits = (false, digits) := by
    obtain ⟨c, rest, rfl⟩ := List.exists_cons_of_ne_nil hne
    have hc : isDigit c = true := hdigits c List.mem_cons_self
    unfold splitSign
    split
    · rename_i heq
      obtain ⟨rfl, -⟩ := List.cons.inj heq
      exact absurd hc (by decide)
    · rename_i heq
      obtain ⟨rfl, -⟩ := List.cons.inj heq
      exact absurd hc (by decide)
    · rfl
  refine ⟨?_, ?_, ?_⟩
  · simp [exponent?, hsplit, hne, hall]
  · simp [exponent?, splitSign, hne, hall]
  · simp [exponent?, splitSign, hne, hall]

/-- An exponent is read back, whether its sign is written or not. -/
theorem exponent?_digitText (n : Nat) :
    exponent? (digitText n) = some (n : Int) ∧ exponent? ('+' :: digitText n) = some (n : Int) ∧
      exponent? ('-' :: digitText n) = some (-(n : Int)) := by
  have hread := exponent?_digits (digitText_ne_nil n) fun c hc => isDigit_of_mem_digitText hc
  rwa [digitsValue_digitText] at hread

/-- A point stands among the digits, or among zeros before them if they are too few. -/
theorem withPoint_digitText {places : Nat} (h : 0 < places) (n : Nat) :
    ∃ whole fraction, withPoint (digitText n) places = pointed whole fraction ∧ whole ≠ [] ∧
      fraction.length = places ∧
      whole ++ fraction =
        List.replicate (places + 1 - (digitText n).length) '0' ++ digitText n := by
  generalize hpadded :
    List.replicate (places + 1 - (digitText n).length) '0' ++ digitText n = padded
  have hlength : places < padded.length := by
    rw [← hpadded, List.length_append, List.length_replicate]
    omega
  have hfraction : (padded.drop (padded.length - places)).length = places := by
    rw [List.length_drop]
    omega
  refine ⟨padded.take (padded.length - places), padded.drop (padded.length - places), ?_, ?_,
    hfraction, List.take_append_drop ..⟩
  · have hne : (padded.drop (padded.length - places)).isEmpty = false := by
      rw [List.isEmpty_eq_false_iff, ← List.length_pos_iff, hfraction]
      exact h
    unfold withPoint pointed
    dsimp only
    rw [hpadded, if_neg h.ne', hne]
    rfl
  · rw [← List.length_pos_iff, List.length_take]
    omega

theorem isDigit_of_mem_zeros_append {k : Nat} {c : Char} {n : Nat}
    (hc : c ∈ List.replicate k '0' ++ digitText n) : isDigit c = true := by
  rcases List.mem_append.mp hc with hc | hc
  · rw [List.eq_of_mem_replicate hc]
    rfl
  · exact isDigit_of_mem_digitText hc

/-- A whole number, with as many zeros after the point as one likes. -/
theorem exists_writes_whole {s : Scaled} (h : 0 ≤ s.exponent) (k : Nat) :
    ∃ t, Writes (pointed (digitText s.digits ++ List.replicate s.exponent.toNat '0')
      (List.replicate k '0')) t ∧ t.value = s.value := by
  refine ⟨_, .inPlace ?_ ?_, ?_⟩
  · exact List.append_ne_nil_of_left_ne_nil (digitText_ne_nil _) _
  · intro c hc
    rw [List.append_assoc, List.replicate_append_replicate] at hc
    rcases List.mem_append.mp hc with hc | hc
    · exact isDigit_of_mem_digitText hc
    · rw [List.eq_of_mem_replicate hc]
      rfl
  · have hexponent : s.exponent = (s.exponent.toNat : Int) := by omega
    rw [digitsValue_append_zeros, digitsValue_append_zeros, digitsValue_digitText]
    unfold Scaled.value
    dsimp only
    rw [hexponent, List.length_replicate, zpow_neg, zpow_natCast, zpow_natCast, Int.toNat_natCast]
    push_cast
    field_simp

/-- A number with digits after the point. -/
theorem exists_writes_withPoint {s : Scaled} (h : s.exponent < 0) :
    ∃ t, Writes (withPoint (digitText s.digits) (-s.exponent).toNat) t ∧ t.value = s.value := by
  obtain ⟨whole, fraction, htext, hwhole, hlength, hdigits⟩ :=
    @withPoint_digitText (-s.exponent).toNat (by omega) s.digits
  rw [htext]
  refine ⟨_, .inPlace hwhole fun c hc => isDigit_of_mem_zeros_append (hdigits ▸ hc), ?_⟩
  rw [hdigits, digitsValue_zeros_append, digitsValue_digitText, hlength]
  have hexponent : -((-s.exponent).toNat : Int) = s.exponent := by omega
  rw [hexponent]

theorem exists_writes_positional (s : Scaled) :
    ∃ t, Writes s.positional t ∧ t.value = s.value := by
  unfold Scaled.positional
  split
  · rename_i h
    obtain ⟨t, ht, hvalue⟩ := exists_writes_whole h 0
    exact ⟨t, by simpa [pointed] using ht, hvalue⟩
  · exact exists_writes_withPoint (by omega)

/-- The exponent is that of the first digit, and the digits after it are behind the point. -/
theorem writes_scientific (l : Layout) (s : Scaled) : Writes (l.scientific s) s := by
  obtain ⟨d, ds, hd⟩ := List.exists_cons_of_ne_nil (digitText_ne_nil s.digits)
  obtain ⟨hplain, hplus, hminus⟩ := exponent?_digitText s.leading.natAbs
  have hsign : ∃ sign ∈ [[], ['+'], ['-']],
      (if s.leading < 0 then ['-'] else if l.signedExponent then ['+'] else []) = sign ∧
        exponent? (sign ++ digitText s.leading.natAbs) = some s.leading := by
    by_cases hneg : s.leading < 0
    · have habs : -(s.leading.natAbs : Int) = s.leading := by omega
      exact ⟨['-'], by decide, if_pos hneg, hminus.trans (congrArg some habs)⟩
    · have habs : (s.leading.natAbs : Int) = s.leading := by omega
      cases hplus' : l.signedExponent with
      | true =>
        exact ⟨['+'], by decide, by simp [hneg], hplus.trans (congrArg some habs)⟩
      | false =>
        exact ⟨[], by decide, by simp [hneg], hplain.trans (congrArg some habs)⟩
  obtain ⟨sign, hmem, hif, hexponent⟩ := hsign
  have hdigits : ∀ c ∈ [d] ++ ds, isDigit c = true := by
    intro c hc
    rw [List.singleton_append, ← hd] at hc
    exact isDigit_of_mem_digitText hc
  have hwrites := Writes.scientific (List.cons_ne_nil d []) hdigits hmem
    (fun c hc => isDigit_of_mem_digitText hc) hexponent
  have hvalue : digitsValue ([d] ++ ds) = s.digits := by
    rw [List.singleton_append, ← hd, digitsValue_digitText]
  have hscale : s.leading - ds.length = s.exponent := by
    rw [Scaled.leading, hd, List.length_cons]
    omega
  rw [hvalue, hscale] at hwrites
  unfold Layout.scientific
  dsimp only
  rw [hif, hd, List.append_assoc]
  exact hwrites

/-- **The text of a decimal, in whatever layout, is a numeral of its value.** -/
theorem exists_writes_magnitude (l : Layout) (s : Scaled) :
    ∃ t, Writes (l.magnitude s) t ∧ t.value = s.value := by
  unfold Layout.magnitude
  split
  · split
    · rename_i hpoint
      have hexponent : 0 ≤ s.exponent := by simpa using (Bool.and_eq_true_iff.mp hpoint).2
      rw [Scaled.positional, if_pos hexponent]
      exact exists_writes_whole hexponent 1
    · exact exists_writes_positional s
  · exact ⟨s, writes_scientific l s, rfl⟩

/-- **Decimals that are written alike have the same value.** -/
theorem value_eq_of_magnitude {l : Layout} {s t : Scaled} (h : l.magnitude s = l.magnitude t) :
    s.value = t.value := by
  obtain ⟨s', hs, hvalue⟩ := exists_writes_magnitude l s
  obtain ⟨t', ht, hvalue'⟩ := exists_writes_magnitude l t
  have hread : some s' = some t' := by rw [← hs.decimal?_eq, h, ht.decimal?_eq]
  obtain rfl := Option.some.inj hread
  exact hvalue.symm.trans hvalue'

end BandMath.Decimal
