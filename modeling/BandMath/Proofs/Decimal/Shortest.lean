/-
# The shortest decimal tells floats apart

The decimal that `shortest` finds lies in the interval of numbers that round to the float
(`roundsTo_shortest`), and the intervals of two floats have no number in common (`eq_of_roundsTo`).
So no two floats have the same shortest decimal.

That a decimal is found at all is a matter of size.  A grid that is no coarser than a quarter of the
last binary place has a multiple just below the value which is still in the interval.  The last of
the grids that are tried is that fine: the first one is at most ten times as coarse as the value,
seventeen further ones divide it by `10^17`, and a significand is below `2^53`, which in quarters of
the last place is `2^55 < 10^17`.

Everything is over the rationals here, whereas the search counts in natural numbers.  The two meet
in `Interval.holds_iff` and `place_eq`: what is compared in the search are the same quotients.  Two
floats are compared by the intervals in which numbers round to them, and the ends of these intervals
need care: they belong to the interval of the even neighbour, so no two intervals share one.
-/
import BandMath.Decimal.Shortest
import Mathlib.Algebra.Order.Field.Power
import Mathlib.Data.Nat.Cast.Order.Field
import Mathlib.Data.Rat.Cast.Order
import Mathlib.Tactic.FieldSimp
import Mathlib.Tactic.Linarith
import Mathlib.Tactic.LinearCombination
import Mathlib.Tactic.Positivity
import Mathlib.Tactic.Ring

namespace BandMath.Decimal

/-! ## 1. Quotients -/

/-- The number that digits and an exponent stand for. -/
def Scaled.value (s : Scaled) : ℚ :=
  s.digits * 10 ^ s.exponent

theorem zpow_eq_div (b : ℚ) (hb : b ≠ 0) (k : ℤ) : b ^ k = b ^ k.toNat / b ^ (-k).toNat := by
  rw [← zpow_natCast, ← zpow_natCast, ← zpow_sub₀ hb]
  congr 1
  omega

theorem ratio_pos {m : Nat} (hm : 0 < m) (q : Int) : 0 < (ratio m q).1 ∧ 0 < (ratio m q).2 :=
  ⟨Nat.mul_pos hm (Nat.two_pow_pos _), Nat.two_pow_pos _⟩

/-- What a binary rational is. -/
theorem ratio_eq (m : Nat) (q : Int) : ((ratio m q).1 : ℚ) / (ratio m q).2 = m * 2 ^ q := by
  rw [zpow_eq_div 2 two_ne_zero q]
  simp [ratio, mul_div_assoc]

theorem inUnits_pos {num den : Nat} (hnum : 0 < num) (hden : 0 < den) (k : Int) :
    0 < (inUnits num den k).1 ∧ 0 < (inUnits num den k).2 :=
  ⟨Nat.mul_pos hnum (Nat.pow_pos (by decide)), Nat.mul_pos hden (Nat.pow_pos (by decide))⟩

theorem inUnits_eq (num den : Nat) (k : Int) :
    ((inUnits num den k).1 : ℚ) / (inUnits num den k).2 = num / den / 10 ^ k := by
  rw [zpow_eq_div 10 (by norm_num) k, div_div_div_eq]
  simp [inUnits]

theorem roundDiv_eq_or (tie : Tie) (num den : Nat) :
    roundDiv tie num den = num / den ∨ roundDiv tie num den = num / den + 1 := by
  unfold roundDiv
  dsimp only
  split
  · exact Or.inl rfl
  · split
    · exact Or.inr rfl
    · cases tie with
      | up => exact Or.inr rfl
      | even =>
        unfold Tie.pick
        dsimp only
        split
        · exact Or.inl rfl
        · exact Or.inr rfl

/-! ## 2. The interval of a float -/

/-- A number, in quarters of the last place, lies in the interval. -/
def Interval.Contains (i : Interval) (x : ℚ) : Prop :=
  if i.closed then i.low ≤ x ∧ x ≤ i.high else i.low < x ∧ x < i.high

theorem Interval.holds_iff {i : Interval} {num den : Nat} (hden : 0 < den) :
    i.holds num den = true ↔ i.Contains (num / den) := by
  have hden' : (0 : ℚ) < den := by exact_mod_cast hden
  unfold holds Contains
  rw [le_div_iff₀ hden', div_le_iff₀ hden', lt_div_iff₀ hden', div_lt_iff₀ hden']
  split
  · simp only [Bool.and_eq_true, decide_eq_true_eq]
    norm_cast
  · simp only [Bool.and_eq_true, decide_eq_true_eq]
    norm_cast

/-- A quarter of the last place of a float. -/
def quarter (q : Int) : ℚ :=
  2 ^ (q - 2)

theorem quarter_pos (q : Int) : 0 < quarter q :=
  zpow_pos two_pos _

/-- The number rounds to `m · 2^q`. -/
def RoundsTo (m : Nat) (q : Int) (x : ℚ) : Prop :=
  (Interval.around m q).Contains (x / quarter q)

/-! ## 3. What is found on a grid -/

variable {m : Nat} {q k : Int} {tie : Tie} {d : Nat}

/-- A quarter of the last place in units of `10^k`, as `multiple?` counts. -/
def place (q k : Int) : Nat × Nat :=
  inUnits (ratio 1 (q - 2)).1 (ratio 1 (q - 2)).2 k

theorem place_pos (q k : Int) : 0 < (place q k).1 ∧ 0 < (place q k).2 := by
  obtain ⟨hnum, hden⟩ := ratio_pos Nat.one_pos (q - 2)
  exact inUnits_pos hnum hden k

theorem place_eq (q k : Int) : ((place q k).1 : ℚ) / (place q k).2 = quarter q / 10 ^ k := by
  rw [place, inUnits_eq, ratio_eq, Nat.cast_one, one_mul, quarter]

/-- A multiple of `10^k` that is tried. -/
def fits (m : Nat) (q k : Int) (n : Nat) : Bool :=
  0 < n && (Interval.around m q).holds (n * (place q k).2) (place q k).1

theorem fits_iff : fits m q k d = true ↔ 0 < d ∧ RoundsTo m q (d * 10 ^ k) := by
  have hvalue : ((d * (place q k).2 : Nat) : ℚ) / (place q k).1 = d * 10 ^ k / quarter q := by
    have hplace := place_eq q k
    have h1 : ((place q k).1 : ℚ) ≠ 0 := by exact_mod_cast (place_pos q k).1.ne'
    have h2 : ((place q k).2 : ℚ) ≠ 0 := by exact_mod_cast (place_pos q k).2.ne'
    have hquarter := (quarter_pos q).ne'
    have hten : (10 : ℚ) ^ k ≠ 0 := zpow_ne_zero k (by norm_num)
    rw [div_eq_div_iff h2 hten] at hplace
    rw [div_eq_div_iff h1 hquarter, Nat.cast_mul]
    linear_combination -(d : ℚ) * hplace
  rw [fits, Bool.and_eq_true, decide_eq_true_iff, Interval.holds_iff (place_pos q k).1, hvalue,
    RoundsTo]

theorem multiple?_eq (tie : Tie) (m : Nat) (q k : Int) : multiple? tie m q k =
    match fits m q k (4 * m * (place q k).1 / (place q k).2),
      fits m q k (4 * m * (place q k).1 / (place q k).2 + 1) with
    | true, true => some (roundDiv tie (4 * m * (place q k).1) (place q k).2)
    | true, false => some (4 * m * (place q k).1 / (place q k).2)
    | false, true => some (4 * m * (place q k).1 / (place q k).2 + 1)
    | false, false => none := rfl

/-- Of the two multiples next to the value one is taken that lies in the interval. -/
theorem fits_of_multiple? (h : multiple? tie m q k = some d) : fits m q k d = true := by
  rw [multiple?_eq] at h
  split at h
  · rename_i hlow hhigh
    obtain rfl := Option.some.inj h
    rcases roundDiv_eq_or tie (4 * m * (place q k).1) (place q k).2 with hd | hd
    · rw [hd]
      exact hlow
    · rw [hd]
      exact hhigh
  · rename_i hlow _
    obtain rfl := Option.some.inj h
    exact hlow
  · rename_i _ hhigh
    obtain rfl := Option.some.inj h
    exact hhigh
  · exact nomatch h

/-- The multiple just below the value is less than one step below it. -/
theorem holds_multiple_below {a b : Nat} (hm : 0 < m) (hb : 0 < b) (hle : b ≤ a) :
    (Interval.around m q).holds (4 * m * a / b * b) a = true := by
  have hbelow : 4 * m * a / b * b ≤ 4 * m * a := Nat.div_mul_le_self _ _
  have habove : 4 * m * a < 4 * m * a / b * b + b := Nat.lt_div_mul_add hb
  have hlow : ((Interval.around m q).low + 1) * a ≤ 4 * m * a := by
    refine Nat.mul_le_mul_right a ?_
    simp only [Interval.around]
    split <;> omega
  have hhigh : 4 * m * a < (Interval.around m q).high * a :=
    Nat.mul_lt_mul_of_pos_right (by simp only [Interval.around]; omega) (by omega)
  rw [Nat.add_mul, Nat.one_mul] at hlow
  unfold Interval.holds
  split
  · simp only [Bool.and_eq_true, decide_eq_true_eq]
    omega
  · simp only [Bool.and_eq_true, decide_eq_true_eq]
    omega

/-- **A grid that is fine enough has a multiple in the interval**, just below the value. -/
theorem exists_multiple?_of_fine (hm : 0 < m) (hfine : (10 : ℚ) ^ k ≤ quarter q) (tie : Tie) :
    ∃ d, multiple? tie m q k = some d := by
  obtain ⟨h1, h2⟩ := place_pos q k
  -- one unit of the grid is at most a quarter of the last place
  have hle : (place q k).2 ≤ (place q k).1 := by
    have hone : (1 : ℚ) ≤ (place q k).1 / (place q k).2 := by
      rw [place_eq, one_le_div (zpow_pos (by norm_num) k)]
      exact hfine
    rw [one_le_div (by exact_mod_cast h2)] at hone
    exact_mod_cast hone
  have hpos : 0 < 4 * m * (place q k).1 / (place q k).2 := by
    refine Nat.div_pos (hle.trans ?_) h2
    exact Nat.le_mul_of_pos_left _ (by omega)
  have hfits : fits m q k (4 * m * (place q k).1 / (place q k).2) = true := by
    simp [fits, hpos, holds_multiple_below hm h2 hle]
  rw [multiple?_eq, hfits]
  cases fits m q k (4 * m * (place q k).1 / (place q k).2 + 1) with
  | true => exact ⟨_, rfl⟩
  | false => exact ⟨_, rfl⟩

/-! ## 4. The grids -/

/-- A number has as many digits as its size says. -/
theorem pow_digitCount_le {n : Nat} (hn : 0 < n) :
    (10 : ℚ) ^ ((digitCount n : ℤ) - 1) ≤ n ∧ (n : ℚ) < 10 ^ (digitCount n : ℤ) := by
  have hcount : digitCount n = (Nat.toDigits 10 n).length := by
    rw [digitCount, if_neg hn.ne']
  have hpos : 0 < digitCount n := by
    rw [hcount]
    exact Nat.length_toDigits_pos
  constructor
  · obtain ⟨c, hc⟩ : ∃ c, digitCount n = c + 1 := ⟨digitCount n - 1, by omega⟩
    rw [hc, Nat.cast_add, Nat.cast_one, add_sub_cancel_right, zpow_natCast]
    by_contra hlt
    have hlt' : n < 10 ^ c := by exact_mod_cast not_le.mp hlt
    rcases Nat.eq_zero_or_pos c with rfl | hcpos
    · omega
    · have hle := (Nat.length_toDigits_le_iff (b := 10) (by decide) hcpos).mpr hlt'
      omega
  · rw [zpow_natCast]
    have hlt := (Nat.length_toDigits_le_iff (b := 10) (by decide) hpos).mp hcount.ge
    exact_mod_cast hlt

/-- The first grid is at most ten times as coarse as the value. -/
theorem powerAbove_le {num den : Nat} (hnum : 0 < num) (hden : 0 < den) :
    (10 : ℚ) ^ (powerAbove num den - 1) ≤ num / den := by
  have hnum' : (0 : ℚ) < num := by exact_mod_cast hnum
  have hden' : (0 : ℚ) < den := by exact_mod_cast hden
  unfold powerAbove
  split
  · rename_i hle
    have hfloor : ((num / den : Nat) : ℚ) ≤ num / den := Nat.cast_div_le
    exact (pow_digitCount_le (Nat.div_pos hle hden)).1.trans hfloor
  · rename_i hlt
    have hn : 0 < den / num := Nat.div_pos (by omega) hnum
    have hceil : den ≤ 10 ^ digitCount (den / num) * num := by
      have hcount := (pow_digitCount_le hn).2
      rw [zpow_natCast] at hcount
      have hlt' : den / num < 10 ^ digitCount (den / num) := by exact_mod_cast hcount
      exact (Nat.div_lt_iff_lt_mul hnum).mp hlt' |>.le
    have hceil' : (den : ℚ) ≤ 10 ^ digitCount (den / num) * num := by exact_mod_cast hceil
    have hpow : (0 : ℚ) < 10 ^ digitCount (den / num) := by positivity
    rw [show (1 : ℤ) - digitCount (den / num) - 1 = -(digitCount (den / num) : ℤ) by omega,
      zpow_neg, zpow_natCast, inv_le_iff_one_le_mul₀ hpow, div_mul_eq_mul_div, one_le_div hden',
      mul_comm]
    exact hceil'

/-- The last grid is no coarser than a quarter of the last place. -/
theorem last_grid_fine (hm : 0 < m) (hm' : m < 2 ^ 53) :
    (10 : ℚ) ^ (powerAbove (ratio m q).1 (ratio m q).2 - 18) ≤ quarter q := by
  obtain ⟨hnum, hden⟩ := ratio_pos hm q
  have hfirst := powerAbove_le hnum hden
  rw [ratio_eq] at hfirst
  have hsteps : (10 : ℚ) ^ (powerAbove (ratio m q).1 (ratio m q).2 - 18) * 10 ^ 17 =
      10 ^ (powerAbove (ratio m q).1 (ratio m q).2 - 1) := by
    rw [← zpow_natCast, ← zpow_add₀ (by norm_num)]
    congr 1
    omega
  have hquarters : (2 : ℚ) ^ q = 4 * quarter q := by
    rw [quarter, zpow_sub₀ two_ne_zero]
    norm_num
    ring
  have hbound : (m : ℚ) ≤ 2 ^ 53 := by exact_mod_cast hm'.le
  have hpos := quarter_pos q
  rw [← hsteps, hquarters] at hfirst
  have hle : (10 : ℚ) ^ (powerAbove (ratio m q).1 (ratio m q).2 - 18) * 10 ^ 17 ≤
      quarter q * 10 ^ 17 :=
    calc (10 : ℚ) ^ (powerAbove (ratio m q).1 (ratio m q).2 - 18) * 10 ^ 17
        ≤ m * (4 * quarter q) := hfirst
      _ ≤ 2 ^ 53 * (4 * quarter q) := by gcongr
      _ ≤ quarter q * 10 ^ 17 := by linarith
  exact le_of_mul_le_mul_right hle (by norm_num)

/-- **The shortest decimal rounds to the float.** -/
theorem roundsTo_shortest (hm : 0 < m) (hm' : m < 2 ^ 53) (tie : Tie) (q : Int) :
    0 < (shortest tie m q).digits ∧ RoundsTo m q (shortest tie m q).value := by
  unfold shortest
  dsimp only
  generalize htop : powerAbove (ratio m q).1 (ratio m q).2 = top
  generalize hhits : ((List.range gridCount).filterMap fun (j : Nat) =>
    (multiple? tie m q (top - j)).map fun digits => Scaled.mk digits (top - j)) = hits
  have hall : ∀ s ∈ hits, 0 < s.digits ∧ RoundsTo m q s.value := by
    intro s hs
    rw [← hhits] at hs
    obtain ⟨j, -, hj⟩ := List.mem_filterMap.mp hs
    obtain ⟨d, hd, rfl⟩ := Option.map_eq_some_iff.mp hj
    exact fits_iff.mp (fits_of_multiple? hd)
  obtain ⟨d, hd⟩ := exists_multiple?_of_fine (k := top - (18 : Nat)) hm
    (htop ▸ last_grid_fine hm hm') tie
  have hne : hits ≠ [] := by
    refine List.ne_nil_of_mem (a := ⟨d, top - (18 : Nat)⟩) ?_
    rw [← hhits]
    refine List.mem_filterMap.mpr ⟨18, by decide, ?_⟩
    rw [hd]
    rfl
  cases hits with
  | nil => exact absurd rfl hne
  | cons s rest => exact hall s (List.mem_cons_self ..)

/-- Zero has no place to round to; it is written as it is. -/
theorem shortest_zero (tie : Tie) : shortest tie 0 minExponent = ⟨0, 0⟩ := by
  cases tie <;> decide +kernel

/-! ## 5. Two floats -/

/-- The significands and exponents of floats: a significand has full length unless the exponent is
the least. -/
structure Canonical (m : Nat) (q : Int) : Prop where
  least : minExponent ≤ q
  lt : m < 2 ^ 53
  full : 2 ^ 52 ≤ m ∨ q = minExponent

theorem Interval.Contains.le {x : ℚ} (h : (Interval.around m q).Contains x) :
    ((Interval.around m q).low : ℚ) ≤ x ∧ x ≤ (Interval.around m q).high := by
  unfold Interval.Contains at h
  split at h
  · exact h
  · exact ⟨h.1.le, h.2.le⟩

/-- The ends of the interval of an odd significand do not belong to it. -/
theorem Interval.Contains.lt {x : ℚ} (h : (Interval.around m q).Contains x) (hm : m % 2 = 1) :
    ((Interval.around m q).low : ℚ) < x ∧ x < (Interval.around m q).high := by
  unfold Interval.Contains at h
  rw [if_neg (by simp [Interval.around, hm])] at h
  exact h

variable {m' : Nat} {q' : Int} {x : ℚ}

/-- Floats with one exponent. -/
theorem not_roundsTo_of_lt (hlt : m < m') (h : RoundsTo m q x) : ¬ RoundsTo m' q x := by
  intro h'
  have hhigh : ((Interval.around m q).high : ℚ) = 4 * m + 2 := by simp [Interval.around]
  have hlow : 4 * m' - 2 ≤ (Interval.around m' q).low := by
    simp only [Interval.around]
    split <;> omega
  by_cases hodd : m % 2 = 1
  · have hlow' : (4 * m + 2 : ℚ) ≤ (Interval.around m' q).low := by exact_mod_cast (by omega)
    exact absurd (h.lt hodd).2 (not_lt.mpr (hhigh ▸ hlow'.trans h'.le.1))
  · by_cases hnext : m' = m + 1
    · have hlow' : (4 * m + 2 : ℚ) ≤ (Interval.around m' q).low := by exact_mod_cast (by omega)
      exact absurd (h.le.2.trans (hhigh ▸ hlow')) (not_le.mpr (h'.lt (by omega)).1)
    · have hlow' : (4 * m + 2 : ℚ) < (Interval.around m' q).low := by exact_mod_cast (by omega)
      exact absurd (h.le.2.trans_lt (hhigh ▸ hlow')) (not_lt.mpr h'.le.1)

/-- A place that is higher up is at least twice as wide. -/
theorem two_mul_quarter_le (hlt : q < q') : 2 * quarter q ≤ quarter q' := by
  have hnext : 2 * quarter q = 2 ^ (q - 1) := by
    rw [quarter, ← zpow_one_add₀ two_ne_zero]
    congr 1
    omega
  rw [hnext, quarter]
  exact zpow_le_zpow_right₀ one_le_two (by omega)

/-- Floats with different exponents.  The one with the greater exponent has a significand of full
length, so its interval begins where the last one below it ends, and that end belongs to neither
odd significand. -/
theorem not_roundsTo_of_exponent_lt (hc : Canonical m q) (hc' : Canonical m' q') (hlt : q < q')
    (h : RoundsTo m q x) : ¬ RoundsTo m' q' x := by
  intro h'
  have hfull : 2 ^ 52 ≤ m' := hc'.full.resolve_right (by have := hc.least; omega)
  have hlow : 2 ^ 54 - 1 ≤ (Interval.around m' q').low := by
    have hleast : q' ≠ minExponent := by have := hc.least; omega
    by_cases hfirst : m' = leadingBit
    · simp only [Interval.around, hfirst, hleast, ne_eq, not_false_eq_true, and_self, if_true]
      decide
    · simp only [Interval.around, hfirst, false_and, if_false]
      unfold leadingBit at hfirst
      omega
  have hlow' : (2 ^ 54 - 1 : ℚ) ≤ x / quarter q' := by
    refine le_trans ?_ h'.le.1
    have hcast : ((2 ^ 54 - 1 : Nat) : ℚ) ≤ (Interval.around m' q').low := by exact_mod_cast hlow
    exact le_trans (by norm_num) hcast
  have hwide : (2 ^ 55 - 2 : ℚ) ≤ x / quarter q := by
    rw [le_div_iff₀ (quarter_pos q')] at hlow'
    rw [le_div_iff₀ (quarter_pos q)]
    have hquarter := two_mul_quarter_le hlt
    linarith
  have hhigh : ((Interval.around m q).high : ℚ) = 4 * m + 2 := by simp [Interval.around]
  by_cases hlast : m = 2 ^ 53 - 1
  · have hupper := (h.lt (by omega)).2
    rw [hhigh, hlast] at hupper
    norm_num at hupper hwide
    linarith
  · have hupper := h.le.2
    have hm : (m : ℚ) ≤ 2 ^ 53 - 2 := by
      have hm' : m ≤ 2 ^ 53 - 2 := by have := hc.lt; omega
      have hcast : (m : ℚ) ≤ ((2 ^ 53 - 2 : Nat) : ℚ) := by exact_mod_cast hm'
      exact hcast.trans (by norm_num)
    rw [hhigh] at hupper
    linarith

/-- **No number rounds to two floats.** -/
theorem eq_of_roundsTo (hc : Canonical m q) (hc' : Canonical m' q') (h : RoundsTo m q x)
    (h' : RoundsTo m' q' x) : m = m' ∧ q = q' := by
  rcases lt_trichotomy q q' with hlt | rfl | hlt
  · exact absurd h' (not_roundsTo_of_exponent_lt hc hc' hlt h)
  · rcases lt_trichotomy m m' with hlt | rfl | hlt
    · exact absurd h' (not_roundsTo_of_lt hlt h)
    · exact ⟨rfl, rfl⟩
    · exact absurd h (not_roundsTo_of_lt hlt h')
  · exact absurd h (not_roundsTo_of_exponent_lt hc' hc hlt h')

theorem Canonical.eq_zero_of_zero (hc : Canonical 0 q) : q = minExponent :=
  hc.full.resolve_left (by decide)

/-- The shortest decimal of zero is zero, and of no other float. -/
theorem value_shortest_eq_zero_iff (hc : Canonical m q) (tie : Tie) :
    (shortest tie m q).value = 0 ↔ m = 0 := by
  constructor
  · intro hvalue
    by_contra hm
    have hdigits := (roundsTo_shortest (Nat.pos_of_ne_zero hm) hc.lt tie q).1
    have hpos : 0 < (shortest tie m q).value := by
      unfold Scaled.value
      have hdigits' : (0 : ℚ) < (shortest tie m q).digits := by exact_mod_cast hdigits
      exact mul_pos hdigits' (zpow_pos (by norm_num) _)
    exact hpos.ne' hvalue
  · rintro rfl
    rw [hc.eq_zero_of_zero, shortest_zero]
    simp [Scaled.value]

/-- **Floats that differ have shortest decimals that differ in value.** -/
theorem eq_of_value_shortest (hc : Canonical m q) (hc' : Canonical m' q')
    (h : (shortest tie m q).value = (shortest tie m' q').value) : m = m' ∧ q = q' := by
  have hzero : m = 0 ↔ m' = 0 := by
    rw [← value_shortest_eq_zero_iff hc tie, ← value_shortest_eq_zero_iff hc' tie, h]
  rcases Nat.eq_zero_or_pos m with rfl | hm
  · obtain rfl : m' = 0 := hzero.mp rfl
    exact ⟨rfl, hc.eq_zero_of_zero.trans hc'.eq_zero_of_zero.symm⟩
  · have hm' : 0 < m' := Nat.pos_of_ne_zero fun hm' => hm.ne' (hzero.mpr hm')
    refine eq_of_roundsTo hc hc' (roundsTo_shortest hm hc.lt tie q).2 ?_
    rw [h]
    exact (roundsTo_shortest hm' hc'.lt tie q').2

end BandMath.Decimal
