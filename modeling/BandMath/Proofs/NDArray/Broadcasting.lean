/-
# Broadcasting

A shape broadcasts to another one if, axis by axis from the last one on, it has the length of the
other or length 1; the other may have more axes, not fewer (`Broadcasts`).  An element is then found
axis by axis as well: at the only place of an axis of length 1, and at the given place of any other
axis (`ProjectsTo`).

Both relations count axes from the last one and say nothing of how two shapes are aligned.
Combining two arrays comes down to them (`zipWith_broadcasts`): it takes one shape that broadcasts
to the other.  Two shapes that broadcast to each other are the same (`Broadcasts.antisymm`), so it
does not matter which of the two arrays is asked first, and the order of the operands is only felt
by the function that combines the elements (`zipWith_swap_eq_ok_iff`).
-/
import BandMath.Proofs.NDArray.Stretching

namespace BandMath.NDArray

open Position

/-! ## 1. Axes counted from the last one -/

/-- Entry `k` of a shape or of a position, counted from the last one. -/
def fromLast? (xs : List Nat) (k : Nat) : Option Nat := xs.reverse[k]?

/-- A shape broadcasts to another: every axis of it has a partner, and has its length or length
1. -/
structure Broadcasts (s t : List Nat) : Prop where
  rank : s.length ≤ t.length
  axis : ∀ k n, fromLast? s k = some n → n = 1 ∨ fromLast? t k = some n

/-- `q` is where an array of shape `s` has the element for position `p` of a shape that `s`
broadcasts to. -/
structure ProjectsTo (s p q : List Nat) : Prop where
  rank : q.length = s.length
  axis : ∀ k n, fromLast? s k = some n →
    fromLast? q k = if n = 1 then some 0 else fromLast? p k

variable {s t u p q q' : List Nat} {k n : Nat}

theorem fromLast?_eq_none_iff : fromLast? s k = none ↔ s.length ≤ k := by
  rw [fromLast?, List.getElem?_eq_none_iff, List.length_reverse]

theorem lt_of_fromLast? (h : fromLast? s k = some n) : k < s.length := by
  by_contra hle
  rw [fromLast?_eq_none_iff.mpr (Nat.le_of_not_lt hle)] at h
  exact nomatch h

/-- Entries counted from the last one are all that there is to a list. -/
theorem ext_fromLast? (h : ∀ k, fromLast? s k = fromLast? t k) : s = t :=
  List.reverse_injective (List.ext_getElem? h)

/-- What is dropped in front is not seen from the last entry. -/
theorem fromLast?_drop (hk : k < n) (hn : n ≤ p.length) :
    fromLast? (p.drop (p.length - n)) k = fromLast? p k := by
  rw [fromLast?, fromLast?, List.reverse_drop, Nat.sub_sub_self hn, List.getElem?_take_of_lt hk]

/-- There is only one such position. -/
theorem ProjectsTo.unique (h : ProjectsTo s p q) (h' : ProjectsTo s p q') : q = q' := by
  refine ext_fromLast? fun k => ?_
  cases hs : fromLast? s k with
  | none =>
    rw [fromLast?_eq_none_iff] at hs
    rw [fromLast?_eq_none_iff.mpr (h.rank ▸ hs), fromLast?_eq_none_iff.mpr (h'.rank ▸ hs)]
  | some n => rw [h.axis k n hs, h'.axis k n hs]

/-- **Two shapes that broadcast to each other are the same.**  Where they differ, each of them would
have length 1. -/
theorem Broadcasts.antisymm (h : Broadcasts s t) (h' : Broadcasts t s) : s = t := by
  refine ext_fromLast? fun k => ?_
  cases hs : fromLast? s k with
  | none =>
    rw [fromLast?_eq_none_iff] at hs
    exact (fromLast?_eq_none_iff.mpr (Nat.le_trans h'.rank hs)).symm
  | some n =>
    rcases h.axis k n hs with rfl | ht
    · -- the axis has length 1 in `s`, so in `t` it is there and has length 1 as well
      cases ht : fromLast? t k with
      | none =>
        have hlt := lt_of_fromLast? hs
        rw [fromLast?_eq_none_iff] at ht
        have hrank := h.rank
        omega
      | some m =>
        rcases h'.axis k m ht with rfl | hm
        · rfl
        · rw [← hm, hs]
    · exact ht.symm

/-! ## 2. Stretching is broadcasting -/

theorem aligned_iff_getElem? : ∀ {s u : List Nat}, s.length = u.length →
    (Aligned s u ↔ ∀ k n : Nat, s[k]? = some n → n = 1 ∨ u[k]? = some n)
  | [], [], _ => by simp
  | n :: s, m :: u, h => by
    have ih := aligned_iff_getElem? (Nat.succ.inj h)
    refine List.forall₂_cons.trans ((and_congr_right' ih).trans ?_)
    constructor
    · rintro ⟨hhead, htail⟩ k x hx
      cases k with
      | zero =>
        obtain rfl := Option.some.inj hx
        rcases hhead with rfl | hone
        · exact Or.inr rfl
        · exact Or.inl hone
      | succ k => exact htail k x hx
    · intro hall
      refine ⟨?_, fun k x hx => hall (k + 1) x hx⟩
      rcases hall 0 n rfl with hone | hsame
      · exact Or.inr hone
      · exact Or.inl (Option.some.inj hsame).symm

theorem aligned_iff_fromLast? (h : s.length = t.length) :
    Aligned s t ↔ ∀ k n, fromLast? s k = some n → n = 1 ∨ fromLast? t k = some n := by
  refine List.forall₂_reverse_iff.symm.trans ?_
  exact aligned_iff_getElem? (by rw [List.length_reverse, List.length_reverse, h])

theorem stretches_iff_broadcasts : stretches s t = true ↔ Broadcasts s t := by
  rw [stretches_iff]
  constructor
  · rintro ⟨lead, u, rfl, h⟩
    have hlength := h.length_eq
    have hdrop : (lead ++ u).drop ((lead ++ u).length - s.length) = u := by
      rw [List.length_append, hlength, Nat.add_sub_cancel, List.drop_left]
    have hrank : s.length ≤ (lead ++ u).length := by
      rw [List.length_append]
      omega
    refine ⟨hrank, fun k n hk => ?_⟩
    rw [← fromLast?_drop (lt_of_fromLast? hk) hrank, hdrop]
    exact (aligned_iff_fromLast? hlength).mp h k n hk
  · rintro ⟨hrank, haxis⟩
    refine ⟨t.take (t.length - s.length), t.drop (t.length - s.length),
      (List.take_append_drop _ t).symm, ?_⟩
    have hlength : s.length = (t.drop (t.length - s.length)).length := by
      rw [List.length_drop]
      omega
    refine (aligned_iff_fromLast? hlength).mpr fun k n hk => ?_
    rw [fromLast?_drop (lt_of_fromLast? hk) hrank]
    exact haxis k n hk

/-- The projection is found axis by axis. -/
theorem projectsTo_project (h : s.length ≤ p.length) : ProjectsTo s p (project s p) := by
  have hlength : s.length = (p.drop (p.length - s.length)).length := by
    rw [List.length_drop]
    omega
  refine ⟨?_, fun k n hk => ?_⟩
  · rw [project, List.length_zipWith, ← hlength, Nat.min_self]
  · have hlt := lt_of_fromLast? hk
    rw [← fromLast?_drop hlt h]
    cases hi : fromLast? (p.drop (p.length - s.length)) k with
    | none =>
      rw [fromLast?_eq_none_iff, ← hlength] at hi
      exact absurd hlt (Nat.not_lt_of_le hi)
    | some i =>
      rw [fromLast?] at hk hi
      rw [fromLast?, project, List.reverse_zipWith hlength, List.getElem?_zipWith, hk, hi]
      dsimp only
      split <;> rfl

/-! ## 3. Two arrays -/

theorem commonShape?_eq_some_iff : commonShape? s t = some u ↔
    Broadcasts s t ∧ u = t ∨ Broadcasts t s ∧ u = s := by
  unfold commonShape?
  constructor
  · intro h
    split at h
    · rename_i hts
      exact Or.inr ⟨stretches_iff_broadcasts.mp hts, (Option.some.inj h).symm⟩
    · split at h
      · rename_i hst
        exact Or.inl ⟨stretches_iff_broadcasts.mp hst, (Option.some.inj h).symm⟩
      · exact nomatch h
  · rintro (⟨hst, rfl⟩ | ⟨hts, rfl⟩)
    · split
      · rename_i hts
        rw [hst.antisymm (stretches_iff_broadcasts.mp hts)]
      · rw [if_pos (stretches_iff_broadcasts.mpr hst)]
    · rw [if_pos (stretches_iff_broadcasts.mpr hts)]

theorem commonShape?_eq_none_iff :
    commonShape? s t = none ↔ ¬ Broadcasts s t ∧ ¬ Broadcasts t s := by
  rw [← not_or, ← not_iff_not, not_not, ← ne_eq, Option.ne_none_iff_exists']
  constructor
  · rintro ⟨u, hu⟩
    exact (commonShape?_eq_some_iff.mp hu).imp And.left And.left
  · rintro (hst | hts)
    · exact ⟨t, commonShape?_eq_some_iff.mpr (Or.inl ⟨hst, rfl⟩)⟩
    · exact ⟨s, commonShape?_eq_some_iff.mpr (Or.inr ⟨hts, rfl⟩)⟩

/-- The common shape does not depend on the order. -/
theorem commonShape?_comm (s t : List Nat) : commonShape? s t = commonShape? t s := by
  refine Option.ext fun u => ?_
  rw [commonShape?_eq_some_iff, commonShape?_eq_some_iff, or_comm]

/-- The array that two arrays are combined to: of the greater shape, with `f` of the elements that
the two have for each position. -/
structure IsBroadcast (f : Float → Float → Float) (l r c : NDArray) : Prop where
  shape : Broadcasts l.shape r.shape ∧ c.shape = r.shape ∨
    Broadcasts r.shape l.shape ∧ c.shape = l.shape
  get : ∀ p, Within c.shape p → ∃ q q', ProjectsTo l.shape p q ∧ Within l.shape q ∧
    ProjectsTo r.shape p q' ∧ Within r.shape q' ∧ c.get p = f (l.get q) (r.get q')

section Two

variable {f : Float → Float → Float} {l r c c' : NDArray}

theorem isBroadcast_of_zipWith (h : zipWith f l r = .ok c) : IsBroadcast f l r c := by
  have hpointwise := zipWith_pointwise h
  refine ⟨?_, fun p hp => ?_⟩
  · unfold zipWith at h
    split at h
    · rename_i u hu
      obtain rfl := Except.ok.inj h
      exact commonShape?_eq_some_iff.mp hu
    · exact nomatch h
  · have hl := (stretches_iff_broadcasts.mp hpointwise.left).rank
    have hr := (stretches_iff_broadcasts.mp hpointwise.right).rank
    rw [← hp.length_eq] at hl hr
    exact ⟨_, _, projectsTo_project hl, within_project hpointwise.left hp,
      projectsTo_project hr, within_project hpointwise.right hp, hpointwise.get p hp⟩

/-- Nothing else is such an array. -/
theorem IsBroadcast.unique (h : IsBroadcast f l r c) (h' : IsBroadcast f l r c') : c = c' := by
  -- where one has the shape of `l` and the other that of `r`, these are the same
  have hshape : c.shape = c'.shape := by
    rcases h.shape with ⟨hlr, hc⟩ | ⟨hrl, hc⟩
    · rcases h'.shape with ⟨-, hc'⟩ | ⟨hrl, hc'⟩
      · rw [hc, hc']
      · rw [hc, hc', hlr.antisymm hrl]
    · rcases h'.shape with ⟨hlr, hc'⟩ | ⟨-, hc'⟩
      · rw [hc, hc', hlr.antisymm hrl]
      · rw [hc, hc']
  refine ext_get hshape fun p hp => ?_
  obtain ⟨q₁, q₂, hq₁, -, hq₂, -, hget⟩ := h.get p hp
  obtain ⟨q₁', q₂', hq₁', -, hq₂', -, hget'⟩ := h'.get p (hshape ▸ hp)
  rw [hget, hget', hq₁.unique hq₁', hq₂.unique hq₂']

theorem exists_zipWith_iff :
    (∃ c, zipWith f l r = .ok c) ↔ Broadcasts l.shape r.shape ∨ Broadcasts r.shape l.shape := by
  constructor
  · rintro ⟨c, h⟩
    exact (isBroadcast_of_zipWith h).shape.imp And.left And.left
  · intro h
    unfold zipWith
    cases hcommon : commonShape? l.shape r.shape with
    | none =>
      obtain ⟨hlr, hrl⟩ := commonShape?_eq_none_iff.mp hcommon
      exact absurd h (not_or.mpr ⟨hlr, hrl⟩)
    | some u => exact ⟨_, rfl⟩

/-- **Combining gives the broadcast of the two, and nothing else.** -/
theorem zipWith_eq_ok_iff : zipWith f l r = .ok c ↔ IsBroadcast f l r c := by
  constructor
  · exact isBroadcast_of_zipWith
  · intro h
    obtain ⟨c', hc'⟩ := exists_zipWith_iff.mpr (h.shape.imp And.left And.left)
    rw [hc', h.unique (isBroadcast_of_zipWith hc')]

/-- The operands may be swapped when the function takes them in the other order. -/
theorem zipWith_swap_eq_ok_iff :
    zipWith (fun x y => f y x) r l = .ok c ↔ zipWith f l r = .ok c := by
  unfold zipWith
  rw [commonShape?_comm r.shape l.shape]
  cases commonShape? l.shape r.shape with
  | none => simp
  | some u => rfl

theorem zipWith_eq_error_iff {e : Error} : zipWith f l r = .error e ↔
    (¬ Broadcasts l.shape r.shape ∧ ¬ Broadcasts r.shape l.shape) ∧
      e = .shapeMismatch l.shape r.shape := by
  rw [← commonShape?_eq_none_iff]
  unfold zipWith
  cases commonShape? l.shape r.shape with
  | none => simp [eq_comm]
  | some u => simp

end Two

/-- **Two arrays are combined when the shape of one broadcasts to that of the other**, to the array
of the greater shape that has at every position the value of `f` at the elements of the two.  When
each shape broadcasts to the other, they are the same; so with the operands swapped, arrays are
combined to the same array or to none.  Otherwise both shapes are reported, in the order of the
operands. -/
theorem zipWith_broadcasts (f : Float → Float → Float) (l r : NDArray) :
    ((∃ c, zipWith f l r = .ok c) ↔
      Broadcasts l.shape r.shape ∨ Broadcasts r.shape l.shape) ∧
    (∀ c, zipWith f l r = .ok c ↔ IsBroadcast f l r c) ∧
    (Broadcasts l.shape r.shape → Broadcasts r.shape l.shape → l.shape = r.shape) ∧
    (∀ c, zipWith (fun x y => f y x) r l = .ok c ↔ zipWith f l r = .ok c) ∧
    ∀ e, zipWith f l r = .error e ↔
      (¬ Broadcasts l.shape r.shape ∧ ¬ Broadcasts r.shape l.shape) ∧
        e = .shapeMismatch l.shape r.shape :=
  ⟨exists_zipWith_iff, fun _ => zipWith_eq_ok_iff, Broadcasts.antisymm,
    fun _ => zipWith_swap_eq_ok_iff, fun _ => zipWith_eq_error_iff⟩

/-- Shapes that broadcast to a third one, but not to each other, do not go together; an axis of
length 1 goes with an empty one. -/
theorem zipWith_broadcasts_neither :
    let add : Float → Float → Float := (· + ·)
    zipWith add (fill [2, 1] 1) (fill [3] 1) = .error (.shapeMismatch [2, 1] [3]) ∧
      ∃ c, zipWith add (fill [1] 1) (fill [2, 0] 1) = .ok c ∧ c.shape = [2, 0] := by
  intro add
  obtain ⟨-, -, -, -, herror⟩ := zipWith_broadcasts add (fill [2, 1] 1) (fill [3] 1)
  obtain ⟨hok, hbroadcast, -⟩ := zipWith_broadcasts add (fill [1] 1) (fill [2, 0] 1)
  have hneither : ¬ Broadcasts [2, 1] [3] ∧ ¬ Broadcasts [3] [2, 1] := by
    rw [← stretches_iff_broadcasts, ← stretches_iff_broadcasts]
    decide
  have hempty : Broadcasts [1] [2, 0] := stretches_iff_broadcasts.mp (by decide)
  obtain ⟨c, hc⟩ := hok.mpr (.inl hempty)
  refine ⟨(herror _).mpr ⟨hneither, rfl⟩, c, hc, ?_⟩
  rcases ((hbroadcast c).mp hc).shape with ⟨-, hshape⟩ | ⟨hback, -⟩
  · exact hshape
  · exact absurd (stretches_iff_broadcasts.mpr hback) (by decide)

end BandMath.NDArray
