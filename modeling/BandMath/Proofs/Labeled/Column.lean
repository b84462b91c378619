/-
# Columns as arrays of one axis

A series fits when it has one label per row.  Series are made so and arithmetic keeps them so; two
of them with the same labels then have equally many values, and combining them is combining their
arrays (`array_zipWith`).

That a series fits is not part of its type, so it is asked for here and shown of everything that can
be made in `BandMath.Proofs.Labeled.Fitting`.

`zipWith_eq_ok_iff` and `zipArray_eq_ok` say what a combination is if there is one.  The equation
for two series needs that both fit: the elements are combined row by row, and the shorter series
would cut the longer one off if the same labels did not make them equally long.

Names are a matter of their own.  A column without its name (`unnamed`) is what arithmetic works on:
two columns that differ in their names only give results that differ in their names only
(`zipWith_congr`, `zipArray_congr`, `map_congr`).  This is how deferred columns are compared with
given ones, as the two do not keep names in the same way (`BandMath.Proofs.Deferred.LazySeries`).
-/
import BandMath.Labeled.Series
import BandMath.Proofs.Fallible
import BandMath.Proofs.NDArray.Stretching

namespace BandMath.Series

variable {s t u : Series} {f : Float → Float → Float} {a : NDArray}

/-! ## 1. One label per row -/

/-- There is one label per row. -/
def Fits (s : Series) : Prop := s.index.length = s.length

theorem fits_ofList (values : List Float) : (ofList values).Fits := by
  simp [Fits, ofList, numbered, length]

theorem fits_withIndex {index : List String} (h : s.withIndex index = .ok t) : t.Fits := by
  unfold withIndex at h
  split at h
  · rename_i hlen
    obtain rfl := Except.ok.inj h
    exact hlen
  · exact nomatch h

theorem fits_withName (h : s.Fits) (name : String) : (s.withName name).Fits := h

theorem fits_map (h : s.Fits) (f : Float → Float) : (s.map f).Fits := by
  simpa [Fits, map, length] using h

/-! ## 2. The array of a series -/

/-- What a successful combination of two series is. -/
theorem zipWith_eq_ok_iff : s.zipWith f t = .ok u ↔
    s.index = t.index ∧ u = ⟨commonName s.name t.name, s.index,
      Array.zipWith f s.values t.values⟩ := by
  unfold zipWith
  split
  · rename_i h
    simp [h, eq_comm]
  · rename_i h
    simp [h]

theorem size_eq_of_index_eq (hs : s.Fits) (ht : t.Fits) (h : s.index = t.index) :
    s.values.size = t.values.size :=
  (hs.symm.trans (congrArg List.length h)).trans ht

/-- The elements of two series combined, row by row. -/
theorem zipWith_array (h : s.values.size = t.values.size) {name : Option String}
    {index : List String} :
    NDArray.zipWith f s.array t.array =
      .ok (Series.array ⟨name, index, Array.zipWith f s.values t.values⟩) := by
  have hshape : t.array.shape = s.array.shape := congrArg (fun n => [n]) h.symm
  rw [NDArray.zipWith_of_shape_eq hshape]
  refine congrArg Except.ok (NDArray.ext_get ?_ fun p hp => ?_)
  · simp [array, length, h]
  · have hp' : Position.Within s.array.shape p := hp
    rw [NDArray.get_ofFn _ hp']
    obtain ⟨i, q, rfl, hi, hq⟩ := Position.within_cons hp'
    obtain rfl := Position.within_nil hq
    have hs : i < s.values.size := hi
    have ht : i < t.values.size := h ▸ hs
    simp only [NDArray.get, array, Position.offset, Position.count, Array.getD, length,
      Array.size_zipWith, Nat.mul_one, Nat.add_zero, dif_pos hs, dif_pos ht,
      dif_pos (Nat.lt_min.mpr ⟨hs, ht⟩), Array.getInternal_eq_getElem, Array.getElem_zipWith]

/-- Combining two series is combining their arrays. -/
theorem array_zipWith (hs : s.Fits) (ht : t.Fits) (h : s.zipWith f t = .ok u) :
    NDArray.zipWith f s.array t.array = .ok u.array := by
  obtain ⟨hi, rfl⟩ := zipWith_eq_ok_iff.mp h
  exact zipWith_array (size_eq_of_index_eq hs ht hi)

theorem fits_zipWith (hs : s.Fits) (ht : t.Fits) (h : s.zipWith f t = .ok u) : u.Fits := by
  obtain ⟨hi, rfl⟩ := zipWith_eq_ok_iff.mp h
  have hsize := size_eq_of_index_eq hs ht hi
  simpa [Fits, length, ← hsize] using hs

/-- What a successful combination with an array is. -/
theorem zipArray_eq_ok (h : s.zipArray f a = .ok u) :
    NDArray.zipWith f s.array a = .ok u.array ∧ u.length = s.length ∧ u.index = s.index ∧
      u.name = s.name := by
  unfold zipArray at h
  split at h
  · rename_i r hr
    split at h
    · rename_i hshape
      obtain rfl := Except.ok.inj h
      have hsize : r.data.size = s.length := by
        rw [r.size_data, hshape]
        simp [Position.count]
      refine ⟨?_, hsize, rfl, rfl⟩
      rw [hr]
      refine congrArg Except.ok ?_
      obtain ⟨shape, data, hd⟩ := r
      subst hshape
      simp only [array, length, NDArray.mk.injEq, and_true]
      exact congrArg (fun n => [n]) hsize.symm
    · cases h
  · cases h

theorem fits_zipArray (hs : s.Fits) (h : s.zipArray f a = .ok u) : u.Fits := by
  obtain ⟨-, hlen, hindex, -⟩ := zipArray_eq_ok h
  rw [Fits, hlen, hindex]
  exact hs

theorem array_map (f : Float → Float) : (s.map f).array = s.array.map f := by
  simp [array, map, NDArray.map, length]

/-! ## 3. Columns without their names -/

/-- The column without its name. -/
def unnamed (s : Series) : Series := { s with name := none }

theorem unnamed_eq_iff : s.unnamed = t.unnamed ↔ s.index = t.index ∧ s.values = t.values := by
  simp [unnamed]

theorem array_unnamed (s : Series) : s.unnamed.array = s.array := rfl

theorem array_eq_of_unnamed_eq (h : s.unnamed = t.unnamed) : s.array = t.array := by
  have harray : s.unnamed.array = t.unnamed.array := congrArg array h
  exact harray

theorem fits_of_unnamed_eq (hs : s.Fits) (h : s.unnamed = t.unnamed) : t.Fits := by
  obtain ⟨hindex, hvalues⟩ := unnamed_eq_iff.mp h
  rw [Fits, length, ← hindex, ← hvalues]
  exact hs

/-- Names do not take part in arithmetic. -/
theorem zipWith_unnamed (f : Float → Float → Float) (s t : Series) :
    s.unnamed.zipWith f t.unnamed = (s.zipWith f t).map unnamed := by
  unfold zipWith
  by_cases h : s.index = t.index
  · rw [if_pos h, if_pos (show s.unnamed.index = t.unnamed.index from h)]
    rfl
  · rw [if_neg h, if_neg (show ¬ s.unnamed.index = t.unnamed.index from h)]
    rfl

theorem zipArray_unnamed (f : Float → Float → Float) (s : Series) (a : NDArray) :
    s.unnamed.zipArray f a = (s.zipArray f a).map unnamed := by
  unfold zipArray
  rw [array_unnamed]
  cases NDArray.zipWith f s.array a with
  | error e => rfl
  | ok r =>
    dsimp only
    by_cases h : r.shape = [s.length]
    · rw [if_pos h, if_pos (show r.shape = [s.unnamed.length] from h)]
      rfl
    · rw [if_neg h, if_neg (show ¬ r.shape = [s.unnamed.length] from h)]
      rfl

theorem zipWith_congr {s' t' : Series} (hs : s.unnamed = s'.unnamed) (ht : t.unnamed = t'.unnamed)
    (h : s.zipWith f t = .ok u) : ∃ v, s'.zipWith f t' = .ok v ∧ u.unnamed = v.unnamed := by
  have hmap : (s'.zipWith f t').map unnamed = .ok u.unnamed := by
    rw [← zipWith_unnamed, ← hs, ← ht, zipWith_unnamed, h]
    rfl
  obtain ⟨v, hv, huv⟩ := map_eq_ok_iff.mp hmap
  exact ⟨v, hv, huv.symm⟩

theorem zipArray_congr {s' : Series} (hs : s.unnamed = s'.unnamed) (h : s.zipArray f a = .ok u) :
    ∃ v, s'.zipArray f a = .ok v ∧ u.unnamed = v.unnamed := by
  have hmap : (s'.zipArray f a).map unnamed = .ok u.unnamed := by
    rw [← zipArray_unnamed, ← hs, zipArray_unnamed, h]
    rfl
  obtain ⟨v, hv, huv⟩ := map_eq_ok_iff.mp hmap
  exact ⟨v, hv, huv.symm⟩

theorem map_congr (h : s.unnamed = t.unnamed) (f : Float → Float) :
    (s.map f).unnamed = (t.map f).unnamed :=
  congrArg (fun r => r.map f) h

end BandMath.Series
