/-
# Cutting loses nothing

An array that has an axis can be cut into chunks of any positive length.  The chunks have that
length, but for the last, which has what is left (`EvenlyCut`); and computing the deferred array
joins them to the array that was cut, in every mode.  The same holds for a column, whose name and
labels are not cut at all.

There is no other outcome: without an axis or with a length of zero, cutting is refused
(`cut_lossless`).

How long the chunks are is said without the way in which they are listed: every chunk but the last
is full, the last one is neither empty nor longer than the others unless there is nothing to cut,
and together they are as long as the axis.  `chunkSizes` cuts evenly in two cases, with a shorter
chunk at the end and without one (`evenlyCut_chunkSizes`).

That joining gives the array back comes from `BandMath.Proofs.Deferred.LazyArray`, where a source
describes the array that it was made of.
-/
import BandMath.Proofs.Deferred.LazySeries

namespace BandMath

open Deferred NDArray

/-! ## 1. The lengths of the chunks -/

/-- `n` positions cut into chunks of `size`: each chunk but the last is full, and the last one is
neither longer nor empty.  Where there is nothing to cut, there is one chunk of nothing. -/
structure EvenlyCut (size n : Nat) (chunks : List Nat) : Prop where
  sum : chunks.sum = n
  full : ∀ c ∈ chunks.dropLast, c = size
  last : ∃ c, chunks.getLast? = some c ∧ c ≤ size ∧ (0 < n → 1 ≤ c)
  empty : n = 0 → chunks = [0]

/-- Full chunks only. -/
theorem evenlyCut_replicate {size q : Nat} (hq : 0 < q) (hsize : 0 < size) :
    EvenlyCut size (q * size) (List.replicate q size) := by
  have hpos : 0 < q * size := Nat.mul_pos hq hsize
  refine ⟨?_, fun c hc => ?_, ⟨size, ?_, Nat.le_refl size, fun _ => hsize⟩, fun h => ?_⟩
  · rw [← total_eq_sum, total_replicate]
  · rw [List.dropLast_replicate] at hc
    exact List.eq_of_mem_replicate hc
  · rw [List.getLast?_replicate, if_neg (Nat.ne_of_gt hq)]
  · exact absurd h (Nat.ne_of_gt hpos)

/-- Full chunks and a shorter one. -/
theorem evenlyCut_replicate_append {size q r : Nat} (hr : 0 < r) (hlt : r < size) :
    EvenlyCut size (q * size + r) (List.replicate q size ++ [r]) := by
  refine ⟨?_, fun c hc => ?_, ⟨r, List.getLast?_concat, Nat.le_of_lt hlt, fun _ => hr⟩, fun h => ?_⟩
  · rw [← total_eq_sum, total_append, total_replicate, total, total, Nat.add_zero]
  · rw [List.dropLast_concat] at hc
    exact List.eq_of_mem_replicate hc
  · omega

/-- **Chunks of one length cut evenly**, whatever the length and the number of positions. -/
theorem evenlyCut_chunkSizes {size : Nat} (hsize : 0 < size) (n : Nat) :
    EvenlyCut size n (chunkSizes n size) := by
  have hdiv := Nat.div_add_mod' n size
  unfold chunkSizes
  split
  · rename_i hn
    subst hn
    exact ⟨rfl, fun c hc => absurd hc List.not_mem_nil, ⟨0, rfl, Nat.zero_le size, fun h => h⟩,
      fun _ => rfl⟩
  · rename_i hn
    split
    · rename_i hmod
      rw [hmod, Nat.add_zero] at hdiv
      -- there is a full chunk, or else there would be nothing to cut
      have hq : 0 < n / size := by
        rcases Nat.eq_zero_or_pos (n / size) with hq | hq
        · rw [hq, Nat.zero_mul] at hdiv
          exact absurd hdiv.symm hn
        · exact hq
      have hfull := evenlyCut_replicate hq hsize
      rw [hdiv] at hfull
      rwa [List.append_nil]
    · rename_i hmod
      have hrest := evenlyCut_replicate_append (q := n / size) (Nat.pos_of_ne_zero hmod)
        (Nat.mod_lt n hsize)
      rwa [hdiv] at hrest

/-! ## 2. Arrays -/

namespace LazyArray

variable {a : NDArray} {size : Nat}

theorem ofArray_of_pos (hrank : a.rank ≠ 0) (hsize : 0 < size) :
    ofArray a size = .ok ⟨⟨a.shape, chunkSizes (a.length 0) size⟩,
      .source a (chunkSizes (a.length 0) size)⟩ := by
  rw [ofArray, if_neg hrank, if_neg (Nat.ne_of_gt hsize)]

/-- **An array with an axis is cut, and given back.** -/
theorem exists_ofArray_iff :
    (∃ l, ofArray a size = .ok l ∧ EvenlyCut size (a.length 0) l.chunks ∧
      ∀ mode, l.compute mode = .ok a) ↔ a.rank ≠ 0 ∧ 0 < size := by
  constructor
  · rintro ⟨l, hl, -, -⟩
    unfold ofArray at hl
    split at hl
    · exact nomatch hl
    · rename_i hrank
      split at hl
      · exact nomatch hl
      · rename_i hsize
        exact ⟨hrank, Nat.pos_of_ne_zero hsize⟩
  · rintro ⟨hrank, hsize⟩
    have hcut := ofArray_of_pos hrank hsize
    exact ⟨_, hcut, evenlyCut_chunkSizes hsize _, (describes_ofArray hcut).compute⟩

/-- What cannot be cut is refused. -/
theorem exists_refused_ofArray_iff (a : NDArray) (size : Nat) :
    (∃ fault, ofArray a size = .error (.invalidChunks fault)) ↔ a.rank = 0 ∨ size = 0 := by
  constructor
  · rintro ⟨fault, hfault⟩
    by_contra hneither
    obtain ⟨hrank, hsize⟩ := not_or.mp hneither
    rw [ofArray_of_pos hrank (Nat.pos_of_ne_zero hsize)] at hfault
    exact nomatch hfault
  · intro h
    by_cases hrank : a.rank = 0
    · exact ⟨.noAxis, if_pos hrank⟩
    · refine ⟨.zeroLength, ?_⟩
      rw [ofArray, if_neg hrank, if_pos (h.resolve_left hrank)]

end LazyArray

/-! ## 3. Columns -/

namespace LazySeries

variable {s : Series} {size : Nat}

/-- A column is cut when its values are. -/
theorem ofSeries_eq (s : Series) (size : Nat) : ofSeries s size =
    (LazyArray.ofArray s.array size).map fun values => ⟨s.name, s.index, values⟩ := by
  unfold ofSeries
  cases LazyArray.ofArray s.array size with
  | error e => rfl
  | ok values => rfl

/-- **A column is cut, and given back with its name and its labels.** -/
theorem exists_ofSeries_iff (hs : s.Fits) :
    (∃ l, ofSeries s size = .ok l ∧ EvenlyCut size s.length l.values.chunks ∧
      ∀ mode, l.compute mode = .ok s) ↔ 0 < size := by
  constructor
  · rintro ⟨l, hl, -, -⟩
    rw [ofSeries_eq] at hl
    obtain ⟨values, hvalues, -⟩ := map_eq_ok_iff.mp hl
    by_contra hsize
    have hrefused := (LazyArray.exists_refused_ofArray_iff s.array size).mpr
      (Or.inr (Nat.eq_zero_of_not_pos hsize))
    obtain ⟨fault, hfault⟩ := hrefused
    rw [hfault] at hvalues
    exact nomatch hvalues
  · intro hsize
    have hrank : s.array.rank ≠ 0 := Nat.one_ne_zero
    obtain ⟨values, hvalues, heven, -⟩ :=
      LazyArray.exists_ofArray_iff.mpr ⟨hrank, hsize⟩
    have hcut : ofSeries s size = .ok ⟨s.name, s.index, values⟩ := by
      rw [ofSeries_eq, hvalues, map_ok]
    exact ⟨_, hcut, heven, (describes_ofSeries hs hcut).compute⟩

theorem exists_refused_ofSeries_iff :
    (∃ fault, ofSeries s size = .error (.invalidChunks fault)) ↔ size = 0 := by
  have hrank : s.array.rank ≠ 0 := Nat.one_ne_zero
  have hvalues := LazyArray.exists_refused_ofArray_iff s.array size
  rw [or_iff_right hrank] at hvalues
  rw [← hvalues, ofSeries_eq]
  cases LazyArray.ofArray s.array size <;> simp

end LazySeries

/-! ## 4. Arrays and columns -/

/-- **Cutting loses nothing.**  An array is cut when it has an axis and the length of the chunks is
positive; it is cut evenly, and computed in any mode it is what it was.  Otherwise it is refused for
its chunks.  A column with one label per row, which always has an axis, is cut for every positive
length, and computed it is what it was, name and labels included. -/
theorem cut_lossless (size : Nat) :
    (∀ a : NDArray,
      ((∃ l, LazyArray.ofArray a size = .ok l ∧ EvenlyCut size (a.length 0) l.chunks ∧
        ∀ mode, l.compute mode = .ok a) ↔ a.rank ≠ 0 ∧ 0 < size) ∧
      ((∃ fault, LazyArray.ofArray a size = .error (.invalidChunks fault)) ↔
        a.rank = 0 ∨ size = 0)) ∧
    ∀ s : Series, s.Fits →
      ((∃ l, LazySeries.ofSeries s size = .ok l ∧ EvenlyCut size s.length l.values.chunks ∧
        ∀ mode, l.compute mode = .ok s) ↔ 0 < size) ∧
      ((∃ fault, LazySeries.ofSeries s size = .error (.invalidChunks fault)) ↔ size = 0) :=
  ⟨fun a => ⟨LazyArray.exists_ofArray_iff, LazyArray.exists_refused_ofArray_iff a size⟩,
    fun _ hs => ⟨LazySeries.exists_ofSeries_iff hs, LazySeries.exists_refused_ofSeries_iff⟩⟩

/-- Three rows in chunks of two, and an array of two axes of which the leading one is empty. -/
theorem cut_lossless_uneven :
    let s : Series := ⟨some "N", ["a", "b", "c"], #[1, 2, 3]⟩
    s.Fits ∧
      (∃ l, LazySeries.ofSeries s 2 = .ok l ∧ l.values.chunks = [2, 1] ∧
        ∀ mode, l.compute mode = .ok s) ∧
      ∃ l, LazyArray.ofArray (fill [0, 3] 0) 2 = .ok l ∧ l.chunks = [0] ∧
        ∀ mode, l.compute mode = .ok (fill [0, 3] 0) := by
  intro s
  have hs : s.Fits := rfl
  refine ⟨hs, ?_, ?_⟩
  · obtain ⟨l, hl, -, hcompute⟩ := ((cut_lossless 2).2 s hs).1.mpr Nat.two_pos
    refine ⟨l, hl, ?_, hcompute⟩
    obtain rfl := Except.ok.inj hl
    exact (by decide : chunkSizes 3 2 = [2, 1])
  · obtain ⟨l, hl, heven, hcompute⟩ :=
      ((cut_lossless 2).1 (fill [0, 3] 0)).1.mpr ⟨by decide, Nat.two_pos⟩
    exact ⟨l, hl, heven.empty rfl, hcompute⟩

end BandMath
