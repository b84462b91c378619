/-
# Chunks and the arrays they are cut from

Chunks that cover the leading axis of an array give the array back when they are evaluated one by
one and joined (`Layout.Cuts.realize`).  Arithmetic does not look beyond one position, so it may be
done on the chunks or on the whole: a chunk of a result is the result for the chunk (`chunkOf_map`,
`zipWith_chunkOf`).  Arrays that are stacked are the chunks of the stack (`chunkOf_stack`).

All of this is asked of a layout and an array together: `Layout.Cuts` says that the chunks of the
layout cover the leading axis of the array and that there is a chunk at all.  The latter matters for
empty arrays, which are cut into one empty chunk, for otherwise there would be nothing to join.

Two layouts are in use, and both cut the arrays that they are made for: chunks of one length with a
shorter one at the end (`cuts_chunkSizes`), and the layout of a stack, with one position in each
chunk (`cuts_stack`).

A mode of working occurs in `Layout.Cuts.realize` only, and drops out there.
-/
import BandMath.Deferred.LazyArray
import BandMath.Proofs.Fallible
import BandMath.Proofs.NDArray.Slicing

namespace BandMath

open NDArray Position

/-! ## 1. Chunks -/

namespace Deferred

variable {a b c : NDArray} {chunks : List Nat} {i : Nat}

theorem chunkStart_add_le : ∀ {chunks : List Nat} {i : Nat}, i < chunks.length →
    chunkStart chunks i + chunks.getD i 0 ≤ total chunks
  | [], i, h => absurd h (Nat.not_lt_zero i)
  | n :: ns, 0, _ => by
    rw [chunkStart, List.take_zero, total, total, List.getD_cons_zero, Nat.zero_add]
    exact Nat.le_add_right n _
  | n :: ns, i + 1, h => by
    have ih := chunkStart_add_le (Nat.lt_of_succ_lt_succ h)
    rw [chunkStart] at ih ⊢
    rw [List.take_succ_cons, List.getD_cons_succ, total, total, Nat.add_assoc]
    exact Nat.add_le_add_left ih n

theorem map_slice_range (a : NDArray) : ∀ (ns : List Nat) (start : Nat),
    (List.range ns.length).map (fun i => a.slice (start + chunkStart ns i) (ns.getD i 0)) =
      slices a start ns
  | [], _ => rfl
  | n :: ns, start => by
    rw [List.length_cons, List.range_succ_eq_map, List.map_cons, List.map_map, slices,
      ← map_slice_range a ns (start + n)]
    refine congrArg (List.cons _) (List.map_congr_left fun i _ => ?_)
    rw [Function.comp_apply, List.getD_cons_succ, chunkStart, chunkStart, List.take_succ_cons,
      total, Nat.add_assoc]

/-- The chunks of an array, in order. -/
theorem map_chunkOf (a : NDArray) (chunks : List Nat) :
    (List.range chunks.length).map (chunkOf a chunks) = slices a 0 chunks := by
  rw [← map_slice_range]
  refine List.map_congr_left fun i _ => ?_
  rw [chunkOf, Nat.zero_add]

/-- The layout is one of the array: its chunks cover the leading axis. -/
structure Layout.Cuts (layout : Layout) (a : NDArray) : Prop where
  shape : a.shape = layout.shape
  leads : a.Leads (total layout.chunks)
  chunks : layout.chunks ≠ []

namespace Layout.Cuts

variable {layout : Layout}

/-- **Chunks that are evaluated one by one make the array**, in any mode. -/
theorem realize {block : Nat → Except Error Block} (h : layout.Cuts a)
    (hblock : ∀ i < layout.chunks.length, block i = .ok (.array (chunkOf a layout.chunks i)))
    (mode : Mode) : Deferred.realize mode layout block = .ok a := by
  have hparts : (List.range layout.chunks.length).map (fun i => (block i).map (Block.fill layout i))
      = (List.range layout.chunks.length).map fun i => .ok (chunkOf a layout.chunks i) := by
    refine List.map_congr_left fun i hi => ?_
    rw [hblock i (List.mem_range.mp hi)]
    rfl
  have hall : ((List.range layout.chunks.length).map fun i =>
      (.ok (chunkOf a layout.chunks i) : Except Error NDArray)).mapM id =
      .ok (slices a 0 layout.chunks) := by
    rw [List.mapM_map, ← map_chunkOf]
    exact List.mapM_pure
  unfold Deferred.realize
  dsimp only
  rw [Mode.map_eq, hparts, hall, ok_bind]
  cases hslices : slices a 0 layout.chunks with
  | nil =>
    rw [← map_chunkOf, List.map_eq_nil_iff, List.range_eq_nil, List.length_eq_zero_iff] at hslices
    exact absurd hslices h.chunks
  | cons first others => exact join_slices h.leads hslices

theorem map (h : layout.Cuts a) (f : Float → Float) : layout.Cuts (a.map f) :=
  ⟨h.shape, h.leads, h.chunks⟩

theorem chunkOf_map (h : layout.Cuts a) (hi : i < layout.chunks.length) (f : Float → Float) :
    (chunkOf a layout.chunks i).map f = chunkOf (a.map f) layout.chunks i :=
  slice_map h.leads (chunkStart_add_le hi) f

theorem zipWith_chunkOf {f : Float → Float → Float} (h : layout.Cuts a)
    (hshape : b.shape = a.shape) (hi : i < layout.chunks.length) (hc : zipWith f a b = .ok c) :
    zipWith f (chunkOf a layout.chunks i) (chunkOf b layout.chunks i) =
      .ok (chunkOf c layout.chunks i) :=
  zipWith_slice h.leads hshape (chunkStart_add_le hi) hc

end Layout.Cuts

/-! ## 2. Two layouts -/

theorem total_replicate (n size : Nat) : total (List.replicate n size) = n * size := by
  induction n with
  | zero => exact (Nat.zero_mul size).symm
  | succ n ih => rw [List.replicate_succ, total, ih, Nat.succ_mul, Nat.add_comm]

theorem total_append (ns ms : List Nat) : total (ns ++ ms) = total ns + total ms := by
  induction ns with
  | nil => exact (Nat.zero_add _).symm
  | cons n ns ih => rw [List.cons_append, total, total, ih, Nat.add_assoc]

theorem total_chunkSizes (n size : Nat) : total (chunkSizes n size) = n := by
  unfold chunkSizes
  split
  · rename_i h
    exact h.symm
  · have hmod := Nat.div_add_mod n size
    rw [total_append, total_replicate, Nat.mul_comm]
    split
    · rw [total]
      omega
    · rw [total, total]
      omega

theorem chunkSizes_ne_nil (n size : Nat) : chunkSizes n size ≠ [] := by
  unfold chunkSizes
  split
  · exact List.cons_ne_nil 0 []
  · intro h
    obtain ⟨hreplicate, hrest⟩ := List.append_eq_nil_iff.mp h
    have hdiv : n / size = 0 := by simpa using hreplicate
    have hmod := Nat.div_add_mod n size
    split at hrest
    · rw [hdiv] at hmod
      omega
    · exact nomatch hrest

/-- Chunks of one length are a layout. -/
theorem cuts_chunkSizes (hrank : a.rank ≠ 0) (size : Nat) :
    Layout.Cuts ⟨a.shape, chunkSizes (a.length 0) size⟩ a := by
  refine ⟨rfl, ?_, chunkSizes_ne_nil _ _⟩
  rw [Leads, total_chunkSizes, length]
  obtain ⟨shape, data, hd⟩ := a
  cases shape with
  | nil => exact absurd rfl hrank
  | cons n s => rfl

/-- The layout of a stack has one chunk for each array. -/
theorem cuts_stack {first : NDArray} {others : List NDArray} (h : stack first others = .ok c) :
    Layout.Cuts ⟨(others.length + 1) :: first.shape, List.replicate (others.length + 1) 1⟩ c := by
  obtain ⟨-, rfl⟩ := stack_eq_ok_iff.mp h
  refine ⟨rfl, ?_, List.cons_ne_nil _ _⟩
  rw [Leads, total_replicate, Nat.mul_one]
  rfl

/-- **The chunks of a stack are the arrays that were stacked.** -/
theorem chunkOf_stack {first : NDArray} {others : List NDArray} (h : stack first others = .ok c)
    (hi : (first :: others)[i]? = some a) :
    chunkOf c (List.replicate (others.length + 1) 1) i = a.lift := by
  have hlt : i < others.length + 1 := (List.getElem?_eq_some_iff.mp hi).1
  have hstart : chunkStart (List.replicate (others.length + 1) 1) i = i := by
    rw [chunkStart, List.take_replicate, total_replicate, Nat.mul_one]
    exact Nat.min_eq_left (Nat.le_of_lt hlt)
  have hsize : (List.replicate (others.length + 1) 1).getD i 0 = 1 := by
    rw [List.getD_eq_getElem?_getD, List.getElem?_replicate_of_lt hlt]
    rfl
  rw [chunkOf, hstart, hsize, slice_stack h hi]

end Deferred

end BandMath
