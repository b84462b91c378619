/-
# Slices and stacks

Slices that cover the leading axis of an array give the array back when they are joined
(`join_slices`), and arithmetic may be done on a slice or on the whole (`slice_map`,
`zipWith_slice`).  Arrays that are stacked are found again at their positions, with the new axis
(`slice_stack`) and without it (`select_stack`).

A slice is along the leading axis, so arrays here have one (`Leads`).  An element of a slice is the
element of the array so many positions further on (`get_slice`), and two arrays are shown to be
equal by their shapes and their elements (`ext_get`).

`join_slices` is by induction on the slices.  Joined arrays are looked up by walking along them, and
what is left of a position after the first slice is a position of the others (`getJoined_slices`).
Slices need not be of one length, and some of them may be empty.

`Stacks` says of an array that its leading positions are the given arrays, in order; it is what the
combination of results is measured against (`BandMath.Proofs.Combination.Families`).

Whether arrays can be stacked or joined is a matter of their shapes alone (`stack_follows`,
`join_follows`).
-/
import BandMath.NDArray.Join
import BandMath.Proofs.Fallible
import BandMath.Proofs.NDArray.Stretching
import Mathlib.Algebra.GroupWithZero.Nat

namespace BandMath

open NDArray Position

/-! ## 1. Slices -/

namespace NDArray

variable {a b : NDArray} {start count : Nat}

/-- The array has a leading axis, of length `n`. -/
def Leads (a : NDArray) (n : Nat) : Prop := a.shape = n :: a.shape.tail

theorem get_slice {i : Nat} {p : List Nat} (hi : i < count) (hp : Within a.shape.tail p) :
    (a.slice start count).get (i :: p) = a.get ((start + i) :: p) :=
  get_ofFn _ (show Within (count :: a.shape.tail) (i :: p) from ⟨hi, hp⟩)

/-- A slice is known by its elements. -/
theorem eq_slice (hshape : b.shape = count :: a.shape.tail)
    (h : ∀ i p, i < count → Within a.shape.tail p → b.get (i :: p) = a.get ((start + i) :: p)) :
    b = a.slice start count := by
  refine ext_get hshape fun q hq => ?_
  rw [hshape] at hq
  obtain ⟨i, p, rfl, hi, hp⟩ := within_cons hq
  rw [get_slice hi hp, h i p hi hp]

theorem slice_map {n : Nat} (ha : a.Leads n) (hn : start + count ≤ n) (f : Float → Float) :
    (a.slice start count).map f = (a.map f).slice start count := by
  refine eq_slice rfl fun i p hi hp => ?_
  have hp' : Within a.shape.tail p := hp
  have hslice : Within (a.slice start count).shape (i :: p) := ⟨hi, hp'⟩
  have hwhole : Within a.shape ((start + i) :: p) := by
    rw [ha]
    exact ⟨by omega, hp'⟩
  rw [get_map f hslice, get_map f hwhole, get_slice hi hp']

theorem zipWith_slice {n : Nat} {f : Float → Float → Float} {c : NDArray} (ha : a.Leads n)
    (hshape : b.shape = a.shape) (hn : start + count ≤ n) (h : zipWith f a b = .ok c) :
    zipWith f (a.slice start count) (b.slice start count) = .ok (c.slice start count) := by
  rw [zipWith_of_shape_eq hshape] at h
  obtain rfl := Except.ok.inj h
  have hslices : (b.slice start count).shape = (a.slice start count).shape :=
    congrArg (fun s : List Nat => count :: s.tail) hshape
  rw [zipWith_of_shape_eq hslices]
  refine congrArg Except.ok (eq_slice rfl fun i p hi hp => ?_)
  have hp' : Within a.shape.tail p := hp
  have hpb : Within b.shape.tail p := by
    rw [hshape]
    exact hp'
  have hslice : Within (a.slice start count).shape (i :: p) := ⟨hi, hp'⟩
  have hwhole : Within a.shape ((start + i) :: p) := by
    rw [ha]
    exact ⟨by omega, hp'⟩
  rw [get_ofFn _ hslice, get_ofFn _ hwhole, get_slice hi hp', get_slice hi hpb]

/-! ## 2. Slices one after the other -/

theorem total_eq_sum (ns : List Nat) : total ns = ns.sum := by
  induction ns with
  | nil => rfl
  | cons n ns ih => rw [total, ih, List.sum_cons]

/-- The slices of the given lengths, from a position on. -/
def slices (a : NDArray) : Nat → List Nat → List NDArray
  | _, [] => []
  | start, n :: ns => a.slice start n :: slices a (start + n) ns

theorem shape_of_mem_slices : ∀ {ns : List Nat} {start : Nat}, b ∈ slices a start ns →
    ∃ n, b.shape = n :: a.shape.tail
  | [], _, h => absurd h List.not_mem_nil
  | n :: ns, start, h => by
    rcases List.mem_cons.mp h with rfl | h
    · exact ⟨n, rfl⟩
    · exact shape_of_mem_slices h

theorem total_slices : ∀ (ns : List Nat) (start : Nat),
    total ((slices a start ns).map (·.length 0)) = total ns
  | [], _ => rfl
  | n :: ns, start => by
    rw [slices, List.map_cons, total, total, total_slices ns]
    rfl

/-- By induction on the slices; what is left of a position after the first of them is a position of
the others. -/
theorem getJoined_slices {p : List Nat} (hp : Within a.shape.tail p) :
    ∀ (ns : List Nat) (start i : Nat), i < total ns →
      getJoined 0 (slices a start ns) (i :: p) = a.get ((start + i) :: p)
  | [], _, i, h => absurd h (Nat.not_lt_zero i)
  | n :: ns, start, i, h => by
    have hlength : (a.slice start n).length 0 = n := rfl
    simp only [slices, getJoined, List.getD_cons_zero, List.set_cons_zero, hlength]
    rw [total] at h
    split
    · rename_i hi
      exact get_slice hi hp
    · rename_i hi
      rw [getJoined_slices hp ns (start + n) (i - n) (by omega)]
      rw [show start + n + (i - n) = start + i by omega]

/-- When arrays can be joined, and to what. -/
theorem join_eq_ok_iff {axis : Nat} {first c : NDArray} {others : List NDArray} :
    join axis first others = .ok c ↔
      (∀ b ∈ others, b.rank = first.rank ∧ b.shape.eraseIdx axis = first.shape.eraseIdx axis) ∧
        c = ofFn (first.shape.set axis (total ((first :: others).map (·.length axis))))
          (getJoined axis (first :: others)) := by
  unfold join
  dsimp only
  constructor
  · intro h
    split at h
    · rename_i hall
      exact ⟨fun b hb => of_decide_eq_true (List.all_eq_true.mp hall b hb),
        (Except.ok.inj h).symm⟩
    · exact nomatch h
  · rintro ⟨hall, rfl⟩
    exact if_pos (List.all_eq_true.mpr fun b hb => decide_eq_true (hall b hb))

theorem shape_join {axis : Nat} {first c : NDArray} {others : List NDArray}
    (h : join axis first others = .ok c) :
    c.shape = first.shape.set axis (total ((first :: others).map (·.length axis))) := by
  obtain ⟨-, rfl⟩ := join_eq_ok_iff.mp h
  rfl

/-- **Slices that cover the leading axis join to the array.** -/
theorem join_slices {first : NDArray} {others : List NDArray} {ns : List Nat}
    (ha : a.Leads (total ns)) (h : slices a 0 ns = first :: others) :
    join 0 first others = .ok a := by
  have hshapes : ∀ b ∈ first :: others, ∃ n, b.shape = n :: a.shape.tail :=
    fun b hb => shape_of_mem_slices (h ▸ hb)
  obtain ⟨n, hfirst⟩ := hshapes first (List.mem_cons_self ..)
  have hshape : first.shape.set 0 (total ((first :: others).map (·.length 0))) = a.shape := by
    rw [← h, total_slices, hfirst, List.set_cons_zero]
    exact ha.symm
  refine join_eq_ok_iff.mpr ⟨fun b hb => ?_, ?_⟩
  · obtain ⟨m, hm⟩ := hshapes b (List.mem_cons_of_mem _ hb)
    rw [rank, rank, hm, hfirst]
    exact ⟨rfl, rfl⟩
  · rw [hshape, ← h]
    refine ext_get rfl fun p hp => ?_
    rw [get_ofFn _ hp]
    rw [ha] at hp
    obtain ⟨i, q, rfl, hi, hq⟩ := within_cons hp
    rw [getJoined_slices hq ns 0 i hi, Nat.zero_add]

/-! ## 3. Slices of a stack -/

theorem get_lift {p : List Nat} : a.lift.get (0 :: p) = a.get p := by
  simp [get, lift, offset]

theorem stack_eq_ok_iff {first c : NDArray} {others : List NDArray} :
    stack first others = .ok c ↔ (∀ b ∈ others, b.shape = first.shape) ∧
      c = ofFn ((others.length + 1) :: first.shape) fun
        | i :: p => ((first :: others).getD i first).get p
        | [] => 0 := by
  simp only [stack, List.length_cons]
  constructor
  · intro h
    split at h
    · rename_i hall
      exact ⟨fun b hb => of_decide_eq_true (List.all_eq_true.mp hall b hb), (Except.ok.inj h).symm⟩
    · cases h
  · rintro ⟨hall, rfl⟩
    exact if_pos (List.all_eq_true.mpr fun b hb => decide_eq_true (hall b hb))

theorem eq_of_stack_eq_error {first : NDArray} {others : List NDArray} {e : Error}
    (h : stack first others = .error e) : e = .incompatibleShapes := by
  unfold stack at h
  dsimp only at h
  split at h
  · exact nomatch h
  · exact (Except.error.inj h).symm

section Stack

variable {first c : NDArray} {others : List NDArray} {i : Nat}

theorem shape_stack (h : stack first others = .ok c) (hi : (first :: others)[i]? = some a) :
    c.shape = (others.length + 1) :: a.shape := by
  obtain ⟨hall, rfl⟩ := stack_eq_ok_iff.mp h
  refine congrArg (List.cons _) ?_
  rcases List.mem_cons.mp (List.mem_of_getElem? hi) with rfl | hmem
  · rfl
  · exact (hall a hmem).symm

/-- A stack has at a position the element of the array that is put there. -/
theorem get_stack {p : List Nat} (h : stack first others = .ok c)
    (hi : (first :: others)[i]? = some a) (hp : Within a.shape p) :
    c.get (i :: p) = a.get p := by
  have hshape := shape_stack h hi
  have hlt : i < others.length + 1 := (List.getElem?_eq_some_iff.mp hi).1
  obtain ⟨-, rfl⟩ := stack_eq_ok_iff.mp h
  have hwithin : Within ((others.length + 1) :: first.shape) (i :: p) := by
    rw [← shape_ofFn (_ :: first.shape), hshape]
    exact ⟨hlt, hp⟩
  have hget : (first :: others).getD i first = a := by
    rw [List.getD_eq_getElem?_getD, hi]
    rfl
  rw [get_ofFn _ hwithin]
  exact congrArg (fun b => b.get p) hget

/-- One position of a stack, under an axis of length 1. -/
theorem slice_stack (h : stack first others = .ok c) (hi : (first :: others)[i]? = some a) :
    c.slice i 1 = a.lift := by
  have hshape := shape_stack h hi
  refine (eq_slice ?_ fun j p hj hp => ?_).symm
  · rw [hshape]
    rfl
  · obtain rfl : j = 0 := by omega
    have hp' : Within a.shape p := by
      rw [hshape] at hp
      exact hp
    rw [get_lift]
    exact (get_stack h hi hp').symm

/-- **One position of a stack is the array that was put there.** -/
theorem select_stack (h : stack first others = .ok c) (hi : (first :: others)[i]? = some a) :
    c.select 0 i = a := by
  have hshape : c.shape.eraseIdx 0 = a.shape := congrArg (·.eraseIdx 0) (shape_stack h hi)
  refine ext_get hshape fun p hp => ?_
  have hp' : Within (c.shape.eraseIdx 0) p := hp
  rw [select, get_ofFn _ hp']
  exact get_stack h hi (hshape ▸ hp')

end Stack

/-- The positions of the leading axis are the given arrays, in order. -/
structure Stacks (c : NDArray) (arrays : List NDArray) : Prop where
  shape : ∀ a ∈ arrays, c.shape = arrays.length :: a.shape
  select : ∀ (i : Nat) (a : NDArray), arrays[i]? = some a → c.select 0 i = a

/-- **Nothing is lost, mixed or reordered in a stack.** -/
theorem stacks_stack {first c : NDArray} {others : List NDArray}
    (h : stack first others = .ok c) : c.Stacks (first :: others) := by
  refine ⟨fun a ha => ?_, fun i a hi => select_stack h hi⟩
  obtain ⟨i, hi⟩ := List.mem_iff_getElem?.mp ha
  exact shape_stack h hi

/-! ## 4. Shapes decide -/

theorem all_of_map_eq {α β : Type} {f : α → β} {xs ys : List α} (h : xs.map f = ys.map f)
    (p : β → Bool) : (xs.all fun x => p (f x)) = ys.all fun y => p (f y) := by
  have hmap := congrArg (fun zs => zs.all p) h
  rwa [List.all_map, List.all_map] at hmap

variable {others others' : List NDArray}

/-- Whether arrays can be stacked, and to which shape, is a matter of their shapes. -/
theorem stack_follows (h : a.shape = b.shape) (hall : others.map shape = others'.map shape) :
    Follows true (fun c c' => shape c = shape c') (stack a others) (stack b others') := by
  have hlength : others.length = others'.length := by simpa using congrArg List.length hall
  have hcond := all_of_map_eq hall fun s => decide (s = b.shape)
  unfold stack
  dsimp only
  rw [h, hcond]
  split
  · exact congrArg (fun n => (n + 1) :: b.shape) hlength
  · exact fun _ => rfl

/-- Likewise for arrays that are joined along an axis. -/
theorem join_follows (axis : Nat) (h : a.shape = b.shape)
    (hall : others.map shape = others'.map shape) :
    Follows true (fun c c' => shape c = shape c') (join axis a others) (join axis b others') := by
  have hcond := all_of_map_eq hall fun s =>
    decide (s.length = b.shape.length ∧ s.eraseIdx axis = b.shape.eraseIdx axis)
  have hlengths : (a :: others).map (·.length axis) = (b :: others').map (·.length axis) := by
    have hmap := congrArg (List.map fun s : List Nat => s.getD axis 0) (congrArg₂ List.cons h hall)
    rwa [← List.map_cons, ← List.map_cons, List.map_map, List.map_map] at hmap
  unfold join rank
  dsimp only
  rw [h, hcond, hlengths]
  split
  · exact rfl
  · exact fun _ => rfl

end NDArray

end BandMath
