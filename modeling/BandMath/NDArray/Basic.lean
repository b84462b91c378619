/-
# Arrays of floats

An array has a shape, one length per axis, and one float per position within it; the elements are
kept in row-major order, the last axis running fastest.  A position is a list with one index per
axis.  That there are as many elements as positions is part of the type (`size_data`), so no
operation has to ask for it.

An array is known by its shape and by `get`, the element at a position: `ext_get` says that nothing
else tells two arrays apart, and every operation is given by `ofFn`, with `get_ofFn` for what it
holds.  Outside the shape `get` is 0; no operation looks there.

Positions are counted by `Position.offset`, the number of positions before one in row-major order,
and `Position.ofOffset` is its inverse.  The arithmetic of indices is in the four lemmas about these
two; what follows, here and in the modules on broadcasting and joining, speaks of positions.

An axis may have length 0.  There are no positions then, and the array has no elements, but it has a
shape, and operations ask for shapes all the same.  An array without axes has one element.
-/

namespace BandMath

/-! ## 1. Positions -/

namespace Position

/-- `p` has one index for each axis of `shape`, below the length of the axis. -/
def Within : (shape p : List Nat) → Prop
  | [], [] => True
  | n :: s, i :: p => i < n ∧ Within s p
  | _, _ => False

/-- The number of positions within a shape. -/
def count : (shape : List Nat) → Nat
  | [] => 1
  | n :: s => n * count s

/-- The number of positions before `p` in row-major order. -/
def offset : (shape p : List Nat) → Nat
  | _ :: s, i :: p => i * count s + offset s p
  | _, _ => 0

/-- The position with `k` others before it. -/
def ofOffset : (shape : List Nat) → (k : Nat) → List Nat
  | [], _ => []
  | _ :: s, k => k / count s :: ofOffset s (k % count s)

theorem offset_lt : ∀ {shape p : List Nat}, Within shape p → offset shape p < count shape
  | [], [], _ => by simp [offset, count]
  | n :: s, i :: p, h => by
    have hp := offset_lt h.2
    have : (i + 1) * count s ≤ n * count s := Nat.mul_le_mul_right _ h.1
    simp only [offset, count]
    rw [Nat.add_mul] at this
    omega

theorem ofOffset_offset : ∀ {shape p : List Nat}, Within shape p →
    ofOffset shape (offset shape p) = p
  | [], [], _ => rfl
  | n :: s, i :: p, h => by
    have hp := offset_lt h.2
    have hs : 0 < count s := by omega
    simp only [offset, ofOffset]
    rw [Nat.add_comm, Nat.add_mul_div_right _ _ hs, Nat.div_eq_of_lt hp, Nat.zero_add,
      Nat.add_mul_mod_self_right, Nat.mod_eq_of_lt hp, ofOffset_offset h.2]

theorem within_ofOffset : ∀ {shape : List Nat} {k : Nat}, k < count shape →
    Within shape (ofOffset shape k)
  | [], _, _ => trivial
  | n :: s, k, h => by
    simp only [count] at h
    have hs : 0 < count s := Nat.pos_of_ne_zero fun h0 => by simp [h0] at h
    exact ⟨Nat.div_lt_of_lt_mul (by rwa [Nat.mul_comm]), within_ofOffset (Nat.mod_lt _ hs)⟩

theorem offset_ofOffset : ∀ {shape : List Nat} {k : Nat}, k < count shape →
    offset shape (ofOffset shape k) = k
  | [], k, h => by simp only [count] at h; simp [offset]; omega
  | n :: s, k, h => by
    simp only [count] at h
    have hs : 0 < count s := Nat.pos_of_ne_zero fun h0 => by simp [h0] at h
    simp only [ofOffset, offset, offset_ofOffset (Nat.mod_lt k hs)]
    rw [Nat.mul_comm]
    exact Nat.div_add_mod k (count s)

end Position

/-! ## 2. Arrays -/

/-- A shape and one float for every position within it. -/
structure NDArray where
  shape : List Nat
  /-- The elements in row-major order. -/
  data : Array Float
  size_data : data.size = Position.count shape

namespace NDArray

/-- The element at a position. -/
def get (a : NDArray) (p : List Nat) : Float :=
  a.data.getD (Position.offset a.shape p) 0

/-- The array of a shape that holds `f p` at every position `p`. -/
def ofFn (shape : List Nat) (f : List Nat → Float) : NDArray where
  shape := shape
  data := Array.ofFn (n := Position.count shape) fun k => f (Position.ofOffset shape k)
  size_data := by simp

@[simp] theorem shape_ofFn (shape : List Nat) (f : List Nat → Float) :
    (ofFn shape f).shape = shape := rfl

theorem get_ofFn {shape p : List Nat} (f : List Nat → Float) (h : Position.Within shape p) :
    (ofFn shape f).get p = f p := by
  simp [get, ofFn, Array.getD, Position.offset_lt h, Position.ofOffset_offset h]

/-- Two arrays of one shape with the same elements are the same. -/
theorem ext_get {a b : NDArray} (hs : a.shape = b.shape)
    (h : ∀ p, Position.Within a.shape p → a.get p = b.get p) : a = b := by
  obtain ⟨s, xs, hx⟩ := a
  obtain ⟨t, ys, hy⟩ := b
  obtain rfl : s = t := hs
  congr 1
  apply Array.ext (by rw [hx, hy])
  intro k hk hk'
  have hk'' : k < Position.count s := hx ▸ hk
  have := h (Position.ofOffset s k) (Position.within_ofOffset hk'')
  simpa [get, Position.offset_ofOffset hk'', Array.getD, hk, hk'] using this

/-- The array of one axis that holds the elements of a list. -/
def ofList (xs : List Float) : NDArray where
  shape := [xs.length]
  data := xs.toArray
  size_data := by simp [Position.count]

/-- The array of a shape with the given elements in row-major order, if their number fits. -/
def ofShape? (shape : List Nat) (xs : List Float) : Option NDArray :=
  if h : xs.toArray.size = Position.count shape then some ⟨shape, xs.toArray, h⟩ else none

/-- The elements in row-major order. -/
def toList (a : NDArray) : List Float :=
  a.data.toList

/-- The number of axes. -/
def rank (a : NDArray) : Nat :=
  a.shape.length

/-- The length of an axis. -/
def length (a : NDArray) (axis : Nat) : Nat :=
  a.shape.getD axis 0

/-- Equal shapes, and elements that compare equal: NaN differs from itself, and the two zeros do not
differ. -/
instance : BEq NDArray where
  beq a b := a.shape == b.shape && a.data == b.data

/-! ## 3. One function at every element -/

/-- Applies a function to every element. -/
def map (f : Float → Float) (a : NDArray) : NDArray where
  shape := a.shape
  data := a.data.map f
  size_data := by simp [a.size_data]

@[simp] theorem shape_map (f : Float → Float) (a : NDArray) : (a.map f).shape = a.shape := rfl

theorem get_map {a : NDArray} {p : List Nat} (f : Float → Float)
    (h : Position.Within a.shape p) : (a.map f).get p = f (a.get p) := by
  have : Position.offset a.shape p < a.data.size := a.size_data ▸ Position.offset_lt h
  simp [get, map, Array.getD, this]

/-- The array that holds one float everywhere. -/
def fill (shape : List Nat) (v : Float) : NDArray :=
  ofFn shape fun _ => v

end NDArray

end BandMath
