/-
# Labeled things put together

Series with the same row labels make a table, and each is found again under its name
(`Frame.Collects`).  Labeled arrays with the same dimensions and the same shape are laid one upon
the other along a new dimension, and each is found again under its label (`LabeledArray.Collects`).

The coordinates of the other dimensions are those of the first array (`coord?_concatUnder`): those
of the others are never looked at, so they cannot make a concatenation fail either
(`concatUnder_follows`).

Names and labels may repeat, and then the first is found.  So everything is said of the parts by
their number, and besides of look-ups by name if no two names are the same (`idxOf?_of_nodup`).

An array that is put together along a dimension gets its labels afterwards (`withCoord`), and the
two steps are taken together as `concatUnder`, which is what is done with the results of a batch.
Along a new dimension it succeeds exactly if dimensions and shapes agree
(`exists_concatUnder_iff`), and fails with the first array that differs
(`eq_of_concatUnder_eq_error`).  Along a dimension that the arrays have, labels are counted by
positions and not by arrays; this is dealt with in `BandMath.Proofs.Combination.Shares`.
-/
import BandMath.Labeled.Frame
import BandMath.Labeled.LabeledArray
import BandMath.Proofs.Fallible
import BandMath.Proofs.NDArray.Slicing

namespace BandMath

/-! ## 1. Places of names -/

/-- Among distinct names, a name stands where it is found first. -/
theorem idxOf?_of_nodup {names : List String} {i : Nat} {name : String} (h : names.Nodup)
    (hi : names[i]? = some name) : names.idxOf? name = some i := by
  obtain ⟨hlt, rfl⟩ := List.getElem?_eq_some_iff.mp hi
  refine List.idxOf?_eq_some_iff.mpr ⟨hlt, rfl, fun j hj heq => ?_⟩
  exact absurd ((List.getElem_inj h).mp heq) (Nat.ne_of_lt hj)

/-! ## 2. Tables -/

namespace Frame

/-- The columns of the table are the values of the series, under the given names. -/
structure Collects (f : Frame) (names : List String) (series : List Series) : Prop where
  columns : f.columns = names
  index : ∀ s ∈ series, f.index = s.index
  data : f.data = series.map (·.values)
  column? : names.Nodup → ∀ (i : Nat) (name : String) (s : Series), names[i]? = some name →
    series[i]? = some s → f.column? name = some { s with name := some name }

variable {first : Series} {others series : List Series} {names : List String} {f : Frame}

/-- What a table consists of. -/
theorem ofSeries_eq_ok (h : ofSeries names series = .ok f) : names.length = series.length ∧
    (∀ s ∈ series, s.index = f.index) ∧ f.columns = names ∧ f.data = series.map (·.values) := by
  unfold ofSeries at h
  dsimp only at h
  split at h
  · exact nomatch h
  · rename_i hlength
    split at h
    · rename_i hall
      obtain rfl := Except.ok.inj h
      exact ⟨not_not.mp hlength, fun s hs => of_decide_eq_true (List.all_eq_true.mp hall s hs),
        rfl, rfl⟩
    · exact nomatch h

end Frame

/-! ## 3. Labeled arrays -/

namespace LabeledArray

/-- Along its leading dimension the labeled array has the given arrays, under the given labels. -/
structure Collects (u : LabeledArray) (dim : String) (labels : List String)
    (arrays : List LabeledArray) : Prop where
  dims : ∀ a ∈ arrays, u.dims = dim :: a.dims
  coord? : u.coord? dim = some labels
  data : u.data.Stacks (arrays.map (·.data))
  select : labels.Nodup → ∀ (i : Nat) (label : String) (a : LabeledArray),
    labels[i]? = some label → arrays[i]? = some a →
      ∃ s, u.select dim label = .ok s ∧ s.dims = a.dims ∧ s.shape = a.shape ∧ s.data = a.data

variable {first u v a : LabeledArray} {others arrays : List LabeledArray} {dim d label : String}
  {labels : List String} {i : Nat}

/-- A coordinate is given to one dimension only. -/
theorem getElem?_insert_of_ne {coords : Coordinates} (h : d ≠ dim) :
    (coords.insert dim labels)[d]? = coords[d]? := by
  rw [Std.ExtTreeMap.getElem?_insert, if_neg]
  simpa using h.symm

theorem getElem?_erase_of_ne {coords : Coordinates} (h : d ≠ dim) :
    (coords.erase dim)[d]? = coords[d]? := by
  rw [Std.ExtTreeMap.getElem?_erase, if_neg]
  simpa using h.symm

theorem withCoord_eq_ok_iff : a.withCoord dim labels = .ok u ↔
    ∃ i, a.dims.idxOf? dim = some i ∧ labels.length = a.data.length i ∧
      u = { a with coords := a.coords.insert dim labels } := by
  unfold withCoord axis
  cases a.dims.idxOf? dim with
  | none => simp
  | some i =>
    dsimp only
    rw [ok_bind]
    by_cases hlength : labels.length = a.data.length i
    · rw [if_pos hlength]
      constructor
      · exact fun h => ⟨i, rfl, hlength, (Except.ok.inj h).symm⟩
      · rintro ⟨-, -, -, rfl⟩
        rfl
    · rw [if_neg hlength]
      constructor
      · exact fun h => nomatch h
      · rintro ⟨j, hj, h, -⟩
        obtain rfl := Option.some.inj hj
        exact absurd h hlength

theorem coord?_withCoord (h : a.withCoord dim labels = .ok u) : u.coord? dim = some labels := by
  obtain ⟨i, -, -, rfl⟩ := withCoord_eq_ok_iff.mp h
  exact Std.ExtTreeMap.getElem?_insert_self

theorem coord?_withCoord_of_ne (h : a.withCoord dim labels = .ok u) (hd : d ≠ dim) :
    u.coord? d = a.coord? d := by
  obtain ⟨i, -, -, rfl⟩ := withCoord_eq_ok_iff.mp h
  exact getElem?_insert_of_ne hd

/-! ## 4. Concatenation -/

theorem find?_dims_eq_none_iff : others.find? (fun b => b.dims ≠ first.dims) = none ↔
    ∀ b ∈ others, b.dims = first.dims := by
  simp [List.find?_eq_none]

/-- What a concatenation is: the dimensions are those of the first array, with the given one before
them if it is new, and the coordinates are those of the first but for the given dimension. -/
theorem concat_eq_ok (h : concat (first :: others) dim = .ok u) :
    (∀ b ∈ others, b.dims = first.dims) ∧
      (∀ d, d ≠ dim → u.coord? d = first.coord? d) ∧
      (dim ∉ first.dims → u.dims = dim :: first.dims ∧
        NDArray.stack first.data (others.map (·.data)) = .ok u.data) := by
  unfold concat at h
  dsimp only at h
  split at h
  · exact nomatch h
  · rename_i hfind
    refine ⟨find?_dims_eq_none_iff.mp hfind, ?_⟩
    split at h
    · rename_i i hi
      have hmem : dim ∈ first.dims := List.isSome_idxOf?.mp (by rw [hi]; rfl)
      obtain ⟨data, -, h⟩ := bind_eq_ok_iff.mp h
      obtain rfl := Except.ok.inj h
      refine ⟨fun d hd => ?_, fun hnew => absurd hmem hnew⟩
      unfold coord?
      dsimp only
      split
      · exact getElem?_insert_of_ne hd
      · exact getElem?_erase_of_ne hd
    · obtain ⟨data, hdata, h⟩ := bind_eq_ok_iff.mp h
      obtain rfl := Except.ok.inj h
      exact ⟨fun d _ => rfl, fun _ => ⟨rfl, hdata⟩⟩

theorem frames_of_concat (hdim : dim ∉ first.dims) (h : concat (first :: others) dim = .ok u) :
    (∀ b ∈ others, b.dims = first.dims) ∧ ∀ b ∈ others, b.shape = first.shape := by
  obtain ⟨hdims, -, hnew⟩ := concat_eq_ok h
  obtain ⟨hshapes, -⟩ := NDArray.stack_eq_ok_iff.mp (hnew hdim).2
  exact ⟨hdims, fun b hb => hshapes b.data (List.mem_map_of_mem hb)⟩

/-- Arrays of one frame can be laid along a new dimension. -/
theorem concat_of_not_mem {data : NDArray} (hdim : dim ∉ first.dims)
    (hdims : ∀ b ∈ others, b.dims = first.dims)
    (hdata : NDArray.stack first.data (others.map (·.data)) = .ok data) :
    concat (first :: others) dim = .ok ⟨none, dim :: first.dims, first.coords, data⟩ := by
  have hfind := find?_dims_eq_none_iff.mpr hdims
  have hidx := List.idxOf?_eq_none_iff.mpr hdim
  unfold concat
  dsimp only
  rw [hfind]
  dsimp only
  rw [hidx]
  dsimp only
  rw [hdata]
  rfl

/-- What is wrong with arrays that do not go together along a new dimension: the first array of
other dimensions than the very first, if there is one, and otherwise the shapes. -/
def mismatch (first : LabeledArray) (others : List LabeledArray) : Error :=
  match others.find? fun b => b.dims ≠ first.dims with
  | some b => .dimensionMismatch first.dims b.dims
  | none => .incompatibleShapes

theorem eq_of_concat_eq_error {e : Error} (hdim : dim ∉ first.dims)
    (h : concat (first :: others) dim = .error e) : e = mismatch first others := by
  have hidx := List.idxOf?_eq_none_iff.mpr hdim
  unfold concat at h
  unfold mismatch
  dsimp only at h
  cases hfind : others.find? fun b => b.dims ≠ first.dims with
  | some b =>
    rw [hfind] at h
    exact (Except.error.inj h).symm
  | none =>
    rw [hfind] at h
    dsimp only at h
    rw [hidx] at h
    dsimp only at h
    cases hdata : NDArray.stack first.data (others.map (·.data)) with
    | error e' =>
      obtain rfl := NDArray.eq_of_stack_eq_error hdata
      rw [hdata] at h
      exact (Except.error.inj h).symm
    | ok data =>
      rw [hdata] at h
      exact nomatch h

/-! ## 5. Concatenation under labels -/

/-- Arrays along a dimension whose positions get the given labels. -/
def concatUnder (arrays : List LabeledArray) (dim : String) (labels : List String) :
    Except Error LabeledArray := do
  (← concat arrays dim).withCoord dim labels

/-- Coordinates are taken from the first array, whatever the others have. -/
theorem coord?_concatUnder (h : concatUnder (first :: others) dim labels = .ok u) (hd : d ≠ dim) :
    u.coord? d = first.coord? d := by
  obtain ⟨v, hv, hu⟩ := bind_eq_ok_iff.mp h
  rw [coord?_withCoord_of_ne hu hd, (concat_eq_ok hv).2.1 d hd]

/-- Along a new dimension, arrays with the same dimensions and the same shape go together, and no
others. -/
theorem exists_concatUnder_iff (hdim : dim ∉ first.dims)
    (hlength : labels.length = (first :: others).length) :
    (∃ u, concatUnder (first :: others) dim labels = .ok u) ↔
      (∀ b ∈ others, b.dims = first.dims) ∧ ∀ b ∈ others, b.shape = first.shape := by
  constructor
  · rintro ⟨u, h⟩
    obtain ⟨v, hv, -⟩ := bind_eq_ok_iff.mp h
    exact frames_of_concat hdim hv
  · rintro ⟨hdims, hshapes⟩
    have hdata : ∀ c ∈ others.map (·.data), c.shape = first.data.shape := by
      intro c hc
      obtain ⟨b, hb, rfl⟩ := List.mem_map.mp hc
      exact hshapes b hb
    have hconcat := concat_of_not_mem hdim hdims (NDArray.stack_eq_ok_iff.mpr ⟨hdata, rfl⟩)
    have hidx : (dim :: first.dims).idxOf? dim = some 0 := by simp [List.idxOf?_cons]
    refine ⟨_, bind_eq_ok_iff.mpr ⟨_, hconcat, withCoord_eq_ok_iff.mpr ⟨0, hidx, ?_, rfl⟩⟩⟩
    rw [hlength]
    simp [NDArray.length]

theorem eq_of_concatUnder_eq_error {e : Error} (hdim : dim ∉ first.dims)
    (hlength : labels.length = (first :: others).length)
    (h : concatUnder (first :: others) dim labels = .error e) : e = mismatch first others := by
  cases hconcat : concat (first :: others) dim with
  | error e' =>
    rw [concatUnder, hconcat] at h
    rw [← Except.error.inj h]
    exact eq_of_concat_eq_error hdim hconcat
  | ok v =>
    -- labels for the new dimension are always taken
    obtain ⟨u, hu⟩ := (exists_concatUnder_iff hdim hlength).mpr (frames_of_concat hdim hconcat)
    exact nomatch hu.symm.trans h

/-- **Every array is found again under its label.** -/
theorem collects_concatUnder (hdim : dim ∉ first.dims)
    (h : concatUnder (first :: others) dim labels = .ok u) :
    u.Collects dim labels (first :: others) := by
  obtain ⟨v, hv, hu⟩ := bind_eq_ok_iff.mp h
  obtain ⟨hdims, -, hnew⟩ := concat_eq_ok hv
  obtain ⟨hvdims, hstack⟩ := hnew hdim
  have hcoord := coord?_withCoord hu
  obtain ⟨k, -, -, rfl⟩ := withCoord_eq_ok_iff.mp hu
  have hdata : v.data.Stacks ((first :: others).map (·.data)) := NDArray.stacks_stack hstack
  have hall : ∀ a ∈ first :: others, v.dims = dim :: a.dims := by
    intro a ha
    rw [hvdims]
    rcases List.mem_cons.mp ha with rfl | ha
    · rfl
    · rw [hdims a ha]
  refine ⟨hall, hcoord, hdata, fun hnodup i label a hi ha => ?_⟩
  have hadims := hall a (List.mem_of_getElem? ha)
  have hselect : v.data.select 0 i = a.data :=
    hdata.select i a.data (by rw [List.getElem?_map, ha, Option.map_some])
  have haxis : (v.dims.idxOf? dim) = some 0 := by
    rw [hadims]
    simp [List.idxOf?_cons]
  unfold select axis
  dsimp only
  rw [haxis, ok_bind, hcoord, Option.bind_some, idxOf?_of_nodup hnodup hi]
  refine ⟨_, rfl, ?_, ?_, hselect⟩
  · rw [hadims]
    rfl
  · exact congrArg NDArray.shape hselect

/-! ## 6. What is not looked at -/

/-- Labeled arrays that may differ in names, coordinates and elements only. -/
structure SameFrame (a b : LabeledArray) : Prop where
  dims : a.dims = b.dims
  shape : a.shape = b.shape

variable {b : LabeledArray} {as bs : List LabeledArray}

/-- Whether arrays can be concatenated, and to which frame, is a matter of their frames. -/
theorem concat_follows (h : List.Forall₂ SameFrame as bs) (dim : String) :
    Follows true SameFrame (concat as dim) (concat bs dim) := by
  cases h with
  | nil => exact fun _ => rfl
  | @cons a b as bs hab hall =>
    have hdims : as.map (·.dims) = bs.map (·.dims) :=
      map_eq_of_forall₂ (hall.imp fun _ _ h => h.dims)
    have hshapes : (as.map (·.data)).map NDArray.shape = (bs.map (·.data)).map NDArray.shape := by
      rw [List.map_map, List.map_map]
      exact map_eq_of_forall₂ (hall.imp fun _ _ h => h.shape)
    have hfind : (as.find? fun c => c.dims ≠ a.dims).map (·.dims) =
        (bs.find? fun c => c.dims ≠ b.dims).map (·.dims) := by
      have hsearch := congrArg (List.find? fun dims => decide (dims ≠ b.dims)) hdims
      rw [List.find?_map, List.find?_map] at hsearch
      rw [hab.dims]
      exact hsearch
    unfold concat
    dsimp only
    cases ha : as.find? fun c => c.dims ≠ a.dims with
    | some c =>
      cases hb : bs.find? fun c => c.dims ≠ b.dims with
      | none =>
        rw [ha, hb] at hfind
        exact nomatch hfind
      | some c' =>
        rw [ha, hb] at hfind
        have hc : c.dims = c'.dims := Option.some.inj hfind
        intro _
        dsimp only
        rw [hc, hab.dims]
        rfl
    | none =>
      cases hb : bs.find? fun c => c.dims ≠ b.dims with
      | some c' =>
        rw [ha, hb] at hfind
        exact nomatch hfind
      | none =>
        dsimp only
        rw [hab.dims]
        cases b.dims.idxOf? dim with
        | some i =>
          refine (NDArray.join_follows i hab.shape hshapes).bind fun data data' hdata => ?_
          exact ⟨rfl, hdata⟩
        | none =>
          refine (NDArray.stack_follows hab.shape hshapes).bind fun data data' hdata => ?_
          exact ⟨rfl, hdata⟩

theorem withCoord_follows (h : SameFrame a b) (dim : String) (labels : List String) :
    Follows true SameFrame (a.withCoord dim labels) (b.withCoord dim labels) := by
  have hlength : ∀ i, a.data.length i = b.data.length i := fun i =>
    congrArg (·.getD i 0) h.shape
  unfold withCoord axis
  dsimp only
  rw [h.dims]
  cases b.dims.idxOf? dim with
  | none => exact fun _ => rfl
  | some i =>
    dsimp only
    rw [ok_bind, ok_bind, hlength i]
    split
    · exact ⟨rfl, h.shape⟩
    · exact fun _ => rfl

/-- **Coordinates are never compared.**  Arrays with the same frames are taken or refused alike. -/
theorem concatUnder_follows (h : List.Forall₂ SameFrame as bs) (dim : String)
    (labels : List String) :
    Follows true SameFrame (concatUnder as dim labels) (concatUnder bs dim labels) :=
  (concat_follows h dim).bind fun _ _ huv => withCoord_follows huv dim labels

end LabeledArray

end BandMath
