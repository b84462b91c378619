/-
# Labels that fit the data

A series fits when it has one label per row (`Series.Fits`), a table when it has one column of
values per column name and each of them is as long as there are row labels (`Frame.Fits`), and a
labeled array when it has one dimension per axis and every coordinate has as many labels as the
first axis of its name is long (`LabeledArray.Fits`).

Everything that is made fits, and every operation on what fits gives something that fits.  For
labeled arrays this rests on where the first axis of a name is: dropping an axis, putting one in
front or changing the length of one does not make another axis the first of a different name
(section 3).

Where labels fit, a label that is found is the label of something, so nothing is read outside of
the data (`Series.Fits.isSome_get?_iff`, `Frame.Fits.isSome_column?_iff`,
`LabeledArray.partAt_of_select`).
-/
import BandMath.Proofs.Bindings
import BandMath.Proofs.Labeled.Column
import BandMath.Proofs.Labeled.Concatenation

namespace BandMath

open NDArray Position

/-! ## 1. Series -/

/-- Where there is something for every place, exactly the names that have a place are found. -/
theorem isSome_idxOf?_bind_iff {α : Type} {names : List String} {name : String} {f : Nat → Option α}
    (h : ∀ i < names.length, (f i).isSome = true) :
    ((names.idxOf? name).bind f).isSome = true ↔ name ∈ names := by
  cases hi : names.idxOf? name with
  | none => simpa using hi
  | some i =>
    obtain ⟨hlt, rfl, -⟩ := List.idxOf?_eq_some_iff.mp hi
    simp [h i hlt]

theorem Series.Fits.isSome_get?_iff {s : Series} (h : s.Fits) (label : String) :
    (s.get? label).isSome = true ↔ label ∈ s.index := by
  refine isSome_idxOf?_bind_iff fun i hi => ?_
  have hvalues : i < s.values.size := Nat.lt_of_lt_of_eq hi h
  simp [hvalues]

/-! ## 2. Tables -/

namespace Frame

/-- There is one column of values per column name, and each has one value per row label. -/
structure Fits (f : Frame) : Prop where
  columns : f.data.length = f.columns.length
  rows : ∀ values ∈ f.data, values.size = f.index.length

variable {f : Frame} {names : List String} {series : List Series} {name : String} {s : Series}

theorem fits_ofSeries (hs : ∀ s ∈ series, s.Fits) (h : ofSeries names series = .ok f) :
    f.Fits := by
  obtain ⟨hlength, hindex, hcolumns, hdata⟩ := ofSeries_eq_ok h
  refine ⟨by simp [hcolumns, hdata, hlength], fun values hvalues => ?_⟩
  rw [hdata] at hvalues
  obtain ⟨s, hmem, rfl⟩ := List.mem_map.mp hvalues
  rw [← hindex s hmem]
  exact (hs s hmem).symm

theorem Fits.fits_column? (h : f.Fits) (hs : f.column? name = some s) : s.Fits := by
  obtain ⟨i, -, hi⟩ := Option.bind_eq_some_iff.mp hs
  obtain ⟨values, hvalues, rfl⟩ := Option.map_eq_some_iff.mp hi
  exact (h.rows values (List.mem_of_getElem? hvalues)).symm

theorem Fits.isSome_column?_iff (h : f.Fits) (name : String) :
    (f.column? name).isSome = true ↔ name ∈ f.columns := by
  refine isSome_idxOf?_bind_iff fun i hi => ?_
  have hdata : i < f.data.length := Nat.lt_of_lt_of_eq hi h.columns.symm
  simp [hdata]

end Frame

/-! ## 3. The first axis of a name -/

/-- The first axis of a name has the given length. -/
def FirstAxis (dims : List String) (shape : List Nat) (dim : String) (n : Nat) : Prop :=
  ∃ i, dims.idxOf? dim = some i ∧ shape[i]? = some n

section FirstAxis

variable {dims : List String} {shape : List Nat} {d e : String} {n m i j : Nat}

/-- Two names do not share their first axis. -/
theorem ne_of_idxOf? (hi : dims.idxOf? d = some i) (hj : dims.idxOf? e = some j) (hde : d ≠ e) :
    i ≠ j := by
  rintro rfl
  obtain ⟨_, hd, -⟩ := List.idxOf?_eq_some_iff.mp hi
  obtain ⟨_, he, -⟩ := List.idxOf?_eq_some_iff.mp hj
  exact hde (hd.symm.trans he)

/-- Names behind the place that is dropped move up by one. -/
theorem idxOf?_eraseIdx (hi : dims.idxOf? d = some i) (hij : i ≠ j) :
    (dims.eraseIdx j).idxOf? d = some (if i < j then i else i - 1) := by
  obtain ⟨hlt, rfl, hfirst⟩ := List.idxOf?_eq_some_iff.mp hi
  -- the place exists, it has the name, and no place before it does
  refine List.idxOf?_eq_some_iff.mpr ⟨?_, ?_, fun k hk => ?_⟩
  · grind
  · grind
  · grind

/-- Another axis is dropped. -/
theorem FirstAxis.eraseIdx (h : FirstAxis dims shape d n) (hj : dims.idxOf? e = some j)
    (hde : d ≠ e) : FirstAxis (dims.eraseIdx j) (shape.eraseIdx j) d n := by
  obtain ⟨i, hi, hn⟩ := h
  have hij : i ≠ j := ne_of_idxOf? hi hj hde
  refine ⟨_, idxOf?_eraseIdx hi hij, ?_⟩
  rw [List.getElem?_eraseIdx]
  grind

/-- An axis of another name is put in front. -/
theorem FirstAxis.cons (h : FirstAxis dims shape d n) (hde : d ≠ e) :
    FirstAxis (e :: dims) (m :: shape) d n := by
  obtain ⟨i, hi, hn⟩ := h
  refine ⟨i + 1, ?_, hn⟩
  simp [List.idxOf?_cons, hi, hde.symm]

/-- Another axis gets another length. -/
theorem FirstAxis.set (h : FirstAxis dims shape d n) (hj : dims.idxOf? e = some j) (hde : d ≠ e) :
    FirstAxis dims (shape.set j m) d n := by
  obtain ⟨i, hi, hn⟩ := h
  have hij : j ≠ i := ne_of_idxOf? hj hi hde.symm
  exact ⟨i, hi, by rw [List.getElem?_set_ne hij, hn]⟩

theorem lt_of_idxOf? (hi : dims.idxOf? d = some i) : i < dims.length :=
  (List.idxOf?_eq_some_iff.mp hi).1

end FirstAxis

/-! ## 4. What operations on labeled arrays give -/

/-- When coordinates go together, and what they give. -/
theorem Coordinates.merge_eq_ok {left right coords : Coordinates}
    (h : merge left right = .ok coords) :
    (∀ (d : String) (l r : List String), left[d]? = some l → right[d]? = some r → l = r) ∧
      ∀ d : String, coords[d]? = left[d]?.or right[d]? := by
  unfold merge at h
  split at h
  · exact nomatch h
  · rename_i hnone
    obtain rfl := Except.ok.inj h
    have hagree : ∀ (d : String) (l r : List String), left[d]? = some l → right[d]? = some r →
        l = r := by
      intro d l r hl hr
      simp only [conflict?, Option.map_eq_none_iff, List.find?_eq_none] at hnone
      have hd := hnone (d, r) (Std.ExtTreeMap.mem_toList_iff_getElem?_eq_some.mpr hr)
      simpa [hl] using hd
    refine ⟨hagree, fun d => ?_⟩
    rw [Bindings.getElem?_insertMany_toList]
    cases hl : left[d]? with
    | none => simp
    | some l =>
      cases hr : right[d]? with
      | none => simp
      | some r => simp [hagree d l r hl hr]

namespace LabeledArray

variable {a b c u first : LabeledArray} {others arrays : List LabeledArray} {data : NDArray}
  {f : Float → Float → Float} {dims : List String} {dim label : String} {labels : List String}
  {i : Nat}

theorem zipWith_eq_ok (h : a.zipWith f b = .ok u) :
    a.dims = b.dims ∧ a.shape = b.shape ∧ Coordinates.merge a.coords b.coords = .ok u.coords ∧
      NDArray.zipWith f a.data b.data = .ok u.data ∧ u.dims = a.dims ∧ u.shape = a.shape ∧
      u.name = commonName a.name b.name := by
  unfold zipWith at h
  dsimp only at h
  split at h
  · exact nomatch h
  · rename_i hdims
    split at h
    · exact nomatch h
    · rename_i hshape
      obtain ⟨coords, hcoords, h⟩ := bind_eq_ok_iff.mp h
      obtain ⟨data, hdata, h⟩ := bind_eq_ok_iff.mp h
      obtain rfl := Except.ok.inj h
      have hsame : a.shape = b.shape := not_not.mp hshape
      exact ⟨not_not.mp hdims, hsame, hcoords, hdata, rfl, shape_zipWith hsame hdata, rfl⟩

/-- The combination has the coordinates of both. -/
theorem coord?_zipWith (h : a.zipWith f b = .ok u) : u.coord? dim = some labels ↔
    a.coord? dim = some labels ∨ b.coord? dim = some labels := by
  obtain ⟨-, -, hcoords, -⟩ := zipWith_eq_ok h
  obtain ⟨hagree, hunion⟩ := Coordinates.merge_eq_ok hcoords
  unfold coord?
  rw [hunion dim, Option.or_eq_some_iff]
  refine ⟨fun h => h.imp_right And.right, fun h => h.elim .inl fun hright => ?_⟩
  cases hleft : a.coords[dim]? with
  | none => exact .inr ⟨rfl, hright⟩
  | some mine => exact .inl (congrArg some (hagree dim mine labels hleft hright))

theorem zipArray_eq_ok (h : a.zipArray f data = .ok u) :
    a.shape = data.shape ∧ NDArray.zipWith f a.data data = .ok u.data ∧ u.dims = a.dims ∧
      u.shape = a.shape ∧ u.coords = a.coords ∧ u.name = a.name := by
  unfold zipArray at h
  dsimp only at h
  split at h
  · exact nomatch h
  · rename_i hshape
    obtain ⟨data, hdata, h⟩ := bind_eq_ok_iff.mp h
    obtain rfl := Except.ok.inj h
    have hsame : a.shape = _ := not_not.mp hshape
    exact ⟨hsame, hdata, rfl, shape_zipWith hsame hdata, rfl, rfl⟩

theorem select_eq_ok (h : a.select dim label = .ok u) :
    ∃ i labels k, a.dims.idxOf? dim = some i ∧ a.coord? dim = some labels ∧
      labels.idxOf? label = some k ∧
      u = { a with dims := a.dims.eraseIdx i, coords := a.coords.erase dim,
                   data := a.data.select i k } := by
  unfold select axis at h
  cases hi : a.dims.idxOf? dim with
  | none =>
    rw [hi] at h
    exact nomatch h
  | some i =>
    rw [hi] at h
    dsimp only at h
    rw [ok_bind] at h
    split at h
    · rename_i k hk
      obtain ⟨labels, hlabels, hk⟩ := Option.bind_eq_some_iff.mp hk
      exact ⟨i, labels, k, rfl, hlabels, hk, (Except.ok.inj h).symm⟩
    · exact nomatch h

/-- A concatenation along a dimension that the arrays have. -/
theorem join_of_concat (hi : first.dims.idxOf? dim = some i)
    (h : concat (first :: others) dim = .ok u) :
    NDArray.join i first.data (others.map (·.data)) = .ok u.data ∧ u.dims = first.dims ∧
      u.coord? dim = joinedCoord? dim (first :: others) := by
  unfold concat at h
  dsimp only at h
  split at h
  · exact nomatch h
  · rw [hi] at h
    dsimp only at h
    obtain ⟨data, hdata, h⟩ := bind_eq_ok_iff.mp h
    obtain rfl := Except.ok.inj h
    refine ⟨hdata, rfl, ?_⟩
    unfold coord?
    dsimp only
    split
    · rename_i hlabels
      rw [hlabels]
      exact Std.ExtTreeMap.getElem?_insert_self
    · rename_i hnone
      rw [hnone]
      exact Std.ExtTreeMap.getElem?_erase_self

/-- Along a new dimension the coordinates are those of the first array. -/
theorem coords_of_concat (hdim : dim ∉ first.dims) (h : concat (first :: others) dim = .ok u) :
    u.coords = first.coords := by
  obtain ⟨hdims, -, hnew⟩ := concat_eq_ok h
  have hu := h.symm.trans (concat_of_not_mem hdim hdims (hnew hdim).2)
  rw [Except.ok.inj hu]

/-! ## 5. Labeled arrays that fit -/

/-- There is one dimension per axis, and every coordinate is one of a dimension and has one label
for each position of the first axis of that name. -/
structure Fits (a : LabeledArray) : Prop where
  dims : a.dims.length = a.data.rank
  coords : ∀ (d : String) (labels : List String), a.coord? d = some labels →
    FirstAxis a.dims a.shape d labels.length

theorem fits_ofArray (h : ofArray data dims = .ok u) : u.Fits := by
  unfold ofArray at h
  split at h
  · rename_i hdims
    obtain rfl := Except.ok.inj h
    exact ⟨hdims, fun d labels hd => by simp [coord?] at hd⟩
  · exact nomatch h

theorem fits_withCoord (ha : a.Fits) (h : a.withCoord dim labels = .ok u) : u.Fits := by
  have hcoord := coord?_withCoord h
  have hother := fun d => coord?_withCoord_of_ne (d := d) h
  obtain ⟨i, hi, hlength, rfl⟩ := withCoord_eq_ok_iff.mp h
  refine ⟨ha.dims, fun d l hd => ?_⟩
  by_cases hdim : d = dim
  · subst hdim
    obtain rfl := Option.some.inj (hcoord.symm.trans hd)
    have hrank : i < a.shape.length := Nat.lt_of_lt_of_eq (lt_of_idxOf? hi) ha.dims
    refine ⟨i, hi, ?_⟩
    rw [hlength]
    exact (List.getElem?_eq_getElem hrank).trans (congrArg some (List.getElem_eq_getD 0))
  · exact ha.coords d l ((hother d hdim).symm.trans hd)

theorem fits_withName (ha : a.Fits) (name : String) : (a.withName name).Fits :=
  ⟨ha.dims, ha.coords⟩

theorem fits_map (ha : a.Fits) (f : Float → Float) : (a.map f).Fits :=
  ⟨ha.dims, ha.coords⟩

/-- Both arrays have their coordinates on the same axes. -/
theorem fits_zipWith (ha : a.Fits) (hb : b.Fits) (h : a.zipWith f b = .ok u) : u.Fits := by
  obtain ⟨hdims, hshape, -, -, hudims, hushape, -⟩ := zipWith_eq_ok h
  refine ⟨?_, fun d labels hd => ?_⟩
  · rw [hudims, ha.dims]
    exact congrArg List.length hushape.symm
  · rw [hudims, hushape]
    rcases (coord?_zipWith h).mp hd with hleft | hright
    · exact ha.coords d labels hleft
    · rw [hdims, hshape]
      exact hb.coords d labels hright

theorem fits_zipArray (ha : a.Fits) (h : a.zipArray f data = .ok u) : u.Fits := by
  obtain ⟨-, -, hdims, hushape, hcoords, -⟩ := zipArray_eq_ok h
  refine ⟨?_, fun d labels hd => ?_⟩
  · rw [hdims, ha.dims]
    exact congrArg List.length hushape.symm
  · rw [hdims, hushape]
    rw [coord?, hcoords] at hd
    exact ha.coords d labels hd

theorem fits_select (ha : a.Fits) (h : a.select dim label = .ok u) : u.Fits := by
  obtain ⟨i, labels, k, hi, -, -, rfl⟩ := select_eq_ok h
  have hlt := lt_of_idxOf? hi
  have hrank : a.dims.length = a.data.shape.length := ha.dims
  refine ⟨?_, fun d labels hd => ?_⟩
  · simp only [rank, NDArray.select, shape_ofFn]
    rw [List.length_eraseIdx_of_lt hlt, List.length_eraseIdx_of_lt (hrank ▸ hlt), hrank]
  · have hd' : (a.coords.erase dim)[d]? = some labels := hd
    have hdim : d ≠ dim := by
      rintro rfl
      simp at hd'
    rw [getElem?_erase_of_ne hdim] at hd'
    exact (ha.coords d labels hd').eraseIdx hi hdim

/-- A coordinate has one label for each position of its axis. -/
theorem Fits.length_eq (ha : a.Fits) (hi : a.dims.idxOf? dim = some i)
    (hl : a.coord? dim = some labels) : a.shape[i]? = some labels.length := by
  obtain ⟨j, hj, hlength⟩ := ha.coords dim labels hl
  obtain rfl := Option.some.inj (hi.symm.trans hj)
  exact hlength

/-- Joined labels are as many as joined positions. -/
theorem length_joinedCoord? : ∀ {arrays : List LabeledArray} {labels : List String},
    (∀ a ∈ arrays, a.Fits ∧ a.dims.idxOf? dim = some i) →
      joinedCoord? dim arrays = some labels →
        labels.length = total (arrays.map fun a => a.data.length i)
  | [], labels, _, h => by
    obtain rfl : [] = labels := Option.some.inj h
    rfl
  | a :: as, labels, harrays, h => by
    obtain ⟨ha, hi⟩ := harrays a (List.mem_cons_self ..)
    unfold joinedCoord? at h
    rw [List.mapM_cons] at h
    simp only [Option.bind_eq_bind, Option.pure_def, Option.map_eq_some_iff,
      Option.bind_eq_some_iff, Option.some.injEq] at h
    obtain ⟨_, ⟨mine, hmine, theirs, htheirs, rfl⟩, rfl⟩ := h
    have hlength : a.data.length i = mine.length := by
      rw [NDArray.length, List.getD_eq_getElem?_getD]
      exact congrArg (Option.getD · 0) (ha.length_eq hi hmine)
    have hrest : joinedCoord? dim as = some theirs.flatten := by
      rw [joinedCoord?, htheirs, Option.map_some]
    rw [List.flatten_cons, List.length_append, List.map_cons, total, hlength,
      length_joinedCoord? (fun b hb => harrays b (List.mem_cons_of_mem _ hb)) hrest]

/-- Where the dimension is there, only its coordinate and its first axis change, and together. -/
theorem fits_concat_of_idxOf? (hall : ∀ a ∈ first :: others, a.Fits)
    (hi : first.dims.idxOf? dim = some i) (h : concat (first :: others) dim = .ok u) : u.Fits := by
  obtain ⟨hdims, hother, -⟩ := concat_eq_ok h
  obtain ⟨hdata, hudims, hcoord⟩ := join_of_concat hi h
  have hfirst : first.Fits := hall first (List.mem_cons_self ..)
  have hrank : first.dims.length = first.shape.length := hfirst.dims
  have hshape : u.shape = _ := shape_join hdata
  have haxis : ∀ a ∈ first :: others, a.Fits ∧ a.dims.idxOf? dim = some i := by
    intro a ha
    refine ⟨hall a ha, ?_⟩
    rcases List.mem_cons.mp ha with rfl | ha
    · exact hi
    · rw [hdims a ha, hi]
  refine ⟨?_, fun d labels hd => ?_⟩
  · rw [hudims, hrank, rank, ← LabeledArray.shape, hshape, List.length_set]
    rfl
  · rw [hudims, hshape]
    by_cases hdim : d = dim
    · subst hdim
      have hlabels := length_joinedCoord? haxis (hcoord.symm.trans hd)
      refine ⟨i, hi, ?_⟩
      rw [List.getElem?_set_self (hrank ▸ lt_of_idxOf? hi), hlabels, ← List.map_cons, List.map_map]
      rfl
    · exact (hfirst.coords d labels ((hother d hdim).symm.trans hd)).set hi hdim

/-- Where the dimension is new, its axis comes before all others and has no coordinate. -/
theorem fits_concat_of_not_mem (hfirst : first.Fits) (hdim : dim ∉ first.dims)
    (h : concat (first :: others) dim = .ok u) : u.Fits := by
  obtain ⟨-, -, hnew⟩ := concat_eq_ok h
  obtain ⟨hudims, hdata⟩ := hnew hdim
  have hrank : first.dims.length = first.shape.length := hfirst.dims
  have hshape : u.shape = _ := shape_stack hdata (i := 0) rfl
  refine ⟨?_, fun d labels hd => ?_⟩
  · rw [hudims, rank, ← LabeledArray.shape, hshape, List.length_cons, List.length_cons, hrank]
    rfl
  · rw [hudims, hshape]
    rw [coord?, coords_of_concat hdim h] at hd
    have haxis := hfirst.coords d labels hd
    refine haxis.cons ?_
    rintro rfl
    obtain ⟨i, hi, -⟩ := haxis
    exact hdim (List.isSome_idxOf?.mp (hi ▸ rfl))

theorem fits_concat (hall : ∀ a ∈ arrays, a.Fits) (h : concat arrays dim = .ok u) : u.Fits := by
  cases arrays with
  | nil => exact nomatch h
  | cons first others =>
    cases hi : first.dims.idxOf? dim with
    | some i => exact fits_concat_of_idxOf? hall hi h
    | none =>
      have hdim : dim ∉ first.dims := List.idxOf?_eq_none_iff.mp hi
      exact fits_concat_of_not_mem (hall first (List.mem_cons_self ..)) hdim h

/-! ## 6. What is read -/

/-- `u` is the part of `a` at position `k` of axis `i`, which is there, and so is all that is read
of it. -/
structure PartAt (u a : LabeledArray) (i k : Nat) : Prop where
  position : ∃ n, a.shape[i]? = some n ∧ k < n
  shape : u.shape = a.shape.eraseIdx i
  get : ∀ p, Within u.shape p →
    Within a.shape (p.insertIdx i k) ∧ u.data.get p = a.data.get (p.insertIdx i k)

/-- **A selection reads nothing outside of the array.** -/
theorem partAt_of_select (ha : a.Fits) (h : a.select dim label = .ok u) :
    ∃ i labels k, a.dims.idxOf? dim = some i ∧ a.coord? dim = some labels ∧
      labels.idxOf? label = some k ∧ u.PartAt a i k := by
  obtain ⟨i, labels, k, hi, hlabels, hk, rfl⟩ := select_eq_ok h
  obtain ⟨hlt, -, -⟩ := List.idxOf?_eq_some_iff.mp hk
  have hlength := ha.length_eq hi hlabels
  refine ⟨i, labels, k, hi, hlabels, hk, ⟨_, hlength, hlt⟩, rfl, fun p hp => ⟨?_, get_ofFn _ hp⟩⟩
  exact within_insertIdx hlength hlt hp

end LabeledArray

end BandMath
