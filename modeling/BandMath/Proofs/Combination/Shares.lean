/-
# Whose position a label is put on

Images are combined band by band, and labeled arrays along a dimension that they have position by
position.  So each of them has a share of the combination, of as many bands or positions as it has
itself, and the shares follow each other in order (`RemoteImage.getElem?_bands_cat`,
`NDArray.select_join`).

Labels are put on positions, not on shares, and all that is compared is how many there are.  Where
nothing that is combined is empty, this is enough: there is a label for each position only if every
share is a single position, and then a label is on the share of its own result
(`exists_unify_images_iff_of_ne_nil`, `shares_of_unify_labeledArrays`).

It is not enough otherwise: an empty result makes room for another with two positions, and labels
are put on data of an index that they do not name (`not_forall_unify_images`,
`not_forall_unify_labeledArrays`).
-/
import BandMath.Proofs.Combination.Families
import BandMath.Proofs.Labeled.Fitting
import Mathlib.Algebra.BigOperators.Group.List.Basic
import Mathlib.Algebra.GroupWithZero.Nat

namespace BandMath

/-! ## 1. Shares -/

/-- Where the share of the item at place `k` starts, if the items have so many positions each. -/
def shareStart (counts : List Nat) (k : Nat) : Nat :=
  (counts.take k).sum

section Shares

variable {counts : List Nat}

theorem shareStart_zero (counts : List Nat) : shareStart counts 0 = 0 := rfl

theorem shareStart_succ (n : Nat) (counts : List Nat) (k : Nat) :
    shareStart (n :: counts) (k + 1) = n + shareStart counts k := by
  rw [shareStart, List.take_succ_cons, List.sum_cons, shareStart]

/-- Shares of one position each start where they stand. -/
theorem shareStart_of_forall_eq_one (h : ∀ n ∈ counts, n = 1) {k : Nat} (hk : k ≤ counts.length) :
    shareStart counts k = k := by
  rw [shareStart, List.sum_eq_card_nsmul _ 1 fun n hn => h n (List.mem_of_mem_take hn),
    List.length_take_of_le hk, Nat.nsmul_eq_mul, Nat.mul_one]

theorem shareStart_add_lt {k j n : Nat} (hk : counts[k]? = some n) (hj : j < n) :
    shareStart counts k + j < counts.sum := by
  induction counts generalizing k with
  | nil => exact nomatch hk
  | cons m counts ih =>
    rw [List.sum_cons]
    cases k with
    | zero =>
      obtain rfl := Option.some.inj hk
      rw [shareStart_zero]
      omega
    | succ k =>
      rw [shareStart_succ]
      have hlt := ih hk
      omega

/-- **Where no share is empty, there are as many positions as shares only if each has one.** -/
theorem sum_eq_length_iff (h : ∀ n ∈ counts, 0 < n) :
    counts.sum = counts.length ↔ ∀ n ∈ counts, n = 1 := by
  induction counts with
  | nil => simp
  | cons n counts ih =>
    obtain ⟨hn, hrest⟩ := List.forall_mem_cons.mp h
    have hle := List.length_le_sum_of_one_le counts hrest
    have hsum : n + counts.sum = counts.length + 1 ↔ n = 1 ∧ counts.sum = counts.length := by omega
    rw [List.sum_cons, List.length_cons, hsum, ih hrest, List.forall_mem_cons]

/-- Lists that follow each other have their own items in their shares. -/
theorem getElem?_flatten_shareStart {α : Type} {rows : List (List α)} {row : List α} {k j : Nat}
    (hk : rows[k]? = some row) (hj : j < row.length) :
    rows.flatten[shareStart (rows.map List.length) k + j]? = row[j]? := by
  induction rows generalizing k with
  | nil => exact nomatch hk
  | cons first rows ih =>
    rw [List.flatten_cons, List.map_cons]
    cases k with
    | zero =>
      obtain rfl := Option.some.inj hk
      rw [shareStart_zero, Nat.zero_add, List.getElem?_append_left hj]
    | succ k =>
      rw [shareStart_succ, Nat.add_assoc, List.getElem?_append_right (Nat.le_add_right ..),
        Nat.add_sub_cancel_left, ih hk]

end Shares

/-! ## 2. Images -/

variable {labels : List String} {axis : String}

namespace RemoteImage

variable {images : List RemoteImage} {i u : RemoteImage} {names : List String}

theorem rename_eq_ok_iff : i.rename names = .ok u ↔ names.length = i.bands.length ∧ u =
    ⟨.invoke "Image.rename" [("input", i.graph), ("names", .list (names.map .text))], names⟩ := by
  unfold rename
  split
  · rename_i hlength
    constructor
    · exact fun h => ⟨hlength, (Except.ok.inj h).symm⟩
    · exact fun h => congrArg Except.ok h.2.symm
  · rename_i hlength
    constructor
    · exact fun h => nomatch h
    · exact fun h => absurd h.1 hlength

/-- How many bands each image has. -/
def counts (images : List RemoteImage) : List Nat :=
  images.map (·.bands.length)

theorem length_bands_cat (images : List RemoteImage) :
    (cat images).bands.length = (counts images).sum :=
  List.length_flatMap

/-- **The bands of an image are found in its share of the combination.** -/
theorem getElem?_bands_cat {k j : Nat} (hk : images[k]? = some i) (hj : j < i.bands.length) :
    (cat images).bands[shareStart (counts images) k + j]? = i.bands[j]? := by
  have hrow : (images.map (·.bands))[k]? = some i.bands := by
    rw [List.getElem?_map, hk]
    rfl
  have hbands := getElem?_flatten_shareStart hrow hj
  rw [List.map_map] at hbands
  rw [cat, List.flatMap_def]
  exact hbands

end RemoteImage

section Images

variable {images : List RemoteImage}

theorem unify_images (h : Tagged images labels) :
    unify (images.map .remoteImage) labels axis =
      ((RemoteImage.cat images).rename labels).map .remoteImage := by
  rw [unify_map .remoteImage h fun _ => rfl, combine,
    filterMap_map_make Value.remoteImage? fun _ => rfl]

/-- Whether images are combined depends on how many bands they have in all. -/
theorem exists_unify_images_iff (h : Tagged images labels) :
    (∃ v, unify (images.map .remoteImage) labels axis = .ok v) ↔
      (RemoteImage.counts images).sum = images.length := by
  rw [unify_images h, ← RemoteImage.length_bands_cat, h.length]
  constructor
  · rintro ⟨v, hv⟩
    obtain ⟨u, hu, -⟩ := map_eq_ok_iff.mp hv
    exact (RemoteImage.rename_eq_ok_iff.mp hu).1.symm
  · intro hlength
    exact ⟨_, map_eq_ok_iff.mpr ⟨_, RemoteImage.rename_eq_ok_iff.mpr ⟨hlength.symm, rfl⟩, rfl⟩⟩

/-- **Images that have bands are combined only if each has one.** -/
theorem exists_unify_images_iff_of_ne_nil (h : Tagged images labels)
    (hbands : ∀ i ∈ images, i.bands ≠ []) :
    (∃ v, unify (images.map .remoteImage) labels axis = .ok v) ↔
      ∀ i ∈ images, i.bands.length = 1 := by
  have hpos : ∀ n ∈ RemoteImage.counts images, 0 < n :=
    List.forall_mem_map.mpr fun i hi => List.length_pos_iff.mpr (hbands i hi)
  have hlength : images.length = (RemoteImage.counts images).length := (List.length_map ..).symm
  rw [exists_unify_images_iff h, hlength, sum_eq_length_iff hpos, RemoteImage.counts,
    List.forall_mem_map]

/-- Images of one band each are combined, and every label is put on the band of its own image. -/
theorem unify_images_of_single (h : Tagged images labels)
    (hsingle : ∀ i ∈ images, i.bands.length = 1) :
    unify (images.map .remoteImage) labels axis = .ok (.remoteImage
        ⟨.invoke "Image.rename"
          [("input", (RemoteImage.cat images).graph), ("names", .list (labels.map .text))],
        labels⟩) ∧
      ∀ (k : Nat) (i : RemoteImage), images[k]? = some i →
        (RemoteImage.cat images).bands[k]? = i.bands[0]? := by
  have hones : ∀ n ∈ RemoteImage.counts images, n = 1 := List.forall_mem_map.mpr hsingle
  have hlength : (RemoteImage.counts images).length = images.length := List.length_map ..
  constructor
  · have hsum : labels.length = (RemoteImage.cat images).bands.length := by
      rw [RemoteImage.length_bands_cat, List.sum_eq_card_nsmul _ 1 hones, hlength, ← h.length]
      simp
    rw [unify_images h, RemoteImage.rename_eq_ok_iff.mpr ⟨hsum, rfl⟩, map_ok]
  · intro k i hk
    obtain ⟨hlt, hi⟩ := List.getElem?_eq_some_iff.mp hk
    have hband : 0 < i.bands.length := by
      rw [hsingle i (hi ▸ List.getElem_mem hlt)]
      exact Nat.one_pos
    have hshare := RemoteImage.getElem?_bands_cat hk hband
    rwa [shareStart_of_forall_eq_one hones (by omega), Nat.add_zero] at hshare

/-- It is not so that images are combined only if each has one band: the two bands of the first go
under a label each, and the second, which the other label names, has none. -/
theorem not_forall_unify_images : ¬ ∀ (images : List RemoteImage) (labels : List String)
    (axis : String) (v : Value), Tagged images labels →
      unify (images.map .remoteImage) labels axis = .ok v →
        ∀ i ∈ images, i.bands.length = 1 := by
  intro h
  have hfirst := h [.load "a" ["x", "y"], .load "b" []] ["P", "Q"] "index" _
    ⟨Nat.le_refl 2, rfl⟩ rfl _ (List.mem_cons_self ..)
  exact absurd hfirst (by decide)

end Images

/-! ## 3. Joined arrays -/

namespace NDArray

open Position

variable {first a c : NDArray} {others arrays : List NDArray} {i j k : Nat}

/-- How long each array is along an axis. -/
def counts (axis : Nat) (arrays : List NDArray) : List Nat :=
  arrays.map (·.length axis)

theorem set_insertIdx (p : List Nat) (i m n : Nat) :
    (p.insertIdx i m).set i n = p.insertIdx i n := by
  induction i generalizing p with
  | zero => rfl
  | succ i ih =>
    cases p with
    | nil => rfl
    | cons x p => rw [List.insertIdx_succ_cons, List.set_cons_succ, ih, List.insertIdx_succ_cons]

/-- By induction on the arrays; behind the first of them, a position is one of the others. -/
theorem getJoined_shareStart {p : List Nat} (hk : arrays[k]? = some a) (hj : j < a.length i)
    (hp : i ≤ p.length) :
    getJoined i arrays (p.insertIdx i (shareStart (counts i arrays) k + j)) =
      a.get (p.insertIdx i j) := by
  induction arrays generalizing k with
  | nil => exact nomatch hk
  | cons b arrays ih =>
    have hget : ∀ m, (p.insertIdx i m).getD i 0 = m := by
      intro m
      rw [List.getD_eq_getElem?_getD, List.getElem?_insertIdx_self, if_pos hp]
      rfl
    rw [getJoined, hget, set_insertIdx]
    cases k with
    | zero =>
      obtain rfl := Option.some.inj hk
      rw [shareStart_zero, Nat.zero_add, if_pos hj]
    | succ k =>
      rw [counts, List.map_cons, shareStart_succ, if_neg (by omega), Nat.add_assoc,
        Nat.add_sub_cancel_left]
      exact ih hk

/-- **The positions of an array are found in its share of the joined one.** -/
theorem select_join (h : join i first others = .ok c) (hi : i < first.rank)
    (hk : (first :: others)[k]? = some a) (hj : j < a.length i) :
    c.select i (shareStart (counts i (first :: others)) k + j) = a.select i j := by
  obtain ⟨hshapes, rfl⟩ := join_eq_ok_iff.mp h
  rw [total_eq_sum, ← counts]
  have hcount : (counts i (first :: others))[k]? = some (a.length i) := by
    rw [counts, List.getElem?_map, hk]
    rfl
  have hshape : a.shape.eraseIdx i = first.shape.eraseIdx i := by
    rcases List.mem_cons.mp (List.mem_of_getElem? hk) with rfl | ha
    · rfl
    · exact (hshapes a ha).2
  rw [select, select, shape_ofFn, List.eraseIdx_set_eq, hshape]
  refine ofFn_congr fun p hp => ?_
  have hlength : i ≤ p.length := by
    rw [hp.length_eq, List.length_eraseIdx_of_lt hi]
    exact Nat.le_sub_one_of_lt hi
  have hwithin : Within (first.shape.set i (counts i (first :: others)).sum)
      (p.insertIdx i (shareStart (counts i (first :: others)) k + j)) := by
    refine within_insertIdx (List.getElem?_set_self hi) (shareStart_add_lt hcount hj) ?_
    rwa [List.eraseIdx_set_eq]
  rw [get_ofFn _ hwithin, getJoined_shareStart hk hj hlength]

end NDArray

/-! ## 4. Labeled arrays -/

section LabeledArrays

variable {first : LabeledArray} {others : List LabeledArray} {i : Nat} {v : Value}

/-- Labeled arrays are joined along a dimension that they have, and then there is a label for each
of its positions. -/
theorem LabeledArray.concatUnder_eq_ok {u : LabeledArray} (hfirst : first.Fits)
    (hi : first.dims.idxOf? axis = some i)
    (h : LabeledArray.concatUnder (first :: others) axis labels = .ok u) :
    NDArray.join i first.data (others.map (·.data)) = .ok u.data ∧ u.coord? axis = some labels ∧
      labels.length = (NDArray.counts i ((first :: others).map (·.data))).sum := by
  obtain ⟨c, hc, hu⟩ := bind_eq_ok_iff.mp h
  have hcoord := LabeledArray.coord?_withCoord hu
  obtain ⟨hdata, hdims, -⟩ := LabeledArray.join_of_concat hi hc
  obtain ⟨j, hj, hlength, rfl⟩ := LabeledArray.withCoord_eq_ok_iff.mp hu
  obtain rfl : i = j := by
    rw [hdims, hi] at hj
    exact Option.some.inj hj
  refine ⟨hdata, hcoord, ?_⟩
  have hrank : i < first.data.shape.length := Nat.lt_of_lt_of_eq (lt_of_idxOf? hi) hfirst.dims
  rw [hlength, NDArray.length, NDArray.shape_join hdata, List.getD_eq_getElem?_getD,
    List.getElem?_set_self hrank, NDArray.total_eq_sum]
  rfl

/-- Labeled arrays that are combined along a dimension that they have, have as many positions of it
in all as there are arrays. -/
theorem unify_labeledArrays_eq_ok (h : Tagged (first :: others) labels) (hfirst : first.Fits)
    (hi : first.dims.idxOf? axis = some i)
    (hv : unify ((first :: others).map .labeledArray) labels axis = .ok v) :
    ∃ u, v = .labeledArray u ∧ u.coord? axis = some labels ∧
      NDArray.join i first.data (others.map (·.data)) = .ok u.data ∧
      (NDArray.counts i ((first :: others).map (·.data))).sum = (first :: others).length := by
  rw [unify_labeledArrays h] at hv
  obtain ⟨u, hu, rfl⟩ := map_eq_ok_iff.mp hv
  obtain ⟨hdata, hcoord, hlength⟩ := LabeledArray.concatUnder_eq_ok hfirst hi hu
  exact ⟨u, rfl, hcoord, hdata, hlength.symm.trans h.length.symm⟩

/-- **Labeled arrays that have positions along the dimension are combined only if each has one, and
every label is put on the position of its own array.** -/
theorem shares_of_unify_labeledArrays (h : Tagged (first :: others) labels) (hfirst : first.Fits)
    (hi : first.dims.idxOf? axis = some i) (hpos : ∀ a ∈ first :: others, 0 < a.data.length i)
    (hv : unify ((first :: others).map .labeledArray) labels axis = .ok v) :
    ∃ u, v = .labeledArray u ∧ u.coord? axis = some labels ∧
      ∀ (k : Nat) (a : LabeledArray), (first :: others)[k]? = some a →
        a.data.length i = 1 ∧ u.data.select i k = a.data.select i 0 := by
  obtain ⟨u, rfl, hcoord, hdata, hsum⟩ := unify_labeledArrays_eq_ok h hfirst hi hv
  have hlength : (first :: others).length =
      (NDArray.counts i ((first :: others).map (·.data))).length := by
    rw [NDArray.counts, List.length_map, List.length_map]
  have hones : ∀ n ∈ NDArray.counts i ((first :: others).map (·.data)), n = 1 := by
    refine (sum_eq_length_iff ?_).mp (hsum.trans hlength)
    simpa [NDArray.counts] using hpos
  refine ⟨u, rfl, hcoord, fun k a hk => ?_⟩
  obtain ⟨hlt, ha⟩ := List.getElem?_eq_some_iff.mp hk
  have hmem : a ∈ first :: others := List.mem_of_getElem? hk
  have hone : a.data.length i = 1 := by
    refine hones _ ?_
    rw [NDArray.counts, List.map_map]
    exact List.mem_map_of_mem hmem
  have hrank : i < first.data.rank := Nat.lt_of_lt_of_eq (lt_of_idxOf? hi) hfirst.dims
  have hdatak : (first.data :: others.map (·.data))[k]? = some a.data := by
    rw [← List.map_cons, List.getElem?_map, hk]
    rfl
  have hshare := NDArray.select_join hdata hrank hdatak (hone ▸ Nat.one_pos)
  rw [List.map_cons] at hones hlength
  rw [shareStart_of_forall_eq_one hones (hlength ▸ Nat.le_of_lt hlt), Nat.add_zero] at hshare
  exact ⟨hone, hshare⟩

/-- It is not so that labeled arrays are combined only if each has one position: both labels are put
on the first array, although the second of them names the other, which is empty. -/
theorem not_forall_unify_labeledArrays : ¬ ∀ (arrays : List LabeledArray) (labels : List String)
    (axis : String) (v : Value), Tagged arrays labels → (∀ a ∈ arrays, a.Fits) →
      unify (arrays.map .labeledArray) labels axis = .ok v →
        ∀ a ∈ arrays, ∀ i, a.dims.idxOf? axis = some i → a.data.length i = 1 := by
  intro h
  let arrays : List LabeledArray :=
    [⟨none, ["x"], ∅, .ofList [1, 2]⟩, ⟨none, ["x"], ∅, .ofList []⟩]
  have hmade : ∀ xs, LabeledArray.ofArray (.ofList xs) ["x"] = .ok ⟨none, ["x"], ∅, .ofList xs⟩ :=
    fun _ => rfl
  have hfits : ∀ a ∈ arrays, a.Fits := by simp [arrays, LabeledArray.fits_ofArray (hmade _)]
  have hfirst := h arrays ["P", "Q"] "x" _ ⟨Nat.le_refl 2, rfl⟩ hfits rfl _
    (List.mem_cons_self ..) 0 rfl
  exact absurd hfirst (by decide)

end LabeledArrays

end BandMath
