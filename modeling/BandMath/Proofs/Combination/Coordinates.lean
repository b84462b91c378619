/-
# Whose coordinates a combination has

Labeled arrays that are combined may have coordinates that contradict each other.  They are not
compared: the combination has those of the first array (`UnderFirst`), and whether there is a
combination at all is decided by dimensions and shapes.  So the elements of an index of a batch
stand under the coordinates of the first index, which are its own only if the two agree.

`LabeledArray.concat` says as much: along the dimension of the concatenation the labels are put
together, and the other dimensions are those of the first array.  `UnderFirst` says it of a result,
and `underFirst_of_unify` shows it of every combination of labeled arrays.

What one might expect instead, that every array is found under its own coordinates, does not hold:
two arrays of the same frame with contradicting coordinates are combined without a complaint, and
the second is found under the labels of the first (`not_forall_own_coordinates`).  It does hold of
arithmetic, where contradictions are an error (`Coordinates.merge`), and of arrays that agree.

That coordinates have no part in a refusal is said by comparing: arrays of the same frames, one by
one, are refused for the same reason or not at all (`refusal?_unify_of_sameFrame`).
-/
import BandMath.Proofs.Batch.Precedence
import BandMath.Proofs.Combination.Families

namespace BandMath

variable {arrays as bs : List LabeledArray} {labels names : List String} {axis : String}

/-! ## 1. Coordinates of a combination -/

/-- The dimensions but for the given one have the coordinates that the first array gives them. -/
def LabeledArray.UnderFirst (u : LabeledArray) (dim : String) (arrays : List LabeledArray) : Prop :=
  ∀ first ∈ arrays.head?, ∀ d, d ≠ dim → u.coord? d = first.coord? d

theorem underFirst_of_unify {v : Value} (h : Tagged arrays labels)
    (hv : unify (arrays.map .labeledArray) labels axis = .ok v) :
    ∃ u, v = .labeledArray u ∧ u.UnderFirst axis arrays := by
  rw [unify_labeledArrays h] at hv
  obtain ⟨u, hu, rfl⟩ := map_eq_ok_iff.mp hv
  refine ⟨u, rfl, fun first hfirst d hd => ?_⟩
  obtain ⟨others, rfl⟩ := List.head?_eq_some_iff.mp hfirst
  exact LabeledArray.coord?_concatUnder hu hd

theorem Tagged.of_forall₂ {α β : Type} {R : α → β → Prop} {xs : List α} {ys : List β}
    (h : Tagged xs labels) (hxy : List.Forall₂ R xs ys) : Tagged ys labels :=
  ⟨hxy.length_eq ▸ h.several, hxy.length_eq ▸ h.length⟩

theorem refusal?_unify_of_sameFrame (h : Tagged as labels)
    (hframe : List.Forall₂ LabeledArray.SameFrame as bs) :
    refusal? (unify (as.map .labeledArray) labels axis) =
      refusal? (unify (bs.map .labeledArray) labels axis) := by
  rw [unify_labeledArrays h, unify_labeledArrays (h.of_forall₂ hframe), refusal?_map, refusal?_map]
  exact (LabeledArray.concatUnder_follows hframe axis labels).refusal?_eq

/-! ## 2. Batches -/

namespace Registry

variable {r : Registry} {b : Bindings Value} {options : BatchOptions} {o : Outcome Value}

/-- An aggregated batch of labeled arrays is under the coordinates of its first index; along a new
dimension it has those of every index at the place and under the label of the name. -/
theorem underFirst_of_compute (hseveral : 2 ≤ names.length) (haggregate : options.aggregate = true)
    (harrays : List.Forall₂ (fun name a => r.value b name = .ok (.labeledArray a)) names arrays)
    (h : r.compute (.many names) b options = .ok o) :
    ∃ u, o = .single (.labeledArray u) ∧ u.UnderFirst options.axis arrays ∧
      ((∀ first ∈ arrays.head?, options.axis ∉ first.dims) →
        u.Collects options.axis names arrays) := by
  obtain ⟨hevaluate, hvalues⟩ := evaluate_of_compute h
  have hlength := harrays.length_eq
  have htagged : Tagged arrays names := ⟨hlength ▸ hseveral, hlength.symm⟩
  have hmany : 2 ≤ (r.values b names).length := hvalues.length_eq ▸ hseveral
  rw [compute_of_evaluate hmany hevaluate haggregate,
    values_eq_of_forall₂ (List.forall₂_map_right_iff.mpr harrays)] at h
  obtain ⟨v, hv, rfl⟩ := map_eq_ok_iff.mp h
  obtain ⟨u, rfl, hu⟩ := underFirst_of_unify htagged hv
  refine ⟨u, rfl, hu, fun haxis => ?_⟩
  match arrays, htagged, haxis with
  | [], htagged, _ => exact absurd htagged.several (by simp)
  | first :: others, htagged, haxis =>
    obtain ⟨c, hc, hcollects⟩ := (combines_labeledArrays htagged (haxis first rfl)).holds _ hv
    obtain rfl := Value.labeledArray.inj hc
    exact hcollects

end Registry

/-! ## 3. The first array decides -/

/-- An array under the coordinate `a`, `b`. -/
def labeledAB : LabeledArray :=
  ⟨none, ["x"], .ofList [("x", ["a", "b"])], .ofList [1, 2]⟩

/-- An array of the same frame, under the coordinate `c`, `d`. -/
def labeledCD : LabeledArray :=
  ⟨none, ["x"], .ofList [("x", ["c", "d"])], .ofList [3, 4]⟩

/-- It is not so that all arrays are found under their own coordinates. -/
theorem not_forall_own_coordinates : ¬ ∀ (arrays : List LabeledArray) (labels : List String)
    (axis : String) (u : LabeledArray), Tagged arrays labels →
      unify (arrays.map .labeledArray) labels axis = .ok (.labeledArray u) →
        ∀ a ∈ arrays, ∀ d, d ≠ axis → ∀ own, a.coord? d = some own → u.coord? d = some own := by
  intro h
  have htagged : Tagged [labeledAB, labeledCD] ["P", "Q"] := ⟨Nat.le_refl 2, rfl⟩
  obtain ⟨v, hv⟩ : ∃ v, unify ([labeledAB, labeledCD].map .labeledArray) ["P", "Q"] "index" =
      .ok v := ⟨_, rfl⟩
  obtain ⟨u, rfl, hu⟩ := underFirst_of_unify htagged hv
  have hfirst : u.coord? "x" = some ["a", "b"] := hu _ rfl "x" (by decide)
  have hsecond : u.coord? "x" = some ["c", "d"] :=
    h _ _ _ u htagged hv labeledCD (by simp) "x" (by decide) _ rfl
  rw [hfirst] at hsecond
  exact absurd hsecond (by decide)

/-- **The coordinates of a combination are those of the first array.**  They are those of another
array only if it agrees with the first; contradictions are not looked for, so that dimensions and
shapes alone decide on a refusal.  The same holds of a batch. -/
theorem unify_underFirst (axis : String) :
    (∀ (arrays : List LabeledArray) (labels : List String), Tagged arrays labels →
      ∀ v, unify (arrays.map .labeledArray) labels axis = .ok v →
        ∃ u, v = .labeledArray u ∧ u.UnderFirst axis arrays) ∧
    (∀ (as bs : List LabeledArray) (labels : List String), Tagged as labels →
      List.Forall₂ LabeledArray.SameFrame as bs →
        refusal? (unify (as.map .labeledArray) labels axis) =
          refusal? (unify (bs.map .labeledArray) labels axis)) ∧
    ∀ (r : Registry) (b : Bindings Value) (names : List String) (arrays : List LabeledArray)
      (mode : Mode) (o : Outcome Value), 2 ≤ names.length →
      List.Forall₂ (fun name a => r.value b name = .ok (.labeledArray a)) names arrays →
      r.compute (.many names) b ⟨true, axis, mode⟩ = .ok o →
        ∃ u, o = .single (.labeledArray u) ∧ u.UnderFirst axis arrays ∧
          ((∀ first ∈ arrays.head?, axis ∉ first.dims) → u.Collects axis names arrays) := by
  refine ⟨?_, ?_, ?_⟩
  · exact fun arrays labels h v hv => underFirst_of_unify h hv
  · exact fun as bs labels h hframe => refusal?_unify_of_sameFrame h hframe
  · intro r b names arrays mode o hseveral harrays ho
    exact Registry.underFirst_of_compute hseveral rfl harrays ho

/-- Contradicting arrays, combined by hand and as the values of two indices. -/
theorem unify_underFirst_contradicting :
    let x := labeledAB
    let y := labeledCD
    let p : IndexDefinition := ⟨"P", ⟨"X", .symbol "X"⟩, ["X"], {}⟩
    let q : IndexDefinition := ⟨"Q", ⟨"Y", .symbol "Y"⟩, ["Y"], {}⟩
    let r : Registry := ⟨.ofList [("P", p), ("Q", q)], ∅, ∅, Kernel.all.map Kernel.formula⟩
    let b : Bindings Value := .ofPairs [("X", .labeledArray x), ("Y", .labeledArray y)]
    let labels := ["P", "Q"]
    (∃ u, unify [.labeledArray x, .labeledArray y] labels "index" = .ok (.labeledArray u) ∧
      u.UnderFirst "index" [x, y]) ∧
    refusal? (unify [.labeledArray x, .labeledArray y] labels "index") =
      refusal? (unify [.labeledArray x, .labeledArray x] labels "index") ∧
    ∃ u, r.compute (.many labels) b {} = .ok (.single (.labeledArray u)) ∧
      u.UnderFirst "index" [x, y] ∧ u.Collects "index" labels [x, y] := by
  intro x y p q r b labels
  obtain ⟨hunify, hrefusal, hcompute⟩ := unify_underFirst "index"
  have htagged : Tagged [x, y] labels := ⟨Nat.le_refl 2, rfl⟩
  have hsame : ∀ a ∈ [x, y], LabeledArray.SameFrame a x := by
    intro a ha
    rcases List.mem_cons.mp ha with rfl | ha
    · exact ⟨rfl, rfl⟩
    · obtain rfl := List.mem_singleton.mp ha
      exact ⟨show ["x"] = ["x"] from rfl, show [2] = [2] from rfl⟩
  have hframe : List.Forall₂ LabeledArray.SameFrame [x, y] [x, x] :=
    .cons (hsame x (by simp)) (.cons (hsame y (by simp)) .nil)
  refine ⟨?_, hrefusal [x, y] [x, x] labels htagged hframe, ?_⟩
  · obtain ⟨v, hv⟩ : ∃ v, unify [.labeledArray x, .labeledArray y] labels "index" = .ok v :=
      ⟨_, rfl⟩
    obtain ⟨u, rfl, hu⟩ := hunify [x, y] labels htagged v hv
    exact ⟨u, hv, hu⟩
  · obtain ⟨o, ho⟩ : ∃ o, r.compute (.many labels) b {} = .ok o := ⟨_, rfl⟩
    have hvalues : List.Forall₂ (fun name a => r.value b name = .ok (.labeledArray a)) labels
        [x, y] := .cons rfl (.cons rfl .nil)
    obtain ⟨u, rfl, hu, hcollects⟩ :=
      hcompute r b labels [x, y] .sequential o (Nat.le_refl 2) hvalues ho
    have hdim : "index" ∉ x.dims := by decide
    exact ⟨u, ho, hu, hcollects fun first hfirst => Option.some.inj hfirst ▸ hdim⟩

end BandMath
