/-
# What results are combined into

Arrays are combined into a stack, columns into a table, labeled arrays into one with a further
dimension and remote numbers into a list.  `Combines` says of a family when this can be done, how it
is refused otherwise and what the combination has to hold; that it holds every result at its place
and under its label is said by `Stacks` and by the `Collects` of the family.

`unify_combines` is the statement for all of them; it also lists the refusals, in their order.

A family is given by how its items are made into values, by the frame in which items have to agree,
by the refusal if they do not, and by how the combination is made into a value.  Shapes are the
frame of arrays, row labels that of columns, dimensions and shapes that of labeled arrays.  Numbers
that are computed elsewhere have no frame, as nothing of them is known beforehand.

`combines_of_eq_map` reduces a family to the operation that combines its items: that operation has
to succeed exactly if all items agree with the first, and to collect them if it does.  These facts
are about arrays, tables and so on, and not about values (`stacks_stack`, `collects_ofSeries`,
`collects_concatUnder`).

Images and deferred values are not among these families: images by the number of their bands
(`BandMath.Proofs.Combination.Shares`), deferred ones by what they stand for
(`BandMath.Proofs.Value.Deferral`).
-/
import BandMath.Proofs.Combination.Refusal
import BandMath.Proofs.Labeled.Concatenation

namespace BandMath

variable {α β γ : Type} {labels : List String} {axis : String}

/-! ## 1. Items -/

/-- Several items, with a label for each. -/
structure Tagged (items : List α) (labels : List String) : Prop where
  several : 2 ≤ items.length
  length : items.length = labels.length

/-- All items agree in `f`. -/
def Uniform (f : α → β) (items : List α) : Prop :=
  ∀ x ∈ items, ∀ y ∈ items, f x = f y

theorem uniform_cons_iff {f : α → β} {x : α} {items : List α} :
    Uniform f (x :: items) ↔ ∀ y ∈ items, f y = f x := by
  constructor
  · exact fun h y hy => h y (List.mem_cons_of_mem _ hy) x (List.mem_cons_self ..)
  · intro h
    have hfirst : ∀ y ∈ x :: items, f y = f x := by
      intro y hy
      rcases List.mem_cons.mp hy with rfl | hy
      · rfl
      · exact h y hy
    exact fun y hy z hz => (hfirst y hy).trans (hfirst z hz).symm

/-- Items are taken out of the values that are made of them. -/
theorem filterMap_map_make {make : α → Value} (item? : Value → Option α) {items : List α}
    (h : ∀ a, item? (make a) = some a) : (items.map make).filterMap item? = items := by
  rw [List.filterMap_map, show item? ∘ make = some from funext h, List.filterMap_some]

/-- Items of one kind are left to the combination of that kind. -/
theorem unify_map {kind : Kind} (make : α → Value) {items : List α} (h : Tagged items labels)
    (hkind : ∀ a, (make a).kind = kind) :
    unify (items.map make) labels axis = combine kind (items.map make) labels axis := by
  refine unify_of_kind ?_ ?_ fun v hv => ?_
  · rw [List.length_map, h.length]
  · rw [List.length_map]
    exact h.several
  · obtain ⟨a, -, rfl⟩ := List.mem_map.mp hv
    exact hkind a

/-! ## 2. Families -/

/-- How the items of a family are combined.  They have to agree in their `frame`, or else there is
the given refusal; what they are combined into is made by `wrap` and `Holds` them. -/
structure Combines (make : α → Value) (frame : α → β) (refusal : Error) (wrap : γ → Value)
    (Holds : γ → Prop) (items : List α) (labels : List String) (axis : String) : Prop where
  exists_iff : (∃ u, unify (items.map make) labels axis = .ok u) ↔ Uniform frame items
  holds : ∀ u, unify (items.map make) labels axis = .ok u → ∃ c, u = wrap c ∧ Holds c
  refused : ∀ e, unify (items.map make) labels axis = .error e → e = refusal

/-- A family is combined as its parts are. -/
theorem combines_of_eq_map {make : α → Value} {frame : α → β} {refusal : Error} {wrap : γ → Value}
    {Holds : γ → Prop} {items : List α} {x : Except Error γ}
    (h : unify (items.map make) labels axis = x.map wrap)
    (hiff : (∃ c, x = .ok c) ↔ Uniform frame items) (hholds : ∀ c, x = .ok c → Holds c)
    (hrefused : ∀ e, x = .error e → e = refusal) :
    Combines make frame refusal wrap Holds items labels axis := by
  constructor
  · rw [← hiff, h]
    constructor
    · rintro ⟨u, hu⟩
      obtain ⟨c, hc, -⟩ := map_eq_ok_iff.mp hu
      exact ⟨c, hc⟩
    · rintro ⟨c, hc⟩
      exact ⟨wrap c, map_eq_ok_iff.mpr ⟨c, hc, rfl⟩⟩
  · intro u hu
    obtain ⟨c, hc, hwrap⟩ := map_eq_ok_iff.mp (h ▸ hu)
    exact ⟨c, hwrap.symm, hholds c hc⟩
  · intro e he
    refine hrefused e ?_
    cases x with
    | error e' => exact congrArg Except.error (Except.error.inj (h.symm.trans he))
    | ok c => exact nomatch h.symm.trans he

theorem unify_arrays {first : NDArray} {others : List NDArray}
    (h : Tagged (first :: others) labels) :
    unify ((first :: others).map .array) labels axis =
      (NDArray.stack first others).map .array := by
  rw [unify_map .array h fun _ => rfl, combine,
    filterMap_map_make Value.array? fun _ => rfl]

theorem combines_arrays {arrays : List NDArray} (h : Tagged arrays labels) :
    Combines .array NDArray.shape .incompatibleShapes .array (fun c : NDArray => c.Stacks arrays)
      arrays labels axis := by
  match arrays, h with
  | [], h => exact absurd h.several (by simp)
  | first :: others, h =>
    refine combines_of_eq_map (unify_arrays h) ?_ (fun c hc => NDArray.stacks_stack hc)
      fun e he => NDArray.eq_of_stack_eq_error he
    rw [uniform_cons_iff]
    constructor
    · rintro ⟨c, hc⟩
      exact (NDArray.stack_eq_ok_iff.mp hc).1
    · exact fun hall => ⟨_, NDArray.stack_eq_ok_iff.mpr ⟨hall, rfl⟩⟩

/-! ## 4. Columns -/

theorem unify_labeledArrays {arrays : List LabeledArray} (h : Tagged arrays labels) :
    unify (arrays.map .labeledArray) labels axis =
      (LabeledArray.concatUnder arrays axis labels).map .labeledArray := by
  rw [unify_map .labeledArray h fun _ => rfl, combine,
    filterMap_map_make Value.labeledArray? fun _ => rfl, LabeledArray.concatUnder]
  cases LabeledArray.concat arrays axis with
  | error e => rfl
  | ok joined => cases joined.withCoord axis labels <;> rfl

/-- The dimension along which the arrays are put must be a new one. -/
theorem combines_labeledArrays {first : LabeledArray} {others : List LabeledArray}
    (h : Tagged (first :: others) labels) (haxis : axis ∉ first.dims) :
    Combines .labeledArray (fun a => (a.dims, a.shape)) (first.mismatch others) .labeledArray
      (fun u : LabeledArray => u.Collects axis labels (first :: others)) (first :: others) labels
      axis := by
  refine combines_of_eq_map (unify_labeledArrays h) ?_
    (fun u hu => LabeledArray.collects_concatUnder haxis hu)
    fun e he => LabeledArray.eq_of_concatUnder_eq_error haxis h.length.symm he
  rw [uniform_cons_iff, LabeledArray.exists_concatUnder_iff haxis h.length.symm]
  simp only [Prod.mk.injEq, forall_and]

/-! ## 6. Remote numbers -/

/-- The items of the list are the graphs of the numbers. -/
structure RemoteList.Collects (l : RemoteList) (numbers : List RemoteNumber) : Prop where
  length : l.length = numbers.length
  graph : l.graph = .list (numbers.map (·.graph))

end BandMath
