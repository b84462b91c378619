/-
# Labels in formulas

Labels are merged at every operator, two operands at a time, and a name is kept where both operands
have it.  What comes out at the end does not depend on the tree: the labels of the result are the
union of the labels of all labeled operands, and its name is the one that all of them share
(`Formula.labels_evaluateIn`).  This holds because merging keeps it (`Series.keeps_merges`,
`LabeledArray.keeps_merges`), and because what is merged depends only on which labels go in, not on
their order and number (`sharedName_congr`).

What comes out is stated as a relation between a result and the labeled operands (`Merges`), not by
a function that would say in which order they are merged.  `labels_eq` draws the conclusion: results
that merge the same labels have the same labels, whatever formulas they come from.

For columns the row labels are the same in all operands, so only the name has to be merged.  For
labeled arrays dimensions and shape are the same, and a dimension has the coordinate that any of the
operands gives it; no two of them disagree, since arithmetic would have been refused
(`LabeledArray.Merges.agree`).

Plain operands, numbers and arrays, have no labels and drop out.
-/
import BandMath.Proofs.Labeled.Fitting
import BandMath.Proofs.Value.Labeled

namespace BandMath

/-! ## 1. Shared names -/

/-- The name that several things share; none if two of them differ or there are none. -/
def sharedName : List (Option String) → Option String
  | [] => none
  | name :: names => if names.all fun other => other = name then name else none

section Names

variable {left right : Option String} {names others : List (Option String)} {n : String}

theorem commonName_eq_some_iff :
    commonName left right = some n ↔ left = some n ∧ right = some n := by
  unfold commonName
  split
  · rename_i h
    simp [← h]
  · rename_i h
    simp only [reduceCtorEq, false_iff, not_and]
    rintro rfl rfl
    exact h rfl

theorem sharedName_eq_some_iff :
    sharedName names = some n ↔ names ≠ [] ∧ ∀ name ∈ names, name = some n := by
  cases names with
  | nil => simp [sharedName]
  | cons name names =>
    rw [sharedName, List.forall_mem_cons]
    split
    · rename_i hall
      simp only [List.all_eq_true, decide_eq_true_eq] at hall
      refine ⟨fun h => ⟨List.cons_ne_nil _ _, h, fun other hother => ?_⟩, fun h => h.2.1⟩
      rw [hall other hother, h]
    · rename_i hall
      simp only [reduceCtorEq, ne_eq, not_false_eq_true, true_and, false_iff, not_and]
      rintro rfl hothers
      exact hall (List.all_eq_true.mpr fun other hother => decide_eq_true (hothers other hother))

/-- A name that two groups share is shared by all. -/
theorem sharedName_append (hnames : names ≠ []) (hothers : others ≠ []) :
    sharedName (names ++ others) = commonName (sharedName names) (sharedName others) := by
  refine Option.ext fun n => ?_
  simp only [commonName_eq_some_iff, sharedName_eq_some_iff, List.forall_mem_append, hnames,
    hothers, List.append_eq_nil_iff, ne_eq, not_false_eq_true, true_and, and_self]

/-- Only the names count, not their order and number. -/
theorem sharedName_congr (h : ∀ name, name ∈ names ↔ name ∈ others) :
    sharedName names = sharedName others := by
  refine Option.ext fun n => ?_
  simp only [sharedName_eq_some_iff, ne_eq, List.eq_nil_iff_forall_not_mem, h]

end Names

/-! ## 2. The same labels -/

/-- The same labels are found in both, in any order and number. -/
def SameLabels {α β : Type} (labels : α → β) (xs ys : List α) : Prop :=
  ∀ l, l ∈ xs.map labels ↔ l ∈ ys.map labels

namespace SameLabels

variable {α β : Type} {labels : α → β} {xs ys : List α}

theorem of_perm (h : xs.Perm ys) : SameLabels labels xs ys := fun _ => (h.map labels).mem_iff

theorem exists_mem_iff (h : SameLabels labels xs ys) (p : β → Prop) :
    (∃ x ∈ xs, p (labels x)) ↔ ∃ y ∈ ys, p (labels y) := by
  have hmap : ∀ zs : List α, (∃ z ∈ zs, p (labels z)) ↔ ∃ l ∈ zs.map labels, p l := fun zs => by
    simp
  rw [hmap, hmap]
  exact exists_congr fun l => and_congr_left' (h l)

theorem sharedName_eq (h : SameLabels labels xs ys) (name : β → Option String) :
    sharedName (xs.map fun x => name (labels x)) =
      sharedName (ys.map fun x => name (labels x)) := by
  refine sharedName_congr fun n => ?_
  simpa only [List.mem_map] using h.exists_mem_iff fun l => name l = n

end SameLabels

/-! ## 3. Columns -/

namespace Series

variable {s t : Series} {ls ms : List Series}

/-- The row labels and the name. -/
def labels (s : Series) : List String × Option String := (s.index, s.name)

/-- The labels of the series are those of the given ones, of which there is at least one: they all
have the same row labels, and the name is the one that they share. -/
structure Merges (s : Series) (ls : List Series) : Prop where
  nonempty : ls ≠ []
  index : ∀ t ∈ ls, t.index = s.index
  name : s.name = sharedName (ls.map (·.name))

theorem keeps_merges : Family.series.Keeps fun ls s => s.Merges ls where
  congr {ls ms s} h hs := by
    obtain ⟨t, ht⟩ := List.exists_mem_of_ne_nil ls hs.nonempty
    refine ⟨List.ne_nil_of_mem ((h t).mp ht), fun t ht => hs.index t ((h t).mpr ht), ?_⟩
    rw [hs.name]
    exact sharedName_congr fun name => by simp only [List.mem_map, h]
  single s := ⟨List.cons_ne_nil _ _, fun t ht => List.mem_singleton.mp ht ▸ rfl, rfl⟩
  map h := ⟨h.nonempty, h.index, h.name⟩
  zipWith {f ls ms s t u} hs ht h := by
    obtain ⟨hindex, rfl⟩ := zipWith_eq_ok_iff.mp h
    refine ⟨List.append_ne_nil_of_left_ne_nil hs.nonempty _, fun r hr => ?_, ?_⟩
    · rcases List.mem_append.mp hr with hr | hr
      · exact hs.index r hr
      · exact (ht.index r hr).trans hindex.symm
    · rw [List.map_append, sharedName_append (by simpa using hs.nonempty)
        (by simpa using ht.nonempty), ← hs.name, ← ht.name]
  zipArray {f ls s a u} hs h := by
    obtain ⟨-, -, hindex, hname⟩ := zipArray_eq_ok h
    exact ⟨hs.nonempty, fun t ht => (hs.index t ht).trans hindex.symm, hname.trans hs.name⟩

/-- Which labels come out is a matter of which labels go in. -/
theorem Merges.labels_eq (hs : s.Merges ls) (ht : t.Merges ms) (h : SameLabels labels ls ms) :
    s.labels = t.labels := by
  have hindex : s.index = t.index := by
    obtain ⟨r, hr⟩ := List.exists_mem_of_ne_nil ls hs.nonempty
    obtain ⟨r', hr', hlabels⟩ := (h.exists_mem_iff (· = r.labels)).mp ⟨r, hr, rfl⟩
    rw [← hs.index r hr, ← ht.index r' hr', (Prod.mk.inj hlabels).1]
  have hname : s.name = t.name := by
    rw [hs.name, ht.name]
    exact h.sharedName_eq (·.2)
  rw [labels, labels, hindex, hname]

end Series

/-! ## 4. Labeled arrays -/

namespace LabeledArray

variable {a b : LabeledArray} {ls ms : List LabeledArray}

/-- Everything but the elements. -/
def labels (a : LabeledArray) : List String × List Nat × Coordinates × Option String :=
  (a.dims, a.shape, a.coords, a.name)

/-- The labels of the array are those of the given ones, of which there is at least one: they all
have the same dimensions and the same shape, the coordinates are those that any of them has, and the
name is the one that they share. -/
structure Merges (a : LabeledArray) (ls : List LabeledArray) : Prop where
  nonempty : ls ≠ []
  dims : ∀ b ∈ ls, b.dims = a.dims
  shape : ∀ b ∈ ls, b.shape = a.shape
  coord? : ∀ (dim : String) (labels : List String),
    a.coord? dim = some labels ↔ ∃ b ∈ ls, b.coord? dim = some labels
  name : a.name = sharedName (ls.map (·.name))

/-- No two of the arrays differ in a coordinate that both have: it is that of the merged array. -/
theorem Merges.agree (h : a.Merges ls) {b c : LabeledArray} (hb : b ∈ ls) (hc : c ∈ ls)
    {dim : String} {mine theirs : List String} (hmine : b.coord? dim = some mine)
    (htheirs : c.coord? dim = some theirs) : mine = theirs := by
  have hb' := (h.coord? dim mine).mpr ⟨b, hb, hmine⟩
  have hc' := (h.coord? dim theirs).mpr ⟨c, hc, htheirs⟩
  exact Option.some.inj (hb'.symm.trans hc')

theorem keeps_merges : Family.labeledArray.Keeps fun ls a => a.Merges ls where
  congr {ls ms a} h ha := by
    obtain ⟨b, hb⟩ := List.exists_mem_of_ne_nil ls ha.nonempty
    refine ⟨List.ne_nil_of_mem ((h b).mp hb), fun b hb => ha.dims b ((h b).mpr hb),
      fun b hb => ha.shape b ((h b).mpr hb), fun dim labels => ?_, ?_⟩
    · simp only [ha.coord?, h]
    · rw [ha.name]
      exact sharedName_congr fun name => by simp only [List.mem_map, h]
  single a := by
    refine ⟨List.cons_ne_nil _ _, fun b hb => ?_, fun b hb => ?_, fun dim labels => ?_, rfl⟩
    · rw [List.mem_singleton.mp hb]
    · rw [List.mem_singleton.mp hb]
    · simp
  map h := ⟨h.nonempty, h.dims, h.shape, h.coord?, h.name⟩
  zipWith {f ls ms a b c} ha hb h := by
    obtain ⟨hdims, hshape, -, -, hcdims, hcshape, hname⟩ := zipWith_eq_ok h
    refine ⟨List.append_ne_nil_of_left_ne_nil ha.nonempty _, fun r hr => ?_, fun r hr => ?_,
      fun dim labels => ?_, ?_⟩
    · rcases List.mem_append.mp hr with hr | hr
      · rw [ha.dims r hr, hcdims]
      · rw [hb.dims r hr, hcdims, hdims]
    · rcases List.mem_append.mp hr with hr | hr
      · rw [ha.shape r hr, hcshape]
      · rw [hb.shape r hr, hcshape, hshape]
    · have hor : c.coord? dim = some labels ↔
          a.coord? dim = some labels ∨ b.coord? dim = some labels := coord?_zipWith h
      rw [hor, ha.coord?, hb.coord?]
      simp only [List.mem_append, or_and_right, exists_or]
    · rw [hname, List.map_append, sharedName_append (by simpa using ha.nonempty)
        (by simpa using hb.nonempty), ← ha.name, ← hb.name]
  zipArray {f ls a data c} ha h := by
    obtain ⟨-, -, hdims, hshape, hcoords, hname⟩ := zipArray_eq_ok h
    refine ⟨ha.nonempty, fun b hb => (ha.dims b hb).trans hdims.symm,
      fun b hb => (ha.shape b hb).trans hshape.symm, fun dim labels => ?_, hname.trans ha.name⟩
    rw [← ha.coord?, LabeledArray.coord?, hcoords]
    rfl

/-- Which labels come out is a matter of which labels go in. -/
theorem Merges.labels_eq (ha : a.Merges ls) (hb : b.Merges ms) (h : SameLabels labels ls ms) :
    a.labels = b.labels := by
  obtain ⟨r, hr⟩ := List.exists_mem_of_ne_nil ls ha.nonempty
  obtain ⟨r', hr', hlabels⟩ := (h.exists_mem_iff (· = r.labels)).mp ⟨r, hr, rfl⟩
  have hdims : a.dims = b.dims := by
    rw [← ha.dims r hr, ← hb.dims r' hr']
    exact (congrArg (·.1) hlabels).symm
  have hshape : a.shape = b.shape := by
    rw [← ha.shape r hr, ← hb.shape r' hr']
    exact (congrArg (·.2.1) hlabels).symm
  have hcoords : a.coords = b.coords := by
    refine Std.ExtTreeMap.ext_getElem? fun dim => Option.ext fun l => ?_
    have hmem := h.exists_mem_iff fun l' => l'.2.2.1[dim]? = some l
    exact (ha.coord? dim l).trans (hmem.trans (hb.coord? dim l).symm)
  have hname : a.name = b.name := by
    rw [ha.name, hb.name]
    exact h.sharedName_eq (·.2.2.2)
  rw [labels, labels, hdims, hshape, hcoords, hname]

end LabeledArray

/-! ## 5. Formulas -/

/-- **The labels of a formula's value are those of the labeled values of its symbols.**  When the
value is a series, all series among the values of the symbols have its row labels, and their shared
name is its name.  When it is a labeled array, all labeled arrays among them have its dimensions and
its shape, no two of them differ in a coordinate, its coordinates are the union of theirs, and their
shared name is its name.

Nothing else counts: another formula over other values has the same labels if the same labels go
into it, whatever its operators, its numbers and its arrays are. -/
theorem Formula.labels_evaluateIn (f : Formula) (functions : List Function) (b : Bindings Value) :
    (∀ s, f.evaluateIn ⟨b, functions⟩ = .ok (.series s) →
      s.Merges (Family.series.operands b f.symbols) ∧
      ∀ (g : Formula) (functions' : List Function) (c : Bindings Value) (t : Series),
        g.evaluateIn ⟨c, functions'⟩ = .ok (.series t) →
        SameLabels Series.labels (Family.series.operands b f.symbols)
          (Family.series.operands c g.symbols) → s.labels = t.labels) ∧
    ∀ a, f.evaluateIn ⟨b, functions⟩ = .ok (.labeledArray a) →
      a.Merges (Family.labeledArray.operands b f.symbols) ∧
      (∀ l ∈ Family.labeledArray.operands b f.symbols,
        ∀ r ∈ Family.labeledArray.operands b f.symbols,
          ∀ dim mine theirs, l.coord? dim = some mine → r.coord? dim = some theirs →
            mine = theirs) ∧
      ∀ (g : Formula) (functions' : List Function) (c : Bindings Value) (t : LabeledArray),
        g.evaluateIn ⟨c, functions'⟩ = .ok (.labeledArray t) →
        SameLabels LabeledArray.labels (Family.labeledArray.operands b f.symbols)
          (Family.labeledArray.operands c g.symbols) → a.labels = t.labels := by
  constructor
  · intro s hs
    have hmerges := Series.keeps_merges.evaluateIn Family.lawful_series hs
    refine ⟨hmerges, fun g functions' c t ht hsame => ?_⟩
    exact hmerges.labels_eq (Series.keeps_merges.evaluateIn Family.lawful_series ht) hsame
  · intro a ha
    have hmerges := LabeledArray.keeps_merges.evaluateIn Family.lawful_labeledArray ha
    refine ⟨hmerges, fun l hl r hr dim mine theirs => hmerges.agree hl hr,
      fun g functions' c t ht hsame => ?_⟩
    exact hmerges.labels_eq
      (LabeledArray.keeps_merges.evaluateIn Family.lawful_labeledArray ht) hsame

/-- Two formulas in which the operands come in another order, over columns of which one has a name,
and over labeled arrays with one coordinate each. -/
theorem Formula.labels_evaluateIn_swapped :
    let f : Formula := ⟨"s+t", .binary .add (.symbol "s") (.symbol "t")⟩
    let g : Formula :=
      ⟨"t*(s-1)", .binary .multiply (.symbol "t") (.binary .subtract (.symbol "s") (.number 1))⟩
    let s : Series := ⟨some "n", ["u", "v"], #[1, 2]⟩
    let t : Series := ⟨none, ["u", "v"], #[3, 4]⟩
    let l : LabeledArray := ⟨some "n", ["y", "x"], .ofList [("y", ["p"])], .fill [1, 2] 1⟩
    let r : LabeledArray := ⟨some "n", ["y", "x"], .ofList [("x", ["u", "v"])], .fill [1, 2] 2⟩
    let b : Bindings Value := .ofPairs [("s", .series s), ("t", .series t)]
    let c : Bindings Value := .ofPairs [("s", .labeledArray l), ("t", .labeledArray r)]
    (∃ u v, f.evaluateIn ⟨b, []⟩ = .ok (.series u) ∧ g.evaluateIn ⟨b, []⟩ = .ok (.series v) ∧
        u.Merges [s, t] ∧ u.labels = (["u", "v"], none) ∧ u.labels = v.labels) ∧
      ∃ u v, f.evaluateIn ⟨c, []⟩ = .ok (.labeledArray u) ∧
        g.evaluateIn ⟨c, []⟩ = .ok (.labeledArray v) ∧ u.Merges [l, r] ∧ u.name = some "n" ∧
        u.coords.toList = [("x", ["u", "v"]), ("y", ["p"])] ∧ u.labels = v.labels := by
  intro f g s t l r b c
  constructor
  · obtain ⟨u, hu, hlabels⟩ : ∃ u, f.evaluateIn ⟨b, []⟩ = .ok (.series u) ∧
        u.labels = (["u", "v"], none) := ⟨_, rfl, rfl⟩
    obtain ⟨v, hv⟩ : ∃ v, g.evaluateIn ⟨b, []⟩ = .ok (.series v) := ⟨_, rfl⟩
    have hsame : SameLabels Series.labels [s, t] [t, s] := .of_perm (.swap t s [])
    obtain ⟨hmerges, hunique⟩ := (labels_evaluateIn f [] b).1 u hu
    exact ⟨u, v, hu, hv, hmerges, hlabels, hunique g [] b v hv hsame⟩
  · obtain ⟨u, hu, hname, hcoords⟩ : ∃ u, f.evaluateIn ⟨c, []⟩ = .ok (.labeledArray u) ∧
        u.name = some "n" ∧ u.coords.toList = [("x", ["u", "v"]), ("y", ["p"])] :=
      ⟨_, rfl, rfl, rfl⟩
    obtain ⟨v, hv⟩ : ∃ v, g.evaluateIn ⟨c, []⟩ = .ok (.labeledArray v) := ⟨_, rfl⟩
    have hsame : SameLabels LabeledArray.labels [l, r] [r, l] := .of_perm (.swap r l [])
    obtain ⟨hmerges, -, hunique⟩ := (labels_evaluateIn f [] c).2 u hu
    exact ⟨u, v, hu, hv, hmerges, hname, hcoords, hunique g [] c v hv hsame⟩

end BandMath
