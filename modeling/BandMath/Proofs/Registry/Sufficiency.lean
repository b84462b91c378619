/-
# What validation leaves open

Validation asks for a value of every required symbol.  All symbols of a formula are required, but
the name of a function is not a symbol, so nothing is ever said about calls: neither where a
definition is made, nor where it is inserted or validated.  An index is evaluated without any
function in scope.  So what validation leaves open is exactly the calls of the formula
(`Registry.WellFormed.refusal?_evaluate`), and it is not so that an index of a registry has a value
once it is validated (`Registry.not_forall_exists_evaluate`).

Kernels are validated in the same way, but evaluated with the only function that they call in scope;
they do have a value (`Kernel.exists_compute`).  None of the built-in indices calls a function
(`Registry.calls_of_builtin`).
-/
import BandMath.Proofs.Batch.Precedence
import BandMath.Proofs.Formula.References
import BandMath.Proofs.Kernel
import BandMath.Proofs.Registry.WellFormed
import Mathlib.Data.List.Find

namespace BandMath

/-! ## 1. Calls -/

namespace Formula

variable {α : Type} [Operand α]

/-- Whether the scope has a function of that name. -/
def Scope.lacks (s : Scope α) (name : String) : Bool :=
  (s.function? name).isNone

/-- **With all symbols bound, a formula fails at its first call of a function that is not in scope,
and not otherwise.**  Of the names that it looks up, only those of functions are left. -/
theorem Expr.refusal?_eval_of_bound (hα : Total α) (s : Scope α) (e : Expr)
    (hb : ∀ x ∈ e.mentions, x ∈ s.bindings) :
    refusal? (e.eval s) = (e.calls.find? s.lacks).map .undefinedSymbol := by
  have hlacks : ∀ r ∈ e.references,
      (decide ¬ s.Resolves r) = decide (r.isCall = true ∧ s.lacks r.name = true) := by
    rintro ⟨name, isCall⟩ hr
    cases isCall with
    | true => simp [Scope.resolves_call_iff, Scope.lacks]
    | false =>
      have hname : name ∈ s.bindings := hb name (Expr.mem_mentions_iff.mpr hr)
      simp [Scope.resolves_symbol_iff, hname]
  rw [Expr.refusal?_eval hα, List.find?_congr hlacks, Expr.calls_eq, List.find?_map,
    List.find?_filter, Option.map_map]
  rfl

end Formula

/-! ## 2. Indices -/

variable {α : Type}

/-- **A sound definition that is validated fails at the first call of its formula**, and has a value
if there is none. -/
theorem IndexDefinition.refusal?_evaluate [Operand α] (hα : Formula.Total α) {d : IndexDefinition}
    (hd : d.Sound) {b : Bindings α} (hb : d.validate b = .ok ()) :
    refusal? (d.evaluate b) = d.formula.expr.calls.head?.map .undefinedSymbol := by
  have hlacks : Formula.Scope.lacks (⟨b, []⟩ : Formula.Scope α) = fun _ => true := rfl
  have hbound : ∀ x ∈ d.formula.expr.mentions, x ∈ b := fun x hx =>
    mem_of_validate hb (hd.symbols x (Formula.mem_symbols.mpr hx))
  rw [IndexDefinition.evaluate, hb, ok_bind, Formula.evaluate, Formula.evaluateIn,
    Formula.Expr.refusal?_eval_of_bound hα _ _ hbound, hlacks, ← List.head?_filter,
    List.filter_true]

namespace Registry

variable {r : Registry} {ds : List IndexDefinition} {d : IndexDefinition} {name : String}

/-- **An index of a well-formed registry that is validated fails at the first call of its
formula.** -/
theorem WellFormed.refusal?_evaluate (hr : r.WellFormed) (hd : r.index name = .ok d)
    {b : Bindings Float} (hb : d.validate b = .ok ()) :
    refusal? (d.evaluate b) = d.formula.expr.calls.head?.map .undefinedSymbol :=
  IndexDefinition.refusal?_evaluate Formula.total_float (hr name d (index_eq_ok hd)).sound hb

/-- So validation is enough for the indices that call no function, and for no others. -/
theorem WellFormed.exists_evaluate_iff (hr : r.WellFormed) (hd : r.index name = .ok d)
    {b : Bindings Float} (hb : d.validate b = .ok ()) :
    (∃ x, d.evaluate b = .ok x) ↔ d.formula.expr.calls = [] := by
  rw [← refusal?_eq_none_iff, hr.refusal?_evaluate hd hb, Option.map_eq_none_iff,
    List.head?_eq_none_iff]

/-- The same for every index that was loaded or taken in later. -/
theorem exists_evaluate_offers_iff (hr : r.Loaded) (hds : ∀ d ∈ ds, d.Made)
    (hd : (r.offers ds).index name = .ok d) {b : Bindings Float} (hb : d.validate b = .ok ()) :
    (∃ x, d.evaluate b = .ok x) ↔ d.formula.expr.calls = [] :=
  (hr.wellFormed.offers fun d hd => (hds d hd).sound).exists_evaluate_iff hd hb

/-- It is not so that an index of a registry has a value once it is validated: `exp(N)` requires
`N` only. -/
theorem not_forall_exists_evaluate : ¬ ∀ (r : Registry) (name : String) (d : IndexDefinition)
    (b : Bindings Float), r.Loaded → r.index name = .ok d → d.validate b = .ok () →
      ∃ x, d.evaluate b = .ok x := by
  intro h
  have hloads : (do
      let r ← ofIndexDocument
        "\x7b\"SpectralIndices\":\x7b\"E\":[\"E\",\"exp(N)\",[\"N\"]]\x7d\x7d"
      let d ← r.index "E"
      d.validate (.ofPairs [("N", (0 : Float))])
      return d.formula.expr.calls : Except Error (List String)) = .ok ["exp"] := by
    decide +kernel
  obtain ⟨r, hr, hloads⟩ := bind_eq_ok_iff.mp hloads
  obtain ⟨d, hd, hloads⟩ := bind_eq_ok_iff.mp hloads
  obtain ⟨_, hb, hcalls⟩ := bind_eq_ok_iff.mp hloads
  have hvalue := h r "E" d _ (.ofIndexDocument hr) hd hb
  rw [(Loaded.ofIndexDocument hr).wellFormed.exists_evaluate_iff hd hb,
    Except.ok.inj hcalls] at hvalue
  exact nomatch hvalue

/-- No built-in index calls a function. -/
theorem calls_of_builtin (h : builtin = .ok r) (hd : d ∈ r.definitions) :
    d.formula.expr.calls = [] := by
  have hall : (builtin.map fun r => r.definitions.all fun d => d.formula.expr.calls.isEmpty) =
      .ok true := by decide +kernel
  rw [h, map_ok] at hall
  exact List.isEmpty_iff.mp (List.all_eq_true.mp (Except.ok.inj hall) d hd)

/-- So validation is enough for every built-in index. -/
theorem exists_evaluate_of_builtin (h : builtin = .ok r) (hd : r.index name = .ok d)
    {b : Bindings Float} (hb : d.validate b = .ok ()) : ∃ x, d.evaluate b = .ok x := by
  have hmem : d ∈ r.definitions := Bindings.mem_values_iff.mpr ⟨name, index_eq_ok hd⟩
  exact ((Loaded.builtin h).wellFormed.exists_evaluate_iff hd hb).mpr (calls_of_builtin h hmem)

end Registry

/-! ## 3. Kernels -/

/-- **A kernel that is validated has a value**: the one function that kernels call is in scope. -/
theorem Kernel.exists_compute {r : Registry} (hr : r.KernelsRead) (k : Kernel) {b : Bindings Float}
    (hb : validate k.name k.required b = .ok ()) : ∃ x, k.compute r b = .ok x := by
  have hbound : ∀ x ∈ k.formula.expr.mentions, x ∈ b := fun x hx =>
    mem_of_validate hb (mem_required (Formula.mem_symbols.mpr hx))
  have hlacks : k.formula.expr.calls.find?
      (Formula.Scope.lacks (⟨b, [.exp]⟩ : Formula.Scope Float)) = none := by
    cases k <;> rfl
  rw [compute, hb, ok_bind, delegate?_float, hr.kernel_eq, ← refusal?_eq_none_iff]
  exact (Formula.Expr.refusal?_eval_of_bound Formula.total_float _ _ hbound).trans
    (congrArg (Option.map Error.undefinedSymbol) hlacks)

end BandMath
