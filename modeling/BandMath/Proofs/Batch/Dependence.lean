/-
# What a batch depends on

A formula looks its symbols up among the bindings and the names that it calls among the functions,
and nothing else (`Formula.evaluateIn_congr_scope`).  The two look-ups never meet: a symbol may have
the name of a function or any other (`Formula.Expr.eval_rename`).

A definition is validated and evaluated by its required symbols, since its formula has no others
(`IndexDefinition.evaluate_congr`).  So a batch depends on the definitions of the requested names
and on what their required symbols are bound to.  Everything a batch does with a name it does with
`Registry.value`, so this is one fact about that (`Registry.value_congr`), carried through the three
phases and the combination of the results.

Registries and bindings are compared name by name (`AgreeAt`): the same definition under the name,
or none, and the same values for its required symbols.  Nothing is asked of bands and constants, nor
of other definitions.  For this a registry has to be well-formed, since otherwise a formula might
mention symbols that its definition does not list.

So definitions that are offered to a registry make no difference to requests of other names
(`compute_offer`).
-/
import BandMath.Proofs.Batch.Precedence
import BandMath.Proofs.Registry.Sufficiency
import BandMath.Proofs.Validation
import Mathlib.Data.List.Find

namespace BandMath

/-! ## 1. Scopes -/

namespace Formula

variable {α : Type}

/-- The names of the functions that a scope offers. -/
def Scope.offered (s : Scope α) : List String :=
  s.functions.map Function.name

theorem Function.name_injective : Function.Injective Function.name := by
  intro f g _
  cases f
  cases g
  rfl

/-- A function is found under its name and no other. -/
theorem Scope.function?_eq_some_iff {s : Scope α} {name : String} {f : Function} :
    s.function? name = some f ↔ f ∈ s.functions ∧ f.name = name := by
  constructor
  · intro h
    exact ⟨List.mem_of_find?_eq_some h, by simpa using List.find?_some h⟩
  · rintro ⟨hmem, hname⟩
    cases hg : s.function? name with
    | none =>
      have hne := List.find?_eq_none.mp hg f hmem
      simp [hname] at hne
    | some g =>
      have hgname : g.name = name := by simpa using List.find?_some hg
      rw [Function.name_injective (hgname.trans hname.symm)]

/-- Only whether a name is offered matters, not how often or in which order. -/
theorem Scope.function?_congr {s t : Scope α} {name : String}
    (h : name ∈ s.offered ↔ name ∈ t.offered) : s.function? name = t.function? name := by
  have hmem : ∀ (s : Scope α) (f : Function),
      f.name = name → (f ∈ s.functions ↔ name ∈ s.offered) := by
    intro s f hf
    rw [Scope.offered, ← hf, List.mem_map_of_injective Function.name_injective]
  refine Option.ext fun f => ?_
  rw [Scope.function?_eq_some_iff, Scope.function?_eq_some_iff]
  refine and_congr_left fun hf => ?_
  rw [hmem s f hf, hmem t f hf, h]

variable [Operand α]

/-- **An expression looks up what it mentions and what it calls, and nothing else.** -/
theorem Expr.eval_congr {s t : Scope α} (e : Expr)
    (hb : ∀ x ∈ e.mentions, s.bindings[x]? = t.bindings[x]?)
    (hf : ∀ name ∈ e.calls, name ∈ s.offered ↔ name ∈ t.offered) : e.eval s = e.eval t := by
  induction e with
  | number v => rfl
  | symbol x =>
    have hx := hb x (List.mem_singleton.mpr rfl)
    simp only [Expr.eval, hx]
  | binary op l r ihl ihr =>
    have hl := ihl (fun x hx => hb x (List.mem_append_left _ hx))
      fun name hname => hf name (List.mem_append_left _ hname)
    have hr := ihr (fun x hx => hb x (List.mem_append_right _ hx))
      fun name hname => hf name (List.mem_append_right _ hname)
    simp only [Expr.eval, hl, hr]
  | negate e ih =>
    simp only [Expr.eval, ih hb hf]
  | call name e ih =>
    have hname := Scope.function?_congr (hf name (List.mem_cons_self ..))
    have he := ih hb fun other hother => hf other (List.mem_cons_of_mem _ hother)
    simp only [Expr.eval, hname, he]

theorem evaluateIn_congr_scope {f : Formula} {s t : Scope α}
    (hb : Bindings.AgreeOn f.symbols s.bindings t.bindings)
    (hf : ∀ name ∈ f.expr.calls, name ∈ s.offered ↔ name ∈ t.offered) :
    f.evaluateIn s = f.evaluateIn t :=
  Expr.eval_congr f.expr (fun x hx => hb x (mem_symbols.mpr hx)) hf

/-- The expression with other names for its symbols; the names that it calls stay. -/
def Expr.rename (ρ : String → String) : Expr → Expr
  | number v => number v
  | symbol x => symbol (ρ x)
  | binary op left right => binary op (left.rename ρ) (right.rename ρ)
  | negate inner => negate (inner.rename ρ)
  | call name argument => call name (argument.rename ρ)

/-- **The names of symbols do not matter**, not even whether they are names of functions. -/
theorem Expr.eval_rename {b b' : Bindings α} (functions : List Function) (ρ : String → String)
    (e : Expr) (h : ∀ x ∈ e.mentions, ∃ v, b[x]? = some v ∧ b'[ρ x]? = some v) :
    (e.rename ρ).eval ⟨b', functions⟩ = e.eval ⟨b, functions⟩ := by
  induction e with
  | number v => rfl
  | symbol x =>
    obtain ⟨v, hx, hx'⟩ := h x (List.mem_singleton.mpr rfl)
    simp only [Expr.rename, Expr.eval, hx, hx']
  | binary op l r ihl ihr =>
    have hl := ihl fun x hx => h x (List.mem_append_left _ hx)
    have hr := ihr fun x hx => h x (List.mem_append_right _ hx)
    simp only [Expr.rename, Expr.eval, hl, hr]
  | negate e ih =>
    simp only [Expr.rename, Expr.eval, ih h]
  | call name e ih =>
    simp only [Expr.rename, Expr.eval, ih h]
    rfl

end Formula

/-! ## 2. Indices -/

variable {α : Type} {b b' : Bindings α}

/-- **A sound definition depends on its required symbols only.** -/
theorem IndexDefinition.evaluate_congr [Operand α] {d : IndexDefinition} (hd : d.Sound)
    (h : Bindings.AgreeOn d.required b b') : d.evaluate b = d.evaluate b' := by
  have hvalidate : d.validate b = d.validate b' := validate_congr h
  have hformula : d.formula.evaluate b = d.formula.evaluate b' :=
    Formula.evaluateIn_congr d.formula [] fun x hx => h x (hd.symbols x hx)
  rw [IndexDefinition.evaluate, IndexDefinition.evaluate, hvalidate, hformula]

namespace Registry

variable {r r' : Registry} {name : String} {names : List String} {d : IndexDefinition}

/-! ## 3. Batches -/

/-- The two registries have the same definition under the name, or none, and the two bindings agree
on the symbols that it requires. -/
structure AgreeAt (r r' : Registry) (b b' : Bindings α) (name : String) : Prop where
  index : r.indices[name]? = r'.indices[name]?
  required : ∀ d, r.indices[name]? = some d → Bindings.AgreeOn d.required b b'

theorem value_congr [Operand α] (hr : r.WellFormed) (h : AgreeAt r r' b b' name) :
    r.value b name = r'.value b' name := by
  cases hd : r.indices[name]? with
  | none =>
    have hd' := h.index.symm.trans hd
    simp only [value, index, hd, hd']
    rfl
  | some d =>
    rw [value_of_getElem? hd, value_of_getElem? (h.index.symm.trans hd)]
    exact IndexDefinition.evaluate_congr (hr name d hd).sound (h.required d hd)

theorem firstUnknown?_congr (h : ∀ name ∈ names, AgreeAt r r' b b' name) :
    r.firstUnknown? names = r'.firstUnknown? names := by
  refine List.find?_congr fun name hname => ?_
  rw [contains_congr (h name hname).index]

theorem firstLacking?_congr (h : ∀ name ∈ names, AgreeAt r r' b b' name) :
    r.firstLacking? b names = r'.firstLacking? b' names := by
  refine findSome?_of_forall₂ (List.forall₂_same.mpr fun name hname => ?_)
  rw [← (h name hname).index]
  cases hd : r.indices[name]? with
  | none => rfl
  | some d =>
    have hsymbol : ∀ s ∈ d.required, (!b.contains s) = !b'.contains s := by
      intro s hs
      rw [contains_congr ((h name hname).required d hd s hs)]
    rw [Option.bind_some, Option.bind_some, List.find?_congr hsymbol]

/-- **The faults and the values of a batch are those of its names.** -/
theorem evaluate_congr [Operand α] (hr : r.WellFormed) (mode : Mode)
    (h : ∀ name ∈ names, AgreeAt r r' b b' name) :
    r.evaluate mode names b = r'.evaluate mode names b' := by
  have hvalue : ∀ name ∈ names, r.value b name = r'.value b' name :=
    fun name hname => value_congr hr (h name hname)
  have hrefusal : names.findSome? (fun name => refusal? (r.value b name)) =
      names.findSome? fun name => refusal? (r'.value b' name) :=
    findSome?_of_forall₂ (List.forall₂_same.mpr fun name hname =>
      congrArg refusal? (hvalue name hname))
  have hvalues : r.values b names = r'.values b' names :=
    List.filterMap_congr fun name hname => congrArg Except.toOption (hvalue name hname)
  rw [evaluate_eq, evaluate_eq, hvalues, fault?, fault?, firstUnknown?_congr h,
    firstLacking?_congr h, hrefusal]

/-! ## 4. Requests -/

section Requests

variable {request : Request} {b b' : Bindings Value}

theorem compute_congr (hr : r.WellFormed) (options : BatchOptions)
    (h : ∀ name ∈ request.names, AgreeAt r r' b b' name) :
    r.compute request b options = r'.compute request b' options := by
  rw [compute, compute, evaluate_congr hr options.mode h]

/-- A definition that is offered stands under its own name and touches no other. -/
theorem getElem?_offer (r : Registry) {d : IndexDefinition} (h : name ≠ d.name) :
    (r.offer d).indices[name]? = r.indices[name]? := by
  unfold offer
  rcases r.insert_cases d with ⟨s, -, -, hinsert⟩ | ⟨hknown, -⟩
  · rw [hinsert]
  · rw [(replaces_of_insert (insert_eq_ok_iff.mpr hknown)).indices, if_neg h]

theorem compute_offer (hr : r.WellFormed) (options : BatchOptions) (h : d.name ∉ request.names) :
    (r.offer d).compute request b options = r.compute request b options := by
  refine (compute_congr hr options fun name hname => ⟨?_, fun _ _ _ _ => rfl⟩).symm
  exact (getElem?_offer r fun heq => h (heq ▸ hname)).symm

/-- **A batch reads only what its request names.**  Let two registries have the same definitions, or
none, under the requested names, and two bindings the same values, or none, for the symbols that
these require.  Then both give the same answer or fail in the same way.  Offering a definition to a
registry makes no difference to a request that does not mention its name.

A formula depends on what its symbols are bound to and on which of the names that it calls are
offered.  So a binding makes no difference to a formula without that symbol, even if the formula
calls a function of that name; a function makes none to a formula that does not call it, even if it
is named like a symbol; and where a symbol has the name of a function, any other name would do. -/
theorem compute_eq_of_agreeAt (hr : r.Grown) (options : BatchOptions)
    (h : ∀ name ∈ request.names, AgreeAt r r' b b' name) :
    r.compute request b options = r'.compute request b' options ∧
    (∀ d : IndexDefinition, d.name ∉ request.names →
      (r.offer d).compute request b options = r.compute request b options) ∧
    ∀ (α : Type) [Operand α] (f : Formula),
      (∀ s t : Formula.Scope α, Bindings.AgreeOn f.symbols s.bindings t.bindings →
        (∀ name ∈ f.expr.calls, name ∈ s.offered ↔ name ∈ t.offered) →
        f.evaluateIn s = f.evaluateIn t) ∧
      ∀ (b : Bindings α) (functions : List Formula.Function),
        (∀ (name : String) (v : α), name ∉ f.symbols →
          f.evaluateIn ⟨b.insert name v, functions⟩ = f.evaluateIn ⟨b, functions⟩) ∧
        (∀ g : Formula.Function, g.name ∉ f.expr.calls →
          f.evaluateIn ⟨b, g :: functions⟩ = f.evaluateIn ⟨b, functions⟩) ∧
        ∀ (ρ : String → String) (b' : Bindings α),
          (∀ x ∈ f.symbols, ∃ v, b[x]? = some v ∧ b'[ρ x]? = some v) →
          (f.expr.rename ρ).eval ⟨b', functions⟩ = f.evaluateIn ⟨b, functions⟩ := by
  refine ⟨compute_congr hr.wellFormed options h, fun d hd => compute_offer hr.wellFormed options hd,
    fun α _ f => ⟨fun s t => Formula.evaluateIn_congr_scope, fun b functions => ⟨?_, ?_, ?_⟩⟩⟩
  · intro name v hname
    exact (Formula.evaluateIn_congr f functions (Bindings.agreeOn_insert b v hname)).symm
  · intro g hg
    refine Formula.evaluateIn_congr_scope (fun _ _ => rfl) fun name hname => ?_
    have hne : name ≠ g.name := fun heq => hg (heq ▸ hname)
    simp [Formula.Scope.offered, hne]
  · intro ρ b' hb'
    exact Formula.Expr.eval_rename functions ρ f.expr fun x hx =>
      hb' x (Formula.mem_symbols.mpr hx)

/-- A registry of one index, and the same registry after another was offered to it; bindings of what
the first index requires, and the same bindings with an array besides. -/
theorem compute_eq_of_agreeAt_grown :
    let b : Bindings Value := .ofPairs [("N", .scalar 5), ("R", .scalar 3)]
    let b' : Bindings Value := b.insert "Z" (.array (.ofList [1, 2]))
    ∃ (r : Registry) (d : IndexDefinition) (o : Outcome Value), r.Grown ∧
      (r.offer d).definitions.map (·.name) = ["A", "B"] ∧
      (∀ name ∈ (Request.many ["A"]).names, AgreeAt r (r.offer d) b b' name) ∧
      r.compute (.many ["A"]) b {} = .ok o ∧
      (r.offer d).compute (.many ["A"]) b' {} = .ok o ∧
      o.toList.map (fun v => v.kind) = [.scalar] := by
  intro b b'
  have h : (do
      let r ← ofDocuments
        "\x7b\"SpectralIndices\":\x7b\"A\":[\"A\",\"N - R\",[\"N\",\"R\"]]\x7d\x7d" "{}"
        "\x7b\"N\":[\"N\",\"\"],\"R\":[\"R\",\"\"]\x7d"
      let d ← (IndexDefinition.ofFormula "B" "N * R" ["N", "R"]).mapError Error.invalidRegistry
      let o ← r.compute (.many ["A"]) b {}
      return ((r.offer d).definitions.map (·.name), r.indices["A"]?.map (·.required), d.name,
        o.toList.map (fun v => v.kind)) :
        Except Error (List String × Option (List String) × String × List Kind)) =
      .ok (["A", "B"], some ["N", "R"], "B", [.scalar]) := by decide +kernel
  obtain ⟨r, hr, h⟩ := bind_eq_ok_iff.mp h
  obtain ⟨d, hd, h⟩ := bind_eq_ok_iff.mp h
  obtain ⟨o, ho, h⟩ := bind_eq_ok_iff.mp h
  obtain ⟨hnames, h⟩ := Prod.mk.inj (Except.ok.inj h)
  obtain ⟨hrequired, h⟩ := Prod.mk.inj h
  obtain ⟨hname, hkinds⟩ := Prod.mk.inj h
  have hgrown : r.Grown := (Loaded.ofDocuments hr).grown
  have hagree : ∀ name ∈ (Request.many ["A"]).names, AgreeAt r (r.offer d) b b' name := by
    intro name hmem
    obtain rfl := List.mem_singleton.mp hmem
    refine ⟨(getElem?_offer r (by rw [hname]; decide)).symm, fun e he => ?_⟩
    rw [he] at hrequired
    have hsymbols : e.required = ["N", "R"] := Option.some.inj hrequired
    rw [hsymbols]
    exact Bindings.agreeOn_insert b _ (by decide)
  exact ⟨r, d, o, hgrown, hnames, hagree, ho,
    (compute_eq_of_agreeAt hgrown {} hagree).1.symm.trans ho, hkinds⟩

end Requests

end Registry

end BandMath
