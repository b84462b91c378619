/-
# What a kernel depends on

Evaluated here, a kernel depends on the symbols that it requires and on no others (`compute_congr`).
Handed over to an executor it takes with it whatever is bound, required or not: any image makes the
result an image (`handOver`, `bindsImage_iff`), any value without a graph makes it fail
(`exists_handOver_iff`), and bindings of different symbols never have the same result
(`mem_iff_of_compute_eq`).

What decides is whether `a` or `b` is the handle of a remote result (`delegates`).  If neither is,
the formula of the registry is evaluated, and a formula depends on its symbols only
(`evaluateIn_congr`); all of them are required.  If one is, it does not matter which of them is
asked, as both make the same of the kernel (`delegate?_eq`), and the registry does not matter at all
(`compute_of_delegates`).

The two halves are stated for all bindings.  That a further symbol is harmless is therefore true of
kernels that are evaluated here and false of those that are handed over: there it always makes a
difference (`compute_insert_ne`), if not a failure.
-/
import BandMath.Kernel.Evaluation
import BandMath.Proofs.Formula.Simulation
import BandMath.Proofs.Registry.WellFormed
import BandMath.Proofs.Remote.Sorts
import BandMath.Proofs.Validation
import BandMath.Value.Arithmetic

namespace BandMath

namespace Kernel

open Bindings

/-! ## 1. Kernels that are evaluated here -/

section Evaluated

variable {α : Type} {r : Registry} {b b' : Bindings α} {k : Kernel}

/-- The symbols of the formula are required. -/
theorem mem_required {x : String} (hx : x ∈ k.formula.symbols) : x ∈ k.required := by
  have hall : ∀ x ∈ k.formula.symbols, x ∈ k.required := by
    cases k <;> decide +kernel
  exact hall x hx

/-- **What is evaluated here depends on the required symbols only.** -/
theorem compute_congr [Operand α] (hr : r.KernelsRead) (h : AgreeOn k.required b b')
    (hb : k.delegate? b = none) (hb' : k.delegate? b' = none) :
    k.compute r b = k.compute r b' := by
  rw [compute, compute, validate_congr h, hb, hb', hr.kernel_eq]
  refine congrArg _ (funext fun _ => ?_)
  exact Formula.evaluateIn_congr k.formula _ fun x hx => h x (mem_required hx)

end Evaluated

/-- Floats are no language of their own. -/
theorem delegate?_float (k : Kernel) (b : Bindings Float) : k.delegate? b = none := by
  simp [delegate?, Operand.expression?]

/-! ## 2. Kernels that are handed over -/

open Value (boundGraphs bindsImage)

variable {r : Registry} {b b' : Bindings Value} {k : Kernel} {v : Value}

/-- Whether one of the two bands is the handle of a remote result. -/
def delegates (b : Bindings Value) : Bool :=
  ["a", "b"].any fun s => b[s]?.any (·.kind.isRemote)

/-- What becomes of a kernel that is handed over, together with all that is bound. -/
def handOver (k : Kernel) (b : Bindings Value) : Except Error Value :=
  (boundGraphs b).map fun vars =>
    if bindsImage b then .remoteImage (.expression k.remoteSource vars)
    else .remoteNumber (.expression k.remoteSource vars)

theorem bindsImage_iff : bindsImage b = true ↔
    ∃ (s : String) (i : RemoteImage), b[s]? = some (.remoteImage i) := by
  rw [bindsImage, List.any_eq_true]
  constructor
  · rintro ⟨v, hv, himage⟩
    obtain ⟨s, hs⟩ := mem_values_iff.mp hv
    cases v with
    | remoteImage i => exact ⟨s, i, hs⟩
    | _ => exact nomatch himage
  · rintro ⟨s, i, hs⟩
    exact ⟨_, mem_values_iff.mpr ⟨s, hs⟩, rfl⟩

theorem expression?_of_isRemote {s : String} (hs : b[s]? = some v) (hv : v.kind.isRemote = true) :
    Value.expression? k.remoteSource b v = some (k.handOver b) := by
  cases v with
  | remoteImage i =>
    have himage : bindsImage b = true := bindsImage_iff.mpr ⟨s, i, hs⟩
    simp [Value.expression?, handOver, himage]
  | remoteNumber n => rfl
  | _ => exact nomatch hv

theorem expression?_eq_none {formula : String} (hv : v.kind.isRemote = false) :
    Value.expression? formula b v = none := by
  cases v with
  | remoteImage i => exact nomatch hv
  | remoteNumber n => exact nomatch hv
  | _ => rfl

/-- What a band answers when the kernel is offered to it. -/
theorem bind_expression?_eq (k : Kernel) (b : Bindings Value) (s : String) :
    (b[s]?.bind fun v => Operand.expression? k.remoteSource b v) =
      if b[s]?.any (·.kind.isRemote) then some (k.handOver b) else none := by
  cases hs : b[s]? with
  | none => rfl
  | some v =>
    rw [Option.bind_some, Option.any_some]
    split
    · rename_i hv
      exact expression?_of_isRemote hs hv
    · rename_i hv
      exact expression?_eq_none (Bool.not_eq_true _ ▸ hv)

/-- Both handles make the same of the kernel, so it does not matter which of them is asked. -/
theorem delegate?_eq (k : Kernel) (b : Bindings Value) :
    k.delegate? b = if delegates b then some (k.handOver b) else none := by
  rw [delegate?, funext (bind_expression?_eq k b), delegates]
  by_cases ha : b["a"]?.any (·.kind.isRemote) = true
  · simp [ha]
  · by_cases hb : b["b"]?.any (·.kind.isRemote) = true
    · simp [ha, hb]
    · simp [ha, hb]

/-- What is handed over does not come from the registry. -/
theorem compute_of_delegates (h : delegates b = true) :
    k.compute r b = validate k.name k.required b >>= fun _ => k.handOver b := by
  rw [compute, delegate?_eq, h]
  rfl

/-- Whether the kernel is handed over depends on required symbols. -/
theorem delegates_congr (h : AgreeOn k.required b b') : delegates b = delegates b' := by
  have ha : b["a"]? = b'["a"]? := h "a" (by cases k <;> decide)
  have hb : b["b"]? = b'["b"]? := h "b" (by cases k <;> decide)
  simp [delegates, ha, hb]

/-- **Without a handle for a band, nothing but the required symbols matters.** -/
theorem compute_congr_of_local (hr : r.KernelsRead) (h : AgreeOn k.required b b')
    (hb : delegates b = false) : k.compute r b = k.compute r b' := by
  refine compute_congr hr h ?_ ?_
  · simp [delegate?_eq, hb]
  · simp [delegate?_eq, ← delegates_congr h, hb]

/-! ## 3. What is handed over -/

/-- The first value without a graph is why a kernel is not handed over, whatever symbol it is bound
to. -/
theorem refusal?_handOver (k : Kernel) (b : Bindings Value) :
    refusal? (k.handOver b) = b.toList.findSome? fun (_, v) => refusal? v.graph := by
  rw [handOver, refusal?_map, boundGraphs, mapM_eq, refusal?_unlessRefused]
  congr 1
  funext x
  exact refusal?_map

theorem exists_handOver_iff : (∃ v, k.handOver b = .ok v) ↔
    ∀ (s : String) (v : Value), b[s]? = some v → ∃ g, v.graph = .ok g := by
  rw [← refusal?_eq_none_iff, refusal?_handOver, List.findSome?_eq_none_iff]
  constructor
  · intro h s v hs
    exact refusal?_eq_none_iff.mp (h (s, v) (Std.ExtTreeMap.mem_toList_iff_getElem?_eq_some.mpr hs))
  · rintro h ⟨s, v⟩ hmem
    exact refusal?_eq_none_iff.mpr (h s v (Std.ExtTreeMap.mem_toList_iff_getElem?_eq_some.mp hmem))

theorem map_fst_of_boundGraphs {vars : List (String × Graph)} (h : boundGraphs b = .ok vars) :
    vars.map Prod.fst = b.keys := by
  rw [← Std.ExtTreeMap.map_fst_toList_eq_keys]
  refine (map_eq_of_forall₂ ((forall₂_of_mapM h).imp fun x e he => ?_)).symm
  obtain ⟨g, -, rfl⟩ := map_eq_ok_iff.mp he
  rfl

/-- Every bound symbol is handed over, and no other. -/
theorem mem_keys_of_boundGraphs {vars : List (String × Graph)} {s : String}
    (h : boundGraphs b = .ok vars) : s ∈ vars.map Prod.fst ↔ s ∈ b := by
  rw [map_fst_of_boundGraphs h, Std.ExtTreeMap.mem_keys]

/-- The symbols that the expression of a handle is given. -/
def givenSymbols : Value → List String
  | .remoteImage i => symbolsAt "map" i.graph
  | .remoteNumber n => symbolsAt "vars" n.graph
  | _ => []
where
  symbolsAt (argument : String) (g : Graph) : List String :=
    match g.argument? argument with
    | some (.dictionary entries) => entries.map Prod.fst
    | _ => []

/-- **A kernel that is handed over ignores nothing**: it is given exactly the bound symbols. -/
theorem mem_givenSymbols_iff {s : String} (h : k.handOver b = .ok v) :
    s ∈ givenSymbols v ↔ s ∈ b := by
  obtain ⟨vars, hvars, rfl⟩ := map_eq_ok_iff.mp h
  have hsorted : s ∈ (Graph.sortEntries vars).map Prod.fst ↔ s ∈ b := by
    rw [Graph.mem_keys_sortEntries, mem_keys_of_boundGraphs hvars]
  split
  · exact hsorted
  · exact hsorted

/-- So bindings of different symbols never have the same result. -/
theorem mem_iff_of_compute_eq {s : String} (hb : delegates b = true) (hb' : delegates b' = true)
    (hbv : k.compute r b = .ok v) (hbv' : k.compute r b' = .ok v) : s ∈ b ↔ s ∈ b' := by
  rw [compute_of_delegates hb] at hbv
  rw [compute_of_delegates hb'] at hbv'
  obtain ⟨-, -, hbv⟩ := bind_eq_ok_iff.mp hbv
  obtain ⟨-, -, hbv'⟩ := bind_eq_ok_iff.mp hbv'
  rw [← mem_givenSymbols_iff hbv, mem_givenSymbols_iff hbv']

theorem mem_of_compute {s : String} (h : k.compute r b = .ok v) (hs : s ∈ k.required) :
    s ∈ b := by
  obtain ⟨_, hvalidate, -⟩ := bind_eq_ok_iff.mp h
  exact mem_of_validate hvalidate hs

/-- **A further symbol always makes a difference to a kernel that is handed over.** -/
theorem compute_insert_ne {s : String} {w : Value} (hb : delegates b = true)
    (h : k.compute r b = .ok v) (hs : s ∉ b) : k.compute r (b.insert s w) ≠ .ok v := by
  intro hinsert
  have hagree : AgreeOn k.required b (b.insert s w) :=
    agreeOn_insert b w fun hrequired => hs (mem_of_compute h hrequired)
  have hdelegates : delegates (b.insert s w) = true := delegates_congr hagree ▸ hb
  have hmem : s ∈ b.insert s w := Std.ExtTreeMap.mem_insert_self
  exact hs ((mem_iff_of_compute_eq hb hdelegates h hinsert).mpr hmem)

/-- So it is not so that a kernel depends on its required symbols only, whichever registry it is
computed with. -/
theorem not_forall_compute_eq (r : Registry) : ¬ ∀ (k : Kernel) (b b' : Bindings Value),
    AgreeOn k.required b b' → k.compute r b = k.compute r b' := by
  intro h
  let b : Bindings Value :=
    .ofPairs [("a", .remoteNumber (.constant 2)), ("b", .remoteNumber (.constant 3))]
  have hz : "z" ∉ b := by decide
  obtain ⟨v, hv⟩ : ∃ v, linear.compute r b = .ok v := ⟨_, rfl⟩
  have hagree := agreeOn_insert b (.array (.ofList [1])) (show "z" ∉ linear.required by decide)
  exact compute_insert_ne rfl hv hz ((h linear _ _ hagree).symm.trans hv)

end Kernel

end BandMath
