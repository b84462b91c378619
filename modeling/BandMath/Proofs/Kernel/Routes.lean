/-
# Three ways to the value of a kernel

Over numbers and remote handles a kernel is evaluated in one of three ways: `a` or `b` hands the
text for remote executors over, as an image or as a number, or the formula is evaluated here because
only a parameter is a handle.  Which way is taken makes no difference (`compute_denote`): all three
give what the kernel gives over the numbers that are denoted, and what kind of handle comes out is
decided by what is bound, whatever it is bound to (`kind_iff_of_isGreatest`).

It is assumed of an executor that it keeps the equations of arithmetic and those of texts
(`Executes`, `ExecutesFormulas`), and of a registry that it has grown from one that was loaded, so
that the formula that it keeps for a kernel is that of its text (`KernelsRead.kernel_eq`).

Handing over needs three things.  All that is bound can be handed over, since numbers and handles
have graphs (`Value.Sendable.exists_graph`).  The graphs denote what is bound
(`bindings_of_boundGraphs`).  And the text for remote executors, which spells powers in another way,
is read as the expression of the kernel (`exists_ofText_remoteSource`).  Evaluating here is
evaluating a formula over handles, and for this the theorem on remote formulas is at hand.

For the kind of the result, both ways end in the greatest of the kinds that are bound
(`isGreatest_of_delegates`, `isGreatest_of_evaluateIn`).
-/
import BandMath.Proofs.Registry.Sufficiency
import BandMath.Proofs.Remote.Formulas
import BandMath.Proofs.Value.Delivery
import BandMath.Proofs.Value.Kinds

namespace BandMath

open BandMath.Graph
open Value (boundGraphs bindsImage denote)

variable {D : Graph → Float} {r : Registry} {b : Bindings Value} {k : Kernel} {v : Value}

/-! ## 1. What is bound -/

/-- Numbers and handles only. -/
def Bindings.Sendable (b : Bindings Value) : Prop :=
  ∀ (s : String) (w : Value), b[s]? = some w → w.Sendable

/-- What the bound values denote. -/
def Bindings.denote (D : Graph → Float) (b : Bindings Value) : Bindings Float :=
  b.map fun _ w => w.denote D

theorem Value.Sendable.exists_graph (h : v.Sendable) : ∃ g, v.graph = .ok g := by
  cases h with
  | scalar x => exact ⟨_, rfl⟩
  | image i => exact ⟨_, rfl⟩
  | number n => exact ⟨_, rfl⟩

theorem Value.denote_of_graph {g : Graph} (hD : Executes D) (h : v.graph = .ok g) :
    D g = v.denote D := by
  cases v with
  | scalar x =>
    obtain rfl := Except.ok.inj h
    exact hD.constant x
  | remoteImage i =>
    obtain rfl := Except.ok.inj h
    rfl
  | remoteNumber n =>
    obtain rfl := Except.ok.inj h
    rfl
  | _ => exact nomatch h

namespace Kernel

/-! ## 2. Handing over -/

/-- What is handed over is in the order of the symbols. -/
theorem sortEntries_of_boundGraphs {vars : List (String × Graph)} (h : boundGraphs b = .ok vars) :
    sortEntries vars = vars := by
  have hpairwise : (vars.map Prod.fst).Pairwise (· < ·) := by
    rw [map_fst_of_boundGraphs h]
    exact b.pairwise_symbols
  exact sortEntries_eq_self (List.pairwise_map.mp hpairwise)

/-- What is handed over denotes what is bound. -/
theorem bindings_of_boundGraphs {vars : List (String × Graph)} (hD : Executes D)
    (h : boundGraphs b = .ok vars) : Graph.bindings D vars = b.denote D := by
  have hentries : b.toList.map (fun x => (x.1, x.2.denote D)) =
      vars.map fun e => (e.1, D e.2) := by
    refine map_eq_of_forall₂ ((forall₂_of_mapM h).imp fun x e he => ?_)
    obtain ⟨g, hg, rfl⟩ := map_eq_ok_iff.mp he
    exact Prod.ext rfl (Value.denote_of_graph hD hg).symm
  calc Graph.bindings D vars
      = .ofPairs (b.toList.map fun x => (x.1, x.2.denote D)) := congrArg _ hentries.symm
    _ = .ofPairs (b.denote D).toList := by rw [Bindings.denote, Std.ExtTreeMap.toList_map]
    _ = b.denote D := Bindings.ofPairs_toList _

/-- The text for remote executors can be read here, and then denotes the formula. -/
theorem exists_ofText_remoteSource (k : Kernel) :
    ∃ f, Formula.ofText k.remoteSource = .ok f ∧ f.expr = k.expr := by
  have hexpr := k.ofText_sources.2
  cases h : Formula.Expr.ofText k.remoteSource.toList with
  | error e =>
    rw [h] at hexpr
    exact nomatch hexpr
  | ok e =>
    rw [h] at hexpr
    refine ⟨⟨Formula.normalize k.remoteSource, e⟩, ?_, Option.some.inj hexpr⟩
    rw [Formula.ofText, h]
    rfl

/-- **What is handed over denotes the kernel of what is denoted.** -/
theorem exists_handOver_denote (hb : b.Sendable) :
    ∃ v, k.handOver b = .ok v ∧ v.Sendable ∧
      v.kind = (if bindsImage b then .remoteImage else .remoteNumber) ∧
      ∀ D x, ExecutesFormulas D →
        k.formula.evaluateIn ⟨b.denote D, [.exp]⟩ = .ok x → v.denote D = x := by
  obtain ⟨v, hv⟩ := exists_handOver_iff.mpr fun s w hs => (hb s w hs).exists_graph
  refine ⟨v, hv, ?_⟩
  obtain ⟨vars, hvars, rfl⟩ := map_eq_ok_iff.mp hv
  have hsorted := sortEntries_of_boundGraphs hvars
  obtain ⟨f, hf, hexpr⟩ := exists_ofText_remoteSource k
  have hvalue : ∀ D x, ExecutesFormulas D →
      k.formula.evaluateIn ⟨b.denote D, [.exp]⟩ = .ok x →
      f.evaluateIn ⟨Graph.bindings D (sortEntries vars), [.exp]⟩ = .ok x := by
    intro D x hD hx
    rw [hsorted, bindings_of_boundGraphs hD.toExecutes hvars, Formula.evaluateIn, hexpr]
    exact hx
  split
  · exact ⟨.image _, rfl, fun D x hD hx => hD.imageFormula _ f _ x hf (hvalue D x hD hx)⟩
  · exact ⟨.number _, rfl, fun D x hD hx => hD.numberFormula _ f _ x hf (hvalue D x hD hx)⟩

/-! ## 3. Kinds -/

/-- The kinds of what is bound, and that of numbers. -/
def boundKinds (b : Bindings Value) : Set Kind :=
  {k | k = .scalar ∨ ∃ (s : String) (w : Value), b[s]? = some w ∧ w.kind = k}

theorem exists_of_delegates (h : delegates b = true) :
    ∃ (s : String) (w : Value), b[s]? = some w ∧ w.kind.isRemote = true := by
  obtain ⟨s, -, hs⟩ := List.any_eq_true.mp h
  obtain ⟨w, hw, hremote⟩ := (Option.any_eq_true ..).mp hs
  exact ⟨s, w, hw, hremote⟩

theorem isGreatest_of_delegates (hb : b.Sendable) (h : delegates b = true) :
    IsGreatest (boundKinds b) (if bindsImage b then .remoteImage else .remoteNumber) := by
  split
  · rename_i himage
    obtain ⟨s, i, hs⟩ := bindsImage_iff.mp himage
    refine ⟨.inr ⟨s, _, hs, rfl⟩, fun l hl => ?_⟩
    rcases hl with rfl | ⟨t, w, ht, rfl⟩
    · decide
    · cases hb t w ht <;> simp only [Value.kind] <;> decide
  · rename_i himage
    have hno : ∀ (s : String) (i : RemoteImage), b[s]? ≠ some (.remoteImage i) :=
      fun s i hs => himage (bindsImage_iff.mpr ⟨s, i, hs⟩)
    obtain ⟨s, w, hs, hremote⟩ := exists_of_delegates h
    refine ⟨?_, fun l hl => ?_⟩
    · cases hb s w hs with
      | scalar x => exact absurd hremote Bool.false_ne_true
      | image i => exact absurd hs (hno s i)
      | number n => exact .inr ⟨s, _, hs, rfl⟩
    · rcases hl with rfl | ⟨t, w, ht, rfl⟩
      · decide
      · cases hb t w ht with
        | scalar x => simp only [Value.kind]; decide
        | image i => exact absurd ht (hno t i)
        | number n => exact le_refl _

/-- Every required symbol occurs in the formula. -/
theorem mem_mentions {x : String} (hx : x ∈ k.required) : x ∈ k.formula.expr.mentions := by
  have hall : ∀ x ∈ k.required, x ∈ k.formula.expr.mentions := by
    cases k <;> decide +kernel
  exact hall x hx

/-- Evaluated here, a kernel has the greatest kind that is bound to a required symbol. -/
theorem isGreatest_of_evaluateIn (hexact : ∀ s : String, s ∈ b → s ∈ k.required)
    (hv : v.Sendable) (h : k.formula.evaluateIn ⟨b, [.exp]⟩ = .ok v) :
    IsGreatest (boundKinds b) v.kind := by
  obtain ⟨hmem, hle⟩ := (Formula.Expr.eval_eq_ok_iff.mp h).isGreatest_kinds
  refine ⟨?_, fun l hl => ?_⟩
  · rcases hmem with ⟨x, -, w, hx, hw⟩ | ⟨hscalar, -⟩
    · exact .inr ⟨x, w, hx, hw⟩
    · exact .inl hscalar
  · rcases hl with rfl | ⟨s, w, hs, rfl⟩
    · cases hv <;> simp only [Value.kind] <;> decide
    · have hbound : s ∈ b := Std.ExtTreeMap.mem_iff_isSome_getElem?.mpr (by simp [hs])
      exact hle (.inl ⟨s, mem_mentions (hexact s hbound), w, hs, rfl⟩)

/-! ## 4. All ways -/

/-- The value of a kernel, whichever way it is computed.  Over what is denoted there is only one
way, and it never fails; each of the three ways follows it. -/
theorem exists_compute_denote (hr : r.KernelsRead)
    (hexact : ∀ s : String, s ∈ b ↔ s ∈ k.required) (hb : b.Sendable) :
    ∃ v, k.compute r b = .ok v ∧ v.Sendable ∧ IsGreatest (boundKinds b) v.kind ∧
      ∀ D, ExecutesFormulas D → k.compute r (b.denote D) = .ok (v.denote D) := by
  have hvalidate : validate k.name k.required b = .ok () :=
    validate_of_forall_mem fun s hs => (hexact s).mpr hs
  have hvalidate' : ∀ D, validate k.name k.required (b.denote D) = .ok () := fun D =>
    validate_of_forall_mem fun s hs => Std.ExtTreeMap.mem_map.mpr ((hexact s).mpr hs)
  have hcompute : ∀ D, k.compute r (b.denote D) = k.formula.evaluateIn ⟨b.denote D, [.exp]⟩ := by
    intro D
    rw [compute, hvalidate' D, ok_bind, delegate?_float, hr.kernel_eq]
  have hvalue : ∀ D, ∃ x, k.formula.evaluateIn ⟨b.denote D, [.exp]⟩ = .ok x := by
    intro D
    rw [← hcompute D]
    exact k.exists_compute hr (hvalidate' D)
  cases hdelegates : delegates b with
  | true =>
    obtain ⟨v, hv, hsendable, hkind, hdenote⟩ := exists_handOver_denote (k := k) hb
    refine ⟨v, ?_, hsendable, hkind ▸ isGreatest_of_delegates hb hdelegates, fun D hD => ?_⟩
    · rw [compute_of_delegates hdelegates, hvalidate, ok_bind, hv]
    · obtain ⟨x, hx⟩ := hvalue D
      rw [hcompute D, hx, hdenote D x hD hx]
  | false =>
    have hfollows : ∀ D, Executes D →
        Follows true (fun (v : Value) (x : Float) => v.Sendable ∧ x = v.denote D)
          (k.formula.evaluateIn ⟨b, [.exp]⟩) (k.formula.evaluateIn ⟨b.denote D, [.exp]⟩) := by
      intro D hD
      refine Formula.evaluateIn_follows (Value.simulates_sendable hD) k.formula [.exp] fun s _ => ?_
      rw [Bindings.denote, Std.ExtTreeMap.getElem?_map]
      cases hs : b[s]? with
      | none => exact .none
      | some w => exact .some ⟨hb s w hs, rfl⟩
    -- some executor there is, so there is a value
    obtain ⟨x, hx⟩ := hvalue run
    obtain ⟨v, hv, hsendable, -⟩ := (hfollows run executes_run).exists_ok_of_ok hx
    refine ⟨v, ?_, hsendable, isGreatest_of_evaluateIn (fun s => (hexact s).mp) hsendable hv,
      fun D hD => ?_⟩
    · rw [compute, hvalidate, ok_bind, delegate?_eq, hdelegates, hr.kernel_eq]
      exact hv
    · obtain ⟨y, hy, -, hdenote⟩ := (hfollows D hD.toExecutes).exists_ok hv
      rw [hcompute D, hy, hdenote]

/-- The greatest kind that is bound, kind by kind. -/
theorem kind_iff_of_isGreatest {l : Kind} (h : IsGreatest (boundKinds b) l) :
    (l = .remoteImage ↔ ∃ (s : String) (w : Value), b[s]? = some w ∧ w.kind = .remoteImage) ∧
    (l = .remoteNumber ↔ (∃ (s : String) (w : Value), b[s]? = some w ∧ w.kind = .remoteNumber) ∧
      ∀ (s : String) (w : Value), b[s]? = some w → w.kind ≠ .remoteImage) ∧
    (l = .scalar ↔ ∀ (s : String) (w : Value), b[s]? = some w → w.kind = .scalar) := by
  have hle : ∀ {s : String} {w : Value}, b[s]? = some w → w.kind ≤ l :=
    fun hs => h.2 (.inr ⟨_, _, hs, rfl⟩)
  have himage : ∀ l : Kind, .remoteImage ≤ l → l = .remoteImage := by
    intro l
    cases l <;> decide
  have hnumber : ∀ l : Kind, .remoteNumber ≤ l → l = .remoteNumber ∨ l = .remoteImage := by
    intro l
    cases l <;> decide
  refine ⟨⟨?_, ?_⟩, ⟨?_, ?_⟩, ⟨?_, ?_⟩⟩
  · rintro rfl
    exact h.1.resolve_left (by decide)
  · rintro ⟨s, w, hs, hw⟩
    exact himage l (hw ▸ hle hs)
  · rintro rfl
    refine ⟨h.1.resolve_left (by decide), fun s w hs hw => ?_⟩
    exact absurd (himage _ (hw ▸ hle hs)) (by decide)
  · rintro ⟨⟨s, w, hs, hw⟩, hno⟩
    refine (hnumber l (hw ▸ hle hs)).resolve_right ?_
    rintro rfl
    obtain ⟨t, u, ht, hu⟩ := h.1.resolve_left (by decide)
    exact hno t u ht hu
  · rintro rfl
    exact fun s w hs => Kind.eq_scalar_of_le (hle hs)
  · intro hall
    rcases h.1 with hl | ⟨s, w, hs, hw⟩
    · exact hl
    · exact hw ▸ hall s w hs

/-- **A kernel means the same wherever it is computed.**  Let exactly the required symbols be bound,
to numbers and handles of remote images and numbers.  Then the kernel has a value, whichever
registry it is computed with, and under every executor that keeps the equations this denotes what
the kernel gives over the denoted numbers.  It is an image if and only if an image is bound, a
remote number if a remote number is bound and no image, and a number otherwise, whatever symbols
these are bound to. -/
theorem compute_denote (hr : r.Grown) (k : Kernel) (b : Bindings Value)
    (hexact : ∀ s : String, s ∈ b ↔ s ∈ k.required) (hb : b.Sendable) :
    ∃ v, k.compute r b = .ok v ∧ v.Sendable ∧
      (∀ D, ExecutesFormulas D → k.compute r (b.denote D) = .ok (v.denote D)) ∧
      (v.kind = .remoteImage ↔
        ∃ (s : String) (w : Value), b[s]? = some w ∧ w.kind = .remoteImage) ∧
      (v.kind = .remoteNumber ↔
        (∃ (s : String) (w : Value), b[s]? = some w ∧ w.kind = .remoteNumber) ∧
        ∀ (s : String) (w : Value), b[s]? = some w → w.kind ≠ .remoteImage) ∧
      (v.kind = .scalar ↔ ∀ (s : String) (w : Value), b[s]? = some w → w.kind = .scalar) := by
  obtain ⟨v, hv, hsendable, hgreatest, hdenote⟩ := exists_compute_denote hr.kernelsRead hexact hb
  exact ⟨v, hv, hsendable, hdenote, kind_iff_of_isGreatest hgreatest⟩

/-- The polynomial kernel of a remote number and an image, and the radial one of two numbers whose
parameter is a remote number, with a registry of no indices. -/
theorem compute_denote_mixed :
    let handed : Bindings Value := .ofPairs
      [("a", .remoteNumber (.constant 2)), ("b", .remoteImage (.load "scene" ["red"])),
        ("c", .scalar 1), ("p", .scalar 2)]
    let evaluated : Bindings Value := .ofPairs
      [("a", .scalar 2), ("b", .scalar 3), ("sigma", .remoteNumber (.constant 0.5))]
    ExecutesFormulas Graph.evaluated ∧ ∃ r : Registry, r.Grown ∧
    (∃ v, poly.compute r handed = .ok v ∧ v.kind = .remoteImage ∧
      poly.compute r (handed.denote Graph.evaluated) = .ok (v.denote Graph.evaluated)) ∧
    ∃ v, rbf.compute r evaluated = .ok v ∧ v.kind = .remoteNumber ∧
      rbf.compute r (evaluated.denote Graph.evaluated) = .ok (v.denote Graph.evaluated) := by
  intro handed evaluated
  have hhanded : ∀ s : String, s ∈ handed ↔ s ∈ poly.required := by
    intro s
    rw [Bindings.mem_ofPairs]
    simp only [List.map_cons, List.map_nil, required, List.mem_cons, List.not_mem_nil]
    tauto
  have hevaluated : ∀ s : String, s ∈ evaluated ↔ s ∈ rbf.required := fun s =>
    Bindings.mem_ofPairs
  have hhandedSendable : handed.Sendable := by
    intro s w hs
    have hmem := Bindings.mem_of_getElem?_ofPairs hs
    simp only [List.mem_cons, Prod.mk.injEq, List.not_mem_nil, or_false] at hmem
    rcases hmem with ⟨-, rfl⟩ | ⟨-, rfl⟩ | ⟨-, rfl⟩ | ⟨-, rfl⟩
    · exact .number _
    · exact .image _
    · exact .scalar _
    · exact .scalar _
  have hevaluatedSendable : evaluated.Sendable := by
    intro s w hs
    have hmem := Bindings.mem_of_getElem?_ofPairs hs
    simp only [List.mem_cons, Prod.mk.injEq, List.not_mem_nil, or_false] at hmem
    rcases hmem with ⟨-, rfl⟩ | ⟨-, rfl⟩ | ⟨-, rfl⟩
    · exact .scalar _
    · exact .scalar _
    · exact .number _
  have hnoImage : ∀ (s : String) (w : Value), evaluated[s]? = some w → w.kind ≠ .remoteImage := by
    intro s w hs hw
    have hmem := Bindings.mem_of_getElem?_ofPairs hs
    simp only [List.mem_cons, Prod.mk.injEq, List.not_mem_nil, or_false] at hmem
    rcases hmem with ⟨-, rfl⟩ | ⟨-, rfl⟩ | ⟨-, rfl⟩ <;> exact nomatch hw
  -- only now, since a tactic that looks for a contradiction would evaluate the loading
  have hloads : (do
      let r ← Registry.ofIndexDocument "\x7b\"SpectralIndices\":\x7b\x7d\x7d"
      return r.definitions.length : Except Error Nat) = .ok 0 := by decide +kernel
  obtain ⟨r, hr, -⟩ := bind_eq_ok_iff.mp hloads
  have hgrown : r.Grown := (Registry.Loaded.ofIndexDocument hr).grown
  obtain ⟨v, hv, -, hdenote, himage, -⟩ :=
    compute_denote hgrown poly handed hhanded hhandedSendable
  obtain ⟨w, hw, -, hdenote', -, hnumber, -⟩ :=
    compute_denote hgrown rbf evaluated hevaluated hevaluatedSendable
  exact ⟨executesFormulas_evaluated, r, hgrown, ⟨v, hv, himage.mpr ⟨"b", _, rfl, rfl⟩,
    hdenote _ executesFormulas_evaluated⟩, w, hw, hnumber.mpr ⟨⟨"sigma", _, rfl, rfl⟩, hnoImage⟩,
    hdenote' _ executesFormulas_evaluated⟩

end Kernel

end BandMath
