/-
# Remote formulas

Over numbers and remote handles a formula only makes graphs, and these mean the formula: under every
executor, what the formula's value denotes is the formula over what its symbols denote
(`evaluateIn_denote`).  Evaluation is refused exactly where it is over numbers, and all graphs are
well sorted.

A value that can be sent is a number or a handle of a remote image or number, and `denote` says what
an executor makes of it: a number is itself.  Two things are kept by every operator:

* It is never refused, and means itself: what the result denotes is the operator applied to what the
  operands denote (`exists_binary`, `exists_unary`).  This needs of a handle nothing but that it is
  one.
* The graph of the result is well sorted if those of the operands are (`Sorted.binary`,
  `Sorted.unary`).

As formulas keep what operators keep (`Expr.eval_follows`), both hold of formulas.  Every handle
that can be made has a well sorted graph (`Remote.sorted`), by induction on how it is made.

Kernels, which are handed over as texts, are not among these formulas; they are dealt with in
`BandMath.Proofs.Kernel.Routes`.
-/
import BandMath.Proofs.Formula.Simulation
import BandMath.Proofs.Remote.Executor
import BandMath.Value.Arithmetic

namespace BandMath.Value

open Formula BandMath.Graph

/-! ## 1. Denotations -/

/-- What an executor makes of a value that it can be sent. -/
def denote (D : Graph → Float) : Value → Float
  | scalar x => x
  | remoteImage i => D i.graph
  | remoteNumber n => D n.graph
  | _ => 0

/-- A number or a handle of a remote number or image, whatever its graph. -/
inductive Sendable : Value → Prop
  | scalar (x : Float) : Sendable (.scalar x)
  | image (i : RemoteImage) : Sendable (.remoteImage i)
  | number (n : RemoteNumber) : Sendable (.remoteNumber n)

/-- A number, or a handle whose graph is of its sort. -/
inductive Sorted : Value → Prop
  | scalar (x : Float) : Sorted (.scalar x)
  | image {i : RemoteImage} (h : i.graph.IsImageGraph) : Sorted (.remoteImage i)
  | number {n : RemoteNumber} (h : n.graph.IsNumberGraph) : Sorted (.remoteNumber n)

variable {v w u : Value}

theorem Sorted.sendable (h : v.Sorted) : v.Sendable := by
  cases h with
  | scalar x => exact .scalar x
  | image => exact .image _
  | number => exact .number _

/-- **Operators are never refused and mean themselves**, in every order of the kinds. -/
theorem exists_binary (op : BinaryOp) (hv : v.Sendable) (hw : w.Sendable) :
    ∃ u, binary op v w = .ok u ∧ u.Sendable ∧
      ∀ D, Executes D → u.denote D = op.apply (v.denote D) (w.denote D) := by
  cases hv with
  | scalar x =>
    cases hw with
    | scalar y => exact ⟨_, rfl, .scalar _, fun D _ => rfl⟩
    | image j =>
      refine ⟨_, rfl, .image _, fun D hD => ?_⟩
      exact (RemoteImage.denote_reverseBinary hD _ j).trans (by rw [hD.constant]; rfl)
    | number n =>
      refine ⟨_, rfl, .number _, fun D hD => ?_⟩
      exact (RemoteNumber.denote_reverseBinary hD _ n).trans (by rw [hD.constant]; rfl)
  | image i =>
    cases hw with
    | scalar y =>
      refine ⟨_, rfl, .image _, fun D hD => ?_⟩
      exact (RemoteImage.denote_binary hD i _).trans (by rw [hD.constant]; rfl)
    | image j => exact ⟨_, rfl, .image _, fun D hD => RemoteImage.denote_binary hD i j.graph⟩
    | number n => exact ⟨_, rfl, .image _, fun D hD => RemoteImage.denote_binary hD i n.graph⟩
  | number m =>
    cases hw with
    | scalar y =>
      refine ⟨_, rfl, .number _, fun D hD => ?_⟩
      exact (RemoteNumber.denote_binary hD m _).trans (by rw [hD.constant]; rfl)
    | image j =>
      exact ⟨_, rfl, .image _, fun D hD => RemoteImage.denote_reverseBinary hD m.graph j⟩
    | number n => exact ⟨_, rfl, .number _, fun D hD => RemoteNumber.denote_binary hD m n.graph⟩

theorem exists_unary (hv : v.Sendable) (op : UnaryOp) :
    ∃ u, unary op v = .ok u ∧ u.Sendable ∧
      ∀ D, Executes D → u.denote D = op.apply (v.denote D) := by
  cases hv with
  | scalar x => exact ⟨_, rfl, .scalar _, fun D _ => rfl⟩
  | image i => exact ⟨_, rfl, .image _, fun D hD => RemoteImage.denote_unary hD i op⟩
  | number n => exact ⟨_, rfl, .number _, fun D hD => RemoteNumber.denote_unary hD n op⟩

/-- **Operators keep the sorts.** -/
theorem Sorted.binary {op : BinaryOp} (hv : v.Sorted) (hw : w.Sorted)
    (h : Value.binary op v w = .ok u) : u.Sorted := by
  cases hv with
  | scalar x =>
    have hx : (Graph.constant x).IsNumberGraph := isNumberGraph_constant x
    cases hw with
    | scalar y =>
      obtain rfl := Except.ok.inj h
      exact .scalar _
    | image hj =>
      obtain rfl := Except.ok.inj h
      exact .image (RemoteImage.isImageGraph_reverseBinary hx.sorted hj)
    | number hn =>
      obtain rfl := Except.ok.inj h
      exact .number (RemoteNumber.isNumberGraph_reverseBinary hx hn)
  | image hi =>
    cases hw with
    | scalar y =>
      obtain rfl := Except.ok.inj h
      exact .image (RemoteImage.isImageGraph_binary hi (isNumberGraph_constant y).sorted)
    | image hj =>
      obtain rfl := Except.ok.inj h
      exact .image (RemoteImage.isImageGraph_binary hi hj.sorted)
    | number hn =>
      obtain rfl := Except.ok.inj h
      exact .image (RemoteImage.isImageGraph_binary hi hn.sorted)
  | number hm =>
    cases hw with
    | scalar y =>
      obtain rfl := Except.ok.inj h
      exact .number (RemoteNumber.isNumberGraph_binary hm (isNumberGraph_constant y))
    | image hj =>
      obtain rfl := Except.ok.inj h
      exact .image (RemoteImage.isImageGraph_reverseBinary hm.sorted hj)
    | number hn =>
      obtain rfl := Except.ok.inj h
      exact .number (RemoteNumber.isNumberGraph_binary hm hn)

theorem Sorted.unary {op : UnaryOp} (hv : v.Sorted) (h : Value.unary op v = .ok u) :
    u.Sorted := by
  cases hv with
  | scalar x =>
    obtain rfl := Except.ok.inj h
    exact .scalar _
  | image hi =>
    obtain rfl := Except.ok.inj h
    exact .image (RemoteImage.isImageGraph_unary hi op)
  | number hn =>
    obtain rfl := Except.ok.inj h
    exact .number (RemoteNumber.isNumberGraph_unary hn op)

/-- The graph of a value that can be sent is well sorted. -/
theorem Sorted.wellSorted {g : Graph} (hv : v.Sorted) (hg : v.graph = .ok g) : g.WellSorted := by
  cases hv with
  | scalar x =>
    obtain rfl := Except.ok.inj hg
    exact (isNumberGraph_constant x).sorted
  | image h =>
    obtain rfl := Except.ok.inj hg
    exact h.sorted
  | number h =>
    obtain rfl := Except.ok.inj hg
    exact h.sorted

/-! ## 2. All values that can be sent -/

/-- Numbers, and the remote images and numbers that can be made. -/
inductive Remote : Value → Prop
  | scalar (x : Float) : Remote (.scalar x)
  | constantNumber (x : Float) : Remote (.remoteNumber (.constant x))
  | constantImage (x : Float) : Remote (.remoteImage (.constant x))
  | load (id : String) (bands : List String) : Remote (.remoteImage (.load id bands))
  | select {i j : RemoteImage} {band : String} (hi : Remote (.remoteImage i))
      (h : i.select band = .ok j) : Remote (.remoteImage j)
  | cat {images : List RemoteImage} (h : ∀ i ∈ images, Remote (.remoteImage i)) :
      Remote (.remoteImage (.cat images))
  | rename {i j : RemoteImage} {names : List String} (hi : Remote (.remoteImage i))
      (h : i.rename names = .ok j) : Remote (.remoteImage j)
  | binary {op : BinaryOp} {v w u : Value} (hv : Remote v) (hw : Remote w)
      (h : binary op v w = .ok u) : Remote u
  | unary {op : UnaryOp} {v u : Value} (hv : Remote v) (h : unary op v = .ok u) : Remote u
  | expression {formula : String} {b : Bindings Value} {v u : Value}
      (hb : ∀ (x : String) (w : Value), b[x]? = some w → Remote w) (hv : Remote v)
      (h : expression? formula b v = some (.ok u)) : Remote u

/-- The graphs that a remote formula is given are those of the bound values. -/
theorem wellSorted_of_boundGraphs {b : Bindings Value} {vars : List (String × Graph)}
    (hb : ∀ (x : String) (w : Value), b[x]? = some w → w.Sorted) (h : boundGraphs b = .ok vars) :
    ∀ e ∈ vars, e.2.WellSorted := by
  refine forall_of_forall₂ (forall₂_of_mapM h) fun (x, w) hxw e he => ?_
  obtain ⟨g, hg, rfl⟩ := map_eq_ok_iff.mp he
  exact (hb x w (Std.ExtTreeMap.mem_toList_iff_getElem?_eq_some.mp hxw)).wellSorted hg

theorem sorted_of_expression? {formula : String} {b : Bindings Value}
    (hb : ∀ (x : String) (w : Value), b[x]? = some w → w.Sorted) (hv : v.Sorted)
    (h : expression? formula b v = some (.ok u)) : u.Sorted := by
  have hvars : ∀ {key : String} {vars : List (String × Graph)}, boundGraphs b = .ok vars →
      ∀ e ∈ [("expression", Graph.text formula), (key, .dictionaryOf vars)], e.2.WellSorted := by
    intro key vars hgraphs e he
    rcases List.mem_cons.mp he with rfl | he
    · exact wellSorted_text formula
    · obtain rfl := List.mem_singleton.mp he
      exact wellSorted_dictionary fun e he =>
        wellSorted_of_boundGraphs hb hgraphs e (mem_of_mem_sortEntries he)
  cases hv with
  | scalar x => exact nomatch h
  | image hi =>
    obtain ⟨vars, hgraphs, rfl⟩ := map_eq_ok_iff.mp (Option.some.inj h)
    exact .image (isImageGraph_invoke (m := "expression") (by decide) (hvars hgraphs))
  | number hn =>
    obtain ⟨vars, hgraphs, rfl⟩ := map_eq_ok_iff.mp (Option.some.inj h)
    split
    · exact .image (isImageGraph_invoke (m := "expression") (by decide) (hvars hgraphs))
    · exact .number (isNumberGraph_invoke (m := "expression") (by decide) (hvars hgraphs))

/-- **Every handle has a well sorted graph.**  By induction on how it is made. -/
theorem Remote.sorted (h : v.Remote) : v.Sorted := by
  induction h with
  | scalar x => exact .scalar x
  | constantNumber x => exact .number (isNumberGraph_constant x)
  | constantImage x =>
    exact .image (RemoteImage.isImageGraph_constantGraph (isNumberGraph_constant x).sorted)
  | load id bands =>
    refine .image (isImageGraph_invoke (m := "load") (by decide) fun e he => ?_)
    obtain rfl := List.mem_singleton.mp he
    exact wellSorted_text id
  | @select i j band _ h ih =>
    unfold RemoteImage.select at h
    split at h
    · obtain rfl := Except.ok.inj h
      refine .image (isImageGraph_invoke (m := "select") (by decide) fun e he => ?_)
      rcases List.mem_cons.mp he with rfl | he
      · exact ih.wellSorted rfl
      · obtain rfl := List.mem_singleton.mp he
        exact wellSorted_text band
    · exact nomatch h
  | cat _ ih =>
    refine .image (isImageGraph_invoke (m := "cat") (by decide) fun e he => ?_)
    obtain rfl := List.mem_singleton.mp he
    refine wellSorted_list fun g hg => ?_
    obtain ⟨i, hi, rfl⟩ := List.mem_map.mp hg
    exact (ih i hi).wellSorted rfl
  | @rename i j names _ h ih =>
    unfold RemoteImage.rename at h
    split at h
    · obtain rfl := Except.ok.inj h
      refine .image (isImageGraph_invoke (m := "rename") (by decide) fun e he => ?_)
      rcases List.mem_cons.mp he with rfl | he
      · exact ih.wellSorted rfl
      · obtain rfl := List.mem_singleton.mp he
        refine wellSorted_list fun g hg => ?_
        obtain ⟨name, -, rfl⟩ := List.mem_map.mp hg
        exact wellSorted_text name
    · exact nomatch h
  | binary _ _ h ihv ihw => exact ihv.binary ihw h
  | unary _ h ih => exact ih.unary h
  | expression _ _ h ihb ihv => exact sorted_of_expression? ihb ihv h

/-! ## 3. Formulas -/

/-- Operators make of what can be sent what they make of its denotation, and keep whatever else
they are known to keep. -/
theorem simulates_of_sendable {D : Graph → Float} (hD : Executes D) {P : Value → Prop}
    (hP : ∀ v, P v → v.Sendable) (hscalar : ∀ x, P (.scalar x))
    (hbinary : ∀ op v w u, P v → P w → binary op v w = .ok u → P u)
    (hunary : ∀ op v u, P v → unary op v = .ok u → P u) :
    Simulates true fun (v : Value) (x : Float) => P v ∧ x = v.denote D := by
  refine ⟨fun x => ⟨hscalar x, rfl⟩, ?_, ?_⟩
  · rintro op v w _ _ ⟨hv, rfl⟩ ⟨hw, rfl⟩
    obtain ⟨u, hu, -, hdenote⟩ := exists_binary op (hP v hv) (hP w hw)
    show Follows true _ (binary op v w) _
    rw [hu]
    exact ⟨hbinary op v w u hv hw hu, (hdenote D hD).symm⟩
  · rintro op v _ ⟨hv, rfl⟩
    obtain ⟨u, hu, -, hdenote⟩ := exists_unary (hP v hv) op
    show Follows true _ (unary op v) _
    rw [hu]
    exact ⟨hunary op v u hv hu, (hdenote D hD).symm⟩

theorem simulates_sendable {D : Graph → Float} (hD : Executes D) :
    Simulates true fun (v : Value) (x : Float) => v.Sendable ∧ x = v.denote D := by
  refine simulates_of_sendable hD (fun _ h => h) .scalar ?_ ?_
  · intro op v w u hv hw h
    obtain ⟨u', hu', hsendable, -⟩ := exists_binary op hv hw
    exact Except.ok.inj (h.symm.trans hu') ▸ hsendable
  · intro op v u hv h
    obtain ⟨u', hu', hsendable, -⟩ := exists_unary hv op
    exact Except.ok.inj (h.symm.trans hu') ▸ hsendable

theorem simulates_denote {D : Graph → Float} (hD : Executes D) :
    Simulates true fun (v : Value) (x : Float) => v.Sorted ∧ x = v.denote D :=
  simulates_of_sendable hD (fun _ h => h.sendable) .scalar
    (fun _ _ _ _ hv hw h => hv.binary hw h) fun _ _ _ hv h => hv.unary h

/-- **A remote formula means the formula.**  Let the symbols be bound to numbers and remote handles.
Under every executor, the value of the formula denotes what the formula gives over the values that
its symbols denote, and it is refused exactly where that is.  The graph of the value, if it is a
handle, is of its sort and well sorted: arithmetic on images has images for operands, and arithmetic
on numbers has constants and numbers. -/
theorem evaluateIn_denote (f : Formula) (functions : List Function) (b : Bindings Value)
    (hb : ∀ x ∈ f.symbols, ∀ w, b[x]? = some w → w.Remote) :
    (∀ D, Executes D → f.evaluateIn ⟨b.map fun _ w => w.denote D, functions⟩ =
      (f.evaluateIn ⟨b, functions⟩).map (denote D)) ∧
    ∀ v, f.evaluateIn ⟨b, functions⟩ = .ok v → v.Sorted := by
  have hfollows : ∀ {D}, Executes D →
      Follows true (fun (v : Value) (x : Float) => v.Sorted ∧ x = v.denote D)
        (f.evaluateIn ⟨b, functions⟩)
        (f.evaluateIn ⟨b.map fun _ w => w.denote D, functions⟩) := by
    intro D hD
    refine evaluateIn_follows (simulates_denote hD) f functions fun x hx => ?_
    rw [Std.ExtTreeMap.getElem?_map]
    cases hw : b[x]? with
    | none => exact .none
    | some w => exact .some ⟨(hb x hx w hw).sorted, rfl⟩
  refine ⟨fun D hD => ((hfollows hD).imp fun _ _ h => h.2).eq_map, fun v hv => ?_⟩
  -- the graphs do not depend on the executor
  obtain ⟨x, -, hsorted, -⟩ := (hfollows executes_run).exists_ok hv
  exact hsorted

/-- An image, a number and a literal: `-i / (n - 2)`. -/
theorem evaluateIn_denote_mixed :
    let f : Formula := ⟨"-i/(n-2)", .binary .divide (.negate (.symbol "i"))
      (.binary .subtract (.symbol "n") (.number 2))⟩
    let b : Bindings Value := .ofPairs
      [("i", .remoteImage (.load "scene" ["red"])), ("n", .remoteNumber (.constant 5))]
    let i : Graph := .invocation "Image.load" [("id", .text "scene")]
    let negated : Graph := .invocation "Image.multiply"
      [("image1", i), ("image2", .invocation "Image.constant" [("value", .constant (-1.0))])]
    let difference : Graph :=
      .invocation "Number.subtract" [("left", .constant 5), ("right", .constant 2)]
    let quotient : Graph := .invocation "Image.divide"
      [("image1", negated), ("image2", .invocation "Image.constant" [("value", difference)])]
    (∀ x ∈ f.symbols, ∀ w, b[x]? = some w → w.Remote) ∧ Executes run ∧
      f.evaluateIn ⟨b, []⟩ = .ok (.remoteImage ⟨quotient, ["red"]⟩) ∧
      f.evaluateIn ⟨b.map fun _ w => w.denote run, []⟩ = .ok quotient.run ∧
      quotient.WellSorted := by
  intro f b i negated difference quotient
  have hb : ∀ x ∈ f.symbols, ∀ w, b[x]? = some w → w.Remote := by
    intro x hx w hw
    have hx' : x ∈ ["i", "n"] := hx
    rcases List.mem_cons.mp hx' with rfl | hx'
    · obtain rfl := Option.some.inj hw
      exact .load "scene" ["red"]
    · obtain rfl := List.mem_singleton.mp hx'
      obtain rfl := Option.some.inj hw
      exact .constantNumber 5
  have hf : f.evaluateIn ⟨b, []⟩ = .ok (.remoteImage ⟨quotient, ["red"]⟩) := rfl
  obtain ⟨hdenote, hsorted⟩ := evaluateIn_denote f [] b hb
  refine ⟨hb, executes_run, hf, ?_, (hsorted _ hf).wellSorted rfl⟩
  rw [hdenote run executes_run, hf]
  rfl

end BandMath.Value
