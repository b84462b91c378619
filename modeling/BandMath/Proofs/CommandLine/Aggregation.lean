/-
# Results in a stack and results one by one

Several results that are arrays are stacked and printed row by row, unless they are asked for one by
one.  The two ways print the same lines.

Only numbers and arrays of one axis can be bound on a command line (`Value.Plain`), and formulas
make nothing else of them.  So results that can be combined at all are arrays of one length, the
rows of their stack are the arrays themselves, and the lines of the rows are the lines of the
results (`outcomeLines_of_unify`).  Where nothing that is bound is an array, nothing is combined in
either way.

Two command lines are compared here, so there are two halves.  That the switch is read as meant, and
leaves the rest of the command line as it was, is shown in `BandMath.Proofs.CommandLine.Switches`.
That the outcome of the batch is printed in the same lines with and without combining is shown here,
for batches of plain values (`exists_compute_separately`).

Every line that is printed for a batch shows the value of one name (`Entry`), in the order in which
the names were given.
-/
import BandMath.CommandLine.Run
import BandMath.Proofs.Batch.Precedence
import BandMath.Proofs.Combination.Families
import BandMath.Proofs.CommandLine.Switches
import BandMath.Proofs.Formula.Simulation
import BandMath.Proofs.NDArray.Stretching
import BandMath.Proofs.Registry.Defaults

namespace BandMath

/-! ## 1. Plain values -/

namespace Value

/-- A number, or an array of one axis. -/
inductive Plain : Value → Prop
  | scalar (x : Float) : Plain (.scalar x)
  | array {a : NDArray} (h : a.rank = 1) : Plain (.array a)

variable {v w u : Value}

theorem Plain.binary {op : BinaryOp} (hv : v.Plain) (hw : w.Plain)
    (h : Value.binary op v w = .ok u) : u.Plain := by
  cases hv with
  | scalar x =>
    cases hw with
    | scalar y =>
      obtain rfl := Except.ok.inj h
      exact .scalar _
    | array hb =>
      obtain rfl := Except.ok.inj h
      exact .array hb
  | @array a ha =>
    cases hw with
    | scalar y =>
      obtain rfl := Except.ok.inj h
      exact .array ha
    | @array b hb =>
      obtain ⟨c, hc, rfl⟩ := map_eq_ok_iff.mp h
      have hrank : c.rank = a.rank ∨ c.rank = b.rank :=
        (NDArray.shape_zipWith_eq_or hc).imp (congrArg List.length) (congrArg List.length)
      rcases hrank with hrank | hrank
      · exact .array (hrank.trans ha)
      · exact .array (hrank.trans hb)

theorem Plain.unary {op : UnaryOp} (hv : v.Plain) (h : Value.unary op v = .ok u) : u.Plain := by
  cases hv with
  | scalar x =>
    obtain rfl := Except.ok.inj h
    exact .scalar _
  | array ha =>
    obtain rfl := Except.ok.inj h
    exact .array ha

/-- **Formulas make plain values of plain values.**  By induction on the evaluation. -/
theorem Plain.of_evaluates {s : Formula.Scope Value} {e : Formula.Expr}
    (hb : ∀ (x : String) (w : Value), s.bindings[x]? = some w → w.Plain) (h : e.Evaluates s v) :
    v.Plain := by
  induction h with
  | number x => exact .scalar x
  | symbol h => exact hb _ _ h
  | binary _ _ h ihl ihr => exact ihl.binary ihr h
  | negate _ h ih => exact ih.unary h
  | call _ _ h ih => exact ih.unary h

end Value

/-- All bound values are plain. -/
def Bindings.Plain (b : Bindings Value) : Prop :=
  ∀ (s : String) (v : Value), b[s]? = some v → v.Plain

theorem Bindings.Plain.fillDefaults {b : Bindings Value} (hb : b.Plain) (r : Registry) :
    Bindings.Plain (r.fillDefaults b) := by
  intro s v hs
  rw [r.getElem?_fillDefaults, Option.or_eq_some_iff] at hs
  rcases hs with hs | ⟨-, hs⟩
  · exact hb s v hs
  · obtain ⟨x, -, rfl⟩ := Option.map_eq_some_iff.mp hs
    exact .scalar x

theorem Registry.plain_value {r : Registry} {b : Bindings Value} {name : String} {v : Value}
    (hb : b.Plain) (h : r.value b name = .ok v) : v.Plain := by
  obtain ⟨d, -, h⟩ := bind_eq_ok_iff.mp h
  obtain ⟨_, -, h⟩ := bind_eq_ok_iff.mp h
  exact .of_evaluates (s := ⟨b, []⟩) hb (Formula.Expr.eval_eq_ok_iff.mp h)

/-! ## 2. Stacked and one by one -/

variable {names labels : List String} {axis : String} {values : List Value} {u : Value}

/-- Plain values that can be combined are arrays, and they are stacked. -/
theorem exists_stack_of_unify (hseveral : 2 ≤ values.length)
    (hlength : values.length = labels.length) (hplain : ∀ v ∈ values, v.Plain)
    (h : unify values labels axis = .ok u) :
    ∃ (arrays : List NDArray) (c : NDArray),
      values = arrays.map .array ∧ u = .array c ∧ c.Stacks arrays := by
  obtain ⟨first, hfirst⟩ : ∃ first, values[0]? = some first :=
    ⟨values[0], List.getElem?_eq_getElem (by omega)⟩
  have hkind : ∀ v ∈ values, v.kind = first.kind := by
    cases hother : firstOtherKind? first.kind values with
    | none => exact firstOtherKind?_eq_none_iff.mp hother
    | some other =>
      rw [unify_of_mixed hlength hfirst hother] at h
      exact nomatch h
  cases hplain first (List.mem_of_getElem? hfirst) with
  | scalar x =>
    -- numbers cannot be stacked
    rw [unify_of_kind hlength hseveral hkind] at h
    exact nomatch h
  | array =>
    have harray : ∀ v ∈ values, ∃ a, v = .array a := by
      intro v hv
      have hv' := hkind v hv
      cases hplain v hv with
      | scalar x => exact nomatch hv'
      | @array a _ => exact ⟨a, rfl⟩
    obtain ⟨arrays, harrays⟩ := exists_forall₂ harray
    obtain rfl : values = arrays.map .array := by
      have heq := map_eq_of_forall₂ harrays
      rwa [List.map_id'] at heq
    rw [List.length_map] at hseveral hlength
    obtain ⟨c, rfl, hc⟩ := (combines_arrays ⟨hseveral, hlength⟩).holds u h
    exact ⟨arrays, c, rfl, rfl, hc⟩

namespace CommandLine

/-- The lines of the rows of a stack are those of the arrays in it. -/
theorem rowLines_of_stacks {arrays : List NDArray} {c : NDArray} (hne : arrays ≠ [])
    (h : c.Stacks arrays) (labels : List String) :
    rowLines labels c = (labels.zip arrays).map fun (label, a) => valueLine label (.array a) := by
  have hlength : c.length 0 = arrays.length := by
    obtain ⟨a, ha⟩ := List.exists_mem_of_ne_nil arrays hne
    rw [NDArray.length, h.shape a ha]
    rfl
  have hrows : (List.range (c.length 0)).map (c.select 0) = arrays := by
    refine List.ext_getElem (by simp [hlength]) fun i _ hi => ?_
    simp [h.select i arrays[i] (List.getElem?_eq_getElem hi)]
  calc rowLines labels c
      = (labels.zip ((List.range (c.length 0)).map (c.select 0))).map
          fun (label, a) => valueLine label (.array a) := by
        simp [rowLines, valueLine, List.zip_map_right]
    _ = _ := by rw [hrows]

/-- **What is combined is printed as if it were not.** -/
theorem outcomeLines_of_unify {names : List String} (hseveral : 2 ≤ values.length)
    (hlength : values.length = names.length) (hplain : ∀ v ∈ values, v.Plain)
    (h : unify values names axis = .ok u) :
    outcomeLines names (.single u) = outcomeLines names (.list values) := by
  obtain ⟨arrays, c, rfl, rfl, hc⟩ := exists_stack_of_unify hseveral hlength hplain h
  rw [List.length_map] at hseveral hlength
  have hne : arrays ≠ [] := by
    rintro rfl
    exact absurd hseveral (by simp)
  match names, hlength ▸ hseveral with
  | first :: second :: rest, _ =>
    show rowLines (first :: second :: rest) c = _
    rw [rowLines_of_stacks hne hc, outcomeLines, List.zip_map_right, List.map_map]
    rfl

/-! ## 3. Computations -/

theorem plain_parameterValue (xs : List Float) : (parameterValue xs).Plain := by
  unfold parameterValue
  split
  · exact .scalar _
  · exact .array rfl

theorem plain_bindings (parameters : List (String × List Float)) :
    (bindings parameters).Plain := by
  intro s v hs
  obtain ⟨⟨t, xs⟩, -, heq⟩ := List.mem_map.mp (Bindings.mem_of_getElem?_ofPairs hs)
  obtain rfl := congrArg Prod.snd heq
  exact plain_parameterValue xs

/-- What a computation evaluates its indices with. -/
def computeBindings (r : Registry) (parameters : List (String × List Float)) (defaults : Bool) :
    Bindings Value :=
  if defaults then r.fillDefaults (bindings parameters) else bindings parameters

theorem plain_computeBindings (r : Registry) (parameters : List (String × List Float))
    (defaults : Bool) : (computeBindings r parameters defaults).Plain := by
  cases defaults with
  | true => exact (plain_bindings parameters).fillDefaults r
  | false => exact plain_bindings parameters

section Compute

variable {r : Registry} {mode : Mode} {b : Bindings Value} {options : BatchOptions}
  {o : Outcome Value} {parameters : List (String × List Float)} {defaults aggregate : Bool}
  {lines : List String}

/-- The lines of a computation are those of the outcome of a batch. -/
theorem lines_compute_eq_ok_iff :
    (Command.compute names parameters defaults aggregate axis).lines r mode = .ok lines ↔
      checkBindings r names (computeBindings r parameters defaults) = .ok () ∧
      ∃ o, r.compute (.many names) (computeBindings r parameters defaults)
          ⟨aggregate && bindsArray (computeBindings r parameters defaults), axis, mode⟩ = .ok o ∧
        outcomeLines names o = lines := by
  rw [Command.lines]
  constructor
  · intro h
    obtain ⟨⟨⟩, hcheck, h⟩ := bind_eq_ok_iff.mp h
    obtain ⟨o, ho, h⟩ := bind_eq_ok_iff.mp h
    exact ⟨hcheck, o, mapError_eq_ok_iff.mp ho, Except.ok.inj h⟩
  · rintro ⟨hcheck, o, ho, rfl⟩
    refine bind_eq_ok_iff.mpr ⟨(), hcheck, bind_eq_ok_iff.mpr ⟨o, ?_, rfl⟩⟩
    exact mapError_eq_ok_iff.mpr ho

/-- **A batch of plain values that has an outcome has one without combining, with the same
lines.** -/
theorem exists_compute_separately (hb : b.Plain)
    (h : r.compute (.many names) b options = .ok o) :
    ∃ o', r.compute (.many names) b { options with aggregate := false } = .ok o' ∧
      outcomeLines names o' = outcomeLines names o := by
  obtain ⟨aggregate, axis, mode⟩ := options
  cases aggregate with
  | false => exact ⟨o, h, rfl⟩
  | true =>
    have hevaluate := Registry.evaluate_of_compute h
    match names with
    | [] =>
      rw [r.compute_eq_answer] at h
      exact nomatch h
    | [name] =>
      -- one result is never combined
      rw [r.compute_eq_answer] at h
      refine ⟨o, ?_, rfl⟩
      rw [r.compute_eq_answer]
      exact h
    | first :: second :: rest =>
      obtain ⟨hvalues, hall⟩ := hevaluate
      have hlength := hall.length_eq
      have hseveral : 2 ≤ (r.values b (first :: second :: rest)).length := by
        rw [← hlength]
        simp
      rw [Registry.compute_of_evaluate hseveral hvalues rfl] at h
      obtain ⟨u, hu, rfl⟩ := map_eq_ok_iff.mp h
      refine ⟨_, Registry.compute_eq_list hseveral hvalues rfl, ?_⟩
      have hplain : ∀ v ∈ r.values b (first :: second :: rest), v.Plain :=
        forall_of_forall₂ hall fun _ _ _ hv => Registry.plain_value hb hv
      exact (outcomeLines_of_unify hseveral hlength.symm hplain hu).symm

/-! ## 4. Entries -/

/-- A line that shows the value of a name: a number, or an array of one axis. -/
inductive Entry (name : String) : Value → String → Prop
  | scalar (x : Float) : Entry name (.scalar x) (name ++ " = " ++ number x)
  | array {a : NDArray} (h : a.rank = 1) :
    Entry name (.array a) (name ++ " = " ++ elements a.toList)

theorem entry_valueLine {name : String} {v : Value} (h : v.Plain) :
    Entry name v (valueLine name v) := by
  cases h with
  | scalar x => exact .scalar x
  | array h => exact .array h

/-- The lines of related values, one by one. -/
theorem forall₂_outcomeLines {R : String → Value → Prop}
    (h : List.Forall₂ R names values) (hplain : ∀ v ∈ values, v.Plain) :
    List.Forall₂ (fun name line => ∃ v, R name v ∧ Entry name v line) names
      (outcomeLines names (.list values)) := by
  induction h with
  | nil => exact .nil
  | @cons name v names values hv _ ih =>
    obtain ⟨hfirst, hrest⟩ := List.forall_mem_cons.mp hplain
    exact .cons ⟨v, hv, entry_valueLine hfirst⟩ (ih hrest)

/-- **Several names give one line each, which shows the value of that name.** -/
theorem forall₂_entry_of_compute (hb : b.Plain) (hseveral : 2 ≤ names.length)
    (h : r.compute (.many names) b options = .ok o) :
    List.Forall₂ (fun name line => ∃ v, r.value b name = .ok v ∧ Entry name v line) names
      (outcomeLines names o) := by
  obtain ⟨o', ho', hlines⟩ := exists_compute_separately hb h
  obtain ⟨hvalues, hall⟩ := Registry.evaluate_of_compute ho'
  rw [Registry.compute_eq_list (hall.length_eq ▸ hseveral) hvalues rfl] at ho'
  obtain rfl := Except.ok.inj ho'
  rw [← hlines]
  exact forall₂_outcomeLines hall (forall_of_forall₂ hall fun _ _ _ hv => r.plain_value hb hv)

end Compute

/-! ## 5. Command lines -/

section Run

variable {contents : String → Except Error String} {args : List String}
  {registry : Option String} {threads : Option Nat} {indices : List String}
  {parameters : List (String × List Float)} {defaults : Bool}

/-- A command line that is carried out has a registry and the lines of its command. -/
theorem lines_of_run {i : Invocation} (hargs : Request.ofArguments args = .run i)
    (h : (run contents args).status = 0) :
    ∃ r lines, loadRegistry contents i.registry = .ok r ∧
      i.command.lines r (.ofThreads i.threads) = .ok lines ∧
      run contents args = { status := 0, out := lines } := by
  unfold run at h ⊢
  rw [hargs] at h ⊢
  dsimp only at h ⊢
  cases hlines : i.lines contents with
  | error f =>
    rw [hlines] at h
    exact absurd h Nat.one_ne_zero
  | ok lines =>
    obtain ⟨r, hr, hlines⟩ := bind_eq_ok_iff.mp hlines
    exact ⟨r, lines, hr, hlines, rfl⟩

theorem run_of_lines {i : Invocation} {r : Registry} {lines : List String}
    (hargs : Request.ofArguments args = .run i) (hr : loadRegistry contents i.registry = .ok r)
    (h : i.command.lines r (.ofThreads i.threads) = .ok lines) :
    run contents args = { status := 0, out := lines } := by
  have hlines : i.lines contents = .ok lines := bind_eq_ok_iff.mpr ⟨r, hr, h⟩
  unfold run
  rw [hargs]
  dsimp only
  rw [hlines]

/-- **Asking for results one by one never changes an answer.**  Whatever else is given, the switch
may be put right after the name of a computation that succeeds, and the same is printed.  For
several indices that is one line for each, in the order of the request, with the value of the index
computed alone. -/
theorem run_noAggregate
    (hargs : Request.ofArguments args =
      .run ⟨registry, threads, .compute indices parameters defaults true axis⟩)
    (h : (run contents args).status = 0) :
    (∃ before rest, args = before ++ "compute" :: rest ∧
      run contents (before ++ "compute" :: "--no-aggregate" :: rest) = run contents args) ∧
    (∀ args', Request.ofArguments args' =
        .run ⟨registry, threads, .compute indices parameters defaults false axis⟩ →
      run contents args' = run contents args) ∧
    (2 ≤ indices.length → ∃ r, loadRegistry contents registry = .ok r ∧
      List.Forall₂ (fun name line => ∃ v,
          r.value (computeBindings r parameters defaults) name = .ok v ∧ Entry name v line)
        indices (run contents args).out) := by
  obtain ⟨r, lines, hr, hlines, hrun⟩ := lines_of_run hargs h
  obtain ⟨hcheck, o, ho, rfl⟩ := lines_compute_eq_ok_iff.mp hlines
  have hb := plain_computeBindings r parameters defaults
  have hsame : ∀ args', Request.ofArguments args' =
        .run ⟨registry, threads, .compute indices parameters defaults false axis⟩ →
      run contents args' = run contents args := by
    intro args' hargs'
    obtain ⟨o', ho', hlines'⟩ := exists_compute_separately hb ho
    rw [hrun]
    exact run_of_lines hargs' hr (lines_compute_eq_ok_iff.mpr ⟨hcheck, o', ho', hlines'⟩)
  refine ⟨?_, hsame, fun hseveral => ⟨r, hr, ?_⟩⟩
  · obtain ⟨before, rest, rfl, hargs'⟩ := ofArguments_noAggregate hargs
    exact ⟨before, rest, rfl, hsame _ hargs'⟩
  · rw [hrun]
    exact forall₂_entry_of_compute hb hseveral ho

/-- A difference of arrays and a multiple of one, from a catalogue of their own. -/
theorem run_noAggregate_stack :
    let contents : String → Except Error String := fun _ => .ok
      ("\x7b\"SpectralIndices\":\x7b\"A\":[\"A\",\"N - R\",[\"N\",\"R\"]]," ++
        "\"T\":[\"T\",\"2 * N\",[\"N\"]]\x7d\x7d")
    let request := ["A", "T", "-p", "N=0.6,0.5", "-p", "R=0.1,0.2"]
    let args := "--registry=own.json" :: "compute" :: request
    (∃ parameters, Request.ofArguments args =
      .run ⟨some "own.json", none, .compute ["A", "T"] parameters false true "index"⟩) ∧
    (run contents args).status = 0 ∧
    run contents ("--registry=own.json" :: "compute" :: "--no-aggregate" :: request) =
      run contents args := by
  intro contents request args
  have hargs : Request.ofArguments args = .run ⟨some "own.json", none, .compute ["A", "T"]
      (["N=0.6,0.5", "R=0.1,0.2"].filterMap parameter?) false true "index"⟩ := rfl
  have hstatus : (run contents args).status = 0 := by decide +kernel
  exact ⟨⟨_, hargs⟩, hstatus, (run_noAggregate hargs hstatus).2.1 _ rfl⟩

end Run

end CommandLine

end BandMath
