/-
# What a request lacks

Before anything is computed, a command line looks up all indices that it was asked for and collects
every symbol of every index that has no value.  The batch computed after that makes both checks
again, and stops at the first thing that is wrong.

What can be wrong with a request is described once, by `Registry.requestFault?`.  The batch gives an
error about its request iff there is such a fault (`Registry.evaluate_eq_error_iff_requestFault?`,
`Registry.compute_eq_error_iff_requestFault?`), and so does the check, which says more about it
(`checkBindings_eq`).  So the two agree (`checkBindings_agrees`).

Both look at the same two things, but neither is defined by the other: the check lists all shortages
of all indices, each under the name by which the index was asked for, and the batch stops at the
first name or symbol.  `Registry.lacking` is the list that both are compared with.

The batch can also fail for the values, which the check knows nothing about.  So what is compared
are errors about the request (`Error.aboutRequest`), and it has to be known that values never give
one (`BandMath.Proofs.Value.Refusals`).
-/
import BandMath.CommandLine.Run
import BandMath.Proofs.Batch.Precedence
import BandMath.Proofs.Value.Refusals

namespace BandMath

variable {α : Type}

/-! ## 1. What is lacking -/

/-- The symbols that a definition requires and that have no value, in its order. -/
def IndexDefinition.unbound (d : IndexDefinition) (b : Bindings α) : List String :=
  d.required.filter fun s => s ∉ b

namespace Registry

/-- The requested indices that do not pass validation, each under the name by which it was asked
for, in the order of the request. -/
def lacking (r : Registry) (b : Bindings α) (names : List String) :
    List (String × IndexDefinition) :=
  names.filterMap fun name =>
    (r.indices[name]?.filter fun d => (refusal? (d.validate b)).isSome).map fun d => (name, d)

/-- What is wrong with a request: its first unknown name, wherever it stands, and otherwise the
first symbol without a value. -/
def requestFault? (r : Registry) (b : Bindings α) (names : List String) : Option Error :=
  match r.firstUnknown? names with
  | some name => some (.unknownIndex name)
  | none => (r.firstLacking? b names).map fun (d, s) => .missingSymbol s d.name

end Registry

theorem missingSymbols_eq_unbound (d : IndexDefinition) (b : Bindings α) :
    missingSymbols d.required b = d.unbound b :=
  List.filter_congr fun s _ => by simp [← Std.ExtTreeMap.contains_iff_mem]

/-- Validation reports the first of them. -/
theorem IndexDefinition.refusal?_validate_eq_unbound (d : IndexDefinition) (b : Bindings α) :
    refusal? (d.validate b) = (d.unbound b).head?.map fun s => .missingSymbol s d.name := by
  rw [Registry.refusal?_validate, ← missingSymbols_eq_unbound, missingSymbols, List.head?_filter]

namespace Registry

variable {r : Registry} {b : Bindings α} {names : List String} {name : String} {e : Error}

/-- The first symbol without a value is the first one of the first index that lacks any. -/
theorem firstLacking?_eq_lacking (r : Registry) (b : Bindings α) : ∀ names : List String,
    r.firstLacking? b names = (r.lacking b names).head?.bind fun (_, d) =>
      (d.unbound b).head?.map fun s => (d, s)
  | [] => rfl
  | name :: names => by
    have ih := firstLacking?_eq_lacking r b names
    unfold firstLacking? lacking at ih ⊢
    rw [List.findSome?_cons, List.filterMap_cons, ih]
    cases r.indices[name]? with
    | none => rfl
    | some d =>
      have hfirst : d.required.find? (fun s => !b.contains s) = (d.unbound b).head? := by
        rw [← missingSymbols_eq_unbound, missingSymbols, List.head?_filter]
      -- whether the index is listed and what is found in it are both told by its unbound symbols
      have hvalidate := d.refusal?_validate_eq_unbound b
      rw [Option.bind_some, hfirst, Option.filter_some, hvalidate]
      cases hunbound : (d.unbound b).head? with
      | none => rfl
      | some s => simp [hunbound]

theorem requestFault?_eq_none_iff : r.requestFault? b names = none ↔
    (∀ name, r.requestFault? b names ≠ some (.unknownIndex name)) ∧
      ∀ s index, r.requestFault? b names ≠ some (.missingSymbol s index) := by
  unfold requestFault?
  cases r.firstUnknown? names with
  | some name => simp
  | none =>
    cases r.firstLacking? b names with
    | some lacking => simp
    | none => simp

/-! ## 2. What a batch reports -/

/-- A fault of a batch is one of its request, or else comes from the values. -/
theorem fault?_eq_or [Operand α] (r : Registry) (b : Bindings α) (names : List String) :
    r.fault? b names = (r.requestFault? b names).or
      (names.findSome? fun name => refusal? (r.value b name)) := by
  unfold fault? requestFault?
  cases r.firstUnknown? names with
  | some name => rfl
  | none =>
    cases r.firstLacking? b names with
    | some lacking => rfl
    | none => rfl

/-- Without a fault of the request, each name has a definition that lacks nothing. -/
theorem exists_of_requestFault?_eq_none (h : r.requestFault? b names = none)
    (hname : name ∈ names) : ∃ d, r.indices[name]? = some d ∧ d.validate b = .ok () := by
  unfold requestFault? at h
  cases hunknown : r.firstUnknown? names with
  | some unknown =>
    rw [hunknown] at h
    exact nomatch h
  | none =>
    rw [hunknown] at h
    have hknown := List.find?_eq_none.mp hunknown name hname
    cases hd : r.indices[name]? with
    | none => simp [Std.ExtTreeMap.contains_eq_isSome_getElem?, hd] at hknown
    | some d =>
      have hlacks := List.findSome?_eq_none_iff.mp (Option.map_eq_none_iff.mp h) name hname
      rw [hd, Option.bind_some, Option.map_eq_none_iff] at hlacks
      have hrefusal := refusal?_validate d b
      rw [hlacks, Option.map_none] at hrefusal
      obtain ⟨u, hu⟩ := refusal?_eq_none_iff.mp hrefusal
      exact ⟨d, rfl, hu⟩

section Values

variable {b : Bindings Value}

/-- A value that is missing then is missing for another reason. -/
theorem blamesValues_value (h : r.requestFault? b names = none) (hname : name ∈ names) :
    BlamesValues (r.value b name) := by
  obtain ⟨d, hd, hvalid⟩ := exists_of_requestFault?_eq_none h hname
  rw [value_of_getElem? hd, IndexDefinition.evaluate, hvalid, ok_bind]
  exact d.formula.blamesValues_evaluate b

/-- **A batch reports an error about its request iff there is such a fault.** -/
theorem evaluate_eq_error_iff_requestFault? (mode : Mode) (he : e.aboutRequest = true) :
    r.evaluate mode names b = .error e ↔ r.requestFault? b names = some e := by
  rw [← refusal?_eq_some_iff, evaluate_eq, refusal?_unlessRefused, fault?_eq_or,
    Option.or_eq_some_iff]
  refine or_iff_left ?_
  rintro ⟨hnone, hfind⟩
  obtain ⟨name, hname, hrefusal⟩ := List.exists_of_findSome?_eq_some hfind
  have hvalues := (blamesValues_value hnone hname).reason e (refusal?_eq_some_iff.mp hrefusal)
  exact Bool.noConfusion (he.symm.trans hvalues)

/-- What is done with the values does not add to these errors. -/
theorem compute_eq_error_iff_requestFault? (request : Request) (options : BatchOptions)
    (he : e.aboutRequest = true) :
    r.compute request b options = .error e ↔ r.requestFault? b request.names = some e := by
  refine Iff.trans ?_ (evaluate_eq_error_iff_requestFault? options.mode he)
  refine BlamesValues.bind_eq_error_iff he fun values => ?_
  split
  · exact .ok _
  · split
    · exact (blamesValues_unify ..).bind fun _ => .ok _
    · exact .ok _

end Values

end Registry

/-! ## 3. What the check reports -/

namespace CommandLine

variable {r : Registry} {b : Bindings Value} {names : List String} {f : Failure}

/-- How an index that lacks symbols is reported. -/
def shortageText (b : Bindings Value) : String × IndexDefinition → String
  | (name, d) => name ++ " needs " ++ ", ".intercalate (d.unbound b)

/-- How all of them are. -/
def shortageFailure (b : Bindings Value) (lacking : List (String × IndexDefinition)) : Failure where
  message := "Missing parameters: " ++ "; ".intercalate (lacking.map (shortageText b)) ++
    " (bind with -p SYMBOL=VALUE, or --defaults for constants)"
  causes := []

theorem shortage?_eq (b : Bindings Value) (name : String) (d : IndexDefinition) :
    shortage? b name d =
      if (refusal? (d.validate b)).isSome then some (shortageText b (name, d)) else none := by
  rw [shortage?, d.refusal?_validate_eq_unbound, missingSymbols_eq_unbound, shortageText]
  cases d.unbound b with
  | nil => rfl
  | cons s rest => rfl

/-- The shortages of names that are all known. -/
theorem filterMap_shortage? (r : Registry) (b : Bindings Value) (names : List String) :
    (names.filterMap fun name => ((r.index name).map (shortage? b name)).toOption).filterMap id =
      (r.lacking b names).map (shortageText b) := by
  rw [List.filterMap_filterMap, Registry.lacking, List.map_filterMap]
  refine List.filterMap_congr fun name _ => ?_
  unfold Registry.index
  cases r.indices[name]? with
  | none => rfl
  | some d =>
    dsimp only [map_ok, Except.toOption, Option.bind_some, id_eq]
    rw [shortage?_eq, Option.filter_some]
    cases refusal? (d.validate b) with
    | none => rfl
    | some e => rfl

/-- **An unknown name goes before all shortages, and these are reported together.** -/
theorem checkBindings_eq (r : Registry) (names : List String) (b : Bindings Value) :
    checkBindings r names b =
      match r.firstUnknown? names, r.lacking b names with
      | some name, _ => .error (.ofError (.unknownIndex name))
      | none, [] => .ok ()
      | none, lacking => .error (shortageFailure b lacking) := by
  have hunknown : names.findSome? (fun name => refusal? ((r.index name).map (shortage? b name))) =
      (r.firstUnknown? names).map .unknownIndex := by
    simp only [refusal?_map]
    exact r.findSome?_refusal?_index names
  unfold checkBindings
  rw [mapM_eq, hunknown]
  cases r.firstUnknown? names with
  | some name => rfl
  | none =>
    have hshortages := filterMap_shortage? r b names
    dsimp only [Option.map_none, unlessRefused_none, Except.mapError, ok_bind]
    rw [hshortages]
    cases r.lacking b names with
    | nil => rfl
    | cons first rest => rfl

/-! ## 4. Check and batch -/

theorem ofError_unknownIndex_inj {name name' : String}
    (h : Failure.ofError (.unknownIndex name) = .ofError (.unknownIndex name')) :
    name = name' := by
  have hmessage : "'" ++ name ++ "' is not a valid spectral index" =
      "'" ++ name' ++ "' is not a valid spectral index" := congrArg Failure.message h
  exact (String.append_right_inj _).mp ((String.append_left_inj _).mp hmessage)

/-- The two reports start with different characters. -/
theorem shortageFailure_ne_ofError_unknownIndex (b : Bindings Value)
    (lacking : List (String × IndexDefinition)) (name : String) :
    shortageFailure b lacking ≠ .ofError (.unknownIndex name) := by
  intro h
  have hmessage : "Missing parameters: " ++ "; ".intercalate (lacking.map (shortageText b)) ++
      " (bind with -p SYMBOL=VALUE, or --defaults for constants)" =
      "'" ++ name ++ "' is not a valid spectral index" := congrArg Failure.message h
  -- what the shortages and the name are does not matter any more
  have hhead := congrArg (fun text => text.toList.head?) hmessage
  simp only [String.append_assoc, String.toList_append] at hhead
  rw [List.head?_append_of_ne_nil _ (by decide), List.head?_append_of_ne_nil _ (by decide)] at hhead
  exact absurd hhead (by decide)

/-- An index that is listed lacks a symbol. -/
theorem exists_unbound_of_lacking {d : IndexDefinition} {name : String}
    (h : (name, d) ∈ r.lacking b names) : ∃ s, (d.unbound b).head? = some s := by
  obtain ⟨name', -, hmap⟩ := List.mem_filterMap.mp h
  obtain ⟨d', hd', heq⟩ := Option.map_eq_some_iff.mp hmap
  obtain ⟨rfl, rfl⟩ := Prod.mk.inj heq
  obtain ⟨-, hrefusal⟩ := Option.filter_eq_some_iff.mp hd'
  rw [IndexDefinition.refusal?_validate_eq_unbound, Option.isSome_map,
    Option.isSome_iff_exists] at hrefusal
  exact hrefusal

/-- The three ways in which the check ends, by the fault of the request. -/
theorem checkBindings_cases (r : Registry) (names : List String) (b : Bindings Value) :
    (r.requestFault? b names = none ∧ checkBindings r names b = .ok ()) ∨
    (∃ name, r.requestFault? b names = some (.unknownIndex name) ∧
      checkBindings r names b = .error (.ofError (.unknownIndex name))) ∨
    ∃ name d s, (r.lacking b names).head? = some (name, d) ∧ (d.unbound b).head? = some s ∧
      r.requestFault? b names = some (.missingSymbol s d.name) ∧
      checkBindings r names b = .error (shortageFailure b (r.lacking b names)) := by
  rw [checkBindings_eq, Registry.requestFault?, Registry.firstLacking?_eq_lacking]
  cases r.firstUnknown? names with
  | some name => exact .inr (.inl ⟨name, rfl, rfl⟩)
  | none =>
    cases hlacking : r.lacking b names with
    | nil => exact .inl ⟨rfl, rfl⟩
    | cons first rest =>
      obtain ⟨name, d⟩ := first
      obtain ⟨s, hs⟩ : ∃ s, (d.unbound b).head? = some s :=
        exists_unbound_of_lacking (hlacking ▸ List.mem_cons_self ..)
      refine .inr (.inr ⟨name, d, s, rfl, hs, ?_, rfl⟩)
      simp [hs]

theorem checkBindings_eq_ok_iff :
    checkBindings r names b = .ok () ↔ r.requestFault? b names = none := by
  obtain ⟨hfault, hcheck⟩ | ⟨name, hfault, hcheck⟩ | ⟨name, d, s, -, -, hfault, hcheck⟩ :=
    checkBindings_cases r names b
  all_goals simp [hfault, hcheck]

theorem checkBindings_eq_unknownIndex_iff {name : String} :
    checkBindings r names b = .error (.ofError (.unknownIndex name)) ↔
      r.requestFault? b names = some (.unknownIndex name) := by
  obtain ⟨hfault, hcheck⟩ | ⟨unknown, hfault, hcheck⟩ | ⟨first, d, s, -, -, hfault, hcheck⟩ :=
    checkBindings_cases r names b
  · simp [hfault, hcheck]
  · rw [hfault, hcheck]
    constructor
    · intro h
      rw [ofError_unknownIndex_inj (Except.error.inj h)]
    · intro h
      rw [Error.unknownIndex.inj (Option.some.inj h)]
  · simp [hfault, hcheck, shortageFailure_ne_ofError_unknownIndex]

/-- A failure of the check that is not about a name lists all shortages, the fault of the request
first. -/
theorem eq_shortageFailure_of_checkBindings (h : checkBindings r names b = .error f)
    (hknown : ∀ name, f ≠ .ofError (.unknownIndex name)) :
    f = shortageFailure b (r.lacking b names) ∧ ∃ name d s,
      (r.lacking b names).head? = some (name, d) ∧ (d.unbound b).head? = some s ∧
      r.requestFault? b names = some (.missingSymbol s d.name) := by
  obtain ⟨-, hcheck⟩ | ⟨name, -, hcheck⟩ | ⟨name, d, s, hfirst, hs, hfault, hcheck⟩ :=
    checkBindings_cases r names b
  · exact nomatch hcheck.symm.trans h
  · exact absurd (Except.error.inj (h.symm.trans hcheck)) (hknown name)
  · exact ⟨Except.error.inj (h.symm.trans hcheck), name, d, s, hfirst, hs, hfault⟩

/-- **The check agrees with the batch.**  It passes iff the batch finds all indices and all symbols;
it reports an unknown name iff the batch does, and the same one; and otherwise it reports all
indices that do not pass validation with all their symbols that have no value, of which the first is
the one that the batch reports. -/
theorem checkBindings_agrees (r : Registry) (request : BandMath.Request) (b : Bindings Value)
    (mode : Mode) (options : BatchOptions) :
    (checkBindings r request.names b = .ok () ↔
      (∀ name, r.evaluate mode request.names b ≠ .error (.unknownIndex name)) ∧
        ∀ s index, r.evaluate mode request.names b ≠ .error (.missingSymbol s index)) ∧
    (∀ name, checkBindings r request.names b = .error (.ofError (.unknownIndex name)) ↔
      r.compute request b options = .error (.unknownIndex name)) ∧
    ∀ f, checkBindings r request.names b = .error f →
      (∀ name, f ≠ .ofError (.unknownIndex name)) →
      f = shortageFailure b (r.lacking b request.names) ∧
      ∃ name d s, (r.lacking b request.names).head? = some (name, d) ∧
        (d.unbound b).head? = some s ∧
        r.evaluate mode request.names b = .error (.missingSymbol s d.name) ∧
        r.compute request b options = .error (.missingSymbol s d.name) := by
  refine ⟨?_, fun name => ?_, fun f hf hknown => ?_⟩
  · rw [checkBindings_eq_ok_iff, Registry.requestFault?_eq_none_iff]
    refine and_congr (forall_congr' fun name => not_congr ?_)
      (forall_congr' fun s => forall_congr' fun index => not_congr ?_)
    · exact (Registry.evaluate_eq_error_iff_requestFault? mode rfl).symm
    · exact (Registry.evaluate_eq_error_iff_requestFault? mode rfl).symm
  · rw [checkBindings_eq_unknownIndex_iff,
      Registry.compute_eq_error_iff_requestFault? request options rfl]
  · obtain ⟨hreport, name, d, s, hfirst, hs, hfault⟩ :=
      eq_shortageFailure_of_checkBindings hf hknown
    exact ⟨hreport, name, d, s, hfirst, hs,
      (Registry.evaluate_eq_error_iff_requestFault? mode rfl).mpr hfault,
      (Registry.compute_eq_error_iff_requestFault? request options rfl).mpr hfault⟩

/-- An index that is asked for twice and lists a symbol twice, after one that lacks nothing. -/
theorem checkBindings_agrees_repeated :
    let p : IndexDefinition := ⟨"P", ⟨"R", .symbol "R"⟩, ["R", "N", "R"], {}⟩
    let q : IndexDefinition := ⟨"Q", ⟨"N", .symbol "N"⟩, ["N"], {}⟩
    let r : Registry := ⟨.ofList [("P", p), ("Q", q)], ∅, ∅, Kernel.all.map Kernel.formula⟩
    let b : Bindings Value := .ofPairs [("N", .scalar 1)]
    checkBindings r ["Q", "P", "P"] b = .error (shortageFailure b [("P", p), ("P", p)]) ∧
      p.unbound b = ["R", "R"] ∧
      r.compute (.many ["Q", "P", "P"]) b {} = .error (.missingSymbol "R" "P") := by
  intro p q r b
  obtain ⟨-, -, hreport⟩ := checkBindings_agrees r (.many ["Q", "P", "P"]) b .sequential {}
  have hlacking : r.lacking b ["Q", "P", "P"] = [("P", p), ("P", p)] := rfl
  have hunbound : p.unbound b = ["R", "R"] := rfl
  have hcheck : checkBindings r ["Q", "P", "P"] b =
      .error (shortageFailure b [("P", p), ("P", p)]) := rfl
  obtain ⟨-, name, d, s, hfirst, hs, -, hcompute⟩ := hreport _ hcheck fun name =>
    shortageFailure_ne_ofError_unknownIndex b _ name
  rw [Request.names, hlacking] at hfirst
  obtain ⟨rfl, rfl⟩ := Prod.mk.inj (Option.some.inj hfirst)
  rw [hunbound] at hs
  obtain rfl := Option.some.inj hs
  exact ⟨hcheck, hunbound, hcompute⟩

end CommandLine

end BandMath
