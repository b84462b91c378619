/-
# What a batch answers

Three things can be wrong with a batch: a name without a definition, a definition that requires a
symbol without a value, and a formula that has no value.  They are looked for in this order, each
through the whole batch, so a fault of a late name may hide one of an earlier name
(`Registry.fault?`).  A batch without a fault is answered from what its names give one by one
(`Registry.answer`).

`compute_eq_answer` says that this is what computing a batch does.  The mode of working does not
occur in it.

The reference is made of look-ups and of the values of single indices, and has no phases: the first
unknown name anywhere, else the first lacking symbol anywhere, else the first index without a value.
That each phase of a batch fails with the first of its faults is a fact about going through a list
(`mapM_eq`, `forM_eq`), which is used three times.  The mode goes away at once, as it does not
change the results of a phase.

How several values are combined is left to `unify` on both sides.

What other modules use are the special cases at the end, about batches whose values are known one by
one.
-/
import BandMath.Batch
import BandMath.Proofs.Fallible

namespace BandMath

variable {α : Type}

/-! ## 1. The answer, described -/

namespace Registry

/-- The value of one index, by its name. -/
def value [Operand α] (r : Registry) (b : Bindings α) (name : String) : Except Error α := do
  (← r.index name).evaluate b

/-- The first name without a definition. -/
def firstUnknown? (r : Registry) (names : List String) : Option String :=
  names.find? fun name => !r.indices.contains name

/-- The first index with a required symbol that has no value, and the first such symbol of it. -/
def firstLacking? (r : Registry) (b : Bindings α) (names : List String) :
    Option (IndexDefinition × String) :=
  names.findSome? fun name => r.indices[name]?.bind fun d =>
    (d.required.find? fun s => !b.contains s).map fun s => (d, s)

/-- What is wrong with a batch: an unknown name anywhere in it goes before a missing symbol anywhere
in it, and that before the first index that has no value. -/
def fault? [Operand α] (r : Registry) (b : Bindings α) (names : List String) : Option Error :=
  match r.firstUnknown? names with
  | some name => some (.unknownIndex name)
  | none =>
    match r.firstLacking? b names with
    | some (d, symbol) => some (.missingSymbol symbol d.name)
    | none => names.findSome? fun name => refusal? (r.value b name)

/-- What a request is answered.  One name, alone or in a list, gives its value whatever the options
say; any other list gives the list of the values, or what they are combined into.  Every value is
that of one index computed alone. -/
def answer (r : Registry) (request : Request) (b : Bindings Value) (options : BatchOptions) :
    Except Error (Outcome Value) :=
  match r.fault? b request.names with
  | some e => .error e
  | none =>
    match request with
    | .one name | .many [name] => (r.value b name).map .single
    | .many names => do
      let results ← names.mapM (r.value b)
      if options.aggregate then return .single (← unify results names options.axis)
      else return .list results

end Registry

/-! ## 2. Names -/

namespace Registry

variable {r : Registry} {b : Bindings α} {names : List String} {name : String}
  {d : IndexDefinition}

theorem index_eq_ok (h : r.index name = .ok d) : r.indices[name]? = some d := by
  unfold index at h
  split at h
  · rename_i hname
    rw [hname, Except.ok.inj h]
  · exact nomatch h

theorem refusal?_index (r : Registry) (name : String) :
    refusal? (r.index name) =
      if r.indices.contains name then none else some (.unknownIndex name) := by
  rw [index, Std.ExtTreeMap.contains_eq_isSome_getElem?]
  cases r.indices[name]? with
  | none => rfl
  | some d => rfl

/-- Looking up all names fails at the first unknown one. -/
theorem findSome?_refusal?_index (r : Registry) : ∀ names : List String,
    names.findSome? (fun name => refusal? (r.index name)) =
      (r.firstUnknown? names).map .unknownIndex
  | [] => rfl
  | name :: names => by
    have ih := findSome?_refusal?_index r names
    rw [firstUnknown?] at ih ⊢
    rw [List.findSome?_cons, List.find?_cons, refusal?_index, ih]
    cases r.indices.contains name with
    | false => rfl
    | true => rfl

/-- When no name is unknown, all definitions are there. -/
theorem exists_definitions (h : r.firstUnknown? names = none) :
    ∃ definitions, names.mapM r.index = .ok definitions ∧
      List.Forall₂ (fun name d => r.indices[name]? = some d) names definitions := by
  have hnone : names.findSome? (fun name => refusal? (r.index name)) = none := by
    rw [findSome?_refusal?_index, h]
    rfl
  have hmapM := mapM_eq r.index names
  rw [hnone, unlessRefused_none] at hmapM
  exact ⟨_, hmapM, (forall₂_of_mapM hmapM).imp fun name d hd => index_eq_ok hd⟩

/-! ## 3. Symbols -/

theorem refusal?_validate (d : IndexDefinition) (b : Bindings α) :
    refusal? (d.validate b) =
      (d.required.find? fun s => !b.contains s).map fun s => .missingSymbol s d.name := by
  rw [IndexDefinition.validate, validate, missingSymbols, ← List.head?_filter]
  cases d.required.filter fun s => !b.contains s with
  | nil => rfl
  | cons s rest => rfl

/-- Validation fails at the first definition that lacks a value. -/
theorem findSome?_refusal?_validate {definitions : List IndexDefinition}
    (h : List.Forall₂ (fun name d => r.indices[name]? = some d) names definitions) :
    definitions.findSome? (fun d => refusal? (d.validate b)) =
      (r.firstLacking? b names).map fun (d, s) => .missingSymbol s d.name := by
  have hlacking : r.firstLacking? b names = definitions.findSome? fun d =>
      (d.required.find? fun s => !b.contains s).map fun s => (d, s) := by
    refine findSome?_of_forall₂ (h.imp fun name d hd => ?_)
    rw [hd, Option.bind_some]
  rw [hlacking, List.map_findSome?]
  congr 1
  funext d
  rw [refusal?_validate, Function.comp_apply, Option.map_map]
  rfl

/-! ## 4. Values -/

/-- The values of the indices that have one, each computed alone. -/
def values [Operand α] (r : Registry) (b : Bindings α) (names : List String) : List α :=
  names.filterMap fun name => (r.value b name).toOption

theorem value_of_getElem? [Operand α] (hd : r.indices[name]? = some d) :
    r.value b name = d.evaluate b := by
  rw [value, index, hd]
  rfl

/-- A definition that lacks nothing gives what its formula gives. -/
theorem evaluate_of_validate [Operand α] (h : refusal? (d.validate b) = none) :
    d.evaluate b = d.formula.evaluate b := by
  obtain ⟨u, hu⟩ := refusal?_eq_none_iff.mp h
  rw [IndexDefinition.evaluate, hu, ok_bind]

/-- Where an index has a value, its name is known, it lacks nothing, and its formula has that
value. -/
theorem value_eq_ok_iff [Operand α] {v : α} : r.value b name = .ok v ↔
    ∃ d, r.indices[name]? = some d ∧ d.validate b = .ok () ∧ d.formula.evaluate b = .ok v := by
  constructor
  · intro h
    obtain ⟨d, hd, h⟩ := bind_eq_ok_iff.mp h
    obtain ⟨_, hvalid, h⟩ := bind_eq_ok_iff.mp h
    exact ⟨d, index_eq_ok hd, hvalid, h⟩
  · rintro ⟨d, hd, hvalid, h⟩
    rw [value_of_getElem? hd, IndexDefinition.evaluate, hvalid, ok_bind, h]

/-- **A batch has the first of its faults, or else all its values.** -/
theorem evaluate_eq [Operand α] (r : Registry) (mode : Mode) (names : List String)
    (b : Bindings α) :
    r.evaluate mode names b = unlessRefused (r.fault? b names) (r.values b names) := by
  unfold evaluate fault?
  cases hunknown : r.firstUnknown? names with
  | some name =>
    rw [mapM_eq, findSome?_refusal?_index, hunknown]
    rfl
  | none =>
    obtain ⟨definitions, hdefinitions, hall⟩ := exists_definitions hunknown
    have hvalidate := findSome?_refusal?_validate (b := b) hall
    rw [hdefinitions, ok_bind, forM_eq, hvalidate]
    cases hlacking : r.firstLacking? b names with
    | some lacking => rfl
    | none =>
      rw [hlacking, Option.map_none, List.findSome?_eq_none_iff] at hvalidate
      -- from here on the value of a name is that of the formula of its definition
      have hvalues : List.Forall₂ (fun name d => r.value b name = d.formula.evaluate b) names
          definitions := by
        have hboth := (List.forall₂_and_left definitions names).mpr ⟨hvalidate, hall.flip⟩
        refine hboth.flip.imp fun name d ⟨hok, hd⟩ => ?_
        rw [value_of_getElem? hd, evaluate_of_validate hok]
      have hrefusal : names.findSome? (fun name => refusal? (r.value b name)) =
          definitions.findSome? fun d => refusal? (d.formula.evaluate b) :=
        findSome?_of_forall₂ (hvalues.imp fun name d h => congrArg refusal? h)
      have hresults : r.values b names =
          definitions.filterMap fun d => (d.formula.evaluate b).toOption :=
        filterMap_of_forall₂ (hvalues.imp fun name d h => congrArg Except.toOption h)
      dsimp only
      rw [Option.map_none, hrefusal, hresults, Mode.map_eq, List.mapM_map]
      exact mapM_eq (fun d => d.formula.evaluate b) definitions

/-! ## 5. Answers -/

/-- In a batch without a fault every index has a value. -/
theorem mapM_value [Operand α] (h : r.fault? b names = none) :
    names.mapM (r.value b) = .ok (r.values b names) := by
  have hnone : names.findSome? (fun name => refusal? (r.value b name)) = none := by
    unfold fault? at h
    split at h
    · exact nomatch h
    · split at h
      · exact nomatch h
      · exact h
  rw [mapM_eq, hnone, unlessRefused_none, values]

theorem forall₂_values [Operand α] (h : r.fault? b names = none) :
    List.Forall₂ (fun name v => r.value b name = .ok v) names (r.values b names) :=
  forall₂_of_mapM (mapM_value h)

/-- The values that are known one by one. -/
theorem values_eq_of_forall₂ [Operand α] {values : List α}
    (h : List.Forall₂ (fun name v => r.value b name = .ok v) names values) :
    r.values b names = values := by
  have hitems := filterMap_of_forall₂ (f := fun name => (r.value b name).toOption) (g := some)
    (h.imp fun name v hv => congrArg Except.toOption hv)
  rwa [List.filterMap_some] at hitems

/-- A batch has no fault if every name of it has a value. -/
theorem fault?_eq_none [Operand α] (h : ∀ name ∈ names, ∃ v, r.value b name = .ok v) :
    r.fault? b names = none := by
  have hunknown : r.firstUnknown? names = none := by
    refine List.find?_eq_none.mpr fun name hname => ?_
    obtain ⟨v, hv⟩ := h name hname
    obtain ⟨d, hd, -⟩ := value_eq_ok_iff.mp hv
    simp [Std.ExtTreeMap.contains_eq_isSome_getElem?, hd]
  have hlacking : r.firstLacking? b names = none := by
    refine List.findSome?_eq_none_iff.mpr fun name hname => ?_
    obtain ⟨v, hv⟩ := h name hname
    obtain ⟨d, hd, hvalid, -⟩ := value_eq_ok_iff.mp hv
    have hrefusal := refusal?_validate d b
    rw [hvalid, refusal?_ok] at hrefusal
    rw [hd, Option.bind_some, Option.map_eq_none_iff, Option.map_eq_none_iff.mp hrefusal.symm]
  rw [fault?, hunknown]
  dsimp only
  rw [hlacking]
  exact List.findSome?_eq_none_iff.mpr fun name hname => refusal?_eq_none_iff.mpr (h name hname)

/-- A batch has values if every name of it has one. -/
theorem evaluate_of_forall [Operand α] (mode : Mode)
    (h : ∀ name ∈ names, ∃ v, r.value b name = .ok v) :
    r.evaluate mode names b = .ok (r.values b names) := by
  rw [evaluate_eq, fault?_eq_none h, unlessRefused_none]

theorem exists_values_singleton [Operand α] (h : r.fault? b [name] = none) :
    ∃ v, r.value b name = .ok v ∧ r.values b [name] = [v] := by
  have hall := forall₂_values h
  obtain ⟨v, hvs⟩ := List.length_eq_one_iff.mp hall.length_eq.symm
  rw [hvs] at hall
  obtain ⟨hv, -⟩ := List.forall₂_cons.mp hall
  exact ⟨v, hv, hvs⟩

/-- **A request is answered by the first of its faults, or from the values of its names.**  Faults
are looked for phase by phase, each through the whole batch; a batch with a fault has no results. -/
theorem compute_eq_answer (r : Registry) (request : Request) (b : Bindings Value)
    (options : BatchOptions) : r.compute request b options = r.answer request b options := by
  unfold compute answer
  rw [evaluate_eq]
  cases hfault : r.fault? b request.names with
  | some e => rfl
  | none =>
    rw [unlessRefused_none, ok_bind]
    match request with
    | .one name | .many [name] =>
      obtain ⟨v, hv, hvs⟩ := exists_values_singleton hfault
      dsimp only [Request.names]
      rw [hv, hvs]
      rfl
    | .many [] => rfl
    | .many (first :: second :: rest) =>
      have hlength := (forall₂_values hfault).length_eq
      have hmapM := mapM_value hfault
      dsimp only [Request.names] at hlength hmapM ⊢
      rw [hmapM, ok_bind]
      match hvs : r.values b (first :: second :: rest) with
      | [v] =>
        -- as many values as names: more than one
        rw [hvs] at hlength
        exact absurd hlength (by simp)
      | [] | v :: w :: vs => rfl

/-! ## 6. Outcomes of several names -/

section Outcomes

variable {r : Registry} {b : Bindings Value} {names : List String} {values : List Value}
  {options : BatchOptions} {o : Outcome Value}

/-- The values of several names are combined if that is wanted. -/
theorem compute_of_evaluate (hseveral : 2 ≤ values.length)
    (h : r.evaluate options.mode names b = .ok values) (haggregate : options.aggregate = true) :
    r.compute (.many names) b options =
      (unify values names options.axis).map .single := by
  unfold compute
  dsimp only [Request.names]
  rw [h, ok_bind]
  match values, hseveral with
  | v :: w :: rest, _ =>
    dsimp only
    rw [if_pos haggregate]
    rfl

/-- They are listed otherwise. -/
theorem compute_eq_list (hseveral : 2 ≤ values.length)
    (h : r.evaluate options.mode names b = .ok values) (haggregate : options.aggregate = false) :
    r.compute (.many names) b options = .ok (.list values) := by
  unfold compute
  dsimp only [Request.names]
  rw [h, ok_bind]
  match values, hseveral with
  | v :: w :: rest, _ =>
    dsimp only
    rw [if_neg (by simp [haggregate])]
    rfl

/-- A batch that has an outcome has a value for every name. -/
theorem evaluate_of_compute (h : r.compute (.many names) b options = .ok o) :
    r.evaluate options.mode names b = .ok (r.values b names) ∧
      List.Forall₂ (fun name v => r.value b name = .ok v) names (r.values b names) := by
  have hevaluate := evaluate_eq r options.mode names b
  cases hfault : r.fault? b names with
  | some e =>
    rw [hfault, unlessRefused_some] at hevaluate
    unfold compute at h
    dsimp only [Request.names] at h
    rw [hevaluate] at h
    exact nomatch h
  | none =>
    rw [hfault, unlessRefused_none] at hevaluate
    exact ⟨hevaluate, forall₂_values hfault⟩

end Outcomes

end Registry

end BandMath
