/-
# Which catalogues are loaded

An entry of a catalogue is a record under a key.  It has to meet four conditions: its formula can be
read; the symbols of the formula are among those that it lists; its name is the key; and the symbols
that it lists are bands or constants.  `Consistent` says that it meets them all, and `Breaks` which
one is the first that it does not meet.  None of them is about another entry, and taking an entry in
does not change the bands and the constants; so whether an entry is taken in
(`insertRecord_of_consistent`) or refused, and for what (`insertRecord_of_breaks`), does not depend
on the entries before it, as long as none of those is refused (`foldlM_insertRecord_eq_error_iff`).

Entries are taken in by the order of their keys.  The order in which a document lists them is gone
by then, so it changes neither the registry nor the error (`ofCatalogue_entries`).
-/
import BandMath.Proofs.Formula.Symbols
import BandMath.Proofs.Registry.WellFormed
import BandMath.Proofs.Text.Bytes

namespace BandMath

/-! ## 1. Entries -/

/-- The definition is what the record says. -/
structure IndexRecord.Gives (record : IndexRecord) (d : IndexDefinition) : Prop where
  name : d.name = record.name
  formula : Formula.ofText record.formula = .ok d.formula
  required : d.required = record.symbols
  metadata : d.metadata = record.metadata

theorem IndexRecord.Gives.unique {record : IndexRecord} {d d' : IndexDefinition}
    (h : record.Gives d) (h' : record.Gives d') : d = d' := by
  obtain ⟨name, f, required, metadata⟩ := d
  obtain ⟨name', f', required', metadata'⟩ := d'
  obtain ⟨rfl, hf, rfl, rfl⟩ := h
  obtain ⟨rfl, hf', rfl, rfl⟩ := h'
  have hsame : f = f' := Except.ok.inj (hf.symm.trans hf')
  rw [hsame]

namespace Registry

/-- The entry meets all conditions, given which symbols are known. -/
structure Consistent (known : String → Prop) (key : String) (record : IndexRecord) : Prop where
  formula : ∃ f, Formula.ofText record.formula = .ok f ∧ ∀ s ∈ f.symbols, s ∈ record.symbols
  name : record.name = key
  symbols : ∀ s ∈ record.symbols, known s

/-- The first condition that an entry does not meet, and the first symbol for which it does not. -/
inductive Breaks (known : String → Prop) (key : String) (record : IndexRecord) :
    RegistryFault → Prop
  | malformedFormula {fault : Formula.Fault} (h : Formula.ofText record.formula = .error fault) :
      Breaks known key record (.malformedFormula record.name record.formula fault)
  | unlistedSymbol {f : Formula} {before after : List String} {s : String}
      (hf : Formula.ofText record.formula = .ok f) (hsymbols : f.symbols = before ++ s :: after)
      (hbefore : ∀ t ∈ before, t ∈ record.symbols) (hs : s ∉ record.symbols) :
      Breaks known key record (.unlistedSymbol record.name s record.symbols)
  | misnamedEntry {f : Formula} (hf : Formula.ofText record.formula = .ok f)
      (hlisted : ∀ s ∈ f.symbols, s ∈ record.symbols) (hname : record.name ≠ key) :
      Breaks known key record (.misnamedEntry key record.name)
  | unknownSymbol {f : Formula} {before after : List String} {s : String}
      (hf : Formula.ofText record.formula = .ok f)
      (hlisted : ∀ s ∈ f.symbols, s ∈ record.symbols) (hname : record.name = key)
      (hsymbols : record.symbols = before ++ s :: after) (hbefore : ∀ t ∈ before, known t)
      (hs : ¬ known s) :
      Breaks known key record (.unknownSymbol record.name s)

section Entries

variable {known : String → Prop} {key : String} {record : IndexRecord}

/-- An entry meets all conditions, or there is a first that it does not. -/
theorem consistent_or_breaks (known : String → Prop) (key : String) (record : IndexRecord) :
    Consistent known key record ∨ ∃ fault, Breaks known key record fault := by
  classical
  cases hf : Formula.ofText record.formula with
  | error fault => exact .inr ⟨_, .malformedFormula hf⟩
  | ok f =>
    cases hlisted : f.symbols.find? (· ∉ record.symbols) with
    | some s =>
      obtain ⟨hs, before, after, hsymbols, hbefore⟩ := List.find?_eq_some_iff_append.mp hlisted
      exact .inr ⟨_, .unlistedSymbol hf hsymbols (by simpa using hbefore) (by simpa using hs)⟩
    | none =>
      replace hlisted : ∀ s ∈ f.symbols, s ∈ record.symbols := by simpa using hlisted
      by_cases hname : record.name = key
      · cases hknown : record.symbols.find? (¬ known ·) with
        | some s =>
          obtain ⟨hs, before, after, hsymbols, hbefore⟩ := List.find?_eq_some_iff_append.mp hknown
          exact .inr ⟨_, .unknownSymbol hf hlisted hname hsymbols (by simpa using hbefore)
            (by simpa using hs)⟩
        | none => exact .inl ⟨⟨f, hf, hlisted⟩, hname, by simpa using hknown⟩
      · exact .inr ⟨_, .misnamedEntry hf hlisted hname⟩

theorem Breaks.not_consistent {fault : RegistryFault} (h : Breaks known key record fault) :
    ¬ Consistent known key record := by
  rintro ⟨⟨f', hf', hlisted'⟩, hname', hknown'⟩
  cases h with
  | malformedFormula h => exact nomatch h.symm.trans hf'
  | unlistedSymbol hf hsymbols _ hs =>
    obtain rfl := Except.ok.inj (hf.symm.trans hf')
    exact hs (hlisted' _ (by simp [hsymbols]))
  | misnamedEntry _ _ hname => exact hname hname'
  | unknownSymbol _ _ _ hsymbols _ hs => exact hs (hknown' _ (by simp [hsymbols]))

end Entries

/-! ## 2. One entry -/

variable {r r' : Registry} {key : String} {record : IndexRecord} {fault : RegistryFault} {e : Error}

/-- The symbol is that of a band or of a constant. -/
def Known (bands : Std.ExtTreeMap String Band) (constants : Std.ExtTreeMap String Constant)
    (s : String) : Prop :=
  s ∈ bands ∨ s ∈ constants

theorem isKnown_iff {s : String} : r.isKnown s = true ↔ Known r.bands r.constants s := by
  simp [isKnown, Known]

theorem ofRecord_of_listed {f : Formula} (hf : Formula.ofText record.formula = .ok f)
    (hlisted : ∀ s ∈ f.symbols, s ∈ record.symbols) : IndexDefinition.ofRecord record =
      .ok ⟨record.name, f, record.symbols, record.metadata⟩ := by
  have hfind : f.symbols.find? (· ∉ record.symbols) = none := by simpa using hlisted
  rw [IndexDefinition.ofRecord, IndexDefinition.ofFormula_of_ofText hf, hfind]
  rfl

/-- A consistent entry is taken in, as what it says. -/
theorem insertRecord_of_consistent (h : Consistent (Known r.bands r.constants) key record) :
    ∃ d, record.Gives d ∧
      r.insertRecord key record = .ok { r with indices := r.indices.insert key d } := by
  obtain ⟨⟨f, hf, hlisted⟩, rfl, hknown⟩ := h
  refine ⟨⟨record.name, f, record.symbols, record.metadata⟩, ⟨rfl, hf, rfl, rfl⟩, ?_⟩
  rw [insertRecord, ofRecord_of_listed hf hlisted]
  dsimp only [Except.mapError, ok_bind]
  rw [if_neg (not_not.mpr rfl), insert_of_known fun s hs => isKnown_iff.mpr (hknown s hs)]
  rfl

/-- Any other entry is refused for the first condition that it does not meet. -/
theorem insertRecord_of_breaks (h : Breaks (Known r.bands r.constants) key record fault) :
    r.insertRecord key record = .error (.invalidRegistry fault) := by
  cases h with
  | malformedFormula h =>
    rw [insertRecord, IndexDefinition.ofRecord, IndexDefinition.ofFormula, h]
    rfl
  | @unlistedSymbol f before after s hf hsymbols hbefore hs =>
    have hfind : f.symbols.find? (· ∉ record.symbols) = some s :=
      List.find?_eq_some_iff_append.mpr ⟨by simpa using hs, before, after, hsymbols,
        by simpa using hbefore⟩
    rw [insertRecord, IndexDefinition.ofRecord, IndexDefinition.ofFormula_of_ofText hf, hfind]
    rfl
  | misnamedEntry hf hlisted hname =>
    rw [insertRecord, ofRecord_of_listed hf hlisted]
    dsimp only [Except.mapError, ok_bind]
    rw [if_pos hname]
    rfl
  | @unknownSymbol f before after s hf hlisted hname hsymbols hbefore hs =>
    have hfind : record.symbols.find? (fun s => !r.isKnown s) = some s :=
      List.find?_eq_some_iff_append.mpr ⟨by simpa [← isKnown_iff] using hs, before, after, hsymbols,
        by simpa [isKnown_iff] using hbefore⟩
    rw [insertRecord, ofRecord_of_listed hf hlisted]
    dsimp only [Except.mapError, ok_bind]
    rw [if_neg (not_not.mpr hname), insert]
    dsimp only
    rw [hfind]
    rfl

theorem insertRecord_eq_ok_iff : r.insertRecord key record = .ok r' ↔
    Consistent (Known r.bands r.constants) key record ∧
      ∃ d, record.Gives d ∧ r' = { r with indices := r.indices.insert key d } := by
  constructor
  · intro h
    rcases consistent_or_breaks (Known r.bands r.constants) key record with
      hconsistent | ⟨fault, hbreaks⟩
    · obtain ⟨d, hd, hr'⟩ := insertRecord_of_consistent hconsistent
      exact ⟨hconsistent, d, hd, Except.ok.inj (h.symm.trans hr')⟩
    · exact nomatch h.symm.trans (insertRecord_of_breaks hbreaks)
  · rintro ⟨hconsistent, d, hd, rfl⟩
    obtain ⟨d', hd', hr'⟩ := insertRecord_of_consistent hconsistent
    rw [hr', hd.unique hd']

/-! ## 3. Entries one by one -/

variable {entries : List (String × IndexRecord)}

/-- The error is that of the first entry that is not consistent. -/
inductive FirstRefused (known : String → Prop) : List (String × IndexRecord) → Error → Prop
  | here {key : String} {record : IndexRecord} {entries : List (String × IndexRecord)}
      {fault : RegistryFault} (h : Breaks known key record fault) :
      FirstRefused known ((key, record) :: entries) (.invalidRegistry fault)
  | later {key : String} {record : IndexRecord} {entries : List (String × IndexRecord)} {e : Error}
      (hconsistent : Consistent known key record) (h : FirstRefused known entries e) :
      FirstRefused known ((key, record) :: entries) e

/-- If the keys are in increasing order, that entry has the least key of all that are not
consistent. -/
theorem firstRefused_iff_of_pairwise {known : String → Prop} :
    ∀ {entries : List (String × IndexRecord)}, entries.Pairwise (fun x y => x.1 < y.1) →
    (FirstRefused known entries e ↔ ∃ key record fault, e = .invalidRegistry fault ∧
      (key, record) ∈ entries ∧ Breaks known key record fault ∧
      ∀ x ∈ entries, x.1 < key → Consistent known x.1 x.2)
  | [], _ => ⟨nofun, fun ⟨_, _, _, _, hmem, _⟩ => absurd hmem List.not_mem_nil⟩
  | (key, record) :: entries, h => by
    obtain ⟨hhead, htail⟩ := List.pairwise_cons.mp h
    have ih : FirstRefused known entries e ↔ _ := firstRefused_iff_of_pairwise htail
    constructor
    · intro h
      cases h with
      | @here _ _ _ fault hbreaks =>
        refine ⟨key, record, fault, rfl, List.mem_cons_self .., hbreaks, fun x hx hlt => ?_⟩
        rcases List.mem_cons.mp hx with rfl | hx
        · exact absurd hlt (lt_irrefl _)
        · exact absurd hlt (lt_asymm (hhead x hx))
      | later hconsistent h =>
        obtain ⟨key', record', fault, he, hmem, hbreaks, hbefore⟩ := ih.mp h
        refine ⟨key', record', fault, he, List.mem_cons_of_mem _ hmem, hbreaks, fun x hx hlt => ?_⟩
        rcases List.mem_cons.mp hx with rfl | hx
        · exact hconsistent
        · exact hbefore x hx hlt
    · rintro ⟨key', record', fault, rfl, hmem, hbreaks, hbefore⟩
      rcases List.mem_cons.mp hmem with heq | hmem
      · obtain ⟨rfl, rfl⟩ := Prod.mk.inj heq
        exact .here hbreaks
      · -- the first key is less than the one in question, so its entry is consistent
        have hconsistent := hbefore _ (List.mem_cons_self ..) (hhead _ hmem)
        exact .later hconsistent (ih.mpr ⟨key', record', fault, rfl, hmem, hbreaks,
          fun x hx => hbefore x (List.mem_cons_of_mem _ hx)⟩)

/-- `r'` has what the entries say beside what `r` has. -/
structure Extends (r : Registry) (entries : List (String × IndexRecord)) (r' : Registry) :
    Prop where
  bands : r'.bands = r.bands
  constants : r'.constants = r.constants
  indices : ∀ key d, r'.indices[key]? = some d ↔
    r.indices[key]? = some d ∨ ∃ record, (key, record) ∈ entries ∧ record.Gives d
  length : r'.definitions.length = r.definitions.length + entries.length

/-- One more entry, under a key of its own. -/
theorem Extends.cons {d : IndexDefinition} (hkey : key ∉ r.indices) (hd : record.Gives d)
    (h : Extends { r with indices := r.indices.insert key d } entries r') :
    r.Extends ((key, record) :: entries) r' where
  bands := h.bands
  constants := h.constants
  indices key' d' := by
    rw [h.indices, Bindings.getElem?_insert]
    by_cases hsame : key' = key
    · subst hsame
      -- `r` has nothing under this key, so what stands there is what the record says
      have hnone : r.indices[key']? = none := by simpa using hkey
      have hhere : record.Gives d' ↔ d = d' :=
        ⟨hd.unique, fun hdd' => hdd' ▸ hd⟩
      simp [hnone, or_and_right, exists_or, hhere]
    · simp [hsame]
  length := by
    rw [h.length, List.length_cons, definitions, definitions, Bindings.length_values,
      Bindings.length_values, Std.ExtTreeMap.size_insert, if_neg (by simpa using hkey)]
    omega

/-- **Entries that are all taken in are consistent, and the registry has what they say.** -/
theorem foldlM_insertRecord_eq_ok : ∀ {entries : List (String × IndexRecord)} {r : Registry},
    (entries.map Prod.fst).Nodup → (∀ x ∈ entries, x.1 ∉ r.indices) →
    entries.foldlM (fun r (key, record) => r.insertRecord key record) r = .ok r' →
    (∀ x ∈ entries, Consistent (Known r.bands r.constants) x.1 x.2) ∧ r.Extends entries r'
  | [], r, _, _, h => by
    obtain rfl := Except.ok.inj h
    exact ⟨fun x hx => absurd hx List.not_mem_nil, rfl, rfl, by simp, rfl⟩
  | (key, record) :: entries, r, hnodup, hnew, h => by
    rw [List.foldlM_cons] at h
    obtain ⟨r₁, h₁, h⟩ := bind_eq_ok_iff.mp h
    obtain ⟨hconsistent, d, hd, rfl⟩ := insertRecord_eq_ok_iff.mp h₁
    obtain ⟨hkey, hnodup⟩ := List.nodup_cons.mp hnodup
    -- the key just taken in is not one of those that are still to come
    have hnew₁ : ∀ x ∈ entries, x.1 ∉ r.indices.insert key d := by
      intro x hx
      have hne : key ≠ x.1 := fun heq => hkey (List.mem_map.mpr ⟨x, hx, heq.symm⟩)
      simpa [Std.ExtTreeMap.mem_insert, hne] using hnew x (List.mem_cons_of_mem _ hx)
    obtain ⟨hall, hextends⟩ := foldlM_insertRecord_eq_ok hnodup hnew₁ h
    exact ⟨List.forall_mem_cons.mpr ⟨hconsistent, hall⟩,
      hextends.cons (hnew (key, record) (List.mem_cons_self ..)) hd⟩

/-- **The first entry that is not consistent decides.**  What is taken in before it leaves the bands
and the constants as they are. -/
theorem foldlM_insertRecord_eq_error_iff : ∀ {entries : List (String × IndexRecord)} {r : Registry},
    entries.foldlM (fun r (key, record) => r.insertRecord key record) r = .error e ↔
      FirstRefused (Known r.bands r.constants) entries e
  | [], r => ⟨nofun, nofun⟩
  | (key, record) :: entries, r => by
    rw [List.foldlM_cons]
    dsimp only
    rcases consistent_or_breaks (Known r.bands r.constants) key record with
      hconsistent | ⟨fault, hbreaks⟩
    · obtain ⟨d, -, h₁⟩ := insertRecord_of_consistent hconsistent
      rw [h₁, ok_bind, foldlM_insertRecord_eq_error_iff]
      constructor
      · exact .later hconsistent
      · intro h
        cases h with
        | here hbreaks => exact absurd hconsistent hbreaks.not_consistent
        | later _ h => exact h
    · have h₁ := insertRecord_of_breaks hbreaks
      rw [h₁, error_bind]
      constructor
      · intro h
        rw [← Except.error.inj h]
        exact .here hbreaks
      · intro h
        cases h with
        | here hbreaks' => rw [← Except.error.inj (h₁.symm.trans (insertRecord_of_breaks hbreaks'))]
        | later hconsistent _ => exact absurd hconsistent hbreaks.not_consistent

/-! ## 4. Catalogues -/

section Catalogues

variable {bands : Std.ExtTreeMap String Band} {constants : Std.ExtTreeMap String Constant}

theorem ofCatalogue_eq_ok (hkeys : (entries.map Prod.fst).Nodup)
    (h : ofCatalogue ⟨bands, constants, .ofList entries⟩ = .ok r) :
    (∀ x ∈ entries, Consistent (Known bands constants) x.1 x.2) ∧
      r.bands = bands ∧ r.constants = constants ∧ r.definitions.length = entries.length ∧
      ∀ key d, r.indices[key]? = some d ↔ ∃ record, (key, record) ∈ entries ∧ record.Gives d := by
  have hperm := Bindings.toList_ofList_perm hkeys
  rw [ofCatalogue_eq, blank] at h
  obtain ⟨hconsistent, hextends⟩ := foldlM_insertRecord_eq_ok
    ((hperm.map Prod.fst).nodup_iff.mpr hkeys) (fun x _ => by simp) h
  refine ⟨fun x hx => hconsistent x (hperm.mem_iff.mpr hx), hextends.bands,
    hextends.constants, ?_, fun key d => ?_⟩
  · rw [hextends.length, hperm.length_eq, definitions, Bindings.length_values]
    exact Nat.zero_add _
  · rw [hextends.indices]
    simp [hperm.mem_iff]

theorem ofCatalogue_eq_error_iff (hkeys : (entries.map Prod.fst).Nodup) :
    ofCatalogue ⟨bands, constants, .ofList entries⟩ = .error e ↔
      ∃ key record fault, e = .invalidRegistry fault ∧ (key, record) ∈ entries ∧
        Breaks (Known bands constants) key record fault ∧
        ∀ x ∈ entries, Text.bytes x.1 < Text.bytes key →
          Consistent (Known bands constants) x.1 x.2 := by
  rw [ofCatalogue_eq, blank]
  refine foldlM_insertRecord_eq_error_iff.trans ?_
  rw [firstRefused_iff_of_pairwise (Bindings.pairwise_toList _)]
  simp only [(Bindings.toList_ofList_perm hkeys).mem_iff, Text.bytes_lt_bytes_iff]

/-- **A catalogue is loaded iff all its entries are consistent.**  The registry then has one
definition for each entry, which is what its record says.  Otherwise, of all entries that are not
consistent, the one with the byte-wise least key is reported, for the first condition that it does
not meet.  The order in which the entries are listed makes no difference. -/
theorem ofCatalogue_entries (bands : Std.ExtTreeMap String Band)
    (constants : Std.ExtTreeMap String Constant) (entries : List (String × IndexRecord))
    (hkeys : (entries.map Prod.fst).Nodup) :
    ((∃ r, ofCatalogue ⟨bands, constants, .ofList entries⟩ = .ok r) ↔
      ∀ x ∈ entries, Consistent (Known bands constants) x.1 x.2) ∧
    (∀ r, ofCatalogue ⟨bands, constants, .ofList entries⟩ = .ok r →
      r.bands = bands ∧ r.constants = constants ∧ r.definitions.length = entries.length ∧
      ∀ key d, r.indices[key]? = some d ↔ ∃ record, (key, record) ∈ entries ∧ record.Gives d) ∧
    (∀ e, ofCatalogue ⟨bands, constants, .ofList entries⟩ = .error e ↔
      ∃ key record fault, e = .invalidRegistry fault ∧ (key, record) ∈ entries ∧
        Breaks (Known bands constants) key record fault ∧
        ∀ x ∈ entries, Text.bytes x.1 < Text.bytes key →
          Consistent (Known bands constants) x.1 x.2) ∧
    ∀ entries', entries.Perm entries' →
      ofCatalogue ⟨bands, constants, .ofList entries'⟩ =
        ofCatalogue ⟨bands, constants, .ofList entries⟩ := by
  refine ⟨⟨?_, fun hall => ?_⟩, fun r h => (ofCatalogue_eq_ok hkeys h).2,
    fun e => ofCatalogue_eq_error_iff hkeys, fun entries' hperm => ?_⟩
  · rintro ⟨r, h⟩
    exact (ofCatalogue_eq_ok hkeys h).1
  · cases h : ofCatalogue ⟨bands, constants, .ofList entries⟩ with
    | ok r => exact ⟨r, rfl⟩
    | error e =>
      obtain ⟨key, record, fault, -, hmem, hbreaks, -⟩ := (ofCatalogue_eq_error_iff hkeys).mp h
      exact absurd (hall _ hmem) hbreaks.not_consistent
  · rw [Bindings.ofList_eq_of_perm hkeys hperm]

/-- Two entries that break two conditions each, listed before a consistent one. -/
theorem ofCatalogue_entries_unsorted :
    let gain : Constant := { symbol := "g", description := "gain" }
    let constants : Std.ExtTreeMap String Constant := .ofList [("g", gain)]
    let entries : List (String × IndexRecord) :=
      [("C", ⟨"C", "g+", ["q"], {}⟩), ("B", ⟨"X", "g+h", ["g"], {}⟩),
        ("A", ⟨"A", "g*g", ["g"], {}⟩)]
    (entries.map Prod.fst).Nodup ∧
      ofCatalogue ⟨∅, constants, .ofList entries⟩ =
        .error (.invalidRegistry (.unlistedSymbol "X" "h" ["g"])) := by
  intro gain constants entries
  have hkeys : (entries.map Prod.fst).Nodup := by decide
  have hA : Formula.ofText "g*g" = .ok ⟨"g*g", .binary .multiply (.symbol "g") (.symbol "g")⟩ := by
    decide +kernel
  have hB : Formula.ofText "g+h" = .ok ⟨"g+h", .binary .add (.symbol "g") (.symbol "h")⟩ := by
    decide +kernel
  have hconsistent : Consistent (Known ∅ constants) "A" ⟨"A", "g*g", ["g"], {}⟩ :=
    ⟨⟨_, hA, by decide⟩, rfl, by simp [Known, constants]⟩
  have hsymbols : Formula.symbols ⟨"g+h", .binary .add (.symbol "g") (.symbol "h")⟩ =
      ["g"] ++ "h" :: [] := rfl
  have hbreaks : Breaks (Known ∅ constants) "B" ⟨"X", "g+h", ["g"], {}⟩
      (.unlistedSymbol "X" "h" ["g"]) := .unlistedSymbol hB hsymbols (by decide) (by decide)
  refine ⟨hkeys, ((ofCatalogue_entries ∅ constants entries hkeys).2.2.1 _).mpr
    ⟨"B", _, _, rfl, by simp [entries], hbreaks, fun x hx hlt => ?_⟩⟩
  simp only [entries, List.mem_cons, List.not_mem_nil, or_false] at hx
  rcases hx with rfl | rfl | rfl
  · exact absurd hlt (by decide)
  · exact absurd hlt (by decide)
  · exact hconsistent

end Catalogues

end Registry

end BandMath
