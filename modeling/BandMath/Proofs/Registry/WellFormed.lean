/-
# What a registry can be relied upon for

Three checks are made in three places.  Making a definition reads its formula and compares the
symbols of it with the listed ones; loading a catalogue compares the name of a definition with its
key; and inserting looks the listed symbols up.  None of them is made again later.  Together they
give what every registry keeps: a definition stands under its own name, it is sound in itself, and
the registry knows the symbols that it requires (`Registry.WellFormed`).

The formulas of the kernels are read once, before the first definition is taken in, and they are
what the texts of the kernels are read as (`Registry.KernelsRead`).  Looking the formula of a kernel
up in a registry is by position, so that it is the formula of that kernel takes an argument
(`KernelsRead.kernel_eq`).

All of this is about one operation on registries, and all that it can do is said once
(`insert_cases`): a definition is refused for a symbol that it requires, and the registry is as it
was, or the definition takes the place of what stood under its name, and nothing else has changed
(`Replaces`).  A registry without definitions is well-formed, and so is one that a sound definition
was inserted into (`WellFormed.insert`).  Loading a catalogue is a sequence of such insertions
(`Loaded.wellFormed`), and what comes later is another, in which some may be refused
(`WellFormed.offers`).
-/
import BandMath.Proofs.Bindings
import BandMath.Proofs.Formula.Normalization
import BandMath.Registry

namespace BandMath

/-! ## 1. Kernels -/

namespace Kernel

/-- The formula of a kernel is what its text is read as. -/
theorem parse_source (k : Kernel) : Formula.parse k.source = .ok k.formula := by
  have hsource := k.ofText_sources.1
  unfold Formula.parse
  cases hf : Formula.ofText k.source with
  | error fault =>
    rw [hf] at hsource
    exact nomatch hsource
  | ok f =>
    rw [hf] at hsource
    rw [Option.some.inj hsource]
    rfl

/-- Every kernel can be read, so no registry fails to load for one. -/
theorem readAll_eq : readAll = .ok (all.map formula) := by
  rw [readAll, funext parse_source]
  exact Vector.mapM_pure formula

end Kernel

/-- The formulas that the registry keeps are those that the kernels are read as. -/
def Registry.KernelsRead (r : Registry) : Prop :=
  Kernel.readAll = .ok r.kernels

/-- **The formula that is found for a kernel is that of its text.** -/
theorem Registry.KernelsRead.kernel_eq {r : Registry} (h : r.KernelsRead) (k : Kernel) :
    r.kernel k = k.formula := by
  have hkernels : Kernel.all.map Kernel.formula = r.kernels :=
    Except.ok.inj (Kernel.readAll_eq.symm.trans h)
  calc r.kernel k = (Kernel.all.map Kernel.formula).get k.position := by rw [kernel, hkernels]
    _ = (Kernel.all.get k.position).formula :=
      Vector.getElem_map Kernel.formula k.position.isLt
    _ = k.formula := congrArg Kernel.formula k.get_all

/-! ## 2. Definitions -/

namespace IndexDefinition

/-- The definitions that can be made. -/
inductive Made : IndexDefinition → Prop
  | ofFormula {name formula : String} {required : List String} {d : IndexDefinition}
      (h : ofFormula name formula required = .ok d) : Made d
  | ofRecord {record : IndexRecord} {d : IndexDefinition} (h : ofRecord record = .ok d) : Made d

/-- The symbols of the formula are required, and the text of the formula, which has no blanks, is
read as the formula, whose tree is not too deep. -/
structure Sound (d : IndexDefinition) : Prop where
  symbols : ∀ s ∈ d.formula.symbols, s ∈ d.required
  text : ∀ c ∈ d.formula.text.toList, Text.isBlank c = false
  parse : Formula.parse d.formula.text = .ok d.formula
  depth : d.formula.expr.depth ≤ 256

variable {d : IndexDefinition}

theorem sound_of_ofFormula {name formula : String} {required : List String}
    (h : IndexDefinition.ofFormula name formula required = .ok d) : d.Sound := by
  unfold IndexDefinition.ofFormula at h
  split at h
  · exact nomatch h
  · rename_i f hf
    split at h
    · exact nomatch h
    · rename_i hsymbols
      obtain rfl := Except.ok.inj h
      have hparse : Formula.parse formula = .ok f := by
        rw [Formula.parse, hf]
        rfl
      obtain ⟨ls, -, hread, -⟩ := Formula.expr_of_parse hparse
      refine ⟨fun s hs => ?_, Formula.isBlank_of_mem_text hparse, Formula.parse_text_self hparse,
        (Formula.formed_of_ofLexemes hread).depth_le⟩
      have hlisted := List.find?_eq_none.mp hsymbols s hs
      simpa using hlisted

/-- **A definition that can be made is sound.** -/
theorem Made.sound (h : d.Made) : d.Sound := by
  cases h with
  | ofFormula h => exact sound_of_ofFormula h
  | ofRecord h =>
    -- the record only adds data that the formula does not depend on
    obtain ⟨e, he, hd⟩ := bind_eq_ok_iff.mp h
    obtain rfl := Except.ok.inj hd
    have hsound := sound_of_ofFormula he
    exact ⟨hsound.symbols, hsound.text, hsound.parse, hsound.depth⟩

end IndexDefinition

namespace Registry

variable {r r' : Registry} {d : IndexDefinition} {key : String}

/-! ## 3. One insertion -/

/-- **All that an insertion can do**: refuse the definition for a symbol that it requires, and leave
the registry as it is; or put the definition under its name. -/
theorem insert_cases (r : Registry) (d : IndexDefinition) :
    (∃ s ∈ d.required, r.isKnown s = false ∧
      r.insert d = (.error (.invalidRegistry (.unknownSymbol d.name s)), r)) ∨
    (∀ s ∈ d.required, r.isKnown s = true) ∧
      r.insert d = (.ok (), { r with indices := r.indices.insert d.name d }) := by
  unfold Registry.insert
  cases hfind : d.required.find? fun s => !r.isKnown s with
  | some s =>
    have hunknown : r.isKnown s = false := by simpa using List.find?_some hfind
    exact .inl ⟨s, List.mem_of_find?_eq_some hfind, hunknown, rfl⟩
  | none =>
    have hknown : ∀ s ∈ d.required, r.isKnown s = true := by simpa using hfind
    exact .inr ⟨hknown, rfl⟩

/-- A definition is taken in when the registry knows the symbols that it requires. -/
theorem insert_eq_ok_iff : (r.insert d).1 = .ok () ↔ ∀ s ∈ d.required, r.isKnown s = true := by
  rcases r.insert_cases d with ⟨s, hs, hunknown, h⟩ | ⟨hknown, h⟩
  · simp only [h, reduceCtorEq, false_iff, not_forall]
    exact ⟨s, hs, by simp [hunknown]⟩
  · simpa only [h, true_iff] using hknown

theorem insert_of_known (hknown : ∀ s ∈ d.required, r.isKnown s = true) :
    r.insert d = (.ok (), { r with indices := r.indices.insert d.name d }) := by
  rcases r.insert_cases d with ⟨s, hs, hunknown, -⟩ | ⟨-, hinsert⟩
  · rw [hknown s hs] at hunknown
    exact nomatch hunknown
  · exact hinsert

/-- **A definition that is refused leaves the registry as it was.** -/
theorem insert_of_error {e : Error} (h : (r.insert d).1 = .error e) : (r.insert d).2 = r := by
  rcases r.insert_cases d with ⟨s, -, -, hinsert⟩ | ⟨-, hinsert⟩
  · rw [hinsert]
  · rw [hinsert] at h
    exact nomatch h

/-- `r'` has `d` in place of what `r` has under its name, and nothing else differs. -/
structure Replaces (r : Registry) (d : IndexDefinition) (r' : Registry) : Prop where
  bands : r'.bands = r.bands
  constants : r'.constants = r.constants
  kernels : r'.kernels = r.kernels
  indices : ∀ key, r'.indices[key]? = if key = d.name then some d else r.indices[key]?
  length : r'.definitions.length = r.definitions.length + if d.name ∈ r.indices then 0 else 1

/-- **A definition that is taken in replaces what stood under its name.** -/
theorem replaces_of_insert (h : (r.insert d).1 = .ok ()) : r.Replaces d (r.insert d).2 := by
  rw [insert_of_known (insert_eq_ok_iff.mp h)]
  refine ⟨rfl, rfl, rfl, fun key => Bindings.getElem?_insert r.indices d.name key d, ?_⟩
  rw [definitions, definitions, Bindings.length_values, Bindings.length_values,
    Std.ExtTreeMap.size_insert]
  simp only [Std.ExtTreeMap.contains_iff_mem]
  split <;> rfl

/-- **Refused or taken in, a definition changes nothing but what is kept by name.** -/
theorem insert_eq_with_indices (r : Registry) (d : IndexDefinition) :
    (r.insert d).2 = { r with indices := (r.insert d).2.indices } := by
  rcases r.insert_cases d with ⟨s, -, -, hinsert⟩ | ⟨-, hinsert⟩
  · rw [hinsert]
  · rw [hinsert]

theorem constants_insert (r : Registry) (d : IndexDefinition) :
    (r.insert d).2.constants = r.constants := by
  rw [insert_eq_with_indices]

theorem kernels_insert (r : Registry) (d : IndexDefinition) :
    (r.insert d).2.kernels = r.kernels := by
  rw [insert_eq_with_indices]

theorem isKnown_insert (r : Registry) (d : IndexDefinition) (s : String) :
    (r.insert d).2.isKnown s = r.isKnown s := by
  rw [insert_eq_with_indices]
  rfl

/-! ## 4. Well-formed registries -/

/-- What stands under `key` has that name, is sound, and requires known symbols only. -/
structure Holds (r : Registry) (key : String) (d : IndexDefinition) : Prop where
  name : d.name = key
  sound : d.Sound
  known : ∀ s ∈ d.required, r.isKnown s = true

/-- Every definition may stand where it does. -/
def WellFormed (r : Registry) : Prop :=
  ∀ (key : String) (d : IndexDefinition), r.indices[key]? = some d → r.Holds key d

/-- The definitions are listed in the order of their names, of which no two are the same. -/
theorem WellFormed.pairwise_names (h : r.WellFormed) :
    (r.definitions.map (·.name)).Pairwise (· < ·) := by
  rw [definitions, Bindings.map_values_eq_symbols fun key d hd => (h key d hd).name]
  exact Bindings.pairwise_symbols r.indices

/-- **Inserting a sound definition keeps a registry well-formed**, whether it is refused, replaces
another or is new. -/
theorem WellFormed.insert (hr : r.WellFormed) (hd : d.Sound) : (r.insert d).2.WellFormed := by
  rcases r.insert_cases d with ⟨s, -, -, hinsert⟩ | ⟨hknown, hinsert⟩
  · rw [hinsert]
    exact hr
  · have hsame := r.isKnown_insert d
    intro key e he
    rw [(replaces_of_insert (insert_eq_ok_iff.mpr hknown)).indices key] at he
    split at he
    · rename_i hkey
      obtain rfl := Option.some.inj he
      exact ⟨hkey.symm, hd, fun s hs => (hsame s).trans (hknown s hs)⟩
    · obtain ⟨hname, hsound, hsymbols⟩ := hr key e he
      exact ⟨hname, hsound, fun s hs => (hsame s).trans (hsymbols s hs)⟩

/-! ## 5. Loading -/

/-- An entry that is taken in is a definition that can be made, and is inserted. -/
theorem exists_insert_of_insertRecord {record : IndexRecord}
    (h : r.insertRecord key record = .ok r') :
    ∃ d : IndexDefinition, d.Made ∧ r.insert d = (.ok (), r') := by
  obtain ⟨d, hd, h⟩ := bind_eq_ok_iff.mp h
  refine ⟨d, .ofRecord (mapError_eq_ok_iff.mp hd), ?_⟩
  split at h
  · exact nomatch h
  · obtain ⟨_, hresult, h⟩ := bind_eq_ok_iff.mp h
    exact Prod.ext hresult (Except.ok.inj h)

/-- What is kept when one entry is taken in is kept when all are. -/
theorem foldlM_insertRecord_keeps {P : Registry → Prop}
    (hstep : ∀ r key record r', P r → r.insertRecord key record = .ok r' → P r') :
    ∀ {entries : List (String × IndexRecord)} {r : Registry}, P r →
      entries.foldlM (fun r (key, record) => r.insertRecord key record) r = .ok r' → P r'
  | [], r, hr, h => Except.ok.inj h ▸ hr
  | (key, record) :: entries, r, hr, h => by
    rw [List.foldlM_cons] at h
    obtain ⟨r₁, h₁, h⟩ := bind_eq_ok_iff.mp h
    exact foldlM_insertRecord_keeps hstep (hstep r key record r₁ hr h₁) h

/-- The registry that loading a catalogue starts from. -/
def blank (c : Catalogue) : Registry :=
  ⟨∅, c.bands, c.constants, Kernel.all.map Kernel.formula⟩

theorem ofCatalogue_eq (c : Catalogue) : ofCatalogue c =
    c.indices.toList.foldlM (fun r (key, record) => r.insertRecord key record) (blank c) := by
  rw [ofCatalogue, Kernel.readAll_eq, ok_bind, blank]

/-- **What loading starts from, and no insertion takes away, holds of what is loaded.** -/
theorem ofCatalogue_keeps {P : Registry → Prop} {c : Catalogue} (hblank : P (blank c))
    (hstep : ∀ (r : Registry) (d : IndexDefinition), d.Made → P r → P (r.insert d).2)
    (h : ofCatalogue c = .ok r) : P r := by
  rw [ofCatalogue_eq] at h
  refine foldlM_insertRecord_keeps (fun r₁ key record r₂ hr₁ h₁ => ?_) hblank h
  obtain ⟨d, hd, hinsert⟩ := exists_insert_of_insertRecord h₁
  have hr₂ := hstep r₁ d hd hr₁
  rwa [hinsert] at hr₂

theorem wellFormed_ofCatalogue {c : Catalogue} (h : ofCatalogue c = .ok r) : r.WellFormed := by
  refine ofCatalogue_keeps ?_ (fun r d hd hr => hr.insert hd.sound) h
  exact fun key d hd => nomatch hd

theorem kernelsRead_ofCatalogue {c : Catalogue} (h : ofCatalogue c = .ok r) : r.KernelsRead := by
  refine ofCatalogue_keeps Kernel.readAll_eq (fun r d _ hr => ?_) h
  rw [KernelsRead, kernels_insert]
  exact hr

/-- The registries that are loaded from documents or built in. -/
inductive Loaded : Registry → Prop
  | ofDocuments {indices bands constants : String} {r : Registry}
      (h : ofDocuments indices bands constants = .ok r) : Loaded r
  | ofIndexDocument {indices : String} {r : Registry} (h : ofIndexDocument indices = .ok r) :
      Loaded r
  | builtin {r : Registry} (h : builtin = .ok r) : Loaded r

theorem Loaded.exists_ofCatalogue (h : r.Loaded) : ∃ c, ofCatalogue c = .ok r := by
  cases h with
  | ofDocuments h =>
    obtain ⟨c, -, h⟩ := bind_eq_ok_iff.mp h
    exact ⟨c, h⟩
  | ofIndexDocument h =>
    obtain ⟨records, -, h⟩ := bind_eq_ok_iff.mp h
    exact ⟨_, h⟩
  | builtin h => exact ⟨_, h⟩

/-- **A registry that is loaded is well-formed.** -/
theorem Loaded.wellFormed (h : r.Loaded) : r.WellFormed := by
  obtain ⟨c, hc⟩ := h.exists_ofCatalogue
  exact wellFormed_ofCatalogue hc

/-- **A registry that is loaded has the formulas of the kernels.** -/
theorem Loaded.kernelsRead (h : r.Loaded) : r.KernelsRead := by
  obtain ⟨c, hc⟩ := h.exists_ofCatalogue
  exact kernelsRead_ofCatalogue hc

/-! ## 6. Any number of insertions -/

/-- The registry after a definition was offered to it, whatever came of that. -/
def offer (r : Registry) (d : IndexDefinition) : Registry :=
  (r.insert d).2

/-- The registry after definitions were offered to it one by one. -/
def offers (r : Registry) (ds : List IndexDefinition) : Registry :=
  ds.foldl offer r

theorem WellFormed.offers {ds : List IndexDefinition} (hr : r.WellFormed)
    (hds : ∀ d ∈ ds, d.Sound) : (r.offers ds).WellFormed :=
  List.foldlRecOn ds offer hr fun _ hr d hd => hr.insert (hds d hd)

/-- **The formulas of the kernels are never touched**, by whatever is offered. -/
theorem kernels_offers (r : Registry) (ds : List IndexDefinition) :
    (r.offers ds).kernels = r.kernels :=
  List.foldlRecOn ds offer (motive := fun r' => r'.kernels = r.kernels) rfl
    fun r' hr' d _ => (kernels_insert r' d).trans hr'

theorem KernelsRead.offers (hr : r.KernelsRead) (ds : List IndexDefinition) :
    (r.offers ds).KernelsRead := by
  rw [KernelsRead, kernels_offers]
  exact hr

/-- The registries that there are: loaded, and offered any definitions since. -/
inductive Grown : Registry → Prop
  | offers {r : Registry} {ds : List IndexDefinition} (hr : r.Loaded) (hds : ∀ d ∈ ds, d.Made) :
      Grown (r.offers ds)

theorem Loaded.grown (h : r.Loaded) : r.Grown := by
  have hnone : ∀ d ∈ ([] : List IndexDefinition), d.Made := fun _ hd => absurd hd List.not_mem_nil
  exact .offers h hnone

theorem Grown.wellFormed (h : r.Grown) : r.WellFormed := by
  cases h with
  | offers hr hds => exact hr.wellFormed.offers fun d hd => (hds d hd).sound

theorem Grown.kernelsRead (h : r.Grown) : r.KernelsRead := by
  cases h with
  | offers hr hds => exact hr.kernelsRead.offers _

/-- **A registry stays well-formed**, whatever is offered to it after it was loaded.  The names of
its definitions are in strictly increasing order.  The formulas of the kernels are as they were when
it was loaded, and each is found to be what the text of its kernel is read as.  A definition is
refused when it requires an unknown symbol, and then leaves everything as it was; one that is taken
in changes what stands under its name and nothing else. -/
theorem wellFormed_offers {ds : List IndexDefinition} (hr : r.Loaded) (hds : ∀ d ∈ ds, d.Made) :
    (r.offers ds).WellFormed ∧ ((r.offers ds).definitions.map (·.name)).Pairwise (· < ·) ∧
      (r.offers ds).kernels = r.kernels ∧
      (∀ k : Kernel, Formula.parse k.source = .ok ((r.offers ds).kernel k)) ∧
      ∀ d : IndexDefinition,
        (((r.offers ds).insert d).1 = .ok () ↔
          ∀ s ∈ d.required, (r.offers ds).isKnown s = true) ∧
        (∀ e, ((r.offers ds).insert d).1 = .error e →
          ((r.offers ds).insert d).2 = r.offers ds) ∧
        (((r.offers ds).insert d).1 = .ok () →
          (r.offers ds).Replaces d ((r.offers ds).insert d).2) := by
  have hwf := hr.wellFormed.offers fun d hd => (hds d hd).sound
  have hkernels := hr.kernelsRead.offers ds
  refine ⟨hwf, hwf.pairwise_names, kernels_offers r ds, fun k => ?_,
    fun d => ⟨insert_eq_ok_iff, fun e => insert_of_error, replaces_of_insert⟩⟩
  rw [hkernels.kernel_eq, Kernel.parse_source]

/-- A registry of one index that is offered three: one in its place, one that requires an unknown
symbol, and a new one. -/
theorem wellFormed_offers_three : ∃ (r : Registry) (ds : List IndexDefinition), r.Loaded ∧
    (∀ d ∈ ds, d.Made) ∧ r.definitions.map (fun d => d.formula.text) = ["N-R"] ∧
    (r.offers ds).definitions.map (fun d => d.formula.text) = ["N/R", "N*R"] ∧
    (r.offers ds).WellFormed ∧ (r.offers ds).kernels = r.kernels := by
  have h : (do
      let r ← ofDocuments
        "\x7b\"SpectralIndices\":\x7b\"A\":[\"A\",\"N - R\",[\"N\",\"R\"]]\x7d\x7d" "{}"
        "\x7b\"N\":[\"N\",\"\"],\"R\":[\"R\",\"\"]\x7d"
      let ds ← [("A", "N / R", ["N", "R"]), ("X", "N", ["N", "X"]), ("B", "N * R", ["N", "R"])].mapM
        fun (name, formula, required) =>
          (IndexDefinition.ofFormula name formula required).mapError Error.invalidRegistry
      return (r.definitions.map fun d => d.formula.text,
        (r.offers ds).definitions.map fun d => d.formula.text) :
        Except Error (List String × List String)) =
      .ok (["N-R"], ["N/R", "N*R"]) := by decide +kernel
  obtain ⟨r, hr, h⟩ := bind_eq_ok_iff.mp h
  obtain ⟨ds, hds, h⟩ := bind_eq_ok_iff.mp h
  obtain ⟨htext, htexts⟩ := Prod.mk.inj (Except.ok.inj h)
  have hmade : ∀ d ∈ ds, d.Made := forall_of_forall₂ (forall₂_of_mapM hds) fun _ _ _ hd =>
    .ofFormula (mapError_eq_ok_iff.mp hd)
  have hloaded : r.Loaded := .ofDocuments hr
  obtain ⟨hwf, -, hkernels, -⟩ := wellFormed_offers hloaded hmade
  exact ⟨r, ds, hloaded, hmade, htext, htexts, hwf, hkernels⟩

end Registry

end BandMath
