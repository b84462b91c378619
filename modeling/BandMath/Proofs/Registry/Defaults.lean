/-
# Where defaults go

Required symbols are looked up by the keys of a catalogue, but a default is bound to the symbol that
its record names.  So what is bound is the value that was there or else the default of the first
record of that symbol, in the order of the keys, that has one (`Registry.getElem?_fillDefaults`).

Where every constant stands under its own symbol, as all built-in ones do, that is the default of
the constant, and whatever an index still misses is a band or has no default
(`Registry.WellFormed.missing_of_constantsNamed`).  A loaded registry need not be so: a key that
differs from the name of an index is refused, but one that differs from the symbol of a constant is
not, and then the default does not reach the symbol that requires it
(`Registry.not_forall_default_reaches`).
-/
import BandMath.Proofs.Registry.WellFormed
import BandMath.Validation

namespace BandMath

variable {α : Type} [Operand α]

/-! ## 1. One constant -/

namespace Constant

variable {c : Constant} {s : String} {v : Float}

/-- The default that the record gives to a symbol. -/
def defaultFor? (c : Constant) (symbol : String) : Option Float :=
  if c.symbol = symbol then c.default else none

theorem defaultFor?_eq_some_iff : c.defaultFor? s = some v ↔ c.symbol = s ∧ c.default = some v := by
  unfold defaultFor?
  split
  · rename_i h
    simp [h]
  · rename_i h
    simp [h]

/-- Binds the symbol of the record to its default, if it has one and the symbol is not bound. -/
def bindDefault (b : Bindings α) (c : Constant) : Bindings α :=
  match c.default with
  | some v => b.insertIfNew c.symbol (Operand.constant v)
  | none => b

theorem getElem?_bindDefault (b : Bindings α) (c : Constant) (s : String) :
    (bindDefault b c)[s]? = b[s]?.or ((c.defaultFor? s).map Operand.constant) := by
  unfold bindDefault defaultFor?
  cases c.default with
  | none => simp
  | some v =>
    dsimp only
    rw [Std.ExtTreeMap.getElem?_insertIfNew]
    by_cases hs : c.symbol = s
    · subst hs
      by_cases hb : c.symbol ∈ b
      · simp [hb]
      · simp [hb]
    · simp [hs]

/-- What is bound after the defaults of several constants: the first of them counts. -/
theorem getElem?_foldl_bindDefault (s : String) : ∀ (cs : List Constant) (b : Bindings α),
    (cs.foldl bindDefault b)[s]? =
      b[s]?.or ((cs.findSome? (·.defaultFor? s)).map Operand.constant)
  | [], b => by simp
  | c :: cs, b => by
    rw [List.foldl_cons, getElem?_foldl_bindDefault s cs, getElem?_bindDefault, List.findSome?_cons,
      Option.or_assoc]
    cases c.defaultFor? s with
    | none => simp
    | some v => simp

end Constant

namespace Registry

variable {r : Registry} {b : Bindings α} {d : IndexDefinition} {c : Constant}
  {key name s : String} {v : Float}

/-! ## 2. All constants -/

/-- The default of a symbol: that of the first record of the symbol that has one. -/
def default? (r : Registry) (symbol : String) : Option Float :=
  r.constants.values.findSome? (·.defaultFor? symbol)

/-- **What is bound stays bound; what is not gets its default**, if it has one. -/
theorem getElem?_fillDefaults (r : Registry) (b : Bindings α) (s : String) :
    (r.fillDefaults b)[s]? = b[s]?.or ((r.default? s).map Operand.constant) :=
  Constant.getElem?_foldl_bindDefault s r.constants.values b

theorem exists_of_default?_eq_some (h : r.default? s = some v) :
    ∃ (key : String) (c : Constant),
      r.constants[key]? = some c ∧ c.symbol = s ∧ c.default = some v := by
  obtain ⟨c, hc, hv⟩ := List.exists_of_findSome?_eq_some h
  obtain ⟨key, hkey⟩ := Bindings.mem_values_iff.mp hc
  obtain ⟨hsymbol, hdefault⟩ := Constant.defaultFor?_eq_some_iff.mp hv
  exact ⟨key, c, hkey, hsymbol, hdefault⟩

/-- A symbol has no default if none of its records has one. -/
theorem default_eq_none_of_default? (h : r.default? s = none) (hc : r.constants[key]? = some c)
    (hs : c.symbol = s) : c.default = none := by
  have hnone := List.findSome?_eq_none_iff.mp h c (Bindings.mem_values_iff.mpr ⟨key, hc⟩)
  rwa [Constant.defaultFor?, if_pos hs] at hnone

/-! ## 3. Constants under their own symbols -/

/-- Every constant stands under its own symbol. -/
def ConstantsNamed (r : Registry) : Prop :=
  ∀ (key : String) (c : Constant), r.constants[key]? = some c → c.symbol = key

theorem ConstantsNamed.default?_eq (h : r.ConstantsNamed) (s : String) :
    r.default? s = r.constants[s]?.bind (·.default) := by
  cases hd : r.default? s with
  | some v =>
    obtain ⟨key, c, hc, rfl, hv⟩ := exists_of_default?_eq_some hd
    rw [h key c hc, hc, Option.bind_some, hv]
  | none =>
    cases hc : r.constants[s]? with
    | none => rfl
    | some c => exact (default_eq_none_of_default? hd hc (h s c hc)).symm

/-- **Under its own symbol, a constant's default is what its symbol is bound to**, unless the symbol
is bound already. -/
theorem ConstantsNamed.getElem?_fillDefaults (h : r.ConstantsNamed) (b : Bindings α) (s : String) :
    (r.fillDefaults b)[s]? =
      b[s]?.or ((r.constants[s]?.bind (·.default)).map Operand.constant) := by
  rw [Registry.getElem?_fillDefaults, h.default?_eq]

/-! ## 4. What is still missing -/

/-- A symbol that is missing nevertheless is a band, or a constant whose record has no default or
names another symbol. -/
theorem WellFormed.missing (hr : r.WellFormed) (hd : r.indices[name]? = some d)
    (hs : s ∈ missingSymbols d.required (r.fillDefaults b)) :
    s ∈ r.bands ∨ ∃ c, r.constants[s]? = some c ∧ (c.default = none ∨ c.symbol ≠ s) := by
  obtain ⟨hrequired, hmissing⟩ := List.mem_filter.mp hs
  have hnone : (r.fillDefaults b)[s]? = none :=
    Std.ExtTreeMap.getElem?_eq_none_of_contains_eq_false (by simpa using hmissing)
  rw [getElem?_fillDefaults, Option.or_eq_none_iff, Option.map_eq_none_iff] at hnone
  have hknown := (hr name d hd).known s hrequired
  rcases Bool.or_eq_true_iff.mp hknown with hband | hconstant
  · exact .inl (Std.ExtTreeMap.contains_iff_mem.mp hband)
  · have hmem := Std.ExtTreeMap.contains_iff_mem.mp hconstant
    have hc := Std.ExtTreeMap.getElem?_eq_some_getElem hmem
    refine .inr ⟨_, hc, ?_⟩
    by_cases hsymbol : r.constants[s].symbol = s
    · exact .inl (default_eq_none_of_default? hnone.2 hc hsymbol)
    · exact .inr hsymbol

/-- **Where constants stand under their own symbols, only bands and constants without a default are
missing.** -/
theorem WellFormed.missing_of_constantsNamed (hr : r.WellFormed) (hc : r.ConstantsNamed)
    (hd : r.indices[name]? = some d)
    (hs : s ∈ missingSymbols d.required (r.fillDefaults b)) :
    s ∈ r.bands ∨ ∃ c, r.constants[s]? = some c ∧ c.default = none := by
  rcases hr.missing hd hs with hband | ⟨c, hconstant, hdefault | hsymbol⟩
  · exact .inl hband
  · exact .inr ⟨c, hconstant, hdefault⟩
  · exact absurd (hc s c hconstant) hsymbol

/-! ## 5. Registries that are loaded -/

/-- Loading and inserting change no constant. -/
theorem constants_ofCatalogue {c : Catalogue} (h : ofCatalogue c = .ok r) :
    r.constants = c.constants :=
  ofCatalogue_keeps (P := fun r => r.constants = c.constants) rfl
    (fun r d _ hr => (constants_insert r d).trans hr) h

theorem constantsNamed_ofCatalogue {c : Catalogue} (h : ofCatalogue c = .ok r)
    (hc : c.constants = Catalogue.builtin.constants) : r.ConstantsNamed := by
  have hconstants : r.constants = Catalogue.builtin.constants :=
    (constants_ofCatalogue h).trans hc
  have hall : (Catalogue.builtin.constants.toList.all fun (key, c) => c.symbol = key) = true := by
    decide +kernel
  intro key constant hkey
  have hmem := Std.ExtTreeMap.mem_toList_iff_getElem?_eq_some.mpr (hconstants ▸ hkey)
  exact of_decide_eq_true (List.all_eq_true.mp hall _ hmem)

/-- **Every registry over the built-in constants has them under their own symbols.** -/
theorem constantsNamed_of_builtin_constants :
    (∀ r, builtin = .ok r → r.ConstantsNamed) ∧
      ∀ indices r, ofIndexDocument indices = .ok r → r.ConstantsNamed := by
  refine ⟨fun r h => constantsNamed_ofCatalogue h rfl, fun indices r h => ?_⟩
  obtain ⟨records, -, h⟩ := bind_eq_ok_iff.mp h
  exact constantsNamed_ofCatalogue h rfl

/-- It is not so that every constant with a default gets it: the record under `L` names `M`, and an
index that requires `L` misses it. -/
theorem not_forall_default_reaches : ¬ ∀ (r : Registry) (b : Bindings Float) (s : String)
    (c : Constant) (v : Float), r.Loaded → r.constants[s]? = some c → c.default = some v →
      (r.fillDefaults b)[s]? = some ((b[s]?).getD v) := by
  intro h
  have hloads : (do
      let r ← ofDocuments
        "\x7b\"SpectralIndices\":\x7b\"E\":[\"E\",\"L\",[\"L\"]]\x7d\x7d" "{}"
        "\x7b\"L\":[\"M\",\"\",1.0]\x7d"
      return ((r.constants["L"]?.bind (·.default)).isSome,
        (r.fillDefaults (∅ : Bindings Float)).contains "L") : Except Error (Bool × Bool)) =
      .ok (true, false) := by decide +kernel
  obtain ⟨r, hr, hloads⟩ := bind_eq_ok_iff.mp hloads
  obtain ⟨hdefault, hmissing⟩ := Prod.mk.inj (Except.ok.inj hloads)
  obtain ⟨v, hv⟩ := Option.isSome_iff_exists.mp hdefault
  obtain ⟨c, hc, hv⟩ := Option.bind_eq_some_iff.mp hv
  have hbound := h r ∅ "L" c v (.ofDocuments hr) hc hv
  rw [Std.ExtTreeMap.contains_eq_isSome_getElem?, hbound] at hmissing
  exact nomatch hmissing

end Registry

end BandMath
