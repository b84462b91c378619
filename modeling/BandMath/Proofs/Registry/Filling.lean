/-
# Filling in defaults is a union

Filling in runs through the constants in the order of their keys and asks each time what is bound by
then, so a default that was filled in keeps out the later ones of the same symbol.  What comes out
is a union in which the bindings win over the defaults, and among the defaults of one symbol the one
under the least key (`FirstDefault`).

So nothing changes when defaults are filled in again, and it is the same whether further symbols
are bound before it or after it.  That holds for symbols with a default as well: bound before, they
are not overwritten, and bound after, they overwrite (`fillDefaults_union`).

The way in which defaults are found (`Registry.default?`) is that of
`BandMath.Proofs.Registry.Defaults`; here it is described by what a caller sees: of the records that
name a symbol and have a default, the one under the least key counts.  Keys and symbols may differ,
so this is not the record that stands under the symbol.
-/
import BandMath.Proofs.Registry.Defaults

namespace BandMath.Registry

variable {α : Type} [Operand α] {r : Registry} {b : Bindings α} {s : String} {v : Float}

/-! ## 1. The default of a symbol -/

/-- The record under the key names the symbol, and has the default. -/
def GivesDefault (r : Registry) (key symbol : String) (v : Float) : Prop :=
  ∃ c, r.constants[key]? = some c ∧ c.symbol = symbol ∧ c.default = some v

/-- The default of the first record, in the order of the keys, that names the symbol and has one. -/
def FirstDefault (r : Registry) (symbol : String) (v : Float) : Prop :=
  ∃ key, r.GivesDefault key symbol v ∧ ∀ key' < key, ∀ v', ¬ r.GivesDefault key' symbol v'

theorem default?_eq_some_iff : r.default? s = some v ↔ r.FirstDefault s v := by
  rw [default?, Bindings.findSome?_values_eq_some_iff]
  constructor
  · rintro ⟨key, c, hc, hv, hfirst⟩
    obtain ⟨hsymbol, hdefault⟩ := Constant.defaultFor?_eq_some_iff.mp hv
    refine ⟨key, ⟨c, hc, hsymbol, hdefault⟩, ?_⟩
    rintro key' hlt v' ⟨c', hc', hsymbol', hdefault'⟩
    have hsome := Constant.defaultFor?_eq_some_iff.mpr ⟨hsymbol', hdefault'⟩
    rw [hfirst key' hlt c' hc'] at hsome
    exact nomatch hsome
  · rintro ⟨key, ⟨c, hc, hsymbol, hdefault⟩, hfirst⟩
    refine ⟨key, c, hc, Constant.defaultFor?_eq_some_iff.mpr ⟨hsymbol, hdefault⟩, ?_⟩
    intro key' hlt c' hc'
    rw [Option.eq_none_iff_forall_ne_some]
    intro v' hv'
    obtain ⟨hsymbol', hdefault'⟩ := Constant.defaultFor?_eq_some_iff.mp hv'
    exact hfirst key' hlt v' ⟨c', hc', hsymbol', hdefault'⟩

theorem default?_eq_none_iff : r.default? s = none ↔ ∀ key v, ¬ r.GivesDefault key s v := by
  constructor
  · rintro hnone key v ⟨c, hc, hsymbol, hdefault⟩
    rw [default_eq_none_of_default? hnone hc hsymbol] at hdefault
    exact nomatch hdefault
  · intro hnone
    rw [Option.eq_none_iff_forall_ne_some]
    intro v hv
    obtain ⟨key, hkey, -⟩ := default?_eq_some_iff.mp hv
    exact hnone key v hkey

/-! ## 2. What is bound -/

theorem getElem?_fillDefaults_of_bound {x : α} (h : b[s]? = some x) :
    (r.fillDefaults b)[s]? = some x := by
  rw [getElem?_fillDefaults, h, Option.some_or]

theorem getElem?_fillDefaults_of_unbound (h : b[s]? = none) :
    (r.fillDefaults b)[s]? = (r.default? s).map Operand.constant := by
  rw [getElem?_fillDefaults, h, Option.none_or]

/-! ## 3. Filling in twice, and with other symbols -/

/-- After the first time nothing is left to fill in. -/
theorem fillDefaults_fillDefaults (r : Registry) (b : Bindings α) :
    r.fillDefaults (r.fillDefaults b) = r.fillDefaults b := by
  refine Std.ExtTreeMap.ext_getElem? fun s => ?_
  rw [getElem?_fillDefaults, getElem?_fillDefaults, Option.or_assoc, Option.or_self]

/-- What is bound wins over the defaults, whether it is bound before or after them. -/
theorem fillDefaults_extend (r : Registry) (b : Bindings α) (pairs : List (String × α)) :
    r.fillDefaults (b.extend pairs) = (r.fillDefaults b).extend pairs := by
  refine Std.ExtTreeMap.ext_getElem? fun s => ?_
  rw [getElem?_fillDefaults, Bindings.getElem?_extend, Bindings.getElem?_extend,
    getElem?_fillDefaults, Option.or_assoc]

/-- The bindings are put over the defaults, which are what is filled into no bindings at all. -/
theorem fillDefaults_eq_extend (r : Registry) (b : Bindings α) :
    r.fillDefaults b = (r.fillDefaults ∅).extend b.toList := by
  have hb : (∅ : Bindings α).extend b.toList = b := by
    rw [Bindings.extend, ← Std.ExtTreeMap.ofList_eq_insertMany_empty]
    exact Bindings.ofPairs_toList b
  rw [← fillDefaults_extend, hb]

/-- **Filling in defaults is a union in which the bindings win.**  A symbol that is bound keeps its
value; one that is not gets the default of the first record that names it and has one; and all
others stay unbound.  Doing it again changes nothing, and binding further symbols commutes with it,
whatever the symbols are. -/
theorem fillDefaults_union (r : Registry) (b : Bindings α) :
    r.fillDefaults b = (r.fillDefaults ∅).extend b.toList ∧
      (∀ (s : String) x, b[s]? = some x → (r.fillDefaults b)[s]? = some x) ∧
      (∀ (s : String) x, b[s]? = none → ((r.fillDefaults b)[s]? = some x ↔
        ∃ v, r.FirstDefault s v ∧ Operand.constant v = x)) ∧
      (∀ s : String, (r.fillDefaults b)[s]? = none ↔
        b[s]? = none ∧ ∀ key v, ¬ r.GivesDefault key s v) ∧
      r.fillDefaults (r.fillDefaults b) = r.fillDefaults b ∧
      ∀ pairs, r.fillDefaults (b.extend pairs) = (r.fillDefaults b).extend pairs := by
  refine ⟨fillDefaults_eq_extend r b, ?_, ?_, ?_, fillDefaults_fillDefaults r b,
    fillDefaults_extend r b⟩
  · intro s x hs
    exact getElem?_fillDefaults_of_bound hs
  · intro s x hs
    simp only [getElem?_fillDefaults_of_unbound hs, Option.map_eq_some_iff, default?_eq_some_iff]
  · intro s
    rw [getElem?_fillDefaults, Option.or_eq_none_iff, Option.map_eq_none_iff, default?_eq_none_iff]

/-- Of three records of `L`, the first has no default and the second counts.  What is bound for `M`
stays. -/
theorem fillDefaults_union_repeated :
    let constants : List (String × Constant) := [("D", ⟨"M", "", some 3⟩), ("C", ⟨"L", "", some 2⟩),
      ("B", ⟨"L", "", some 1⟩), ("A", ⟨"L", "", none⟩)]
    let r : Registry := ⟨∅, ∅, .ofList constants, Kernel.all.map Kernel.formula⟩
    let b : Bindings Float := .ofPairs [("M", 5)]
    (r.fillDefaults b)["M"]? = some 5 ∧ (r.fillDefaults b)["L"]? = some 1 ∧
      (r.fillDefaults b)["B"]? = none ∧ r.fillDefaults (r.fillDefaults b) = r.fillDefaults b := by
  intro constants r b
  have hgives : ∀ key s v, r.GivesDefault key s v →
      (key, s) ∈ [("D", "M"), ("C", "L"), ("B", "L")] := by
    rintro key s v ⟨c, hc, rfl, hdefault⟩
    have hmem : (key, c) ∈ constants :=
      (Bindings.getElem?_ofList_eq_some_iff (by decide)).mp hc
    simp only [constants, List.mem_cons, List.not_mem_nil, or_false, Prod.mk.injEq] at hmem
    rcases hmem with ⟨rfl, rfl⟩ | ⟨rfl, rfl⟩ | ⟨rfl, rfl⟩ | ⟨rfl, rfl⟩
    · decide
    · decide
    · decide
    · exact nomatch hdefault
  have hB : r.GivesDefault "B" "L" 1 := by
    refine ⟨⟨"L", "", some 1⟩, ?_, rfl, rfl⟩
    exact (Bindings.getElem?_ofList_eq_some_iff (by decide)).mpr (by simp [constants])
  have hbound : b["M"]? = some 5 ∧ b["L"]? = none ∧ b["B"]? = none := by decide +kernel
  obtain ⟨-, hkept, hfilled, hunbound, htwice, -⟩ := fillDefaults_union r b
  refine ⟨hkept _ _ hbound.1, (hfilled _ _ hbound.2.1).mpr ⟨1, ⟨"B", hB, ?_⟩, rfl⟩,
    (hunbound _).mpr ⟨hbound.2.2, ?_⟩, htwice⟩
  · intro key hlt v hv
    have hmem := hgives key "L" v hv
    simp only [List.mem_cons, List.not_mem_nil, or_false, Prod.mk.injEq] at hmem
    rcases hmem with ⟨-, h⟩ | ⟨rfl, -⟩ | ⟨rfl, -⟩
    · exact absurd h (by decide)
    · exact absurd hlt (by decide)
    · exact absurd hlt (by decide)
  · intro key v hv
    have hmem := hgives key "B" v hv
    simp at hmem

end BandMath.Registry
