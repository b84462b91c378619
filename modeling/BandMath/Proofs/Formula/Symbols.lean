/-
# Symbols in the text of a formula

The symbols of a formula are collected from its tree.  What they are can be said of its text alone:
a name is a symbol where no opening parenthesis follows it (`UsedAt`), every symbol is listed once,
and of two symbols the one that is used first in the text is listed first (`symbols_of_text`).

* The tree mentions the names that are used in the text, in the order of their places
  (`map_uses_eq_mentions`), since a derivation has the names of its tree.
* Of what stands in the order of some places, leaving out what has come before keeps the order of
  the first places (`eraseDups_firstPlaces`).

A definition is made from a text whose symbols it lists, and is refused for the first one that it
does not list (`IndexDefinition.ofFormula_eq_unlistedSymbol_iff`).
-/
import BandMath.Catalogue.Definition
import BandMath.Proofs.Formula.LongestMatch
import BandMath.Proofs.Formula.References
import BandMath.Proofs.Formula.Simulation
import Mathlib.Data.List.Induction

namespace BandMath

namespace Formula

/-! ## 1. Uses of a symbol -/

/-- Among the lexemes, the symbol stands at the place: a name that no opening parenthesis
follows. -/
def UsedAt (ls : List Lexeme) (x : String) (place : Nat) : Prop :=
  ∃ before l after, ls = before ++ l :: after ∧ l.token = .name x ∧
    (after.map (·.token)).head? ≠ some .openParen ∧ l.start = place

/-- All uses of symbols with their places, in order. -/
def uses : List Lexeme → List (String × Nat)
  | [] => []
  | ⟨.name x, start, _⟩ :: ls =>
    if (ls.map (·.token)).head? = some .openParen then uses ls else (x, start) :: uses ls
  | _ :: ls => uses ls

theorem usedAt_cons_iff {l : Lexeme} {ls : List Lexeme} {x : String} {place : Nat} :
    UsedAt (l :: ls) x place ↔
      (l.token = .name x ∧ (ls.map (·.token)).head? ≠ some .openParen ∧ l.start = place) ∨
        UsedAt ls x place := by
  constructor
  · rintro ⟨before, l', after, heq, huse⟩
    cases before with
    | nil =>
      obtain ⟨rfl, rfl⟩ := List.cons.inj heq
      exact .inl huse
    | cons b before =>
      obtain ⟨rfl, rfl⟩ := List.cons.inj heq
      exact .inr ⟨before, l', after, rfl, huse⟩
  · rintro (huse | ⟨before, l', after, rfl, huse⟩)
    · exact ⟨[], l, ls, rfl, huse⟩
    · exact ⟨l :: before, l', after, rfl, huse⟩

theorem mem_uses_iff {ls : List Lexeme} {x : String} {place : Nat} :
    (x, place) ∈ uses ls ↔ UsedAt ls x place := by
  induction ls with
  | nil => simp [uses, UsedAt]
  | cons l ls ih =>
    obtain ⟨t, start, source⟩ := l
    rw [usedAt_cons_iff, ← ih]
    cases t with
    | name y =>
      rw [uses]
      by_cases hcall : (ls.map (·.token)).head? = some .openParen
      · rw [if_pos hcall]
        exact ⟨.inr, fun h => h.resolve_left fun huse => huse.2.1 hcall⟩
      · rw [if_neg hcall, List.mem_cons]
        refine or_congr_left ⟨?_, ?_⟩
        · rintro ⟨rfl, rfl⟩
          exact ⟨rfl, hcall, rfl⟩
        · rintro ⟨htoken, -, rfl⟩
          rw [Token.name.inj htoken]
    | _ => simp [uses]

/-- The tree of a derivation mentions what the lexemes use, in the same order. -/
theorem map_uses_eq_mentions {ls : List Lexeme} {e : Expr}
    (h : references (ls.map (·.token)) = e.references) : (uses ls).map (·.1) = e.mentions := by
  rw [Expr.mentions_eq, ← h]
  clear h
  induction ls with
  | nil => rfl
  | cons l ls ih =>
    obtain ⟨t, start, source⟩ := l
    cases t with
    | name x =>
      rw [uses, List.map_cons, references]
      by_cases hcall : (ls.map (·.token)).head? = some .openParen
      · rw [if_pos hcall, decide_eq_true hcall]
        exact ih
      · rw [if_neg hcall, decide_eq_false hcall]
        exact congrArg (List.cons x) ih
    | _ => exact ih

/-- Uses stand at increasing places, since lexemes do. -/
theorem Cut.pairwise_uses {start : Nat} {cs : List Char} {ls : List Lexeme} (h : Cut start cs ls) :
    ((uses ls).map (·.2)).Pairwise (· < ·) := by
  have hsublist : ∀ ls : List Lexeme, ((uses ls).map (·.2)).Sublist (ls.map (·.start)) := by
    intro ls
    induction ls with
    | nil => exact .slnil
    | cons l ls ih =>
      obtain ⟨t, start, source⟩ := l
      cases t with
      | name x =>
        rw [uses]
        split
        · exact ih.cons _
        · exact ih.cons_cons _
      | _ => exact ih.cons _
  exact (List.pairwise_map.mpr h.starts.1).sublist (hsublist ls)

/-! ## 2. First places -/

/-- `x` has a place before all places of `y`. -/
def ComesFirst (places : List (String × Nat)) (x y : String) : Prop :=
  ∃ p, (x, p) ∈ places ∧ ∀ q, (y, q) ∈ places → p < q

/-- **Names in the order of their places, without repetition, are in the order of their first
places.**  By induction on the places from the last one on; that one is behind all others, so it
matters only for a name that has not come before. -/
theorem eraseDups_firstPlaces (places : List (String × Nat))
    (h : (places.map (·.2)).Pairwise (· < ·)) :
    (places.map (·.1)).eraseDups.Pairwise (ComesFirst places) := by
  induction places using List.reverseRecOn with
  | nil => exact .nil
  | append_singleton places last ih =>
    obtain ⟨z, r⟩ := last
    rw [List.map_append, List.pairwise_append] at h
    obtain ⟨hplaces, -, hlast⟩ := h
    have hbefore : ∀ x p, (x, p) ∈ places → p < r := fun x p hp =>
      hlast p (List.mem_map.mpr ⟨_, hp, rfl⟩) r (List.mem_singleton.mpr rfl)
    have hkept : (places.map (·.1)).eraseDups.Pairwise (ComesFirst (places ++ [(z, r)])) := by
      refine (ih hplaces).imp fun {x y} ⟨p, hp, hfirst⟩ => ⟨p, List.mem_append_left _ hp, ?_⟩
      intro q hq
      rcases List.mem_append.mp hq with hq | hq
      · exact hfirst q hq
      · obtain ⟨rfl, rfl⟩ := Prod.mk.inj (List.mem_singleton.mp hq)
        exact hbefore x p hp
    rw [List.map_append, List.eraseDups_append]
    by_cases hz : z ∈ places.map (·.1)
    · have hnone : ([(z, r)].map (·.1)).removeAll (places.map (·.1)) = [] := by
        simpa [List.removeAll] using hz
      rw [hnone, List.eraseDups_nil, List.append_nil]
      exact hkept
    · have hnew : ([(z, r)].map (·.1)).removeAll (places.map (·.1)) = [z] := by
        simpa [List.removeAll] using hz
      rw [hnew]
      refine List.pairwise_append.mpr ⟨hkept, .cons (fun _ hx => nomatch hx) .nil, ?_⟩
      intro x hx y hy
      obtain ⟨⟨x, p⟩, hp, rfl⟩ := List.mem_map.mp (List.mem_eraseDups.mp hx)
      obtain rfl := List.mem_singleton.mp hy
      refine ⟨p, List.mem_append_left _ hp, fun q hq => ?_⟩
      rcases List.mem_append.mp hq with hq | hq
      · exact absurd (List.mem_map.mpr ⟨_, hq, rfl⟩) hz
      · obtain ⟨-, rfl⟩ := Prod.mk.inj (List.mem_singleton.mp hq)
        exact hbefore x p hp

/-- Nothing comes before itself, so nothing is repeated. -/
theorem nodup_of_pairwise_comesFirst {places : List (String × Nat)} {names : List String}
    (h : names.Pairwise (ComesFirst places)) : names.Nodup := by
  refine h.imp fun {x y} ⟨p, hp, hfirst⟩ => ?_
  rintro rfl
  exact Nat.lt_irrefl p (hfirst p hp)

end Formula

/-! ## 3. Definitions -/

namespace IndexDefinition

variable {name text : String} {required : List String} {f : Formula}

theorem ofFormula_of_ofText (h : Formula.ofText text = .ok f) : ofFormula name text required =
    unlessRefused ((f.symbols.find? (· ∉ required)).map (.unlistedSymbol name · required))
      { name, formula := f, required } := by
  have hlisted : (fun s => !required.contains s) = fun s => decide (s ∉ required) := by
    funext s
    simp
  rw [ofFormula, h, hlisted]
  dsimp only
  cases f.symbols.find? (· ∉ required) with
  | none => rfl
  | some s => rfl

theorem ofFormula_eq_ok_iff {d : IndexDefinition} : ofFormula name text required = .ok d ↔
    ∃ f, Formula.parse text = .ok f ∧ (∀ x ∈ f.symbols, x ∈ required) ∧
      d = { name, formula := f, required } := by
  cases h : Formula.ofText text with
  | error fault => simp [ofFormula, Formula.parse, h, Except.mapError]
  | ok f =>
    rw [ofFormula_of_ofText h, Formula.parse, h]
    cases hfind : f.symbols.find? (· ∉ required) with
    | none =>
      have hlisted : ∀ x ∈ f.symbols, x ∈ required := by simpa using hfind
      simp [Except.mapError, eq_comm (b := d), and_iff_right hlisted]
    | some s =>
      have hunlisted : ¬ ∀ x ∈ f.symbols, x ∈ required := fun hlisted => by
        simpa [hlisted s (List.mem_of_find?_eq_some hfind)] using List.find?_some hfind
      simp [Except.mapError, hunlisted]

/-- A definition is refused for the first symbol that it does not list. -/
theorem ofFormula_eq_unlistedSymbol_iff {x : String} :
    ofFormula name text required = .error (.unlistedSymbol name x required) ↔
      ∃ f before after, Formula.parse text = .ok f ∧ f.symbols = before ++ x :: after ∧
        (∀ y ∈ before, y ∈ required) ∧ x ∉ required := by
  cases h : Formula.ofText text with
  | error fault => simp [ofFormula, Formula.parse, h, Except.mapError]
  | ok f =>
    have hfirst : ofFormula name text required = .error (.unlistedSymbol name x required) ↔
        f.symbols.find? (· ∉ required) = some x := by
      rw [ofFormula_of_ofText h]
      cases f.symbols.find? (· ∉ required) with
      | none => simp
      | some s => simp
    rw [hfirst, List.find?_eq_some_iff_append, Formula.parse, h]
    constructor
    · rintro ⟨hx, before, after, heq, hbefore⟩
      exact ⟨f, before, after, rfl, heq, by simpa using hbefore, by simpa using hx⟩
    · rintro ⟨g, before, after, hg, heq, hbefore, hx⟩
      obtain rfl := Except.ok.inj hg
      exact ⟨by simpa using hx, before, after, heq, by simpa using hbefore⟩

end IndexDefinition

/-! ## 4. Symbols -/

namespace Formula

/-- **The symbols of a formula are the names that its text uses without calling them**, each listed
once, in the order of their first use.  So a text defines an index exactly when it is a formula
whose symbols are all among the required ones, and the first one that is not is reported. -/
theorem symbols_of_text (text : String) :
    (∀ f, parse text = .ok f → ∃ ls, lexemes text.toList = .ok ls ∧
      f.symbols.Nodup ∧ (∀ x, x ∈ f.symbols ↔ ∃ p, UsedAt ls x p) ∧
      f.symbols.Pairwise fun x y => ∃ p, UsedAt ls x p ∧ ∀ q, UsedAt ls y q → p < q) ∧
    ∀ name required,
      (∀ d, IndexDefinition.ofFormula name text required = .ok d ↔
        ∃ f, parse text = .ok f ∧ (∀ x ∈ f.symbols, x ∈ required) ∧
          d = { name, formula := f, required }) ∧
      ∀ x, IndexDefinition.ofFormula name text required =
          .error (.unlistedSymbol name x required) ↔
        ∃ f before after, parse text = .ok f ∧ f.symbols = before ++ x :: after ∧
          (∀ y ∈ before, y ∈ required) ∧ x ∉ required := by
  refine ⟨fun f h => ?_, fun name required => ⟨fun d => IndexDefinition.ofFormula_eq_ok_iff,
    fun x => IndexDefinition.ofFormula_eq_unlistedSymbol_iff⟩⟩
  obtain ⟨ls, hls, hreferences⟩ := exists_references h
  have hmentions := map_uses_eq_mentions hreferences
  have hfirst := eraseDups_firstPlaces (uses ls) (lexemes_eq_ok_iff.mp hls).pairwise_uses
  rw [hmentions] at hfirst
  refine ⟨ls, hls, nodup_of_pairwise_comesFirst hfirst, fun x => ?_, ?_⟩
  · rw [mem_symbols, ← hmentions, List.mem_map]
    constructor
    · rintro ⟨⟨x, p⟩, hp, rfl⟩
      exact ⟨p, mem_uses_iff.mp hp⟩
    · rintro ⟨p, hp⟩
      exact ⟨(x, p), mem_uses_iff.mpr hp, rfl⟩
  · refine hfirst.imp fun {x y} ⟨p, hp, hbefore⟩ => ⟨p, mem_uses_iff.mp hp, fun q hq => ?_⟩
    exact hbefore q (mem_uses_iff.mpr hq)

/-- One name that is called only, and one that is called before it is used. -/
theorem symbols_of_text_called :
    let text := "exp(b) + b*exp - x(b)/a"
    ∃ f ls, parse text = .ok f ∧ f.symbols = ["b", "exp", "a"] ∧
      lexemes text.toList = .ok ls ∧ f.symbols.Nodup ∧
      (∀ x, x ∈ f.symbols ↔ ∃ p, UsedAt ls x p) ∧
      (f.symbols.Pairwise fun x y => ∃ p, UsedAt ls x p ∧ ∀ q, UsedAt ls y q → p < q) ∧
      IndexDefinition.ofFormula "I" text ["b", "x"] =
        .error (.unlistedSymbol "I" "exp" ["b", "x"]) := by
  intro text
  let f : Formula := ⟨"exp(b)+b*exp-x(b)/a", .binary .subtract
    (.binary .add (.call "exp" (.symbol "b")) (.binary .multiply (.symbol "b") (.symbol "exp")))
    (.binary .divide (.call "x" (.symbol "b")) (.symbol "a"))⟩
  have h : parse text = .ok f := by decide +kernel
  have hsymbols : f.symbols = ["b", "exp", "a"] := by decide +kernel
  obtain ⟨hformula, hdefinition⟩ := symbols_of_text text
  obtain ⟨ls, hls, hlisted⟩ := hformula f h
  refine ⟨f, ls, h, hsymbols, hls, hlisted.1, hlisted.2.1, hlisted.2.2, ?_⟩
  exact ((hdefinition "I" ["b", "x"]).2 "exp").mpr
    ⟨f, ["b"], ["a"], h, hsymbols, by decide, by decide⟩

end Formula

end BandMath
