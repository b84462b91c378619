/-
# When results are not combined

Before results are combined it is asked, in this order, whether there is a label for each, whether
there are any, whether all are of one kind and whether that kind can be combined at all.
`Refused` has a constructor for each answer of no, which holds only if the questions before were
answered with yes; its last constructor leaves the refusal to the combination of that kind.
`unify_eq_error_iff_refused` says that these are all refusals.

Every question is settled by a lemma of its own: several results of one kind, with a label for each,
are left to the combination of that kind (`unify_of_kind`); results of two kinds are refused for the
first that differs from the first result, with its place (`unify_of_mixed`); and a single result is
never refused (`unify_singleton`).

That `Refused` lists all refusals is shown in both directions.  From a constructor the refusal is
computed (`unify_of_refused`), and from a refusal the constructor is found by going through the
questions (`refused_of_unify`).  Since a refusal is a value, this also says that no two constructors
give different errors for the same results.

Four kinds cannot be combined: plain numbers, and the three kinds that are combinations already
(`uncombined`).
-/
import BandMath.Proofs.Fallible
import BandMath.Unify

namespace BandMath

variable {results : List Value} {labels : List String} {axis : String} {kind found : Kind}
  {e : Error} {i : Nat}

/-! ## 1. Kinds -/

theorem firstOtherKind?_eq_none_iff :
    firstOtherKind? kind results = none ↔ ∀ v ∈ results, v.kind = kind := by
  rw [firstOtherKind?, Option.map_eq_none_iff, List.find?_eq_none]
  constructor
  · intro h v hv
    obtain ⟨i, hi⟩ := List.mem_iff_getElem?.mp hv
    simpa using h (v, i) (List.mk_mem_zipIdx_iff_getElem?.mpr hi)
  · intro h x hx
    simpa using h x.1 (List.fst_mem_of_mem_zipIdx hx)

/-- What a search in a numbered list finds. -/
theorem find?_zipIdx_eq_some_iff {α : Type} {p : α × Nat → Bool} {xs : List α} {x : α} :
    xs.zipIdx.find? p = some (x, i) ↔ xs[i]? = some x ∧ p (x, i) = true ∧
      ∀ j < i, ∀ y, xs[j]? = some y → p (y, j) = false := by
  rw [List.find?_eq_some_iff_getElem]
  constructor
  · rintro ⟨hp, k, hk, hget, hbefore⟩
    rw [List.getElem_zipIdx, Nat.zero_add] at hget
    obtain ⟨rfl, rfl⟩ := Prod.mk.inj hget
    rw [List.length_zipIdx] at hk
    refine ⟨List.getElem?_eq_getElem hk, hp, fun j hj y hy => ?_⟩
    obtain ⟨hlt, rfl⟩ := List.getElem?_eq_some_iff.mp hy
    simpa using hbefore j hj
  · rintro ⟨hi, hp, hbefore⟩
    obtain ⟨hlt, rfl⟩ := List.getElem?_eq_some_iff.mp hi
    refine ⟨hp, i, by rwa [List.length_zipIdx], ?_, fun j hj => ?_⟩
    · rw [List.getElem_zipIdx, Nat.zero_add]
    · have hjlt : j < xs.length := Nat.lt_trans hj hlt
      simpa using hbefore j hj xs[j] (List.getElem?_eq_getElem hjlt)

/-- The first result of another kind, and its place. -/
theorem firstOtherKind?_eq_some_iff : firstOtherKind? kind results = some (found, i) ↔
    ∃ v, results[i]? = some v ∧ v.kind = found ∧ found ≠ kind ∧
      ∀ j < i, ∀ w, results[j]? = some w → w.kind = kind := by
  rw [firstOtherKind?, Option.map_eq_some_iff]
  constructor
  · rintro ⟨⟨v, k⟩, hfind, heq⟩
    obtain ⟨rfl, rfl⟩ := Prod.mk.inj heq
    obtain ⟨hi, hne, hbefore⟩ := find?_zipIdx_eq_some_iff.mp hfind
    exact ⟨v, hi, rfl, of_decide_eq_true hne, fun j hj w hw => by simpa using hbefore j hj w hw⟩
  · rintro ⟨v, hi, rfl, hne, hbefore⟩
    refine ⟨(v, i), find?_zipIdx_eq_some_iff.mpr ⟨hi, decide_eq_true hne, fun j hj w hw => ?_⟩, rfl⟩
    simpa using hbefore j hj w hw

/-- The kinds that cannot be combined: numbers, and what is already a combination. -/
def uncombined : List Kind := [.scalar, .frame, .remoteList, .lazyFrame]

theorem combine_of_mem_uncombined (h : kind ∈ uncombined) :
    combine kind results labels axis = .error (.unsupportedKind kind) := by
  simp only [uncombined, List.mem_cons, List.not_mem_nil, or_false] at h
  rcases h with rfl | rfl | rfl | rfl
  all_goals rfl

/-! ## 2. Several results of one kind -/

/-- Several results of one kind, with a label for each, are left to the combination of that kind. -/
theorem unify_of_kind (hlabels : results.length = labels.length) (hn : 2 ≤ results.length)
    (hall : ∀ v ∈ results, v.kind = kind) :
    unify results labels axis = combine kind results labels axis := by
  unfold unify
  rw [if_neg (not_not.mpr hlabels)]
  match results, hn with
  | first :: second :: rest, _ =>
    have hkind : first.kind = kind := hall first (List.mem_cons_self ..)
    dsimp only
    rw [hkind, firstOtherKind?_eq_none_iff.mpr hall]
    rfl

/-- Whatever is asked for the kinds of the results is asked before they are combined. -/
theorem unify_of_mixed {first : Value} (hlabels : results.length = labels.length)
    (hfirst : results[0]? = some first)
    (hother : firstOtherKind? first.kind results = some (found, i)) :
    unify results labels axis = .error (.mixedKinds first.kind found i) := by
  unfold unify
  rw [if_neg (not_not.mpr hlabels)]
  match results, hfirst with
  | w :: others, hfirst =>
    obtain rfl : w = first := Option.some.inj hfirst
    dsimp only
    rw [hother]

/-- A single result with its label is never refused. -/
theorem unify_singleton {v : Value} (hlabels : [v].length = labels.length) :
    unify [v] labels axis = .ok v := by
  have hnone : firstOtherKind? v.kind [v] = none :=
    firstOtherKind?_eq_none_iff.mpr fun w hw => congrArg Value.kind (List.mem_singleton.mp hw)
  unfold unify
  rw [if_neg (not_not.mpr hlabels)]
  dsimp only
  rw [hnone]
  rfl

/-! ## 3. Refusals -/

/-- Why results are refused. -/
inductive Refused (results : List Value) (labels : List String) (axis : String) : Error → Prop
  | labelCount (h : results.length ≠ labels.length) :
      Refused results labels axis (.labelCount results.length labels.length)
  | notEnoughResults (hlabels : results.length = labels.length) (h : results = []) :
      Refused results labels axis (.notEnoughResults 1 0)
  /-- The place is that of the first result of another kind than that of the very first. -/
  | mixedKinds {first v : Value} {i : Nat} (hlabels : results.length = labels.length)
      (hfirst : results[0]? = some first) (hi : results[i]? = some v)
      (hkind : v.kind ≠ first.kind)
      (hbefore : ∀ j < i, ∀ w, results[j]? = some w → w.kind = first.kind) :
      Refused results labels axis (.mixedKinds first.kind v.kind i)
  | unsupportedKind {kind : Kind} (hlabels : results.length = labels.length)
      (hn : 2 ≤ results.length) (hall : ∀ v ∈ results, v.kind = kind)
      (hkind : kind ∈ uncombined) : Refused results labels axis (.unsupportedKind kind)
  | combination {kind : Kind} {e : Error} (hlabels : results.length = labels.length)
      (hn : 2 ≤ results.length) (hall : ∀ v ∈ results, v.kind = kind)
      (hkind : kind ∉ uncombined) (h : combine kind results labels axis = .error e) :
      Refused results labels axis e

theorem unify_of_refused (h : Refused results labels axis e) :
    unify results labels axis = .error e := by
  cases h with
  | labelCount h => exact if_pos h
  | notEnoughResults hlabels h =>
    subst h
    exact if_neg (not_not.mpr hlabels)
  | @mixedKinds first v i hlabels hfirst hi hkind hbefore =>
    exact unify_of_mixed hlabels hfirst
      (firstOtherKind?_eq_some_iff.mpr ⟨v, hi, rfl, hkind, hbefore⟩)
  | unsupportedKind hlabels hn hall hkind =>
    rw [unify_of_kind hlabels hn hall]
    exact combine_of_mem_uncombined hkind
  | combination hlabels hn hall _ h =>
    rw [unify_of_kind hlabels hn hall]
    exact h

theorem refused_of_unify (h : unify results labels axis = .error e) :
    Refused results labels axis e := by
  by_cases hlabels : results.length = labels.length
  · match hresults : results with
    | [] =>
      have hempty : unify [] labels axis = .error (.notEnoughResults 1 0) :=
        if_neg (not_not.mpr hlabels)
      obtain rfl := Except.error.inj (hempty.symm.trans h)
      exact .notEnoughResults hlabels rfl
    | [v] =>
      rw [unify_singleton hlabels] at h
      exact nomatch h
    | first :: second :: rest =>
      cases hother : firstOtherKind? first.kind (first :: second :: rest) with
      | some other =>
        rw [unify_of_mixed hlabels rfl hother] at h
        obtain ⟨v, hi, hv, hkind, hbefore⟩ := firstOtherKind?_eq_some_iff.mp hother
        rw [← hv] at h hkind
        obtain rfl := Except.error.inj h
        exact .mixedKinds hlabels rfl hi hkind hbefore
      | none =>
        have hn : 2 ≤ (first :: second :: rest).length := by simp
        have hall := firstOtherKind?_eq_none_iff.mp hother
        rw [unify_of_kind hlabels hn hall] at h
        by_cases hkind : first.kind ∈ uncombined
        · rw [combine_of_mem_uncombined hkind] at h
          obtain rfl := Except.error.inj h
          exact .unsupportedKind hlabels hn hall hkind
        · exact .combination hlabels hn hall hkind h
  · unfold unify at h
    rw [if_pos hlabels] at h
    obtain rfl := Except.error.inj h
    exact .labelCount hlabels

/-- **The refusals, in their order.** -/
theorem unify_eq_error_iff_refused :
    unify results labels axis = .error e ↔ Refused results labels axis e :=
  ⟨refused_of_unify, unify_of_refused⟩

end BandMath
