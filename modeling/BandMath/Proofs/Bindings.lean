/-
# Bindings as finite maps

What is bound is known from the look-ups alone, and it is listed in the order of the symbols.  The
same holds for any other map from texts, so what is said here is used for registries as well.

Two bindings agree on some symbols when their look-ups do (`AgreeOn`); this is the form in which it
is said elsewhere that something depends on these symbols only.  Look-ups after an operation are
given by one equation each: for an insertion, for further pairs (`getElem?_extend`) and for bindings
that are made from pairs.  Nothing has to be known about how the map is built.

The lists of symbols and of values are given in the same way.  What is listed is what is bound
(`mem_values_iff`), in strictly increasing order of the symbols (`pairwise_symbols`), so the first
value with a property is the one under the least symbol that has such a value
(`findSome?_values_eq_some_iff`).

Pairs with different symbols can be bound in any order (`ofList_eq_of_perm`), and all of them are
listed (`toList_ofList_perm`).
-/
import BandMath.Bindings

namespace BandMath.Bindings

variable {α : Type} {b : Bindings α}

/-! ## 1. Look-ups -/

/-- The two give the same values to the given symbols, or none. -/
def AgreeOn (symbols : List String) (b b' : Bindings α) : Prop :=
  ∀ s ∈ symbols, b[s]? = b'[s]?

theorem agreeOn_insert {symbols : List String} (b : Bindings α) {s : String} (v : α)
    (hs : s ∉ symbols) : AgreeOn symbols b (b.insert s v) := by
  intro t ht
  have hne : s ≠ t := fun heq => hs (heq ▸ ht)
  simp [Std.ExtTreeMap.getElem?_insert, hne]

theorem getElem?_insert (b : Bindings α) (s t : String) (v : α) :
    (b.insert s v)[t]? = if t = s then some v else b[t]? := by
  simp only [Std.ExtTreeMap.getElem?_insert, Std.LawfulEqCmp.compare_eq_iff_eq, @eq_comm _ s]

/-- The values of the second bindings win. -/
theorem getElem?_insertMany_toList (b b' : Bindings α) (s : String) :
    (b.insertMany b'.toList)[s]? = b'[s]?.or b[s]? := by
  cases hs : b'[s]? with
  | some v =>
    have hmem := Std.ExtTreeMap.mem_toList_iff_getElem?_eq_some.mpr hs
    rw [Std.ExtTreeMap.getElem?_insertMany_list_of_mem Std.ReflCmp.compare_self
      Std.ExtTreeMap.distinct_keys_toList hmem, Option.some_or]
  | none =>
    have hs' : s ∉ b' := by simpa using hs
    rw [Std.ExtTreeMap.getElem?_insertMany_list_of_contains_eq_false, Option.none_or]
    rw [Std.ExtTreeMap.map_fst_toList_eq_keys]
    simpa using hs'

/-- What is bound was given. -/
theorem mem_of_getElem?_ofPairs {pairs : List (String × α)} {s : String} {v : α}
    (h : (ofPairs pairs)[s]? = some v) : (s, v) ∈ pairs := by
  rw [ofPairs, Std.ExtTreeMap.ofList_eq_insertMany_empty, Std.ExtTreeMap.getElem?_insertMany_list,
    Std.ExtTreeMap.getElem?_empty, Option.or_none, List.findSomeRev?_eq_findSome?_reverse] at h
  obtain ⟨⟨t, w⟩, hmem, hw⟩ := List.exists_of_findSome?_eq_some h
  dsimp only at hw
  split at hw
  · rename_i ht
    obtain rfl := Option.some.inj hw
    rw [← Std.LawfulEqCmp.eq_of_compare ht]
    exact List.mem_reverse.mp hmem
  · exact nomatch hw

theorem mem_ofPairs {pairs : List (String × α)} {s : String} :
    s ∈ ofPairs pairs ↔ s ∈ pairs.map Prod.fst := by
  simp [ofPairs, Std.ExtTreeMap.mem_ofList]

theorem ofPairs_toList (b : Bindings α) : ofPairs b.toList = b := by
  refine Std.ExtTreeMap.ext_getElem? fun s => ?_
  rw [ofPairs, Std.ExtTreeMap.ofList_eq_insertMany_empty, getElem?_insertMany_toList]
  simp

/-- What further pairs bind wins. -/
theorem getElem?_extend (b : Bindings α) (pairs : List (String × α)) (s : String) :
    (b.extend pairs)[s]? = (ofPairs pairs)[s]?.or b[s]? := by
  rw [extend, ofPairs, Std.ExtTreeMap.ofList_eq_insertMany_empty,
    Std.ExtTreeMap.getElem?_insertMany_list, Std.ExtTreeMap.getElem?_insertMany_list,
    Std.ExtTreeMap.getElem?_empty, Option.or_none]

/-! ## 2. Lists -/

theorem values_eq (b : Bindings α) : b.values = b.toList.map (·.2) := by
  obtain ⟨t⟩ := b
  refine Std.ExtDTreeMap.inductionOn t fun m => ?_
  change m.inner.values = (Std.DTreeMap.Internal.Impl.Const.toList m.inner).map (·.2)
  rw [Std.DTreeMap.Internal.Impl.values_eq_map_snd,
    Std.DTreeMap.Internal.Impl.Const.toList_eq_toListModel_map, List.map_map]
  rfl

theorem mem_values_iff {v : α} : v ∈ b.values ↔ ∃ s : String, b[s]? = some v := by
  rw [values_eq, List.mem_map]
  constructor
  · rintro ⟨⟨s, w⟩, hmem, rfl⟩
    exact ⟨s, Std.ExtTreeMap.mem_toList_iff_getElem?_eq_some.mp hmem⟩
  · rintro ⟨s, hs⟩
    exact ⟨(s, v), Std.ExtTreeMap.mem_toList_iff_getElem?_eq_some.mpr hs, rfl⟩

theorem length_values (b : Bindings α) : b.values.length = b.size := by
  rw [values_eq, List.length_map, Std.ExtTreeMap.length_toList]

/-- Symbols are listed in strictly increasing order. -/
theorem pairwise_symbols (b : Bindings α) : b.symbols.Pairwise (· < ·) := by
  have hkeys : b.symbols.Pairwise fun s t => compare s t = .lt := Std.ExtTreeMap.ordered_keys
  exact hkeys.imp fun h => compareOfLessAndEq_eq_lt.mp h

theorem pairwise_toList (b : Bindings α) : b.toList.Pairwise fun x y => x.1 < y.1 := by
  have hkeys : b.toList.Pairwise fun x y => compare x.1 y.1 = .lt :=
    Std.ExtTreeMap.ordered_keys_toList
  exact hkeys.imp fun h => compareOfLessAndEq_eq_lt.mp h

/-- Values are listed in the order of their symbols, so the first of a kind is the one under the
least symbol. -/
theorem findSome?_values_eq_some_iff {β : Type} {f : α → Option β} {y : β} :
    b.values.findSome? f = some y ↔ ∃ (s : String) (v : α), b[s]? = some v ∧ f v = some y ∧
      ∀ t < s, ∀ w, b[t]? = some w → f w = none := by
  rw [values_eq, List.findSome?_map, List.findSome?_eq_some_iff]
  constructor
  · rintro ⟨before, ⟨s, v⟩, after, hlist, hv, hbefore⟩
    have hordered := pairwise_toList b
    rw [hlist, List.pairwise_append, List.pairwise_cons] at hordered
    have hmem : (s, v) ∈ b.toList := by simp [hlist]
    refine ⟨s, v, Std.ExtTreeMap.mem_toList_iff_getElem?_eq_some.mp hmem, hv, ?_⟩
    intro t hts w hw
    have hmem' := Std.ExtTreeMap.mem_toList_iff_getElem?_eq_some.mpr hw
    rw [hlist, List.mem_append, List.mem_cons] at hmem'
    rcases hmem' with hmem' | heq | hmem'
    · exact hbefore _ hmem'
    · rw [(Prod.mk.inj heq).1] at hts
      exact absurd hts (String.lt_irrefl s)
    · exact absurd (hordered.2.1.1 _ hmem') (String.lt_asymm hts)
  · rintro ⟨s, v, hs, hv, hfirst⟩
    have hmem := Std.ExtTreeMap.mem_toList_iff_getElem?_eq_some.mpr hs
    obtain ⟨before, after, hlist⟩ := List.append_of_mem hmem
    have hordered := pairwise_toList b
    rw [hlist, List.pairwise_append] at hordered
    refine ⟨before, (s, v), after, hlist, hv, ?_⟩
    intro ⟨t, w⟩ htw
    have hmem' : (t, w) ∈ b.toList := by simp [hlist, htw]
    have hts : t < s := hordered.2.2 _ htw _ List.mem_cons_self
    exact hfirst t hts w (Std.ExtTreeMap.mem_toList_iff_getElem?_eq_some.mp hmem')

/-- When every value tells the symbol that it is bound to, the values list the symbols. -/
theorem map_values_eq_symbols {name : α → String}
    (h : ∀ (s : String) (v : α), b[s]? = some v → name v = s) : b.values.map name = b.symbols := by
  rw [values_eq, List.map_map, symbols, ← Std.ExtTreeMap.map_fst_toList_eq_keys]
  refine List.map_congr_left fun ⟨s, v⟩ hmem => ?_
  exact h s v (Std.ExtTreeMap.mem_toList_iff_getElem?_eq_some.mp hmem)

/-! ## 3. Pairs with a symbol of their own each -/

variable {pairs pairs' : List (String × α)}

theorem getElem?_ofList_eq_some_iff (h : (pairs.map Prod.fst).Nodup) {s : String} {v : α} :
    (Std.ExtTreeMap.ofList pairs : Bindings α)[s]? = some v ↔ (s, v) ∈ pairs := by
  have hpairs : pairs.Pairwise fun x y => ¬ compare x.1 y.1 = .eq :=
    (List.pairwise_map.mp h).imp fun hne heq => hne (Std.LawfulEqCmp.eq_of_compare heq)
  constructor
  · exact fun hs => mem_of_getElem?_ofPairs hs
  · exact fun hs => Std.ExtTreeMap.getElem?_ofList_of_mem Std.ReflCmp.compare_self hpairs hs

/-- All of them are kept, in another order. -/
theorem toList_ofList_perm (h : (pairs.map Prod.fst).Nodup) :
    (Std.ExtTreeMap.ofList pairs : Bindings α).toList.Perm pairs := by
  refine (List.perm_ext_iff_of_nodup ?_ ?_).mpr fun ⟨s, v⟩ => ?_
  · refine Std.ExtTreeMap.distinct_keys_toList.imp fun hne heq => hne ?_
    exact heq ▸ Std.ReflCmp.compare_self
  · exact (List.pairwise_map.mp h).imp fun hne heq => hne (congrArg Prod.fst heq)
  · rw [Std.ExtTreeMap.mem_toList_iff_getElem?_eq_some, getElem?_ofList_eq_some_iff h]

/-- The order in which they are given does not count. -/
theorem ofList_eq_of_perm (h : (pairs.map Prod.fst).Nodup) (hperm : pairs.Perm pairs') :
    (Std.ExtTreeMap.ofList pairs' : Bindings α) = .ofList pairs := by
  have h' : (pairs'.map Prod.fst).Nodup := (hperm.map _).nodup_iff.mp h
  refine Std.ExtTreeMap.ext_getElem? fun s => Option.ext fun v => ?_
  rw [getElem?_ofList_eq_some_iff h, getElem?_ofList_eq_some_iff h', hperm.mem_iff]

end BandMath.Bindings
