/-
# Names of deferred columns

Two given columns, and likewise two deferred ones, give a column with a name only if they share it.
Where a deferred column meets a given one, the given one's name is not looked at: the result has the
name of the deferred one.  So the name of a deferred value is the one that all deferred operands
share, whatever the given ones are called (`Formula.Expr.Evaluates.name_eq`).

With everything deferred computed beforehand, all columns are given, and the name is the one that
all columns share.  The two differ exactly when the deferred columns share a name that some given
column does not have (`Formula.name_evaluateIn_computed`).  So they differ at times
(`Formula.not_forall_name_evaluateIn_computed`), but not over deferred columns alone
(`Formula.name_evaluateIn_computed_of_deferred`).
-/
import BandMath.Proofs.Batch
import BandMath.Proofs.Value.Labels

namespace BandMath

/-! ## 1. Names of operands -/

namespace Value

/-- The name of a deferred column, which may have none. -/
def deferredName? : Value → Option (Option String)
  | lazySeries s => some s.name
  | _ => none

/-- The name of a given column. -/
def givenName? : Value → Option (Option String)
  | series s => some s.name
  | _ => none

/-- The name of a column, given or deferred. -/
def columnName? : Value → Option (Option String)
  | series s => some s.name
  | lazySeries s => some s.name
  | _ => none

end Value

/-- What is asked of the values of some symbols, where they have it. -/
def Bindings.collect {α β : Type} (b : Bindings α) (f : α → Option β) (symbols : List String) :
    List β :=
  symbols.filterMap fun x => b[x]?.bind f

section Collect

variable {b : Bindings Value} {xs ys : List String} {n : Option String}

theorem Bindings.mem_collect_iff {α β : Type} {b : Bindings α} {f : α → Option β} {y : β} :
    y ∈ b.collect f xs ↔ ∃ x ∈ xs, ∃ v, b[x]? = some v ∧ f v = some y := by
  simp [collect, Option.bind_eq_some_iff]

/-- The columns are the deferred ones and the given ones. -/
theorem Bindings.mem_columnNames_iff : n ∈ b.collect Value.columnName? xs ↔
    n ∈ b.collect Value.deferredName? xs ∨ n ∈ b.collect Value.givenName? xs := by
  have hor : ∀ v : Value, v.columnName? = some n ↔
      v.deferredName? = some n ∨ v.givenName? = some n := by
    intro v
    cases v <;> simp [Value.columnName?, Value.deferredName?, Value.givenName?]
  simp only [Bindings.mem_collect_iff, hor, and_or_left, exists_or]

end Collect

/-! ## 2. Operators -/

namespace Value

variable {v w : Value} {u : LazySeries}

/-- The ways in which an operator gives a deferred column, and what its name is then. -/
inductive NamedBy (v w : Value) (name : Option String) : Prop
  | deferred {s t : LazySeries} (hv : v = .lazySeries s) (hw : w = .lazySeries t)
      (h : name = commonName s.name t.name)
  | left {s : LazySeries} (hv : v = .lazySeries s) (hw : w.kind ≤ .series) (h : name = s.name)
  | right {t : LazySeries} (hv : v.kind ≤ .series) (hw : w = .lazySeries t) (h : name = t.name)

/-- **A given column has no part in the name.** -/
theorem namedBy_of_binary {op : BinaryOp} (h : binary op v w = .ok (.lazySeries u)) :
    NamedBy v w u.name := by
  have hscalar : Kind.scalar ≤ .series := by decide
  cases v <;> cases w <;>
    simp only [binary, map_eq_ok_iff, Except.ok.injEq, reduceCtorEq, and_false, exists_false,
      lazySeries.injEq, exists_eq_right] at h
  case scalar.lazySeries x t => exact .right hscalar rfl (h ▸ rfl)
  case series.lazySeries s t =>
    obtain ⟨-, values, -, rfl⟩ := LazySeries.seriesBinary_eq_ok h
    exact .right .refl rfl rfl
  case lazySeries.scalar s y => exact .left rfl hscalar (h ▸ rfl)
  case lazySeries.series s t =>
    obtain ⟨-, values, -, rfl⟩ := LazySeries.binarySeries_eq_ok h
    exact .left rfl .refl rfl
  case lazySeries.lazySeries s t =>
    obtain ⟨-, values, -, rfl⟩ := LazySeries.binary_eq_ok h
    exact .deferred rfl rfl rfl

theorem name_of_unary {op : UnaryOp} (h : unary op v = .ok (.lazySeries u)) :
    ∃ s, v = .lazySeries s ∧ u.name = s.name := by
  cases v <;> simp only [unary, Except.ok.injEq, reduceCtorEq, lazySeries.injEq] at h
  case lazySeries s => exact ⟨s, rfl, h ▸ rfl⟩

end Value

/-! ## 3. Formulas -/

namespace Formula

variable {b : Bindings Value} {functions : List Function} {e : Expr} {v : Value} {l : LazySeries}

/-- Where a number, a given array or a given column comes out, nothing deferred came in. -/
theorem Expr.Evaluates.deferredNames_eq_nil (h : e.Evaluates ⟨b, functions⟩ v)
    (hv : v.kind ≤ .series) : b.collect Value.deferredName? e.mentions = [] := by
  refine List.eq_nil_iff_forall_not_mem.mpr fun n hn => ?_
  obtain ⟨x, hx, w, hw, hname⟩ := Bindings.mem_collect_iff.mp hn
  have hle := (h.isGreatest_kinds.2 (.inl ⟨x, hx, w, hw, rfl⟩)).trans hv
  have hnot : ¬ Kind.lazySeries ≤ .series := by decide
  cases w <;> simp only [Value.deferredName?, reduceCtorEq] at hname
  exact hnot hle

/-- **A deferred value has the name that the deferred columns share that went in.**  By induction on
the evaluation; there is at least one such column. -/
theorem Expr.Evaluates.name_eq (h : e.Evaluates ⟨b, functions⟩ v) (hv : v = .lazySeries l) :
    b.collect Value.deferredName? e.mentions ≠ [] ∧
      l.name = sharedName (b.collect Value.deferredName? e.mentions) := by
  induction h generalizing l with
  | number x => exact nomatch hv
  | @symbol x v hx =>
    subst hv
    have hnames : b.collect Value.deferredName? [x] = [l.name] := by
      rw [Bindings.collect, List.filterMap_cons, hx]
      rfl
    rw [Expr.mentions, hnames]
    exact ⟨List.cons_ne_nil _ _, rfl⟩
  | @binary op e₁ e₂ v w u hl hr h ihl ihr =>
    subst hv
    have happend : b.collect Value.deferredName? (e₁.mentions ++ e₂.mentions) =
        b.collect Value.deferredName? e₁.mentions ++ b.collect Value.deferredName? e₂.mentions :=
      List.filterMap_append
    rw [Expr.mentions, happend]
    cases Value.namedBy_of_binary h with
    | deferred hv hw hname =>
      obtain ⟨hne, hs⟩ := ihl hv
      obtain ⟨hne', ht⟩ := ihr hw
      rw [sharedName_append hne hne', ← hs, ← ht]
      exact ⟨List.append_ne_nil_of_left_ne_nil hne _, hname⟩
    | left hv hw hname =>
      rw [hr.deferredNames_eq_nil hw, List.append_nil, hname]
      exact ihl hv
    | right hv hw hname =>
      rw [hl.deferredNames_eq_nil hv, List.nil_append, hname]
      exact ihr hw
  | negate _ h ih =>
    subst hv
    obtain ⟨s, hs, hname⟩ := Value.name_of_unary h
    exact hname ▸ ih hs
  | call _ _ h ih =>
    subst hv
    obtain ⟨s, hs, hname⟩ := Value.name_of_unary h
    exact hname ▸ ih hs

end Formula

/-! ## 4. Computing beforehand -/

section Computed

variable {b : Bindings Value} {mode : Mode} {xs : List String}

theorem Bindings.rel_computed (hb : ∀ (x : String) (v : Value), b[x]? = some v → v.Computable)
    (mode : Mode) (x : String) : Option.Rel Value.StandsFor b[x]? (b.computed mode)[x]? := by
  rw [computed, Std.ExtTreeMap.getElem?_filterMap']
  cases hx : b[x]? with
  | none => exact .none
  | some v =>
    obtain ⟨w, hw, hstands⟩ := (hb x v hx).exists_compute mode
    rw [Option.bind_some, hw]
    exact .some hstands

/-- Computing a column does not change its name. -/
theorem Value.Computable.name_computed {v : Value} (h : v.Computable) (mode : Mode) :
    ((v.compute mode).toOption.bind Value.series?).map (·.name) = v.columnName? := by
  cases h with
  | scalar x => rfl
  | array a => rfl
  | series hs => rfl
  | lazyArray hl =>
    obtain ⟨a, ha⟩ := hl.exists_describes
    rw [Value.compute, ha.compute mode]
    rfl
  | lazySeries hs =>
    obtain ⟨t, ht⟩ := hs.exists_describes
    rw [Value.compute, ht.compute mode]
    rfl

/-- With everything computed, the columns are given and have the names that they had. -/
theorem Bindings.columnNames_computed
    (hb : ∀ (x : String) (v : Value), b[x]? = some v → v.Computable) (mode : Mode)
    (xs : List String) :
    (Family.series.operands (b.computed mode) xs).map (·.name) =
      b.collect Value.columnName? xs := by
  rw [Family.operands, List.map_filterMap, collect]
  refine List.filterMap_congr fun x _ => ?_
  rw [computed, Std.ExtTreeMap.getElem?_filterMap']
  cases hx : b[x]? with
  | none => rfl
  | some v => exact (hb x v hx).name_computed mode

/-- The name that all columns share is the one that the deferred columns share, unless they share
one that a given column does not have. -/
theorem sharedName_columnNames_iff (hne : b.collect Value.deferredName? xs ≠ []) :
    sharedName (b.collect Value.deferredName? xs) = sharedName (b.collect Value.columnName? xs) ↔
      ∀ n, sharedName (b.collect Value.deferredName? xs) = some n →
        ∀ other ∈ b.collect Value.givenName? xs, other = some n := by
  have hall : ∀ n, sharedName (b.collect Value.columnName? xs) = some n ↔
      sharedName (b.collect Value.deferredName? xs) = some n ∧
        ∀ other ∈ b.collect Value.givenName? xs, other = some n := by
    intro n
    obtain ⟨m, hm⟩ := List.exists_mem_of_ne_nil _ hne
    have hcolumns : b.collect Value.columnName? xs ≠ [] :=
      List.ne_nil_of_mem (Bindings.mem_columnNames_iff.mpr (.inl hm))
    simp only [sharedName_eq_some_iff, ne_eq, hne, hcolumns, not_false_eq_true, true_and,
      Bindings.mem_columnNames_iff, or_imp, forall_and]
  constructor
  · intro heq n hn
    exact ((hall n).mp (heq ▸ hn)).2
  · intro hgiven
    refine Option.ext fun n => ?_
    rw [hall n]
    exact ⟨fun h => ⟨h, hgiven n h⟩, fun h => h.1⟩

end Computed

namespace Formula

variable {b : Bindings Value}

/-- **A deferred value and the value over computed columns agree in everything but the name.**  Let
all columns, given and deferred, be computable.  The deferred value has the name that the deferred
columns share; the other one has the name that all columns share.  So the names are the same if and
only if the deferred columns share no name, or all given columns have it, too. -/
theorem name_evaluateIn_computed (f : Formula) (functions : List Function) (mode : Mode)
    (hb : ∀ (x : String) (v : Value), b[x]? = some v → v.Computable) {l : LazySeries}
    (h : f.evaluateIn ⟨b, functions⟩ = .ok (.lazySeries l)) :
    ∃ s t, l.compute mode = .ok s ∧ f.evaluateIn ⟨b.computed mode, functions⟩ = .ok (.series t) ∧
      s.unnamed = t.unnamed ∧
      s.name = sharedName (b.collect Value.deferredName? f.symbols) ∧
      t.name = sharedName (b.collect Value.columnName? f.symbols) ∧
      (s.name = t.name ↔ ∀ n, s.name = some n →
        ∀ other ∈ b.collect Value.givenName? f.symbols, other = some n) := by
  obtain ⟨v, hv, hstands⟩ := (evaluateIn_follows Value.simulates_standsFor f functions
    fun x _ => Bindings.rel_computed hb mode x).exists_ok h
  cases hstands with
  | @lazySeries _ t hdescribes =>
    have hsymbols : ∀ n, n ∈ b.collect Value.deferredName? f.expr.mentions ↔
        n ∈ b.collect Value.deferredName? f.symbols := by
      simp only [Bindings.mem_collect_iff, mem_symbols, implies_true]
    obtain ⟨hne, hname⟩ := (Expr.eval_eq_ok_iff.mp h).name_eq rfl
    obtain ⟨n, hn⟩ := List.exists_mem_of_ne_nil _ hne
    have hdeferred : l.name = sharedName (b.collect Value.deferredName? f.symbols) :=
      hname.trans (sharedName_congr hsymbols)
    have hcolumns : t.name = sharedName (b.collect Value.columnName? f.symbols) := by
      rw [← Bindings.columnNames_computed hb mode]
      exact (Series.keeps_merges.evaluateIn Family.lawful_series hv).name
    refine ⟨_, t, hdescribes.compute mode, hv, rfl, hdeferred, hcolumns, ?_⟩
    dsimp only
    rw [hcolumns, hdeferred]
    exact sharedName_columnNames_iff (List.ne_nil_of_mem ((hsymbols n).mp hn))

/-- Where no given column is among the operands, the names are the same. -/
theorem name_evaluateIn_computed_of_deferred (f : Formula) (functions : List Function) (mode : Mode)
    (hb : ∀ (x : String) (v : Value), b[x]? = some v → v.Computable)
    (hgiven : ∀ x ∈ f.symbols, ∀ s, b[x]? ≠ some (.series s)) {l : LazySeries}
    (h : f.evaluateIn ⟨b, functions⟩ = .ok (.lazySeries l)) :
    ∃ s, l.compute mode = .ok s ∧ f.evaluateIn ⟨b.computed mode, functions⟩ = .ok (.series s) := by
  obtain ⟨s, t, hs, ht, hsame, -, -, hname⟩ := name_evaluateIn_computed f functions mode hb h
  have hnames : s.name = t.name := by
    refine hname.mpr fun n _ other hother => ?_
    obtain ⟨x, hx, v, hv, hother⟩ := Bindings.mem_collect_iff.mp hother
    cases v <;> simp only [Value.givenName?, reduceCtorEq] at hother
    exact absurd hv (hgiven x hx _)
  obtain ⟨hindex, hvalues⟩ := Series.unnamed_eq_iff.mp hsame
  have hst : s = t := by
    obtain ⟨name, index, values⟩ := t
    dsimp only at hnames hindex hvalues
    rw [← hnames, ← hindex, ← hvalues]
  exact ⟨s, hs, hst ▸ ht⟩

/-- It is not so that the name is the same with everything computed beforehand: a deferred column
`N` and a given one `R` have a sum with the name of the deferred one, and once both are given, with
none. -/
theorem not_forall_name_evaluateIn_computed : ¬ ∀ (f : Formula) (b : Bindings Value) (mode : Mode)
    (l : LazySeries) (s t : Series),
      (∀ (x : String) (v : Value), b[x]? = some v → v.Computable) →
      f.evaluateIn ⟨b, []⟩ = .ok (.lazySeries l) → l.compute mode = .ok s →
      f.evaluateIn ⟨b.computed mode, []⟩ = .ok (.series t) → s.name = t.name := by
  intro h
  let given : Series := ⟨some "N", ["0", "1"], #[1, 2]⟩
  let sizes := Deferred.chunkSizes 2 1
  let n : LazySeries := ⟨some "N", ["0", "1"], ⟨⟨[2], sizes⟩, .source given.array sizes⟩⟩
  let r : Series := ⟨some "R", ["0", "1"], #[3, 4]⟩
  let b : Bindings Value := .ofPairs [("N", .lazySeries n), ("R", .series r)]
  let f : Formula := ⟨"N+R", .binary .add (.symbol "N") (.symbol "R")⟩
  have hgiven : given.Fits := rfl
  have hr : r.Fits := rfl
  have hn : LazySeries.ofSeries given 1 = .ok n := rfl
  have hb : ∀ (x : String) (v : Value), b[x]? = some v → v.Computable := by
    intro x v hx
    have hmem := Bindings.mem_of_getElem?_ofPairs hx
    simp only [List.mem_cons, Prod.mk.injEq, List.not_mem_nil, or_false] at hmem
    obtain ⟨-, rfl⟩ | ⟨-, rfl⟩ := hmem
    · exact .lazySeries (.ofSeries hgiven hn)
    · exact .series hr
  obtain ⟨l, hl⟩ : ∃ l, f.evaluateIn ⟨b, []⟩ = .ok (.lazySeries l) := ⟨_, rfl⟩
  obtain ⟨s, t, hs, ht, -, hname, -, hiff⟩ := name_evaluateIn_computed f [] .sequential hb hl
  have hsame := hiff.mp (h f b .sequential l s t hb hl hs ht) "N" (hname.trans rfl) (some "R")
    (Bindings.mem_collect_iff.mpr ⟨"R", by decide, .series r, rfl, rfl⟩)
  exact absurd hsame (by decide)

end Formula

end BandMath
