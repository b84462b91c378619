/-
# The kind of the value of a formula

Some kinds take operands of another kind and add something to them: axes, labels, chunks, a graph.
This is the order of kinds (`Kind.Extends`).  It is a forest: the kinds below a given one form a
chain (`Kind.below`), and tables and lists stand by themselves.

* Two operands go together only if one of their kinds is below the other, and the result is of the
  greater kind (`kind_of_binary`).  The converse fails: an array and a deferred column are refused,
  although a formula may put a series between them.
* So the value of a formula has the greatest of all the kinds that go into the formula
  (`kind_evaluateIn`), wherever they stand in it.

Literals count as numbers.  They are needed for formulas without symbols only, for numbers are below
every other kind but tables and lists, and those are the value of a formula only if it is a symbol
(`Expr.Evaluates.eq_symbol`).
-/
import BandMath.Proofs.Formula.Simulation
import BandMath.Value.Arithmetic
import Mathlib.Logic.Relation
import Mathlib.Order.Bounds.Basic

namespace BandMath

/-! ## 1. The order of kinds -/

namespace Kind

/-- The second kind takes operands of the first, and no kind lies between them. -/
inductive Extends : Kind → Kind → Prop
  | array : Extends scalar array
  | series : Extends array series
  | lazySeries : Extends series lazySeries
  | labeledArray : Extends array labeledArray
  | lazyArray : Extends array lazyArray
  | remoteNumber : Extends scalar remoteNumber
  | remoteImage : Extends remoteNumber remoteImage

/-- One kind is reached from another by extending it any number of times. -/
instance : LE Kind := ⟨Relation.ReflTransGen Extends⟩

/-- The kinds that are not greater than a kind, from the least on. -/
def below : Kind → List Kind
  | scalar => [scalar]
  | array => [scalar, array]
  | series => [scalar, array, series]
  | lazySeries => [scalar, array, series, lazySeries]
  | labeledArray => [scalar, array, labeledArray]
  | lazyArray => [scalar, array, lazyArray]
  | remoteNumber => [scalar, remoteNumber]
  | remoteImage => [scalar, remoteNumber, remoteImage]
  | frame => [frame]
  | remoteList => [remoteList]
  | lazyFrame => [lazyFrame]

variable {k l m : Kind}

theorem self_mem_below (k : Kind) : k ∈ k.below := by
  cases k <;> simp [below]

theorem Extends.mem_below (h : Extends l m) (hk : k ∈ l.below) : k ∈ m.below := by
  cases h <;> simp only [below, List.mem_cons] at hk ⊢ <;> tauto

theorem Extends.forall_le (h : Extends l m) {ks : List Kind} (hl : ∀ k ∈ ks, k ≤ l) :
    ∀ k ∈ ks ++ [m], k ≤ m := by
  intro k hk
  rcases List.mem_append.mp hk with hk | hk
  · exact (hl k hk).tail h
  · rw [List.mem_singleton.mp hk]
    exact .refl

theorem le_of_mem_below : ∀ l : Kind, ∀ k ∈ l.below, k ≤ l := by
  have hself : ∀ m : Kind, ∀ k ∈ [m], k ≤ m := by
    intro m k hk
    rw [List.mem_singleton.mp hk]
    exact .refl
  have harray : ∀ k ∈ array.below, k ≤ array := Extends.array.forall_le (hself _)
  have hseries : ∀ k ∈ series.below, k ≤ series := Extends.series.forall_le harray
  have hnumber : ∀ k ∈ remoteNumber.below, k ≤ remoteNumber :=
    Extends.remoteNumber.forall_le (hself _)
  intro l
  cases l with
  | scalar | frame | remoteList | lazyFrame => exact hself _
  | array => exact harray
  | series => exact hseries
  | lazySeries => exact Extends.lazySeries.forall_le hseries
  | labeledArray => exact Extends.labeledArray.forall_le harray
  | lazyArray => exact Extends.lazyArray.forall_le harray
  | remoteNumber => exact hnumber
  | remoteImage => exact Extends.remoteImage.forall_le hnumber

/-- The order can be decided. -/
theorem le_iff_mem_below : k ≤ l ↔ k ∈ l.below := by
  refine ⟨fun h => ?_, le_of_mem_below l k⟩
  induction h with
  | refl => exact self_mem_below k
  | tail _ hm ih => exact hm.mem_below ih

instance : DecidableLE Kind := fun _ _ => decidable_of_iff _ le_iff_mem_below.symm

instance : PartialOrder Kind where
  le_refl _ := .refl
  le_trans _ _ _ := Relation.ReflTransGen.trans
  le_antisymm k l := by cases k <;> cases l <;> decide

theorem eq_scalar_of_le (h : k ≤ scalar) : k = scalar :=
  List.mem_singleton.mp (le_iff_mem_below.mp h)

/-- The kinds of what several results are put into: tables and lists. -/
def isCollection : Kind → Bool
  | frame | remoteList | lazyFrame => true
  | _ => false

/-- A collection is comparable to its own kind only. -/
theorem eq_of_isCollection (h : k ≤ l) (hk : k.isCollection = true) : l = k := by
  revert h hk
  cases k <;> cases l <;> decide

end Kind

/-! ## 2. Operators -/

namespace Value

variable {v w u : Value}

/-- **Operands go together only if their kinds are comparable**, and the result is of the greater
kind.  None of them is a collection. -/
theorem kind_of_binary {op : BinaryOp} (h : binary op v w = .ok u) :
    (v.kind ≤ w.kind ∧ u.kind = w.kind ∨ w.kind ≤ v.kind ∧ u.kind = v.kind) ∧
      u.kind.isCollection = false := by
  -- one case for every two kinds; the pattern fits results that are there at once, too
  cases v <;> cases w <;>
    simp only [binary, map_eq_ok_iff, Except.ok.injEq, reduceCtorEq] at h <;>
    obtain ⟨_, -, rfl⟩ := h <;>
    simp only [kind] <;>
    decide

theorem kind_of_unary {op : UnaryOp} (h : unary op v = .ok u) :
    u.kind = v.kind ∧ u.kind.isCollection = false := by
  cases v <;> simp only [unary, Except.ok.injEq, reduceCtorEq] at h <;> subst h <;> exact ⟨rfl, rfl⟩

end Value

/-! ## 3. What goes into a formula -/

namespace Formula

open Value (kind_of_binary kind_of_unary)

/-- Every literal, as often as it occurs, from left to right. -/
def Expr.literals : Expr → List Float
  | number v => [v]
  | symbol _ => []
  | binary _ left right => left.literals ++ right.literals
  | negate inner => inner.literals
  | call _ argument => argument.literals

/-- The kinds of the values of the symbols; a literal is of the kind of numbers. -/
def Expr.kinds (b : Bindings Value) (e : Expr) : Set Kind :=
  {k | (∃ x ∈ e.mentions, ∃ w, b[x]? = some w ∧ w.kind = k) ∨ k = .scalar ∧ e.literals ≠ []}

/-- The kinds that go into a formula: those of the values of its symbols, and that of numbers if it
has a literal or no symbol. -/
def kinds (f : Formula) (b : Bindings Value) : Set Kind :=
  {k | (∃ x ∈ f.symbols, ∃ w, b[x]? = some w ∧ w.kind = k) ∨
    k = .scalar ∧ (f.expr.literals ≠ [] ∨ f.symbols = [])}

variable {b : Bindings Value} {functions : List Function} {e : Expr} {v : Value}

theorem Expr.literals_ne_nil_of_mentions (e : Expr) (h : e.mentions = []) : e.literals ≠ [] := by
  induction e with
  | number x => simp [literals]
  | symbol x => simp [mentions] at h
  | binary op l r ihl _ =>
    have hl := ihl (List.append_eq_nil_iff.mp h).1
    simp [literals, hl]
  | negate e ih => exact ih h
  | call f e ih => exact ih h

/-- A formula without symbols has a literal anyway. -/
theorem kinds_eq (f : Formula) (b : Bindings Value) : f.kinds b = f.expr.kinds b := by
  have hliterals : (f.expr.literals ≠ [] ∨ f.symbols = []) ↔ f.expr.literals ≠ [] := by
    refine ⟨fun h => h.elim id fun h => ?_, .inl⟩
    refine f.expr.literals_ne_nil_of_mentions (List.eq_nil_iff_forall_not_mem.mpr fun x hx => ?_)
    have hx' : x ∈ f.symbols := mem_symbols.mpr hx
    simp [h] at hx'
  ext k
  simp only [kinds, Expr.kinds, Set.mem_ofPred_eq, mem_symbols, hliterals]

theorem Expr.kinds_number (x : Float) : (Expr.number x).kinds b = {Kind.scalar} := by
  ext k
  simp [kinds, mentions, literals]

theorem Expr.kinds_symbol {x : String} (hx : b[x]? = some v) :
    (Expr.symbol x).kinds b = {v.kind} := by
  ext k
  simp [kinds, mentions, literals, hx, eq_comm]

theorem Expr.kinds_binary (op : BinaryOp) (l r : Expr) :
    (Expr.binary op l r).kinds b = l.kinds b ∪ r.kinds b := by
  ext k
  simp only [kinds, mentions, literals, Set.mem_ofPred_eq, Set.mem_union, List.mem_append, ne_eq,
    List.append_eq_nil_iff]
  grind

theorem isGreatest_union {s t : Set Kind} {k l : Kind} (hs : IsGreatest s k)
    (ht : IsGreatest t l) (h : k ≤ l) : IsGreatest (s ∪ t) l := by
  refine ⟨.inr ht.1, fun m hm => ?_⟩
  rcases hm with hm | hm
  · exact (hs.2 hm).trans h
  · exact ht.2 hm

/-- **The value of an expression has the greatest of the kinds that go into it.**  By induction on
the evaluation: the greatest kinds of the two operands of an operator are comparable. -/
theorem Expr.Evaluates.isGreatest_kinds (h : e.Evaluates ⟨b, functions⟩ v) :
    IsGreatest (e.kinds b) v.kind := by
  induction h with
  | number x =>
    rw [kinds_number]
    exact isGreatest_singleton
  | symbol hx =>
    rw [kinds_symbol hx]
    exact isGreatest_singleton
  | binary _ _ h ihl ihr =>
    rw [kinds_binary]
    obtain ⟨⟨hle, hu⟩ | ⟨hle, hu⟩, -⟩ := kind_of_binary h
    · rw [hu]
      exact isGreatest_union ihl ihr hle
    · rw [hu, Set.union_comm]
      exact isGreatest_union ihr ihl hle
  | negate _ h ih =>
    rw [(kind_of_unary h).1]
    exact ih
  | call _ _ h ih =>
    rw [(kind_of_unary h).1]
    exact ih

/-- A collection is the value of nothing but a symbol. -/
theorem Expr.Evaluates.eq_symbol (h : e.Evaluates ⟨b, functions⟩ v)
    (hv : v.kind.isCollection = true) : ∃ x, e = .symbol x := by
  cases h with
  | number x => exact nomatch hv
  | symbol hx => exact ⟨_, rfl⟩
  | binary _ _ h => simp [(kind_of_binary h).2] at hv
  | negate _ h => simp [(kind_of_unary h).2] at hv
  | call _ _ h => simp [(kind_of_unary h).2] at hv

/-- **A formula gives a value of the greatest kind that goes into it**, so these kinds have a
greatest one.  Over numbers and values of one further kind, that is this kind if and only if some
symbol has a value of it.  Tables and lists are values of symbols only: where an operator or a
function is applied, no symbol of the formula has such a value. -/
theorem kind_evaluateIn (f : Formula) (functions : List Function) (b : Bindings Value) (v : Value)
    (h : f.evaluateIn ⟨b, functions⟩ = .ok v) :
    IsGreatest (f.kinds b) v.kind ∧
      (∀ k : Kind, k ≠ .scalar →
        (∀ x ∈ f.symbols, ∀ w, b[x]? = some w → w.kind = .scalar ∨ w.kind = k) →
        (v.kind = k ↔ ∃ x ∈ f.symbols, ∃ w, b[x]? = some w ∧ w.kind = k)) ∧
      ((∀ x, f.expr ≠ .symbol x) →
        ∀ x ∈ f.symbols, ∀ w, b[x]? = some w → w.kind.isCollection = false) := by
  have hv := Expr.eval_eq_ok_iff.mp h
  have hgreatest : IsGreatest (f.kinds b) v.kind := by
    rw [kinds_eq]
    exact hv.isGreatest_kinds
  refine ⟨hgreatest, fun k hk hbound => ⟨fun hvk => ?_, ?_⟩, fun hexpr x hx w hw => ?_⟩
  · rcases hgreatest.1 with hmem | ⟨hscalar, -⟩
    · exact hvk ▸ hmem
    · exact absurd (hvk.symm.trans hscalar) hk
  · rintro ⟨x, hx, w, hw, rfl⟩
    -- the value is at least of this kind, and of the kind of some operand
    have hle : w.kind ≤ v.kind := hgreatest.2 (.inl ⟨x, hx, w, hw, rfl⟩)
    have hscalar : v.kind ≠ .scalar := fun hv => hk (Kind.eq_scalar_of_le (hv ▸ hle))
    rcases hgreatest.1 with ⟨y, hy, u, hu, hkind⟩ | ⟨hv, -⟩
    · rcases hbound y hy u hu with hu | hu
      · exact absurd (hkind.symm.trans hu) hscalar
      · exact hkind.symm.trans hu
    · exact absurd hv hscalar
  · have hle : w.kind ≤ v.kind := hgreatest.2 (.inl ⟨x, hx, w, hw, rfl⟩)
    refine Bool.eq_false_iff.mpr fun hcollection => ?_
    have hvk : v.kind.isCollection = true := by
      rw [Kind.eq_of_isCollection hle hcollection]
      exact hcollection
    obtain ⟨y, hy⟩ := hv.eq_symbol hvk
    exact hexpr y hy

/-- An array and a deferred column, with a series between them. -/
theorem kind_evaluateIn_between :
    let f : Formula :=
      ⟨"(a+s)*l", .binary .multiply (.binary .add (.symbol "a") (.symbol "s")) (.symbol "l")⟩
    let l : LazySeries := ⟨none, ["0", "1"], ⟨⟨[2], [1, 1]⟩, .source (.ofList [5, 6]) [1, 1]⟩⟩
    let b : Bindings Value := .ofPairs
      [("a", .array (.ofList [1, 2])), ("s", .series (.ofList [3, 4])), ("l", .lazySeries l)]
    ∃ v, f.evaluateIn ⟨b, []⟩ = .ok v ∧ v.kind = .lazySeries ∧
      IsGreatest (f.kinds b) .lazySeries := by
  intro f l b
  obtain ⟨v, hv, hkind⟩ : ∃ v, f.evaluateIn ⟨b, []⟩ = .ok v ∧ v.kind = .lazySeries :=
    ⟨_, rfl, rfl⟩
  exact ⟨v, hv, hkind, hkind ▸ (kind_evaluateIn f [] b v hv).1⟩

end Formula

end BandMath
