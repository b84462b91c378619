/-
# Labeled values in formulas

Columns and labeled arrays are two families of labeled values, and arithmetic treats them alike: a
member takes a number, an array or another member, on either side, and nothing else
(`Family.Combined`).  So a member comes out of a formula only if some came in, and whatever relates
it to those that came in needs to be kept by three operations: `map`, `zipWith` and `zipArray`
(`Family.Keeps`).

`Family` collects what the two have in common, and `Lawful` says that a family is a part of the
values: its members are recognized, none of them is a number or an array, and an operator that gives
a member has been applied in one of the ways of `Combined`.  Both families are lawful
(`lawful_series`, `lawful_labeledArray`), which is where the definition of arithmetic is looked at,
once for each.

What a formula keeps is then a relation between the list of members that go in and the one that
comes out.  `Keeps` asks that it holds of one member alone, that it does not depend on the order and
number of those that go in, and that it is kept by the three operations.  `Keeps.evaluateIn` says
that it then holds of every formula: by induction on the evaluation, in which an operand that is no
member has none among its own operands (`operands_eq_nil`).
-/
import BandMath.Proofs.Value.Kinds

namespace BandMath

variable {Λ : Type}

/-! ## 1. Families -/

/-- A family of labeled values: how a member is a value, and what arithmetic does with it. -/
structure Family (Λ : Type) where
  value : Λ → Value
  /-- The member that a value is. -/
  member? : Value → Option Λ
  /-- A function of every element. -/
  map : (Float → Float) → Λ → Λ
  /-- A function of the elements of two members. -/
  zipWith : (Float → Float → Float) → Λ → Λ → Except Error Λ
  /-- A function of the elements of a member and of an array. -/
  zipArray : (Float → Float → Float) → Λ → NDArray → Except Error Λ

namespace Family

/-- The ways in which an operator gives a member.  An operand on the left stays on the left. -/
inductive Combined (F : Family Λ) (op : BinaryOp) : Value → Value → Λ → Prop
  | members {s t u : Λ} (h : F.zipWith op.apply s t = .ok u) :
      Combined F op (F.value s) (F.value t) u
  | memberNumber (s : Λ) (y : Float) :
      Combined F op (F.value s) (.scalar y) (F.map (fun x => op.apply x y) s)
  | numberMember (x : Float) (t : Λ) :
      Combined F op (.scalar x) (F.value t) (F.map (fun y => op.apply x y) t)
  | memberArray {s u : Λ} {a : NDArray} (h : F.zipArray op.apply s a = .ok u) :
      Combined F op (F.value s) (.array a) u
  | arrayMember {t u : Λ} {a : NDArray}
      (h : F.zipArray (fun y x => op.apply x y) t a = .ok u) :
      Combined F op (.array a) (F.value t) u

/-- A family is a part of the values: its members are recognized, none of them is a number or an
array, and they come from operators in no other ways than these. -/
structure Lawful (F : Family Λ) : Prop where
  member? : ∀ {v : Value} {s : Λ}, F.member? v = some s ↔ v = F.value s
  kind : ∀ s : Λ, ¬ (F.value s).kind ≤ .array
  binary : ∀ {op : BinaryOp} {v w : Value} {u : Λ}, Value.binary op v w = .ok (F.value u) →
    F.Combined op v w u
  unary : ∀ {op : UnaryOp} {v : Value} {u : Λ}, Value.unary op v = .ok (F.value u) →
    ∃ s, v = F.value s ∧ u = F.map op.apply s

/-- Columns. -/
def series : Family Series where
  value := .series
  member? := Value.series?
  map := Series.map
  zipWith := Series.zipWith
  zipArray := Series.zipArray

/-- Labeled arrays. -/
def labeledArray : Family LabeledArray where
  value := .labeledArray
  member? := Value.labeledArray?
  map := LabeledArray.map
  zipWith := LabeledArray.zipWith
  zipArray := LabeledArray.zipArray

theorem lawful_series : series.Lawful where
  member? {v s} := by
    cases v <;> simp [series, Value.series?]
  kind s := by
    have hseries : ¬ Kind.series ≤ Kind.array := by decide
    exact hseries
  binary {op v w u} h := by
    cases v <;> cases w <;>
      simp only [series, Value.binary, map_eq_ok_iff, Except.ok.injEq, reduceCtorEq, and_false,
        exists_false, Value.series.injEq, exists_eq_right] at h
    case scalar.series x t => exact h ▸ .numberMember x t
    case array.series a t => exact .arrayMember h
    case series.scalar s y => exact h ▸ .memberNumber s y
    case series.array s a => exact .memberArray h
    case series.series s t => exact .members h
  unary {op v u} h := by
    cases v <;> simp only [series, Value.unary, Except.ok.injEq, reduceCtorEq,
      Value.series.injEq] at h
    case series s => exact ⟨s, rfl, h.symm⟩

theorem lawful_labeledArray : labeledArray.Lawful where
  member? {v s} := by
    cases v <;> simp [labeledArray, Value.labeledArray?]
  kind s := by
    have hlabeledArray : ¬ Kind.labeledArray ≤ Kind.array := by decide
    exact hlabeledArray
  binary {op v w u} h := by
    cases v <;> cases w <;>
      simp only [labeledArray, Value.binary, map_eq_ok_iff, Except.ok.injEq, reduceCtorEq,
        and_false, exists_false, Value.labeledArray.injEq, exists_eq_right] at h
    case scalar.labeledArray x t => exact h ▸ .numberMember x t
    case array.labeledArray a t => exact .arrayMember h
    case labeledArray.scalar s y => exact h ▸ .memberNumber s y
    case labeledArray.array s a => exact .memberArray h
    case labeledArray.labeledArray s t => exact .members h
  unary {op v u} h := by
    cases v <;> simp only [labeledArray, Value.unary, Except.ok.injEq, reduceCtorEq,
      Value.labeledArray.injEq] at h
    case labeledArray s => exact ⟨s, rfl, h.symm⟩

/-! ## 2. Formulas -/

variable {F : Family Λ} {P : List Λ → Λ → Prop} {b : Bindings Value}
  {functions : List Formula.Function} {e : Formula.Expr} {v : Value} {s : Λ} {xs ys : List String}

/-- The members among the values of some symbols, in order. -/
def operands (F : Family Λ) (b : Bindings Value) (symbols : List String) : List Λ :=
  symbols.filterMap fun x => b[x]?.bind F.member?

theorem operands_append : F.operands b (xs ++ ys) = F.operands b xs ++ F.operands b ys :=
  List.filterMap_append

theorem mem_operands_iff (hF : F.Lawful) :
    s ∈ F.operands b xs ↔ ∃ x ∈ xs, b[x]? = some (F.value s) := by
  simp [operands, Option.bind_eq_some_iff, hF.member?]

/-- Where a number or an array comes out, no member came in. -/
theorem operands_eq_nil (hF : F.Lawful) (h : e.Evaluates ⟨b, functions⟩ v)
    (hv : v.kind ≤ .array) : F.operands b e.mentions = [] := by
  refine List.eq_nil_iff_forall_not_mem.mpr fun s hs => hF.kind s ?_
  obtain ⟨x, hx, hs⟩ := (mem_operands_iff hF).mp hs
  exact (h.isGreatest_kinds.2 (.inl ⟨x, hx, _, hs, rfl⟩)).trans hv

/-- Arithmetic keeps a relation between the members that go in, in any order and number, and the
member that comes out. -/
structure Keeps (F : Family Λ) (P : List Λ → Λ → Prop) : Prop where
  congr : ∀ {ls ms s}, (∀ t, t ∈ ls ↔ t ∈ ms) → P ls s → P ms s
  single : ∀ s, P [s] s
  map : ∀ {f ls s}, P ls s → P ls (F.map f s)
  zipWith : ∀ {f ls ms s t u}, P ls s → P ms t → F.zipWith f s t = .ok u → P (ls ++ ms) u
  zipArray : ∀ {f ls s a u}, P ls s → F.zipArray f s a = .ok u → P ls u

/-- By induction on the evaluation; an operand that is no member has none among its own operands. -/
theorem Keeps.evaluates (hP : F.Keeps P) (hF : F.Lawful) (h : e.Evaluates ⟨b, functions⟩ v)
    (hv : v = F.value s) : P (F.operands b e.mentions) s := by
  have hscalar : Kind.scalar ≤ Kind.array := by decide
  induction h generalizing s with
  | number x =>
    have hkind : (F.value s).kind = .scalar := congrArg Value.kind hv.symm
    exact absurd (hkind ▸ hscalar) (hF.kind s)
  | @symbol x v hx =>
    have hoperands : F.operands b [x] = [s] := by
      rw [operands, List.filterMap_cons, hx, hv, Option.bind_some, hF.member?.mpr rfl]
      rfl
    exact hoperands ▸ hP.single s
  | @binary op l r v w u hl hr h ihl ihr =>
    subst hv
    rw [Formula.Expr.mentions, operands_append]
    cases hF.binary h with
    | members h => exact hP.zipWith (ihl rfl) (ihr rfl) h
    | memberNumber s y =>
      rw [operands_eq_nil hF hr hscalar, List.append_nil]
      exact hP.map (ihl rfl)
    | numberMember x t =>
      rw [operands_eq_nil hF hl hscalar, List.nil_append]
      exact hP.map (ihr rfl)
    | memberArray h =>
      rw [operands_eq_nil hF hr .refl, List.append_nil]
      exact hP.zipArray (ihl rfl) h
    | arrayMember h =>
      rw [operands_eq_nil hF hl .refl, List.nil_append]
      exact hP.zipArray (ihr rfl) h
  | negate _ h ih =>
    subst hv
    obtain ⟨t, ht, rfl⟩ := hF.unary h
    exact hP.map (ih ht)
  | call _ _ h ih =>
    subst hv
    obtain ⟨t, ht, rfl⟩ := hF.unary h
    exact hP.map (ih ht)

/-- **What arithmetic keeps holds of every formula.** -/
theorem Keeps.evaluateIn {f : Formula} (hP : F.Keeps P) (hF : F.Lawful)
    (h : f.evaluateIn ⟨b, functions⟩ = .ok (F.value s)) : P (F.operands b f.symbols) s := by
  have hevaluates := Formula.Expr.eval_eq_ok_iff.mp h
  refine hP.congr (fun t => ?_) (hP.evaluates hF hevaluates rfl)
  simp only [mem_operands_iff hF, Formula.mem_symbols]

end Family

end BandMath
