/-
# Formulas over related operands

What an expression evaluates to is given by five rules, one for each way to build it
(`eval_eq_ok_iff`), so whatever the rules keep holds of every value.

A formula uses its operands only through their operators.  So when the operators of two operand
types keep a relation, every formula does: over related bindings its two values are related
(`eval_follows`).

`Simulates` has a flag.  If it is set, refusals are kept as well: where the first operand type
refuses, so does the second, with the same error.  If it is not set, only values are followed from
the first type to the second.  The two are used for different things, executors and deferred values,
and have one proof.

The rules are used where a property of the value alone is at stake, such as its kind or its labels.
Induction on them has no cases for failures, as only what has a value has it by a rule.

Taken for equality, the same theorem says that a formula depends on its symbols only
(`evaluateIn_congr`).
-/
import BandMath.Formula.Evaluation
import BandMath.Proofs.Fallible

namespace BandMath.Formula

variable {α β : Type} [Operand α] [Operand β]

/-! ## 1. Evaluation by rules -/

/-- The rules by which an expression gets a value: one for each way to build an expression. -/
inductive Expr.Evaluates (s : Scope α) : Expr → α → Prop
  | number (x : Float) : Evaluates s (.number x) (Operand.constant x)
  | symbol {x : String} {v : α} (h : s.bindings[x]? = some v) : Evaluates s (.symbol x) v
  | binary {op : BinaryOp} {l r : Expr} {v w u : α} (hl : Evaluates s l v) (hr : Evaluates s r w)
      (h : Operand.binary op v w = .ok u) : Evaluates s (.binary op l r) u
  | negate {e : Expr} {v u : α} (he : Evaluates s e v) (h : Operand.unary .negate v = .ok u) :
      Evaluates s (.negate e) u
  | call {name : String} {f : Function} {e : Expr} {v u : α} (hf : s.function? name = some f)
      (he : Evaluates s e v) (h : Operand.unary f.op v = .ok u) : Evaluates s (.call name e) u

/-- **The rules give the values that an expression has, and no others.** -/
theorem Expr.eval_eq_ok_iff {s : Scope α} {e : Expr} {v : α} :
    e.eval s = .ok v ↔ e.Evaluates s v := by
  constructor
  · intro h
    induction e generalizing v with
    | number x =>
      obtain rfl := Except.ok.inj h
      exact .number x
    | symbol x =>
      unfold Expr.eval at h
      split at h
      · rename_i w hw
        obtain rfl := Except.ok.inj h
        exact .symbol hw
      · exact nomatch h
    | binary op l r ihl ihr =>
      unfold Expr.eval at h
      obtain ⟨vl, hl, h⟩ := bind_eq_ok_iff.mp h
      obtain ⟨vr, hr, h⟩ := bind_eq_ok_iff.mp h
      exact .binary (ihl hl) (ihr hr) h
    | negate e ih =>
      unfold Expr.eval at h
      obtain ⟨w, hw, h⟩ := bind_eq_ok_iff.mp h
      exact .negate (ih hw) h
    | call name e ih =>
      unfold Expr.eval at h
      split at h
      · exact nomatch h
      · rename_i f hf
        obtain ⟨w, hw, h⟩ := bind_eq_ok_iff.mp h
        exact .call hf (ih hw) h
  · intro h
    induction h with
    | number x => rfl
    | symbol h => simp only [Expr.eval, h]
    | binary _ _ h ihl ihr => simp only [Expr.eval, ihl, ihr, ok_bind, h]
    | negate _ h ih => simp only [Expr.eval, ih, ok_bind, h]
    | call hf _ h ih => simp only [Expr.eval, hf, ih, ok_bind, h]

/-! ## 2. Related operands -/

/-- The operators of the second type follow those of the first along `R`. -/
structure Simulates (exactly : Bool) (R : α → β → Prop) : Prop where
  constant : ∀ v, R (Operand.constant v) (Operand.constant v)
  binary : ∀ {op x y x' y'}, R x x' → R y y' →
    Follows exactly R (Operand.binary op x y) (Operand.binary op x' y')
  unary : ∀ {op x x'}, R x x' → Follows exactly R (Operand.unary op x) (Operand.unary op x')

/-- **A formula keeps what its operators keep.**  By induction on the expression; only the symbols
that it mentions have to be related. -/
theorem Expr.eval_follows {exactly : Bool} {R : α → β → Prop} (hR : Simulates exactly R)
    {s : Scope α} {t : Scope β} (hf : s.functions = t.functions) (e : Expr)
    (hb : ∀ x ∈ e.mentions, Option.Rel R s.bindings[x]? t.bindings[x]?) :
    Follows exactly R (e.eval s) (e.eval t) := by
  induction e with
  | number v => exact hR.constant v
  | symbol x =>
    have hx := hb x (List.mem_singleton.mpr rfl)
    unfold Expr.eval
    generalize s.bindings[x]? = v? at hx ⊢
    generalize t.bindings[x]? = w? at hx ⊢
    cases hx with
    | none => exact fun _ => rfl
    | some h => exact h
  | binary op l r ihl ihr =>
    unfold Expr.eval
    refine (ihl fun x hx => hb x (List.mem_append_left _ hx)).bind fun v w hvw => ?_
    exact (ihr fun x hx => hb x (List.mem_append_right _ hx)).bind fun v' w' hvw' =>
      hR.binary hvw hvw'
  | negate e ih =>
    unfold Expr.eval
    exact (ih hb).bind fun v w hvw => hR.unary hvw
  | call f e ih =>
    unfold Expr.eval
    rw [show t.function? f = s.function? f by rw [Scope.function?, Scope.function?, hf]]
    cases s.function? f with
    | none => exact fun _ => rfl
    | some g => exact (ih hb).bind fun v w hvw => hR.unary hvw

theorem simulates_eq : Simulates true (@Eq α) where
  constant _ := rfl
  binary hx hy := hx ▸ hy ▸ Follows.refl _
  unary hx := hx ▸ Follows.refl _

/-- The symbols of a formula are those that its expression mentions. -/
theorem mem_symbols {f : Formula} {x : String} : x ∈ f.symbols ↔ x ∈ f.expr.mentions :=
  List.mem_eraseDups

/-- The same for the value of a formula. -/
theorem evaluateIn_follows {exactly : Bool} {R : α → β → Prop} (hR : Simulates exactly R)
    (f : Formula) (functions : List Function) {b : Bindings α} {b' : Bindings β}
    (hb : ∀ x ∈ f.symbols, Option.Rel R b[x]? b'[x]?) :
    Follows exactly R (f.evaluateIn ⟨b, functions⟩) (f.evaluateIn ⟨b', functions⟩) :=
  Expr.eval_follows hR rfl f.expr fun x hx => hb x (mem_symbols.mpr hx)

/-- A formula depends on its symbols only. -/
theorem evaluateIn_congr (f : Formula) (functions : List Function) {b b' : Bindings α}
    (h : ∀ x ∈ f.symbols, b[x]? = b'[x]?) :
    f.evaluateIn ⟨b, functions⟩ = f.evaluateIn ⟨b', functions⟩ := by
  refine (evaluateIn_follows simulates_eq f functions fun x hx => ?_).eq
  rw [h x hx]
  cases b'[x]? with
  | none => exact .none
  | some v => exact .some rfl

end BandMath.Formula
