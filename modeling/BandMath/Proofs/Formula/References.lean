/-
# Names in the text of a formula

A formula uses a name in one of two ways: a name that an opening parenthesis follows calls a
function, and any other is a symbol.  Both can be read off the tokens of the text (`references`),
and the tree has the same names from left to right (`references_of_derives`): the grammar neither
drops a name nor moves one.

Names are looked up in this order, each before anything to the right of it is looked at.  Arithmetic
on numbers is never refused, so nothing else can go wrong: over numbers a formula fails at the first
name of its text that the scope does not resolve (`evaluateIn_references`).

The order of look-ups is the one in `Expr.eval`: the name of a function is looked up before its
argument, and a left operand before a right one.  This is the order of the tokens, except that the
text is read and not the tree; that they agree is the first half of this module.

`Total` is what is used of numbers, so the second half holds of any operands that never refuse.
Over other operands an operator may be refused before a name on its right is looked at.
-/
import BandMath.Formula.Evaluation
import BandMath.Proofs.Formula.Acceptance

namespace BandMath.Formula

/-! ## 1. Names in tokens and in trees -/

/-- A name where a formula uses it, to call a function or as a symbol. -/
structure Reference where
  name : String
  isCall : Bool
  deriving DecidableEq

/-- The names among some tokens, in order. -/
def references : List Token → List Reference
  | [] => []
  | .name x :: ts => ⟨x, ts.head? = some .openParen⟩ :: references ts
  | _ :: ts => references ts

/-- The names in a tree, from left to right; that of a function comes before its argument. -/
def Expr.references : Expr → List Reference
  | number _ => []
  | symbol name => [⟨name, false⟩]
  | binary _ left right => left.references ++ right.references
  | negate inner => inner.references
  | call function argument => ⟨function, true⟩ :: argument.references

/-- The names of the functions that are called, in the order in which they are looked up. -/
def Expr.calls : Expr → List String
  | number _ => []
  | symbol _ => []
  | binary _ left right => left.calls ++ right.calls
  | negate inner => inner.calls
  | call function argument => function :: argument.calls

theorem Expr.mentions_eq (e : Expr) :
    e.mentions = (e.references.filter fun r => !r.isCall).map (·.name) := by
  induction e with
  | number v => rfl
  | symbol x => rfl
  | binary op l r ihl ihr => simp only [mentions, references, List.filter_append, List.map_append,
      ihl, ihr]
  | negate e ih => exact ih
  | call f e ih => simpa [mentions, references] using ih

theorem Expr.mem_mentions_iff {e : Expr} {x : String} :
    x ∈ e.mentions ↔ ⟨x, false⟩ ∈ e.references := by
  rw [mentions_eq, List.mem_map]
  constructor
  · rintro ⟨⟨y, isCall⟩, hy, rfl⟩
    obtain ⟨hmem, hsymbol⟩ := List.mem_filter.mp hy
    obtain rfl : isCall = false := by simpa using hsymbol
    exact hmem
  · exact fun hx => ⟨⟨x, false⟩, List.mem_filter.mpr ⟨hx, rfl⟩, rfl⟩

theorem Expr.calls_eq (e : Expr) : e.calls = (e.references.filter (·.isCall)).map (·.name) := by
  induction e with
  | number v => rfl
  | symbol x => rfl
  | binary op l r ihl ihr => simp only [calls, references, List.filter_append, List.map_append,
      ihl, ihr]
  | negate e ih => exact ih
  | call f e ih => simpa [calls, references] using ih

/-- Tokens that are put behind others do not change the names before them, unless they turn a last
name into a call. -/
theorem references_append {ts us : List Token} (h : us.head? ≠ some .openParen) :
    references (ts ++ us) = references ts ++ references us := by
  induction ts with
  | nil => rfl
  | cons t ts ih =>
    cases t with
    | name x =>
      have hhead : decide ((ts ++ us).head? = some .openParen) =
          decide (ts.head? = some .openParen) := by
        cases ts with
        | nil => simpa using h
        | cons u ts => rfl
      simp only [List.cons_append, references, hhead, ih]
    | _ => exact ih

theorem references_append_closeParen (ts : List Token) :
    references (ts ++ [.closeParen]) = references ts := by
  rw [references_append (by simp), references, references, List.append_nil]
  exact fun _ hname => nomatch hname

/-- **The names of a derivation are those of its tree, in the same order.**  By induction on the
derivation; what joins two of its parts is never an opening parenthesis. -/
theorem references_of_derives {nt : Nonterminal} {n : Nat} {ts : List Token} {e : Expr}
    (h : Derives nt n ts e) : references ts = e.references := by
  induction h with
  | sum _ ih | product _ ih | unsigned _ ih | base _ ih | negate _ ih | posit _ ih => exact ih
  | number v => rfl
  | name x => rfl
  | add _ _ ihl ihr | subtract _ _ ihl ihr | multiply _ _ ihl ihr | divide _ _ ihl ihr
  | raise _ _ ihl ihr =>
    rw [references_append (by simp), references, ihl, ihr, Expr.references]
    exact fun _ hname => nomatch hname
  | call f _ ih => simp [references, references_append_closeParen, Expr.references, ih]
  | parens _ ih => simp [references, references_append_closeParen, ih]

/-- The names of a formula are those of the text that it was read from. -/
theorem exists_references {text : String} {f : Formula} (h : parse text = .ok f) :
    ∃ ls, lexemes text.toList = .ok ls ∧
      references (ls.map (·.token)) = f.expr.references := by
  obtain ⟨ls, hls, hread, -⟩ := expr_of_parse h
  obtain ⟨⟨n, -, hderives⟩, -⟩ := formed_of_ofLexemes hread
  exact ⟨ls, hls, references_of_derives hderives⟩

/-! ## 2. What a scope resolves -/

variable {α : Type}

/-- The scope offers the function of that name, or binds the symbol. -/
def Scope.Resolves (s : Scope α) (r : Reference) : Prop :=
  if r.isCall then ∃ f ∈ s.functions, f.name = r.name else r.name ∈ s.bindings

instance (s : Scope α) (r : Reference) : Decidable (s.Resolves r) :=
  inferInstanceAs (Decidable (if r.isCall then _ else _))

theorem Scope.resolves_symbol_iff {s : Scope α} {x : String} :
    s.Resolves ⟨x, false⟩ ↔ x ∈ s.bindings := Iff.rfl

theorem Scope.resolves_call_iff {s : Scope α} {name : String} :
    s.Resolves ⟨name, true⟩ ↔ (s.function? name).isSome = true := by
  simp [Resolves, function?]

/-! ## 3. Operands that never refuse -/

variable [Operand α]

/-- Every operator has a value on every operand. -/
structure Total (α : Type) [Operand α] : Prop where
  binary : ∀ (op : BinaryOp) (x y : α), ∃ z, Operand.binary op x y = .ok z
  unary : ∀ (op : UnaryOp) (x : α), ∃ z, Operand.unary op x = .ok z

theorem total_float : Total Float where
  binary _ _ _ := ⟨_, rfl⟩
  unary _ _ := ⟨_, rfl⟩

/-- A computation whose result always goes through is refused only for its own reasons. -/
theorem refusal?_bind_of_total {β γ : Type} {x : Except Error β} {f : β → Except Error γ}
    (hf : ∀ v, ∃ w, f v = .ok w) : refusal? (x >>= f) = refusal? x := by
  cases x with
  | error e => rfl
  | ok v =>
    obtain ⟨w, hw⟩ := hf v
    rw [ok_bind, hw]
    rfl

/-- **An expression fails at its first name that the scope does not resolve, and not otherwise.**
By induction on the expression; the operands of an operator are evaluated from left to right, and a
function is looked up before its argument is evaluated. -/
theorem Expr.refusal?_eval (hα : Total α) (s : Scope α) (e : Expr) :
    refusal? (e.eval s) =
      (e.references.find? fun r => ¬ s.Resolves r).map fun r => .undefinedSymbol r.name := by
  induction e with
  | number v => rfl
  | symbol x =>
    rw [Expr.eval, Expr.references, List.find?_singleton]
    cases hx : s.bindings[x]? with
    | none =>
      have hlacks : ¬ s.Resolves ⟨x, false⟩ := by simpa [Scope.resolves_symbol_iff] using hx
      simp [hlacks]
    | some v =>
      have hmem : x ∈ s.bindings := by simp [Std.ExtTreeMap.mem_iff_isSome_getElem?, hx]
      have hbound : s.Resolves ⟨x, false⟩ := Scope.resolves_symbol_iff.mpr hmem
      simp [hbound]
  | binary op l r ihl ihr =>
    rw [Expr.eval, Expr.references, List.find?_append]
    cases hv : l.eval s with
    | error e =>
      rw [hv, refusal?_error] at ihl
      obtain ⟨r, hr, rfl⟩ := Option.map_eq_some_iff.mp ihl.symm
      rw [hr]
      rfl
    | ok v =>
      rw [hv, refusal?_ok] at ihl
      rw [ok_bind, refusal?_bind_of_total fun w => hα.binary op v w, ihr,
        Option.map_eq_none_iff.mp ihl.symm, Option.none_or]
  | negate e ih =>
    rw [Expr.eval, refusal?_bind_of_total fun v => hα.unary .negate v, ih]
    rfl
  | call name e ih =>
    rw [Expr.eval, Expr.references, List.find?_cons]
    cases hf : s.function? name with
    | none =>
      have hlacks : ¬ s.Resolves ⟨name, true⟩ := by simp [Scope.resolves_call_iff, hf]
      simp [hlacks]
    | some f =>
      have hoffered : s.Resolves ⟨name, true⟩ := by simp [Scope.resolves_call_iff, hf]
      simpa [hoffered] using (refusal?_bind_of_total fun v => hα.unary f.op v).trans ih

/-- **A formula over numbers has a value iff all names of its text resolve, and otherwise fails at
the first one that does not.**  No name to the right of that one makes a difference. -/
theorem evaluateIn_references {text : String} {f : Formula} (h : parse text = .ok f) :
    ∃ ls, lexemes text.toList = .ok ls ∧ ∀ s : Scope Float,
      ((∃ v, f.evaluateIn s = .ok v) ↔ ∀ r ∈ references (ls.map (·.token)), s.Resolves r) ∧
      ∀ e, f.evaluateIn s = .error e ↔
        ∃ before r after, references (ls.map (·.token)) = before ++ r :: after ∧
          (∀ q ∈ before, s.Resolves q) ∧ ¬ s.Resolves r ∧ e = .undefinedSymbol r.name := by
  obtain ⟨ls, hls, hnames⟩ := exists_references h
  refine ⟨ls, hls, fun s => ?_⟩
  have hrefusal : refusal? (f.evaluateIn s) = _ := Expr.refusal?_eval total_float s f.expr
  rw [← hnames] at hrefusal
  constructor
  · rw [← refusal?_eq_none_iff, hrefusal, Option.map_eq_none_iff, List.find?_eq_none]
    simp
  · intro e
    rw [← refusal?_eq_some_iff, hrefusal, Option.map_eq_some_iff]
    constructor
    · rintro ⟨r, hr, rfl⟩
      obtain ⟨hlacks, before, after, heq, hbefore⟩ := List.find?_eq_some_iff_append.mp hr
      exact ⟨before, r, after, heq, by simpa using hbefore, by simpa using hlacks, rfl⟩
    · rintro ⟨before, r, after, heq, hbefore, hlacks, rfl⟩
      exact ⟨r, List.find?_eq_some_iff_append.mpr
        ⟨by simpa using hlacks, before, after, heq, by simpa using hbefore⟩, rfl⟩

/-- A call around a sum: the function is missed before the symbol that its argument lacks. -/
theorem evaluateIn_references_nested :
    let b : Bindings Float := .ofPairs [("a", 1), ("c", 2)]
    let f : Formula := ⟨"exp(a+b)*c", .binary .multiply
      (.call "exp" (.binary .add (.symbol "a") (.symbol "b"))) (.symbol "c")⟩
    parse "exp(a + b) * c" = .ok f ∧
      (∃ v, f.evaluateIn ⟨b.insert "b" 3, [.exp]⟩ = .ok v) ∧
      f.evaluateIn ⟨b, [.exp]⟩ = .error (.undefinedSymbol "b") ∧
      f.evaluateIn ⟨b, []⟩ = .error (.undefinedSymbol "exp") := by
  intro b f
  have hf : parse "exp(a + b) * c" = .ok f := by decide +kernel
  obtain ⟨ls, hls, hvalue⟩ := evaluateIn_references hf
  have hreferences : references (ls.map (·.token)) =
      [⟨"exp", true⟩, ⟨"a", false⟩, ⟨"b", false⟩, ⟨"c", false⟩] := by
    have hread : (lexemes "exp(a + b) * c".toList).map (fun ls => references (ls.map (·.token))) =
        .ok [⟨"exp", true⟩, ⟨"a", false⟩, ⟨"b", false⟩, ⟨"c", false⟩] := by decide +kernel
    rw [hls, map_ok] at hread
    exact Except.ok.inj hread
  rw [hreferences] at hvalue
  refine ⟨hf, (hvalue _).1.mpr (by decide +kernel), ?_, ?_⟩
  · exact ((hvalue _).2 _).mpr ⟨[⟨"exp", true⟩, ⟨"a", false⟩], ⟨"b", false⟩, [⟨"c", false⟩], rfl,
      by decide +kernel, by decide +kernel, rfl⟩
  · exact ((hvalue _).2 _).mpr ⟨[], ⟨"exp", true⟩, [⟨"a", false⟩, ⟨"b", false⟩, ⟨"c", false⟩], rfl,
      by decide +kernel, by decide +kernel, rfl⟩

end BandMath.Formula
