/-
# Values, element by element

Numbers, arrays, series and labeled arrays have their elements at hand (`HasElements`); a number is
an array without axes.  Over such values a formula does nothing but evaluate itself at every
position: the element of its value at `p` is what it gives over numbers, every symbol being bound to
the element that its value contributes at `p` (`evaluateIn_elements`).

* Every pair of kinds that can be combined is combined element by element, in the order of the
  operands (`binary_elements`).  This is the only place that looks at kinds.
* Shapes only grow on the way up the tree, so a position of the result is one of every operand by
  projection, and the projections compose (`project_project`).

The induction is on the evaluation and has to say more than the result does.  It is about every
position of every larger shape, because an operand is looked at through the shape of the whole
(`ElementsOf`).

A formula of plain numbers only is a case of its own: it has a value whenever the formula over
floats has one, and fails with the same error (`simulates_scalar`).
-/
import BandMath.Proofs.Formula.Simulation
import BandMath.Proofs.Labeled.Fitting
import BandMath.Value.Arithmetic

namespace BandMath.Value

open Formula NDArray Position

/-! ## 1. Elements -/

/-- The value has its elements at hand, and they are those of the array.  A series has to have one
label per row. -/
inductive HasElements : Value → NDArray → Prop
  | scalar (x : Float) : HasElements (.scalar x) (.fill [] x)
  | array (a : NDArray) : HasElements (.array a) a
  | series {s : Series} (h : s.Fits) : HasElements (.series s) s.array
  | labeledArray (a : LabeledArray) : HasElements (.labeledArray a) a.data

variable {v w u : Value} {a b c : NDArray} {op : BinaryOp}

/-- The elements of a value, if it has them at hand. -/
def elements? : Value → Option NDArray
  | scalar x => some (fill [] x)
  | array a => some a
  | series s => some s.array
  | labeledArray a => some a.data
  | _ => none

theorem HasElements.elements?_eq (h : v.HasElements a) : v.elements? = some a := by
  cases h <;> rfl

/-! ## 2. Operators -/

/-- **Operators work element by element**, whatever the kinds of the operands and with the left
element on the left. -/
theorem binary_elements (hv : v.HasElements a) (hw : w.HasElements b)
    (h : binary op v w = .ok u) : ∃ c, u.HasElements c ∧ Pointwise op.apply a b c := by
  cases hv with
  | scalar x =>
    cases hw with
    | scalar y =>
      obtain rfl := Except.ok.inj h
      exact ⟨_, .scalar _, fill_pointwise op.apply x y⟩
    | array b =>
      obtain rfl := Except.ok.inj h
      exact ⟨_, .array _, map_pointwise_left op.apply x b⟩
    | @series t ht =>
      obtain rfl := Except.ok.inj h
      refine ⟨_, .series (Series.fits_map ht _), ?_⟩
      rw [Series.array_map]
      exact map_pointwise_left op.apply x t.array
    | labeledArray r =>
      obtain rfl := Except.ok.inj h
      exact ⟨_, .labeledArray _, map_pointwise_left op.apply x r.data⟩
  | array a =>
    cases hw with
    | scalar y =>
      obtain rfl := Except.ok.inj h
      exact ⟨_, .array _, map_pointwise_right op.apply a y⟩
    | array b =>
      obtain ⟨c, hc, rfl⟩ := map_eq_ok_iff.mp h
      exact ⟨c, .array c, zipWith_pointwise hc⟩
    | @series t ht =>
      obtain ⟨s, hs, rfl⟩ := map_eq_ok_iff.mp h
      have hc := (Series.zipArray_eq_ok hs).1
      exact ⟨_, .series (Series.fits_zipArray ht hs), (zipWith_pointwise hc).flip⟩
    | labeledArray r =>
      obtain ⟨t, ht, rfl⟩ := map_eq_ok_iff.mp h
      obtain ⟨-, hc, -⟩ := LabeledArray.zipArray_eq_ok ht
      exact ⟨_, .labeledArray t, (zipWith_pointwise hc).flip⟩
  | @series s hs =>
    cases hw with
    | scalar y =>
      obtain rfl := Except.ok.inj h
      refine ⟨_, .series (Series.fits_map hs _), ?_⟩
      rw [Series.array_map]
      exact map_pointwise_right op.apply s.array y
    | array b =>
      obtain ⟨t, ht, rfl⟩ := map_eq_ok_iff.mp h
      have hc := (Series.zipArray_eq_ok ht).1
      exact ⟨_, .series (Series.fits_zipArray hs ht), zipWith_pointwise hc⟩
    | @series t ht =>
      obtain ⟨r, hr, rfl⟩ := map_eq_ok_iff.mp h
      have hc := Series.array_zipWith hs ht hr
      exact ⟨_, .series (Series.fits_zipWith hs ht hr), zipWith_pointwise hc⟩
    | labeledArray r => exact nomatch h
  | labeledArray l =>
    cases hw with
    | scalar y =>
      obtain rfl := Except.ok.inj h
      exact ⟨_, .labeledArray _, map_pointwise_right op.apply l.data y⟩
    | array b =>
      obtain ⟨t, ht, rfl⟩ := map_eq_ok_iff.mp h
      obtain ⟨-, hc, -⟩ := LabeledArray.zipArray_eq_ok ht
      exact ⟨_, .labeledArray t, zipWith_pointwise hc⟩
    | series ht => exact nomatch h
    | labeledArray r =>
      obtain ⟨t, ht, rfl⟩ := map_eq_ok_iff.mp h
      obtain ⟨-, -, -, hc, -⟩ := LabeledArray.zipWith_eq_ok ht
      exact ⟨_, .labeledArray t, zipWith_pointwise hc⟩

theorem unary_elements {op : UnaryOp} (hv : v.HasElements a) (h : unary op v = .ok u) :
    u.HasElements (a.map op.apply) := by
  cases hv with
  | scalar x =>
    obtain rfl := Except.ok.inj h
    rw [map_fill]
    exact .scalar _
  | array a =>
    obtain rfl := Except.ok.inj h
    exact .array _
  | @series s hs =>
    obtain rfl := Except.ok.inj h
    rw [← Series.array_map]
    exact .series (Series.fits_map hs _)
  | labeledArray l =>
    obtain rfl := Except.ok.inj h
    exact .labeledArray (l.map op.apply)

/-! ## 3. Formulas -/

/-- What the values of the symbols contribute at a position: each the element at the projection of
that position to its own shape. -/
def contributions (b : Bindings Value) (p : List Nat) : Bindings Float :=
  b.filterMap fun _ w => w.elements?.map fun c => c.get (project c.shape p)

theorem getElem?_contributions {b : Bindings Value} {x : String} (hx : b[x]? = some w)
    (hw : w.HasElements c) (p : List Nat) :
    (contributions b p)[x]? = some (c.get (project c.shape p)) := by
  rw [contributions, Std.ExtTreeMap.getElem?_filterMap', hx, Option.bind_some, hw.elements?_eq,
    Option.map_some]

/-- The array holds what the expression gives element by element.  The second part is about every
shape that the array stretches to, so that it can be used when the array is an operand. -/
structure ElementsOf (b : Bindings Value) (functions : List Function) (e : Expr) (a : NDArray) :
    Prop where
  symbols : ∀ x ∈ e.mentions,
    ∃ w c, b[x]? = some w ∧ w.HasElements c ∧ stretches c.shape a.shape = true
  eval : ∀ {t p}, stretches a.shape t = true → Within t p →
    e.eval ⟨contributions b p, functions⟩ = .ok (a.get (project a.shape p))

section Formulas

variable {bindings : Bindings Value} {functions : List Function} {l r e : Expr}

theorem ElementsOf.binary (hl : ElementsOf bindings functions l a)
    (hr : ElementsOf bindings functions r b) (h : Pointwise op.apply a b c) :
    ElementsOf bindings functions (.binary op l r) c := by
  refine ⟨fun x hx => ?_, fun {t p} ht hp => ?_⟩
  · rcases List.mem_append.mp hx with hx | hx
    · obtain ⟨w, d, hw, hd, hs⟩ := hl.symbols x hx
      exact ⟨w, d, hw, hd, stretches_trans hs h.left⟩
    · obtain ⟨w, d, hw, hd, hs⟩ := hr.symbols x hx
      exact ⟨w, d, hw, hd, stretches_trans hs h.right⟩
  · have hleft := hl.eval (stretches_trans h.left ht) hp
    have hright := hr.eval (stretches_trans h.right ht) hp
    rw [Expr.eval, hleft, hright, h.get _ (within_project ht hp), project_project h.left ht hp,
      project_project h.right ht hp]
    rfl

theorem ElementsOf.map (he : ElementsOf bindings functions e a) (f : Float → Float) {g : Expr}
    (hg : g.mentions = e.mentions)
    (hf : ∀ p x, e.eval ⟨contributions bindings p, functions⟩ = .ok x →
      g.eval ⟨contributions bindings p, functions⟩ = .ok (f x)) :
    ElementsOf bindings functions g (a.map f) := by
  refine ⟨fun x hx => he.symbols x (hg ▸ hx), fun {t p} ht hp => ?_⟩
  have hq : Within a.shape (project a.shape p) := within_project ht hp
  rw [hf p _ (he.eval ht hp)]
  exact congrArg Except.ok (get_map f hq).symm

/-- By induction on the evaluation; a value of a part is an operand of the whole, so the shapes of
the parts stretch to that of the whole. -/
theorem eval_elements
    (hb : ∀ x ∈ e.mentions, ∀ w, bindings[x]? = some w → ∃ c, w.HasElements c)
    (h : e.eval ⟨bindings, functions⟩ = .ok v) :
    ∃ a, v.HasElements a ∧ ElementsOf bindings functions e a := by
  have hevaluates := Expr.eval_eq_ok_iff.mp h
  clear h
  induction hevaluates with
  | number x =>
    refine ⟨_, .scalar x, fun y hy => absurd hy List.not_mem_nil, fun {t p} ht hp => ?_⟩
    exact congrArg Except.ok (get_fill x (within_project ht hp)).symm
  | @symbol x w hx =>
    obtain ⟨c, hc⟩ := hb x (List.mem_singleton.mpr rfl) w hx
    refine ⟨c, hc, fun y hy => ?_, fun {t p} ht hp => ?_⟩
    · obtain rfl := List.mem_singleton.mp hy
      exact ⟨w, c, hx, hc, stretches_refl _⟩
    · unfold Expr.eval
      rw [getElem?_contributions hx hc p]
  | binary _ _ h ihl ihr =>
    obtain ⟨al, hal, hl⟩ := ihl fun x hx => hb x (List.mem_append_left _ hx)
    obtain ⟨ar, har, hr⟩ := ihr fun x hx => hb x (List.mem_append_right _ hx)
    obtain ⟨a, ha, hpoint⟩ := binary_elements hal har h
    exact ⟨a, ha, hl.binary hr hpoint⟩
  | negate _ h ih =>
    obtain ⟨a, ha, he⟩ := ih hb
    refine ⟨_, unary_elements ha h, he.map _ rfl fun p x hx => ?_⟩
    rw [Expr.eval, hx]
    rfl
  | @call name f _ _ _ hf _ h ih =>
    obtain ⟨a, ha, he⟩ := ih hb
    refine ⟨_, unary_elements ha h, he.map _ rfl fun p x hx => ?_⟩
    have hfunction : Scope.function? ⟨contributions bindings p, functions⟩ name = some f := hf
    rw [Expr.eval, hfunction, hx]
    rfl

end Formulas

/-- Over plain numbers, values do what numbers do. -/
theorem simulates_scalar : Simulates true fun (x : Float) v => v = scalar x := by
  refine ⟨fun v => rfl, ?_, ?_⟩
  · rintro op x y _ _ rfl rfl
    exact rfl
  · rintro op x _ rfl
    exact rfl

/-- **A formula over containers is that formula at every position.**  When the formula has a value
over numbers, arrays, series and labeled arrays, the value has elements, the shape of every symbol's
value stretches to its shape, and its element at a position is what the formula gives over numbers
when each symbol is bound to what its value contributes there.  Over plain numbers the formula gives
the same number, or is refused with the same error, as over numbers. -/
theorem evaluateIn_elements (f : Formula) (functions : List Function) :
    (∀ (b : Bindings Value) (v : Value),
      (∀ x ∈ f.symbols, ∀ w, b[x]? = some w → ∃ c, w.HasElements c) →
      f.evaluateIn ⟨b, functions⟩ = .ok v →
      ∃ a, v.HasElements a ∧
        (∀ x ∈ f.symbols,
          ∃ w c, b[x]? = some w ∧ w.HasElements c ∧ stretches c.shape a.shape = true) ∧
        ∀ p, Within a.shape p → f.evaluateIn ⟨contributions b p, functions⟩ = .ok (a.get p)) ∧
    ∀ b : Bindings Float, f.evaluateIn ⟨b.map fun _ x => scalar x, functions⟩ =
      (f.evaluateIn ⟨b, functions⟩).map scalar := by
  refine ⟨fun b v hb h => ?_, fun b => ?_⟩
  · obtain ⟨a, ha, he⟩ := eval_elements (fun x hx => hb x (mem_symbols.mpr hx)) h
    refine ⟨a, ha, fun x hx => he.symbols x (mem_symbols.mp hx), fun p hp => ?_⟩
    rw [evaluateIn, he.eval (stretches_refl _) hp, project_self hp]
  · refine (evaluateIn_follows simulates_scalar f functions fun x _ => ?_).eq_map
    rw [Std.ExtTreeMap.getElem?_map]
    cases b[x]? with
    | none => exact .none
    | some y => exact .some rfl

/-- A number, a column of two rows and an array of length 1, at the second row. -/
theorem evaluateIn_elements_mixed :
    let f : Formula :=
      ⟨"(k-s)/a", .binary .divide (.binary .subtract (.symbol "k") (.symbol "s")) (.symbol "a")⟩
    let b : Bindings Value :=
      .ofPairs [("k", .scalar 10), ("s", .series (.ofList [1, 2])), ("a", .array (.ofList [4]))]
    let v : Value := .series (.ofList [(10 - 1) / 4, (10 - 2) / 4])
    (∀ x ∈ f.symbols, ∀ w, b[x]? = some w → ∃ c, w.HasElements c) ∧
      f.evaluateIn ⟨b, []⟩ = .ok v ∧
      f.evaluateIn ⟨contributions b [1], []⟩ = .ok ((10 - 2) / 4) := by
  intro f b v
  have hb : ∀ x ∈ f.symbols, ∀ w, b[x]? = some w → ∃ c, w.HasElements c := by
    intro x hx w hw
    have hx' : x ∈ ["k", "s", "a"] := hx
    rcases List.mem_cons.mp hx' with rfl | hx'
    · obtain rfl := Option.some.inj hw
      exact ⟨_, .scalar 10⟩
    rcases List.mem_cons.mp hx' with rfl | hx'
    · obtain rfl := Option.some.inj hw
      exact ⟨_, .series (Series.fits_ofList [1, 2])⟩
    · obtain rfl := List.mem_singleton.mp hx'
      obtain rfl := Option.some.inj hw
      exact ⟨_, .array (.ofList [4])⟩
  have hdifference : binary .subtract (.scalar 10) (.series (.ofList [1, 2])) =
      .ok (.series (.ofList [10 - 1, 10 - 2])) := by
    simp [binary, Series.map, Series.ofList, BinaryOp.apply]
  have hquotient : binary .divide (.series (.ofList [10 - 1, 10 - 2])) (.array (.ofList [4])) =
      .ok v := by
    simp [v, binary, Series.zipArray, NDArray.zipWith, commonShape?, stretches, project, ofFn,
      NDArray.get, ofOffset, offset, count, Series.ofList, Series.array, Series.length,
      NDArray.ofList, Array.ofFn_succ, BinaryOp.apply]
  have hv : f.evaluateIn ⟨b, []⟩ = .ok v := by
    calc f.evaluateIn ⟨b, []⟩
        = (binary .subtract (.scalar 10) (.series (.ofList [1, 2])) >>= fun d =>
            binary .divide d (.array (.ofList [4]))) := rfl
      _ = .ok v := by rw [hdifference, ok_bind, hquotient]
  obtain ⟨a, ha, -, hp⟩ := (evaluateIn_elements f []).1 b v hb hv
  obtain rfl := Option.some.inj ha.elements?_eq
  exact ⟨hb, hv, hp [1] ⟨Nat.one_lt_two, trivial⟩⟩

end BandMath.Value
