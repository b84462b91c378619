/-
# What arithmetic is refused for

A batch asks for indices by name and needs a value for each symbol that they require.  Two errors
are about this: a name without a definition and a symbol without a value (`Error.aboutRequest`).  No
operation on values gives either of them, whatever the kinds and the shapes of its operands are, and
neither does the combination of results (`BlamesValues`).  So an error of one of these two forms
tells that nothing was evaluated at all.

The proof goes through all operations once.  Each refuses for a reason in its definition, and none
of these reasons is about a request.  To say so for computations that are put together there are
four rules (`BlamesValues.error`, `test`, `map` and `bind`), and with them most of the lemmas follow
their definitions line by line.

The one thing that formulas add is a name that is not in scope.  This is an error of the formula
(`undefinedSymbol`) and not of the request, even if the name is a symbol that nobody has bound: in a
batch it would have been found missing before.
-/
import BandMath.Proofs.Combination.Refusal
import BandMath.Value.Arithmetic

namespace BandMath

variable {α β : Type}

/-! ## 1. Errors about a request -/

/-- Whether an error is about what was asked for, and not about values. -/
def Error.aboutRequest : Error → Bool
  | unknownIndex _ | missingSymbol _ _ => true
  | _ => false

/-- If the computation is refused, it is not for what was asked for. -/
structure BlamesValues (x : Except Error α) : Prop where
  reason : ∀ e, x = .error e → e.aboutRequest = false

namespace BlamesValues

variable {x : Except Error α}

theorem ok (a : α) : BlamesValues (.ok a) := ⟨fun _ h => nomatch h⟩

theorem error {e : Error} (h : e.aboutRequest = false) :
    BlamesValues (.error e : Except Error α) := by
  refine ⟨fun e' he' => ?_⟩
  rwa [← Except.error.inj he']

/-- A test that refuses what does not pass it. -/
theorem test {p : Prop} [Decidable p] (a : α) {e : Error} (h : e.aboutRequest = false) :
    BlamesValues (if p then .ok a else .error e) := by
  split
  · exact ok a
  · exact error h

theorem map {f : α → β} (hx : BlamesValues x) : BlamesValues (x.map f) := by
  cases x with
  | error e => exact error (hx.reason e rfl)
  | ok a => exact ok (f a)

theorem bind {f : α → Except Error β} (hx : BlamesValues x) (hf : ∀ a, BlamesValues (f a)) :
    BlamesValues (x >>= f) := by
  cases x with
  | error e => exact error (hx.reason e rfl)
  | ok a => exact hf a

/-- An error about the request comes from the step before. -/
theorem bind_eq_error_iff {f : α → Except Error β} {e : Error} (he : e.aboutRequest = true)
    (hf : ∀ a, BlamesValues (f a)) : (x >>= f) = .error e ↔ x = .error e := by
  cases x with
  | error e' => simp
  | ok a =>
    refine ⟨fun h => ?_, fun h => nomatch h⟩
    exact Bool.noConfusion (he.symm.trans ((hf a).reason e h))

end BlamesValues

/-! ## 2. Arrays and labeled arrays -/

section Labeled

variable (f : Float → Float → Float)

theorem NDArray.blamesValues_zipWith (a b : NDArray) : BlamesValues (zipWith f a b) := by
  unfold zipWith
  split
  · exact .ok _
  · exact .error rfl

theorem NDArray.blamesValues_stack (first : NDArray) (others : List NDArray) :
    BlamesValues (stack first others) := by
  unfold stack
  exact .test _ rfl

theorem NDArray.blamesValues_join (axis : Nat) (first : NDArray) (others : List NDArray) :
    BlamesValues (join axis first others) := by
  unfold join
  exact .test _ rfl

theorem Series.blamesValues_zipWith (s t : Series) : BlamesValues (s.zipWith f t) := by
  unfold zipWith
  exact .test _ rfl

theorem Series.blamesValues_zipArray (s : Series) (a : NDArray) :
    BlamesValues (s.zipArray f a) := by
  unfold zipArray
  split
  · exact .test _ rfl
  · rename_i e he
    exact .error ((NDArray.blamesValues_zipWith f s.array a).reason e he)

theorem Frame.blamesValues_ofSeries (names : List String) (series : List Series) :
    BlamesValues (ofSeries names series) := by
  unfold ofSeries
  dsimp only
  split
  · exact .error rfl
  · exact .test _ rfl

theorem Coordinates.blamesValues_merge (left right : Coordinates) :
    BlamesValues (left.merge right) := by
  unfold merge
  split
  · exact .error rfl
  · exact .ok _

namespace LabeledArray

theorem blamesValues_axis (a : LabeledArray) (dim : String) : BlamesValues (a.axis dim) := by
  unfold axis
  split
  · exact .ok _
  · exact .error rfl

theorem blamesValues_withCoord (a : LabeledArray) (dim : String) (labels : List String) :
    BlamesValues (a.withCoord dim labels) := by
  refine (a.blamesValues_axis dim).bind fun i => ?_
  exact .test _ rfl

theorem blamesValues_zipArray (a : LabeledArray) (b : NDArray) :
    BlamesValues (a.zipArray f b) := by
  unfold zipArray
  split
  · exact .error rfl
  · exact (NDArray.blamesValues_zipWith f a.data b).bind fun _ => .ok _

theorem blamesValues_zipWith (a b : LabeledArray) : BlamesValues (a.zipWith f b) := by
  unfold zipWith
  dsimp only
  split
  · exact .error rfl
  · split
    · exact .error rfl
    · refine (Coordinates.blamesValues_merge a.coords b.coords).bind fun _ => ?_
      exact (NDArray.blamesValues_zipWith f a.data b.data).bind fun _ => .ok _

theorem blamesValues_concat (arrays : List LabeledArray) (dim : String) :
    BlamesValues (concat arrays dim) := by
  unfold concat
  split
  · exact .error rfl
  · split
    · exact .error rfl
    · dsimp only
      split
      · exact (NDArray.blamesValues_join ..).bind fun _ => .ok _
      · exact (NDArray.blamesValues_stack ..).bind fun _ => .ok _

end LabeledArray

end Labeled

/-! ## 3. Deferred arrays and columns -/

section Deferred

variable (op : BinaryOp)

namespace LazyArray

theorem blamesValues_binary (a b : LazyArray) : BlamesValues (a.binary op b) := by
  unfold binary
  split
  · exact .error rfl
  · split
    · exact .error rfl
    · exact .ok _

theorem blamesValues_sourceLike (a : LazyArray) (b : NDArray) :
    BlamesValues (a.sourceLike b) := by
  unfold sourceLike
  exact .test _ rfl

theorem blamesValues_binaryArray (a : LazyArray) (b : NDArray) :
    BlamesValues (a.binaryArray op b) :=
  (a.blamesValues_sourceLike b).bind fun _ => .ok _

theorem blamesValues_arrayBinary (b : NDArray) (a : LazyArray) :
    BlamesValues (arrayBinary op b a) :=
  (a.blamesValues_sourceLike b).bind fun _ => .ok _

theorem blamesValues_stack (arrays : List LazyArray) : BlamesValues (stack arrays) := by
  unfold stack
  split
  · exact .error rfl
  · split
    · exact .error rfl
    · exact .ok _

end LazyArray

namespace LazySeries

theorem blamesValues_binary (s t : LazySeries) : BlamesValues (s.binary op t) := by
  unfold binary
  split
  · exact .error rfl
  · exact (LazyArray.blamesValues_binary op s.values t.values).bind fun _ => .ok _

theorem blamesValues_binarySeries (s : LazySeries) (t : Series) :
    BlamesValues (s.binarySeries op t) := by
  unfold binarySeries
  split
  · exact .error rfl
  · exact (LazyArray.blamesValues_binaryArray op s.values t.array).bind fun _ => .ok _

theorem blamesValues_seriesBinary (t : Series) (s : LazySeries) :
    BlamesValues (seriesBinary op t s) := by
  unfold seriesBinary
  split
  · exact .error rfl
  · exact (LazyArray.blamesValues_arrayBinary op t.array s.values).bind fun _ => .ok _

end LazySeries

theorem LazyFrame.blamesValues_concat (series : List LazySeries) :
    BlamesValues (concat series) := by
  unfold concat
  exact .test _ rfl

theorem LazyFrame.blamesValues_rename (f : LazyFrame) (names : List String) :
    BlamesValues (f.rename names) := by
  unfold rename
  exact .test _ rfl

theorem RemoteImage.blamesValues_rename (i : RemoteImage) (names : List String) :
    BlamesValues (i.rename names) := by
  unfold rename
  exact .test _ rfl

end Deferred

/-! ## 4. Values and formulas -/

namespace Value

/-- **No operator blames the request**, whatever it is applied to. -/
theorem blamesValues_binary (op : BinaryOp) (x y : Value) : BlamesValues (binary op x y) := by
  unfold binary
  split
  -- pairs with a number or a handle are never refused, and pairs that do not go together for that
  any_goals exact .ok _
  any_goals exact .error rfl
  · exact (NDArray.blamesValues_zipWith ..).map
  · exact (Series.blamesValues_zipWith ..).map
  · exact (Series.blamesValues_zipArray ..).map
  · exact (Series.blamesValues_zipArray ..).map
  · exact (LabeledArray.blamesValues_zipWith ..).map
  · exact (LabeledArray.blamesValues_zipArray ..).map
  · exact (LabeledArray.blamesValues_zipArray ..).map
  · exact (LazyArray.blamesValues_binary ..).map
  · exact (LazyArray.blamesValues_binaryArray ..).map
  · exact (LazyArray.blamesValues_arrayBinary ..).map
  · exact (LazySeries.blamesValues_binary ..).map
  · exact (LazySeries.blamesValues_binarySeries ..).map
  · exact (LazySeries.blamesValues_seriesBinary ..).map

theorem blamesValues_unary (op : UnaryOp) (x : Value) : BlamesValues (unary op x) := by
  unfold unary
  split
  any_goals exact .ok _
  exact .error rfl

end Value

namespace Formula

/-- By induction on the expression; a name that is not in scope is an error of the formula. -/
theorem Expr.blamesValues_eval (s : Scope Value) (e : Expr) : BlamesValues (e.eval s) := by
  induction e with
  | number v => exact .ok _
  | symbol name =>
    unfold eval
    split
    · exact .ok _
    · exact .error rfl
  | binary op l r ihl ihr =>
    exact ihl.bind fun x => ihr.bind fun y => Value.blamesValues_binary op x y
  | negate inner ih => exact ih.bind fun x => Value.blamesValues_unary .negate x
  | call name argument ih =>
    unfold eval
    split
    · exact .error rfl
    · exact ih.bind fun x => Value.blamesValues_unary _ x

theorem blamesValues_evaluate (f : Formula) (b : Bindings Value) : BlamesValues (f.evaluate b) :=
  Expr.blamesValues_eval ⟨b, []⟩ f.expr

end Formula

/-! ## 5. Combinations -/

theorem blamesValues_combine (kind : Kind) (results : List Value) (labels : List String)
    (axis : String) : BlamesValues (combine kind results labels axis) := by
  unfold combine
  split
  · split
    · exact .error rfl
    · exact (NDArray.blamesValues_stack ..).map
  · exact (Frame.blamesValues_ofSeries ..).map
  · refine (LabeledArray.blamesValues_concat ..).bind fun joined => ?_
    exact (joined.blamesValues_withCoord axis labels).bind fun _ => .ok _
  · exact (RemoteImage.blamesValues_rename ..).map
  · exact .ok _
  · exact (LazyArray.blamesValues_stack ..).map
  · refine (LazyFrame.blamesValues_concat ..).bind fun columns => ?_
    exact (columns.blamesValues_rename labels).bind fun _ => .ok _
  · exact .error rfl

/-- **The combination of results does not blame the request either.** -/
theorem blamesValues_unify (results : List Value) (labels : List String) (axis : String) :
    BlamesValues (unify results labels axis) := by
  refine ⟨fun e he => ?_⟩
  cases unify_eq_error_iff_refused.mp he with
  | combination _ _ _ _ h => exact (blamesValues_combine ..).reason e h
  | _ => rfl

end BandMath
