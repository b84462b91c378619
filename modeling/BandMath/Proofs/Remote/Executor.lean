/-
# What handles denote

An executor gives every graph a value, by the equations of `Executes`; for an image that is the
value of some band at some place.  Arithmetic on handles is then arithmetic on what they denote: the
operands keep their order, promotion does not change a value, and a negation, which becomes a
product with `-1`, is one (`mul_neg_one`).  At the same time every operation keeps graphs well
sorted, and the root shows the sort.

`Executes` has an equation for each function that an operator on handles invokes, and nothing else:
constants, images that are the same everywhere, and arithmetic and `exp` on images and on numbers.
It is a property of a map from graphs to floats, and `run` is a map that has it (`executes_run`), so
what is derived from the equations is not vacuous.  What an executor makes of other graphs is left
open.

The lemmas come in pairs, for images and for numbers.  One of a pair says what an operation denotes
(`denote_binary`, `denote_reverseBinary`, `denote_unary`), the other one that its graph is well
sorted.  For images the second operand is promoted, and being promoted neither changes what a graph
denotes (`denote_promote`) nor its being well sorted.
-/
import BandMath.Proofs.Operator
import BandMath.Proofs.Remote.Sorts

namespace BandMath

open BandMath.Graph

/-- The values that an executor gives to graphs. -/
structure Graph.Executes (D : Graph → Float) : Prop where
  constant : ∀ v, D (.constant v) = v
  constantImage : ∀ g, D (.invocation "Image.constant" [("value", g)]) = D g
  imageArithmetic : ∀ m f, (m, f) ∈ arithmetic → ∀ l r,
    D (.invocation ("Image." ++ m) [("image1", l), ("image2", r)]) = f (D l) (D r)
  numberArithmetic : ∀ m f, (m, f) ∈ arithmetic → ∀ l r,
    D (.invocation ("Number." ++ m) [("left", l), ("right", r)]) = f (D l) (D r)
  imageExp : ∀ g, D (.invocation "Image.exp" [("value", g)]) = Float.exp (D g)
  numberExp : ∀ g, D (.invocation "Number.exp" [("input", g)]) = Float.exp (D g)

theorem BinaryOp.mem_arithmetic (op : BinaryOp) : (op.method, op.apply) ∈ arithmetic := by
  cases op with
  | add => exact .head _
  | subtract => exact .tail _ (.head _)
  | multiply => exact .tail _ (.tail _ (.head _))
  | divide => exact .tail _ (.tail _ (.tail _ (.head _)))
  | power => exact .tail _ (.tail _ (.tail _ (.tail _ (.head _))))

/-! ## 1. Images -/

namespace RemoteImage

variable {D : Graph → Float} {i : RemoteImage} {g l r : Graph} {op : BinaryOp}

theorem isImageGraph_constantGraph (hg : g.WellSorted) : (constantGraph g).IsImageGraph := by
  refine isImageGraph_invoke (m := "constant") (by decide) fun e he => ?_
  obtain rfl := List.mem_singleton.mp he
  exact hg

/-- A promoted graph gives an image. -/
theorem isImageGraph_promote (hg : g.WellSorted) : (promote g).IsImageGraph := by
  unfold promote
  split
  · rename_i h
    exact ⟨isImage_iff.mp h, hg⟩
  · exact isImageGraph_constantGraph hg

/-- Promotion does not change a value. -/
theorem denote_promote (hD : Executes D) (g : Graph) : D (promote g) = D g := by
  unfold promote
  split
  · rfl
  · exact hD.constantImage g

theorem isImageGraph_binaryGraph (hl : l.IsImageGraph) (hr : r.IsImageGraph) :
    (binaryGraph op l r).IsImageGraph :=
  isImageGraph_arithmetic hl hr

theorem denote_binaryGraph (hD : Executes D) (l r : Graph) :
    D (binaryGraph op l r) = op.apply (D l) (D r) :=
  hD.imageArithmetic _ _ op.mem_arithmetic l r

theorem isImageGraph_binary (hi : i.graph.IsImageGraph) (hg : g.WellSorted) :
    (i.binary op g).graph.IsImageGraph :=
  isImageGraph_binaryGraph hi (isImageGraph_promote hg)

theorem denote_binary (hD : Executes D) (i : RemoteImage) (g : Graph) :
    D (i.binary op g).graph = op.apply (D i.graph) (D g) :=
  (denote_binaryGraph hD _ _).trans (congrArg (op.apply _) (denote_promote hD g))

theorem isImageGraph_reverseBinary (hg : g.WellSorted) (hi : i.graph.IsImageGraph) :
    (reverseBinary op g i).graph.IsImageGraph :=
  isImageGraph_binaryGraph (isImageGraph_promote hg) hi

theorem denote_reverseBinary (hD : Executes D) (g : Graph) (i : RemoteImage) :
    D (reverseBinary op g i).graph = op.apply (D g) (D i.graph) :=
  (denote_binaryGraph hD _ _).trans (congrArg (op.apply · _) (denote_promote hD g))

theorem isImageGraph_unary (hi : i.graph.IsImageGraph) (op : UnaryOp) :
    (i.unary op).graph.IsImageGraph := by
  cases op with
  | negate => exact isImageGraph_binary hi (isNumberGraph_constant _).sorted
  | exp =>
    refine isImageGraph_invoke (m := "exp") (by decide) fun e he => ?_
    obtain rfl := List.mem_singleton.mp he
    exact hi.sorted

theorem denote_unary (hD : Executes D) (i : RemoteImage) (op : UnaryOp) :
    D (i.unary op).graph = op.apply (D i.graph) := by
  cases op with
  | negate =>
    have hproduct : D (i.unary .negate).graph = D i.graph * D (.constant (-1.0)) :=
      denote_binary hD i _
    rw [hproduct, hD.constant, mul_neg_one]
    rfl
  | exp => exact hD.imageExp i.graph

end RemoteImage

/-! ## 2. Numbers -/

namespace RemoteNumber

variable {D : Graph → Float} {n : RemoteNumber} {g : Graph} {op : BinaryOp}

theorem isNumberGraph_binary (hn : n.graph.IsNumberGraph) (hg : g.IsNumberGraph) :
    (n.binary op g).graph.IsNumberGraph :=
  isNumberGraph_arithmetic hn hg

theorem denote_binary (hD : Executes D) (n : RemoteNumber) (g : Graph) :
    D (n.binary op g).graph = op.apply (D n.graph) (D g) :=
  hD.numberArithmetic _ _ op.mem_arithmetic n.graph g

theorem isNumberGraph_reverseBinary (hg : g.IsNumberGraph) (hn : n.graph.IsNumberGraph) :
    (reverseBinary op g n).graph.IsNumberGraph :=
  isNumberGraph_arithmetic hg hn

theorem denote_reverseBinary (hD : Executes D) (g : Graph) (n : RemoteNumber) :
    D (reverseBinary op g n).graph = op.apply (D g) (D n.graph) :=
  hD.numberArithmetic _ _ op.mem_arithmetic g n.graph

theorem isNumberGraph_unary (hn : n.graph.IsNumberGraph) (op : UnaryOp) :
    (n.unary op).graph.IsNumberGraph := by
  cases op with
  | negate => exact isNumberGraph_binary hn (isNumberGraph_constant _)
  | exp =>
    refine isNumberGraph_invoke (m := "exp") (by decide) fun e he => ?_
    obtain rfl := List.mem_singleton.mp he
    exact hn.sorted

theorem denote_unary (hD : Executes D) (n : RemoteNumber) (op : UnaryOp) :
    D (n.unary op).graph = op.apply (D n.graph) := by
  cases op with
  | negate =>
    have hproduct : D (n.unary .negate).graph = D n.graph * D (.constant (-1.0)) :=
      denote_binary hD n _
    rw [hproduct, hD.constant, mul_neg_one]
    rfl
  | exp => exact hD.numberExp n.graph

end RemoteNumber

/-! ## 3. An executor -/

namespace Graph

/-- What an executor on floats makes of a function that it knows; all others give 0. -/
def call (function : String) : List (String × Float) → Float
  | [("value", x)] =>
    if function = "Image.constant" then x else if function = "Image.exp" then Float.exp x else 0
  | [("input", x)] => if function = "Number.exp" then Float.exp x else 0
  | [("image1", x), ("image2", y)] =>
    ((arithmetic.find? fun a => "Image." ++ a.1 = function).map fun a => a.2 x y).getD 0
  | [("left", x), ("right", y)] =>
    ((arithmetic.find? fun a => "Number." ++ a.1 = function).map fun a => a.2 x y).getD 0
  | _ => 0

mutual

/-- An executor on floats. -/
def run : Graph → Float
  | .constant v => v
  | .invocation function arguments => call function (runArguments arguments)
  | _ => 0

/-- The values of arguments. -/
def runArguments : List (String × Graph) → List (String × Float)
  | [] => []
  | (key, g) :: rest => (key, g.run) :: runArguments rest

end

theorem call_imageArithmetic : ∀ a ∈ arithmetic, ∀ x y,
    call ("Image." ++ a.1) [("image1", x), ("image2", y)] = a.2 x y := by
  simp only [arithmetic, List.forall_mem_cons]
  exact ⟨fun _ _ => rfl, fun _ _ => rfl, fun _ _ => rfl, fun _ _ => rfl, fun _ _ => rfl,
    fun _ h => absurd h List.not_mem_nil⟩

theorem call_numberArithmetic : ∀ a ∈ arithmetic, ∀ x y,
    call ("Number." ++ a.1) [("left", x), ("right", y)] = a.2 x y := by
  simp only [arithmetic, List.forall_mem_cons]
  exact ⟨fun _ _ => rfl, fun _ _ => rfl, fun _ _ => rfl, fun _ _ => rfl, fun _ _ => rfl,
    fun _ h => absurd h List.not_mem_nil⟩

/-- The executor keeps the equations. -/
theorem executes_run : Executes run :=
  ⟨fun _ => rfl, fun _ => rfl, fun m f h l r => call_imageArithmetic (m, f) h l.run r.run,
    fun m f h l r => call_numberArithmetic (m, f) h l.run r.run, fun _ => rfl, fun _ => rfl⟩

end Graph

end BandMath
