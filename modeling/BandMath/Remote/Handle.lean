/-
# Handles of remote results

A handle stands for an image, a number or a list of numbers that a remote executor will compute.  It
computes nothing itself: every operation on it makes a larger graph, and none of them fails for what
the graph says.

The functions of images take images, so whatever is combined with an image and is not one already is
turned into an image that is the same everywhere (`RemoteImage.promote`).  Whether a graph is one
already is seen by the function at its root (`Graph.isImage`).

* `binary` and `reverseBinary` (`op` and `rop`) keep the order of operands: the handle stands on the
  left in the first and on the right in the second.
* Negation is a multiplication by `-1`, as the executor has no function for it; `exp` has a function
  for images and another one for numbers.
* `expression` hands over a whole formula as a text, with graphs for its symbols.

An image knows the names of its bands, for which no executor is asked.  They are those of the first
image in an operation, and a single `constant` in an image that is made from a number or a formula.
`cat` puts them one after the other, and `rename` replaces them all, for which it compares the
number of names with the number of bands and asks nothing else.  `select` is refused for a band that
is not there.

Numbers are collected in a list by `RemoteList.ofNumbers` (`from_numbers`), which keeps their order.
-/
import BandMath.Error
import BandMath.Remote.Graph

namespace BandMath

/-! ## 1. Images -/

/-- An image with named bands. -/
structure RemoteImage where
  graph : Graph
  bands : List String

namespace RemoteImage

instance : BEq RemoteImage where
  beq a b := a.graph == b.graph && a.bands == b.bands

/-- The name of the only band of an image that does not come from a store. -/
def constantBand : String := "constant"

/-- A stored image, by its identifier. -/
def load (id : String) (bands : List String) : RemoteImage :=
  ⟨.invoke "Image.load" [("id", .text id)], bands⟩

/-- An image that has the value of a graph everywhere. -/
def constantGraph (value : Graph) : Graph :=
  .invoke "Image.constant" [("value", value)]

/-- An image of one band that has the same value everywhere. -/
def constant (value : Float) : RemoteImage :=
  ⟨constantGraph (.constant value), [constantBand]⟩

/-- A graph as one that gives an image. -/
def promote (g : Graph) : Graph :=
  if g.isImage then g else constantGraph g

/-- One band of an image. -/
def select (a : RemoteImage) (band : String) : Except Error RemoteImage :=
  if band ∈ a.bands then
    .ok ⟨.invoke "Image.select" [("input", a.graph), ("bandSelectors", .text band)], [band]⟩
  else .error (.unknownLabel "band" band)

/-- The graph of `l op r`. -/
def binaryGraph (op : BinaryOp) (l r : Graph) : Graph :=
  .invoke (Graph.imageNamespace ++ op.method) [("image1", l), ("image2", r)]

/-- `a op g`, with the bands of `a`. -/
def binary (op : BinaryOp) (a : RemoteImage) (g : Graph) : RemoteImage :=
  { a with graph := binaryGraph op a.graph (promote g) }

/-- `g op a`, with the bands of `a`. -/
def reverseBinary (op : BinaryOp) (g : Graph) (a : RemoteImage) : RemoteImage :=
  { a with graph := binaryGraph op (promote g) a.graph }

/-- Negation is a multiplication by `-1`. -/
def unary (op : UnaryOp) (a : RemoteImage) : RemoteImage :=
  match op with
  | .negate => a.binary .multiply (.constant (-1.0))
  | .exp => { a with graph := .invoke "Image.exp" [("value", a.graph)] }

/-- The image that the executor computes from the text of a formula and graphs for its symbols. -/
def expression (formula : String) (vars : List (String × Graph)) : RemoteImage :=
  ⟨.invoke "Image.expression" [("expression", .text formula), ("map", .dictionaryOf vars)],
    [constantBand]⟩

/-- The bands of several images in one. -/
def cat (images : List RemoteImage) : RemoteImage :=
  ⟨.invoke "Image.cat" [("images", .list (images.map (·.graph)))], images.flatMap (·.bands)⟩

/-- Replaces all band names. -/
def rename (a : RemoteImage) (names : List String) : Except Error RemoteImage :=
  if names.length = a.bands.length then
    .ok ⟨.invoke "Image.rename" [("input", a.graph), ("names", .list (names.map .text))], names⟩
  else .error (.labelCount a.bands.length names.length)

end RemoteImage

/-! ## 2. Numbers -/

/-- A number, given by the graph that computes it. -/
structure RemoteNumber where
  graph : Graph

namespace RemoteNumber

instance : BEq RemoteNumber where
  beq a b := a.graph == b.graph

/-- A number that is known beforehand. -/
def constant (value : Float) : RemoteNumber :=
  ⟨.constant value⟩

/-- What the names of the functions that give a number start with. -/
def numberNamespace : String := "Number."

/-- The graph of `l op r`. -/
def binaryGraph (op : BinaryOp) (l r : Graph) : Graph :=
  .invoke (numberNamespace ++ op.method) [("left", l), ("right", r)]

/-- `a op g`. -/
def binary (op : BinaryOp) (a : RemoteNumber) (g : Graph) : RemoteNumber :=
  ⟨binaryGraph op a.graph g⟩

/-- `g op a`. -/
def reverseBinary (op : BinaryOp) (g : Graph) (a : RemoteNumber) : RemoteNumber :=
  ⟨binaryGraph op g a.graph⟩

/-- Negation is a multiplication by `-1`. -/
def unary (op : UnaryOp) (a : RemoteNumber) : RemoteNumber :=
  match op with
  | .negate => a.binary .multiply (.constant (-1.0))
  | .exp => ⟨.invoke "Number.exp" [("input", a.graph)]⟩

/-- The number that the executor computes from the text of a formula and graphs for its symbols. -/
def expression (formula : String) (vars : List (String × Graph)) : RemoteNumber :=
  ⟨.invoke "Number.expression" [("expression", .text formula), ("vars", .dictionaryOf vars)]⟩

end RemoteNumber

/-! ## 3. Lists of numbers -/

/-- A list of numbers and its length. -/
structure RemoteList where
  graph : Graph
  length : Nat

namespace RemoteList

instance : BEq RemoteList where
  beq a b := a.graph == b.graph && a.length == b.length

/-- The list of some numbers, in order. -/
def ofNumbers (numbers : List RemoteNumber) : RemoteList :=
  ⟨.list (numbers.map (·.graph)), numbers.length⟩

end RemoteList

end BandMath
