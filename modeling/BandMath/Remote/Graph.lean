/-
# Expression graphs

A graph is a description of a computation that some executor elsewhere carries out: constants and
texts, lists and dictionaries of graphs, and invocations of functions with named arguments.  The
entries of a dictionary and the arguments of an invocation are in the order of their keys;
`Graph.dictionaryOf` and `Graph.invoke` put them into it.

A graph does not say what its functions do.  Which functions are invoked, and with which arguments,
is up to the handles (`BandMath.Remote.Handle`); what they mean is up to the executor, of which it
is assumed that it keeps certain equations (`BandMath.Proofs.Remote.Executor`).  The one thing that
is read off a graph is whether its root gives an image, and that by the name of its function alone
(`Graph.isImage`).

`Graph.serialize` (`to_json`) gives the text that is sent to the executor, a JSON object for every
node.  Its members are `type` and what belongs to a node of that type, always in the same order, and
nothing stands between tokens.  Constants are written with as many digits as are needed to tell them
apart (`Decimal.documentText`), so that graphs of finite constants with the same text are the same
(`BandMath.Proofs.Remote.Serialization`).

Graphs are compared by `same`, node by node, in which constants are compared as floats are.
-/
import BandMath.Decimal.Layout
import BandMath.Json.Quoted

namespace BandMath

/-! ## 1. Graphs -/

/-- A computation, described node by node. -/
inductive Graph where
  | constant (value : Float)
  | text (value : String)
  | list (items : List Graph)
  | dictionary (entries : List (String × Graph))
  | invocation (function : String) (arguments : List (String × Graph))

namespace Graph

/-- Puts an entry where its key belongs, in place of one with that key. -/
def insertEntry (key : String) (g : Graph) : List (String × Graph) → List (String × Graph)
  | [] => [(key, g)]
  | (k, h) :: rest =>
    if key < k then (key, g) :: (k, h) :: rest
    else if key = k then (key, g) :: rest
    else (k, h) :: insertEntry key g rest

/-- Entries in the order of their keys; of several with one key the last is kept. -/
def sortEntries (entries : List (String × Graph)) : List (String × Graph) :=
  entries.foldl (fun sorted (key, g) => insertEntry key g sorted) []

/-- The dictionary of the given entries. -/
def dictionaryOf (entries : List (String × Graph)) : Graph :=
  .dictionary (sortEntries entries)

/-- The invocation of a function with the given arguments. -/
def invoke (function : String) (arguments : List (String × Graph)) : Graph :=
  .invocation function (sortEntries arguments)

/-- The function that a graph invokes at its root. -/
def function? : Graph → Option String
  | invocation f _ => some f
  | _ => none

/-- An argument of the invocation at the root. -/
def argument? (name : String) : Graph → Option Graph
  | invocation _ arguments => arguments.lookup name
  | _ => none

/-- What the names of the functions that give an image start with. -/
def imageNamespace : String := "Image."

/-- Whether the root invokes a function that gives an image. -/
def isImage (g : Graph) : Bool :=
  g.function?.any fun f => imageNamespace.toList.isPrefixOf f.toList

/-! ## 2. Equality -/

mutual

/-- Whether two graphs are built alike from equal parts. -/
def same : Graph → Graph → Bool
  | constant v, constant w => v == w
  | text s, text t => s == t
  | list xs, list ys => sameItems xs ys
  | dictionary xs, dictionary ys => sameEntries xs ys
  | invocation f xs, invocation g ys => f == g && sameEntries xs ys
  | _, _ => false

/-- Whether the items of two lists are the same, one by one. -/
def sameItems : List Graph → List Graph → Bool
  | [], [] => true
  | x :: xs, y :: ys => x.same y && sameItems xs ys
  | _, _ => false

/-- Whether two lists of entries have the same keys with the same graphs. -/
def sameEntries : List (String × Graph) → List (String × Graph) → Bool
  | [], [] => true
  | (k, x) :: xs, (l, y) :: ys => k == l && x.same y && sameEntries xs ys
  | _, _ => false

end

instance : BEq Graph := ⟨same⟩

/-! ## 3. Serialized form -/

/-- Texts divided by commas. -/
def commaSeparated : List (List Char) → List Char
  | [] => []
  | [x] => x
  | x :: xs => x ++ ',' :: commaSeparated xs

/-- Members of a JSON object between braces. -/
def braced (members : List (List Char)) : List Char :=
  '\x7b' :: commaSeparated members ++ ['\x7d']

/-- One member of a JSON object; the value is given by its text. -/
def member (key : String) (value : List Char) : List Char :=
  Json.quoted key ++ ':' :: value

/-- An object that says first what type of node it stands for. -/
def node (type : String) (members : List (List Char)) : List Char :=
  braced (member "type" (Json.quoted type) :: members)

mutual

/-- The characters of the serialized form. -/
def written : Graph → List Char
  | constant v => node "constant" [member "value" (Decimal.documentText v).toList]
  | text s => node "text" [member "value" (Json.quoted s)]
  | list items =>
    node "list" [member "items" ('[' :: commaSeparated (writtenItems items) ++ [']'])]
  | dictionary entries => node "dictionary" [member "entries" (braced (writtenEntries entries))]
  | invocation f arguments =>
    node "invocation"
      [member "function" (Json.quoted f), member "arguments" (braced (writtenEntries arguments))]

/-- The serialized forms of some graphs. -/
def writtenItems : List Graph → List (List Char)
  | [] => []
  | g :: gs => g.written :: writtenItems gs

/-- The serialized forms of some entries. -/
def writtenEntries : List (String × Graph) → List (List Char)
  | [] => []
  | (key, g) :: rest => member key g.written :: writtenEntries rest

end

/-- The serialized form. -/
def serialize (g : Graph) : String :=
  String.ofList g.written

end Graph

end BandMath
