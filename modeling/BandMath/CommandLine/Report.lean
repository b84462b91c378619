/-
# Reports

The lines in which results and failures are shown.  Every function here gives texts; nothing is
printed, and none of them can fail.

* Catalogues: `listLine` and `describeLines` show definitions, `symbolLines` the table of bands and
  constants.  What is not known about an index is left out of its description.
* Values: `valueLine` (`print_value`) shows a label and a value.  A command line can bind numbers
  and arrays only, and these give nothing but numbers and arrays, so all other kinds are shown by
  their name (`plain_computeBindings`).
* Batches: `outcomeLines` shows each index on a line of its own.  Where the results were stacked
  into one array, the rows of that array are shown, each under the name it belongs to, so that
  stacking makes no difference to what is printed.
* Failures: a message and the causes behind it, from the outermost inward.  One cause stands alone,
  several are numbered (`Failure.lines`).

Numbers are written with as few digits as tell them from all others, in place and without exponent
(`Decimal.Layout.report`).  Arrays of `longArray` elements and more are shown by their first and
last elements only.
-/
import BandMath.Batch
import BandMath.Decimal.Layout
import BandMath.Kernel.Evaluation

namespace BandMath.CommandLine

/-! ## 1. Catalogues -/

/-- One line of the list of indices. -/
def listLine (d : IndexDefinition) : String :=
  Text.padRight 10 d.name ++ " " ++ Text.padRight 12 d.metadata.domain ++ " " ++ d.metadata.longName

/-- The description of an index; what is not known is left out. -/
def describeLines (d : IndexDefinition) : List String :=
  let m := d.metadata
  [s!"{d.name}: {m.longName}", s!"Formula: {d.formula.text}",
    "Symbols: " ++ ", ".intercalate d.required, s!"Domain: {m.domain}"]
    ++ (if m.platforms.isEmpty then [] else ["Platforms: " ++ ", ".intercalate m.platforms])
    ++ (if m.reference.isEmpty then [] else [s!"Reference: {m.reference}"])
    ++ (if m.contributor.isEmpty then [] else [s!"Added: {m.dateAdded} by {m.contributor}"])

/-- The text of a number. -/
def number (x : Float) : String :=
  Decimal.Layout.report.text x

/-- A band in the table of symbols. -/
def bandLine (b : Band) : String :=
  "  " ++ Text.padRight 6 b.symbol ++ " " ++ b.longName ++ " (" ++ number b.minWavelength ++ "-" ++
    number b.maxWavelength ++ " nm, center " ++ Decimal.fixedText 1 b.center ++ " nm)"

/-- A constant in the table of symbols; a dash stands for no default. -/
def constantLine (c : Constant) : String :=
  let default := match c.default with
    | some v => number v
    | none => "-"
  "  " ++ Text.padRight 6 c.symbol ++ " " ++ Text.padRight 6 default ++ " " ++ c.description

/-- The table of symbols. -/
def symbolLines (r : Registry) : List String :=
  "Bands:" :: r.bands.values.map bandLine ++
    "" :: "Constants:" :: r.constants.values.map constantLine

/-! ## 2. Values -/

/-- From this many elements on, only some at both ends are shown. -/
def longArray : Nat := 500

/-- How many elements at each end of a long array are shown. -/
def shownAtEnds : Nat := 5

/-- The elements of an array between brackets. -/
def elements (xs : List Float) : String :=
  let shown :=
    if xs.length < longArray then xs.map number
    else (xs.take shownAtEnds).map number ++ ["..."] ++
      (xs.drop (xs.length - shownAtEnds)).map number
  Text.bracketed shown

/-- A value and its label.  Only numbers and arrays can be given on a command line, and they give
nothing else. -/
def valueLine (label : String) : Value → String
  | .scalar x => label ++ " = " ++ number x
  | .array a => label ++ " = " ++ elements a.toList
  | v => label ++ " = " ++ v.kind.name

/-- The rows of an array along its leading axis, each with a label. -/
def rowLines (labels : List String) (a : NDArray) : List String :=
  (labels.zip (List.range (a.length 0))).map fun (label, i) =>
    label ++ " = " ++ elements (a.select 0 i).toList

/-- The results of a batch: each index on a line of its own, also where they are one array. -/
def outcomeLines (names : List String) : Outcome Value → List String
  | .list vs => (names.zip vs).map fun (name, v) => valueLine name v
  | .single v =>
    match v, names with
    | .array a, _ :: _ :: _ => rowLines names a
    | v, names => [valueLine (",".intercalate names) v]

/-! ## 3. Failures -/

/-- Why a command failed: a message, and the causes behind it from the outermost inward. -/
structure Failure where
  message : String
  causes : List String

/-- A failure that an error is by itself. -/
def Failure.ofError (e : Error) : Failure :=
  ⟨e.message, e.inner?.toList⟩

/-- A failure of some activity, caused by an error. -/
def Failure.of (activity : String) (e : Error) : Failure :=
  ⟨activity, e.message :: e.inner?.toList⟩

/-- A text of several lines with one text before its first line and another before the others. -/
def indent (first others : String) (text : String) : List String :=
  match text.toList.splitOn '\n' with
  | [] => [first]
  | line :: lines => (first ++ String.ofList line) :: lines.map fun l => others ++ String.ofList l

/-- The lines that report a failure.  Several causes are numbered. -/
def Failure.lines (f : Failure) : List String :=
  let causes := match f.causes with
    | [] => []
    | [cause] => "" :: "Caused by:" :: indent "    " "    " cause
    | causes => "" :: "Caused by:" :: (causes.zipIdx.flatMap fun (cause, i) =>
        indent s!"    {i}: " "       " cause)
  s!"Error: {f.message}" :: causes

end BandMath.CommandLine
