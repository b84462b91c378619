/-
# Executors that read formulas

An executor may also be sent the text of a formula together with graphs for its symbols.  One that
keeps the equations of `ExecutesFormulas` reads the text as it is read here, and gives it the value
that it has here, over what the graphs denote and with `exp` in scope.

`evaluated` is such an executor, so the equations do not contradict each other.

The symbols of the text are given as a dictionary of graphs: `Graph.bindings` takes its entries for
bindings of the keys to what the graphs denote.  The equations are about texts that are formulas and
have a value.  What is made of any other text is left open; kernels are handed over as texts of the
first sort (`BandMath.Proofs.Kernel.Routes`).

`evaluated` goes through a graph and evaluates the texts that it finds in it, also those in graphs
that stand for symbols of other texts.
-/
import BandMath.Formula.Basic
import BandMath.Formula.Evaluation
import BandMath.Proofs.Remote.Executor

namespace BandMath

open Formula

/-! ## 1. Equations -/

/-- The bindings that the entries of a dictionary give to a formula. -/
def Graph.bindings (D : Graph → Float) (entries : List (String × Graph)) : Bindings Float :=
  .ofPairs (entries.map fun (key, g) => (key, D g))

/-- The values that an executor gives to graphs if it also evaluates the texts of formulas. -/
structure Graph.ExecutesFormulas (D : Graph → Float) : Prop extends Graph.Executes D where
  imageFormula : ∀ text f entries x, Formula.ofText text = .ok f →
    f.evaluateIn ⟨Graph.bindings D entries, [.exp]⟩ = .ok x →
    D (.invocation "Image.expression" [("expression", .text text), ("map", .dictionary entries)]) =
      x
  numberFormula : ∀ text f entries x, Formula.ofText text = .ok f →
    f.evaluateIn ⟨Graph.bindings D entries, [.exp]⟩ = .ok x →
    D (.invocation "Number.expression"
      [("expression", .text text), ("vars", .dictionary entries)]) = x

namespace Graph

/-! ## 2. An executor -/

/-- What an executor reads at the root of a graph. -/
inductive Reading where
  | number (x : Float)
  | text (s : String)
  | entries (xs : List (String × Float))
  | nothing

/-- The number that was read, if it was one. -/
def Reading.value : Reading → Float
  | number x => x
  | _ => 0

/-- The value of the text of a formula; a text that is none, or has no value, gives 0. -/
def formulaValue (text : String) (xs : List (String × Float)) : Float :=
  match ofText text with
  | .error _ => 0
  | .ok f =>
    match f.evaluateIn ⟨.ofPairs xs, [.exp]⟩ with
    | .error _ => 0
    | .ok x => x

/-- What the executor makes of a function; those without a formula are called as before. -/
def callReading (function : String) : List (String × Reading) → Float
  | [("expression", .text t), ("map", .entries xs)] =>
    if function = "Image.expression" then formulaValue t xs else 0
  | [("expression", .text t), ("vars", .entries xs)] =>
    if function = "Number.expression" then formulaValue t xs else 0
  | arguments => call function (arguments.map fun (key, r) => (key, r.value))

mutual

/-- Reads a graph. -/
def reading : Graph → Reading
  | .constant v => .number v
  | .text s => .text s
  | .list _ => .nothing
  | .dictionary entries => .entries ((readings entries).map fun (key, r) => (key, r.value))
  | .invocation function arguments => .number (callReading function (readings arguments))

/-- Reads the graphs of entries. -/
def readings : List (String × Graph) → List (String × Reading)
  | [] => []
  | (key, g) :: rest => (key, g.reading) :: readings rest

end

/-- An executor on floats that evaluates formulas. -/
def evaluated (g : Graph) : Float :=
  g.reading.value

theorem readings_eq : ∀ entries : List (String × Graph),
    readings entries = entries.map fun (key, g) => (key, g.reading)
  | [] => rfl
  | (key, g) :: rest => by rw [readings, readings_eq rest, List.map_cons]

theorem formulaValue_eq {text : String} {f : Formula} {entries : List (String × Graph)} {x : Float}
    (hf : ofText text = .ok f)
    (hx : f.evaluateIn ⟨bindings evaluated entries, [.exp]⟩ = .ok x) :
    formulaValue text ((readings entries).map fun (key, r) => (key, r.value)) = x := by
  have hxs : (Bindings.ofPairs ((readings entries).map fun (key, r) => (key, r.value))) =
      bindings evaluated entries := by
    rw [readings_eq, List.map_map]
    rfl
  simp only [formulaValue, hf, hxs, hx]

/-- **There is an executor that evaluates formulas.** -/
theorem executesFormulas_evaluated : ExecutesFormulas evaluated where
  constant _ := rfl
  constantImage _ := rfl
  imageArithmetic m f h l r := call_imageArithmetic (m, f) h l.evaluated r.evaluated
  numberArithmetic m f h l r := call_numberArithmetic (m, f) h l.evaluated r.evaluated
  imageExp _ := rfl
  numberExp _ := rfl
  imageFormula _ _ _ _ hf hx := formulaValue_eq hf hx
  numberFormula _ _ _ _ hf hx := formulaValue_eq hf hx

end Graph

end BandMath
