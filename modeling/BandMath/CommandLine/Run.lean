/-
# Carrying out a command line

`run` maps arguments to what is printed and to an exit status.  It takes the contents of files as a
function, so that it depends on nothing else and can be reasoned about as it stands; the outer layer
that reads files and prints is `main`.

The command `compute` goes through these steps:

1. The bindings are made from the parameters (`bindings`, which is `to_bindings`).  One number is
   bound as a number, several as an array; the last parameter of a symbol counts.
2. If defaults are asked for, constants that are still unbound get theirs.
3. `checkBindings` (`check_bindings`) looks up every index and collects all symbols that lack a
   value, for all indices, into one message.  The batch itself would report the first one only.
4. The batch is computed (`Registry.compute`), aggregated if the user did not turn that off and some
   symbol is bound to an array.  Numbers cannot be stacked, so a batch of numbers is never
   aggregated.
5. The results are shown, one line for each index (`outcomeLines`).

A kernel is computed from its parameters without defaults and without the collective check.  It may
be asked for in two spellings, but its line shows the name that it is listed under.

The status is 0 for what was done, help and version included, 1 for a command that failed and 2 for
arguments that make no sense.  Only failures write to the second output.
-/
import BandMath.CommandLine.Help
import BandMath.CommandLine.Report

namespace BandMath.CommandLine

/-! ## 1. Bindings -/

/-- One number is bound as such, several as an array. -/
def parameterValue : List Float → Value
  | [x] => .scalar x
  | xs => .array (.ofList xs)

/-- The bindings of a command line; the last one of a symbol counts. -/
def bindings (parameters : List (String × List Float)) : Bindings Value :=
  .ofPairs (parameters.map fun (symbol, xs) => (symbol, parameterValue xs))

/-- What an index lacks, if it lacks anything, under the name by which it was asked for. -/
def shortage? (b : Bindings Value) (name : String) (d : IndexDefinition) : Option String :=
  match missingSymbols d.required b with
  | [] => none
  | missing => some (name ++ " needs " ++ ", ".intercalate missing)

/-- Looks up every index and reports all symbols without a value at once. -/
def checkBindings (r : Registry) (indices : List String) (b : Bindings Value) :
    Except Failure Unit := do
  let shortages ← (indices.mapM fun name => (r.index name).map (shortage? b name)).mapError
    Failure.ofError
  match shortages.filterMap id with
  | [] => return ()
  | shortages => throw ⟨"Missing parameters: " ++ "; ".intercalate shortages ++
      " (bind with -p SYMBOL=VALUE, or --defaults for constants)", []⟩

/-! ## 2. Commands -/

/-- Whether some symbol is bound to an array. -/
def bindsArray (b : Bindings Value) : Bool :=
  b.values.any fun v => v.array?.isSome

/-- The lines that a command prints. -/
def Command.lines (r : Registry) (mode : Mode) : Command → Except Failure (List String)
  | .list none => .ok (r.definitions.map listLine)
  | .list (some domain) => .ok ((r.inDomain domain).map listLine)
  | .describe index => ((r.index index).map describeLines).mapError Failure.ofError
  | .symbols => .ok (symbolLines r)
  | .compute indices parameters defaults aggregate axis => do
    let given := bindings parameters
    let b := if defaults then r.fillDefaults given else given
    checkBindings r indices b
    -- numbers cannot be stacked
    let options : BatchOptions := { aggregate := aggregate && bindsArray b, axis, mode }
    let outcome ← (r.compute (.many indices) b options).mapError (.of "Index computation failed")
    return outcomeLines indices outcome
  | .kernel name parameters => do
    let k ← (Kernel.ofName name).mapError Failure.ofError
    let v ← (k.compute r (bindings parameters)).mapError
      (.of s!"{k.name} kernel computation failed")
    return [valueLine s!"k_{k.name}" v]

/-- The registry of a command line. -/
def loadRegistry (contents : String → Except Error String) :
    Option String → Except Failure Registry
  | none => Registry.builtin.mapError (.of "Failed to load built-in catalogue")
  | some path =>
    (do Registry.ofIndexDocument (← contents path)).mapError
      (.of s!"Failed to load index catalogue {path}")

/-- The lines that an invocation prints. -/
def Invocation.lines (i : Invocation) (contents : String → Except Error String) :
    Except Failure (List String) := do
  let r ← loadRegistry contents i.registry
  i.command.lines r (.ofThreads i.threads)

/-! ## 3. Results -/

/-- What a command line gives: an exit status, and the lines of the two outputs. -/
structure Output where
  status : Nat
  out : List String := []
  err : List String := []

/-- The lines shown when the arguments make no sense. -/
def misuseLines : List String :=
  ["error: invalid arguments", "", "For more information, try '--help'."]

/-- Carries out a command line. -/
def run (contents : String → Except Error String) (arguments : List String) : Output :=
  match Request.ofArguments arguments with
  | .misused => { status := 2, err := misuseLines }
  | .help topic => { status := 0, out := helpText topic }
  | .version => { status := 0, out := versionText }
  | .run i =>
    match i.lines contents with
    | .ok lines => { status := 0, out := lines }
    | .error f => { status := 1, err := f.lines }

end BandMath.CommandLine
