/-
# Invocations

What a command line asks for.  `commands` lists the commands with their words and switches, from
which both the reading of arguments and the help texts are derived.  `Request.ofArguments` maps a
list of arguments to a `Request`: an invocation to be carried out, help, the version, or nothing
that makes sense.  It is a function of the arguments alone; no file is looked at.

A command line is read in two stretches:

* Up to the first word only the common switches may stand, and the two that ask for help and for
  the version (`readUpToWord`).
* That word is the name of a command.  What follows it is read with the switches of the command and
  the common ones (`Request.ofCommand`).  A common switch may stand in either stretch; if it stands
  in both, the later one counts.

The values of some switches are checked while they are read, and a value that is not accepted makes
the whole command line senseless.  `parameter?` (`parse_binding`) takes `-p N=0.64,0.52` apart:
everything up to the first `=` is the symbol, and what follows is one number or several.  `threads?`
takes a number that fits into a word of 64 bits.

Help that is asked for wins over senseless arguments to its right, and arguments that make no sense
win over help that is asked for after them, with one exception (`readUpToWord`).
-/
import BandMath.CommandLine.Switch
import BandMath.Decimal.Numeral

namespace BandMath.CommandLine

/-! ## 1. Values of switches -/

/-- A symbol and the numbers bound to it: `N=0.64` or `N=0.64,0.52`.  Blanks around the symbol and
around a number are dropped. -/
def parameter? (s : String) : Option (String × List Float) :=
  let cs := s.toList
  let symbol := cs.takeWhile (· ≠ '=')
  match cs.dropWhile (· ≠ '=') with
  | [] => none
  | _ :: numbers => do
    let values ← (numbers.splitOn ',').mapM fun number => Decimal.float? (Text.trim number)
    return (String.ofList (Text.trim symbol), values)

/-- The greatest number that fits into a 64-bit word. -/
def maxThreads : Nat := 18446744073709551615

/-- A number of threads, which fits into a machine word. -/
def threads? (s : String) : Option Nat :=
  let digits := match s.toList with
    | '+' :: rest => rest
    | cs => cs
  if digits.isEmpty || !digits.all Decimal.isDigit then none
  else
    let n := Decimal.digitsValue digits
    if n ≤ maxThreads then some n else none

/-! ## 2. Commands -/

/-- The name of the words of a command, and how many there are. -/
structure Words where
  name : String
  about : String
  /-- Whether there may be more than one. -/
  many : Bool := false

/-- The outside of a command. -/
structure Usage where
  name : String
  about : String
  words : Option Words := none
  switches : List Switch := []

/-- Switches that every command takes, and that may also stand before it. -/
def commonSwitches : List Switch :=
  [{ long := "verbose", letter := some 'v', about := "Verbose output" },
   { long := "registry", value := some "REGISTRY", accepts := fun s => !s.isEmpty
     about := "Index catalogue (JSON) to use instead of the built-in one" },
   { long := "threads", letter := some 'j', value := some "THREADS"
     accepts := fun s => (threads? s).isSome
     about := "Worker threads for batch evaluation (0 = all cores)" }]

/-- The switch that asks for help. -/
def helpSwitch : Switch :=
  { long := "help", letter := some 'h', action := .help, about := "Print help" }

/-- The switch that asks for the version. -/
def versionSwitch : Switch :=
  { long := "version", letter := some 'V', action := .version, about := "Print version" }

/-- The switch that binds a symbol. -/
def parameterSwitch (about : String) : Switch :=
  { long := "param", letter := some 'p', value := some "PARAMS", repeats := true
    accepts := fun s => (parameter? s).isSome, about }

/-- The command that lists indices. -/
def listUsage : Usage where
  name := "list"
  about := "List available spectral indices"
  switches :=
    [{ long := "domain", letter := some 'd', value := some "DOMAIN"
       about := "Only indices of this application domain (vegetation, water, burn, ...)" }]

/-- The command that shows one index. -/
def describeUsage : Usage where
  name := "describe"
  about := "Show the definition of an index"
  words := some { name := "INDEX", about := "Index short name, e.g. NDVI" }

/-- The command that shows the table of symbols. -/
def symbolsUsage : Usage where
  name := "symbols"
  about := "List band and constant symbols"

/-- The dimension along which indices are stacked unless another one is given. -/
def defaultAxis : String := "index"

/-- The command that computes indices. -/
def computeUsage : Usage where
  name := "compute"
  about := "Compute one or more indices"
  words := some { name := "INDICES", about := "Index short names", many := true }
  switches :=
    [parameterSwitch "Symbol binding, e.g. -p N=0.64 or -p N=0.64,0.52,0.31",
     { long := "defaults", about := "Fill unbound constants with their default values" },
     { long := "no-aggregate"
       about := "Print each index separately instead of one stacked result" },
     { long := "axis", value := some "AXIS"
       about := s!"Name of the dimension indices are stacked along [default: {defaultAxis}]" }]

/-- The command that computes a kernel. -/
def kernelUsage : Usage where
  name := "kernel"
  about := "Compute a kernel k(a, b): linear, poly or RBF"
  words := some { name := "KERNEL", about := "Kernel name" }
  switches := [parameterSwitch "Symbol binding, e.g. -p a=0.68 -p b=0.13 -p sigma=0.4"]

/-- All commands, in the order in which they are listed. -/
def commands : List Usage :=
  [listUsage, describeUsage, symbolsUsage, computeUsage, kernelUsage]

/-! ## 3. Reading a command line -/

/-- What is to be done. -/
inductive Command where
  | list (domain : Option String)
  | describe (index : String)
  | symbols
  | compute (indices : List String) (parameters : List (String × List Float)) (defaults : Bool)
      (aggregate : Bool) (axis : String)
  | kernel (name : String) (parameters : List (String × List Float))

/-- A command with the settings that all commands share. -/
structure Invocation where
  /-- The file of the index catalogue, if it is not the built-in one. -/
  registry : Option String
  threads : Option Nat
  command : Command

/-- What a command line comes to. -/
inductive Request where
  | run (i : Invocation)
  /-- Help on one command, or on all of them. -/
  | help (command : Option String)
  | version
  | misused

/-- The numbers bound on a command line, in order. -/
def Given.parameters (g : Given) : List (String × List Float) :=
  (g.allValues "param").filterMap parameter?

/-- The command of a name with given words and switches. -/
def Command.ofGiven? (name : String) (g : Given) : Option Command :=
  match name, g.words with
  | "list", [] => some (.list (g.value? "domain"))
  | "describe", [index] => some (.describe index)
  | "symbols", [] => some .symbols
  | "compute", index :: more =>
    some (.compute (index :: more) g.parameters (g.has "defaults") (!g.has "no-aggregate")
      ((g.value? "axis").getD defaultAxis))
  | "kernel", [name] => some (.kernel name g.parameters)
  | _, _ => none

/-- How many words a command takes at most; no limit is none. -/
def Usage.maxWords (u : Usage) : Option Nat :=
  match u.words with
  | none => some 0
  | some w => if w.many then none else some 1

/-- The name under which help is asked for as a command. -/
def helpCommand : String := "help"

/-- Reads what follows the name of a command; `before` is what stood before it. -/
def Request.ofCommand (before : Except Refusal Given) (u : Usage) (arguments : List String) :
    Request :=
  match read (u.switches ++ commonSwitches ++ [helpSwitch]) u.maxWords {} none arguments with
  | .error .usage => .misused
  | .error .help => .help (some u.name)
  | .error .version => .version
  | .ok g =>
    match before, Command.ofGiven? u.name g with
    | .ok before, some command =>
      let value? (long : String) := (g.value? long).or (before.value? long)
      .run { registry := value? "registry", threads := (value? "threads").bind threads?, command }
    | _, _ => .misused

/-- Reads a command line. -/
def Request.ofArguments (arguments : List String) : Request :=
  match readUpToWord (commonSwitches ++ [helpSwitch, versionSwitch]) {} none arguments with
  | .error .usage => .misused
  | .error .help => .help none
  | .error .version => .version
  | .ok (_, []) => .misused
  | .ok (before, name :: rest) =>
    if name = helpCommand then
      match rest with
      | [] => .help none
      | [topic] =>
        if topic = helpCommand || commands.any (·.name = topic) then .help (some topic)
        else .misused
      | _ => .misused
    else
      match commands.find? fun u => u.name = name with
      | some u => .ofCommand before u rest
      | none => .misused

end BandMath.CommandLine
