/-
# Switches

The arguments of a command are words and switches.  A switch has a long name after two dashes and
perhaps a letter after one; its value follows it, as the next argument or in the same one.

* `--name value`, `--name=value`, `-n value`, `-n=value` and `-nvalue` all give `value`.
* Letters of switches without a value may be written together.
* The next argument is not a value if it starts with a dash and is longer than that.
* After `--` there are only words.

`read` goes through the arguments from left to right.  What it carries along is what was given so
far (`Given`) and the switch, if any, that waits for its value.  It stops at the first argument that
makes no sense, or that asks for help or for the version, whichever comes first (`Refusal`); the
arguments after that one are not looked at.  A switch may be given once unless it `repeats`, and its
value has to be one that it `accepts`.

`readUpToWord` reads the switches before the first word in the same way and leaves the rest to the
reader of that word.  Two things are different there: `--` makes no sense, since a word has to be
the name of a command, and a value right before the word is handed over unchecked, so that help that
is asked for further on is given even if that value is not accepted.
-/

namespace BandMath.CommandLine

/-! ## 1. Switches -/

/-- What a switch does when it is given. -/
inductive Action where
  | set
  | help
  | version
  deriving DecidableEq

/-- A switch and how it is used. -/
structure Switch where
  long : String
  letter : Option Char := none
  /-- What stands for the value in help texts, if the switch takes one. -/
  value : Option String := none
  /-- Whether a text can be the value. -/
  accepts : String → Bool := fun _ => true
  /-- Whether the switch may be given more than once. -/
  repeats : Bool := false
  action : Action := .set
  about : String

/-! ## 2. Reading arguments -/

/-- Why arguments are not carried out. -/
inductive Refusal where
  | usage
  | help
  | version

/-- The values of switches by long name, and the words, both in order. -/
structure Given where
  values : List (String × String) := []
  words : List String := []

/-- The value of a switch. -/
def Given.value? (g : Given) (long : String) : Option String :=
  g.values.lookup long

/-- All values of a switch, in order. -/
def Given.allValues (g : Given) (long : String) : List String :=
  (g.values.filter fun (name, _) => name = long).map (·.2)

/-- Whether a switch is given. -/
def Given.has (g : Given) (long : String) : Bool :=
  (g.value? long).isSome

/-- Takes note of a switch and its value. -/
def record (s : Switch) (v : String) (g : Given) : Except Refusal Given :=
  match s.action with
  | .help => .error .help
  | .version => .error .version
  | .set =>
    if (g.has s.long && !s.repeats) || !s.accepts v then .error .usage
    else .ok { g with values := g.values ++ [(s.long, v)] }

/-- What one argument leads to: what is given now, and the switch that waits for its value. -/
abbrev Step := Except Refusal (Given × Option Switch)

/-- The part of an argument after two dashes. -/
def readLong (switches : List Switch) (g : Given) (body : List Char) : Step :=
  let name := String.ofList (body.takeWhile (· ≠ '='))
  match switches.find? fun s => s.long = name, body.dropWhile (· ≠ '=') with
  | none, _ => .error .usage
  | some s, [] =>
    if s.value.isSome then .ok (g, some s) else (record s "" g).map fun g => (g, none)
  | some s, _ :: attached =>
    if s.value.isSome then (record s (String.ofList attached) g).map fun g => (g, none)
    else .error .usage

/-- The part of an argument after one dash. -/
def readLetters (switches : List Switch) (g : Given) : List Char → Step
  | [] => .ok (g, none)
  | c :: cs =>
    match switches.find? fun s => s.letter = some c with
    | none => .error .usage
    | some s =>
      if s.value.isNone then do readLetters switches (← record s "" g) cs
      else
        match cs with
        | [] => .ok (g, some s)
        | '=' :: attached => (record s (String.ofList attached) g).map fun g => (g, none)
        | attached => (record s (String.ofList attached) g).map fun g => (g, none)

/-- Whether an argument is a switch wherever it stands. -/
def isSwitch (argument : String) : Bool :=
  match argument.toList with
  | '-' :: _ :: _ => true
  | _ => false

/-- Adds a word, unless there are too many. -/
def addWord (maxWords : Option Nat) (g : Given) (word : String) : Except Refusal Given :=
  if maxWords.any fun n => n ≤ g.words.length then .error .usage
  else .ok { g with words := g.words ++ [word] }

/-- Reads the arguments of a command; `waiting` is the switch whose value comes next. -/
def read (switches : List Switch) (maxWords : Option Nat) (g : Given) (waiting : Option Switch) :
    List String → Except Refusal Given
  | [] => if waiting.isSome then .error .usage else .ok g
  | a :: rest =>
    match waiting with
    | some s =>
      if isSwitch a then .error .usage
      else do read switches maxWords (← record s a g) none rest
    | none =>
      match a.toList with
      | ['-', '-'] => rest.foldlM (addWord maxWords) g
      | '-' :: '-' :: body => do
        let (g, waiting) ← readLong switches g body
        read switches maxWords g waiting rest
      | '-' :: c :: cs => do
        let (g, waiting) ← readLetters switches g (c :: cs)
        read switches maxWords g waiting rest
      | _ => do read switches maxWords (← addWord maxWords g a) none rest

/-- The switches before the first word; the arguments from that word on are left.  Whether a value
right before that word is accepted is for the reader of the word to look at, after the rest: help
that is asked for later on is given all the same. -/
def readUpToWord (switches : List Switch) (g : Given) (waiting : Option Switch) :
    List String → Except Refusal (Except Refusal Given × List String)
  | [] => if waiting.isSome then .error .usage else .ok (.ok g, [])
  | a :: rest =>
    match waiting with
    | some s =>
      if isSwitch a then .error .usage
      else if rest.head?.any isSwitch then do readUpToWord switches (← record s a g) none rest
      else .ok (record s a g, rest)
    | none =>
      match a.toList with
      | ['-', '-'] => .error .usage
      | '-' :: '-' :: body => do
        let (g, waiting) ← readLong switches g body
        readUpToWord switches g waiting rest
      | '-' :: c :: cs => do
        let (g, waiting) ← readLetters switches g (c :: cs)
        readUpToWord switches g waiting rest
      | _ => .ok (.ok g, a :: rest)

end BandMath.CommandLine
