/-
# Help texts

The help text of a command is made from its words and switches; every entry is set in two columns.
No list of switches is written out by hand, so a switch that is added to a command
(`BandMath.CommandLine.Invocation`) shows up in its help.

* `overview` is the help on everything: the commands, and the switches that may stand before one.
* `Usage.help` is the help on one command: its words, its own switches, those that every command
  has, and the switch that asks for help, which comes last.
* `helpOnHelp` is the help on asking for help, which is a command without switches.

Switches are listed by rank, which is the number that a switch has among its own kind, the switches
of the command and the common ones being numbered separately.  Where two have the same rank, the
letter decides, or the name where there is no letter (`Switch.sortKey`, `interleave`).

The second column of a block starts two places after its longest entry (`columns`), and a block
without entries is left out together with its heading (`block`).
-/
import BandMath.CommandLine.Invocation
import BandMath.Text.Quoted

namespace BandMath.CommandLine

/-! ## 1. Two columns -/

/-- Entries with their explanations, indented by two and aligned two places after the longest. -/
def columns (entries : List (String × String)) : List String :=
  let width := (entries.map fun (entry, _) => entry.length).foldl max 0
  entries.map fun (entry, about) => "  " ++ Text.padRight (width + 2) entry ++ about

/-- A heading with its entries, after an empty line; nothing at all without entries. -/
def block (heading : String) (entries : List (String × String)) : List String :=
  if entries.isEmpty then [] else "" :: s!"{heading}:" :: columns entries

/-! ## 2. Entries -/

/-- How a switch is written. -/
def Switch.entry (s : Switch) : String :=
  let letter := match s.letter with
    | some c => s!"-{c}, "
    | none => "    "
  let value := match s.value with
    | some name => s!" <{name}>"
    | none => ""
  letter ++ "--" ++ s.long ++ value

/-- How the words of a command are written. -/
def Words.entry (w : Words) : String :=
  s!"<{w.name}>" ++ if w.many then "..." else ""

/-- Where a switch stands among those of the same rank: by its letter, or else by its name. -/
def Switch.sortKey (s : Switch) : String :=
  match s.letter with
  | some c => String.ofList [c.toLower, if c.isLower then '0' else '1']
  | none => s.long

/-- The switches of a command and the common ones, those with the same number side by side. -/
def interleave (own common : List Switch) : List Switch :=
  let ranked := (own.zipIdx ++ common.zipIdx).mergeSort fun (s, i) (t, k) =>
    i < k || (i = k && s.sortKey ≤ t.sortKey)
  ranked.map (·.1)

/-- The entries of some switches. -/
def switchEntries (switches : List Switch) : List (String × String) :=
  switches.map fun s => (s.entry, s.about)

/-! ## 3. Texts -/

/-- The name by which the program is called. -/
def program : String := "specidx"

/-- What is printed when the version is asked for. -/
def versionText : List String := [s!"{program} 0.1.0"]

/-- Help on all commands. -/
def overview : List String :=
  ["Spectral index computation", "", s!"Usage: {program} [OPTIONS] <COMMAND>"]
    ++ block "Commands" (commands.map (fun u => (u.name, u.about)) ++
      [(helpCommand, "Print this message or the help of the given subcommand(s)")])
    ++ block "Options" (switchEntries (commonSwitches ++ [helpSwitch, versionSwitch]))

/-- Help on asking for help. -/
def helpOnHelp : List String :=
  ["Print this message or the help of the given subcommand(s)", "",
    s!"Usage: {program} {helpCommand} [COMMAND]..."]
    ++ block "Arguments" [("[COMMAND]...", "Print help for the subcommand(s)")]

/-- Help on one command. -/
def Usage.help (u : Usage) : List String :=
  let words := match u.words with
    | some w => s!" {w.entry}"
    | none => ""
  [u.about, "", s!"Usage: {program} {u.name} [OPTIONS]{words}"]
    ++ block "Arguments" (u.words.toList.map fun w => (w.entry, w.about))
    ++ block "Options" (switchEntries (interleave u.switches commonSwitches ++ [helpSwitch]))

/-- The help text that is asked for. -/
def helpText : Option String → List String
  | none => overview
  | some topic =>
    match commands.find? fun u => u.name = topic with
    | some u => u.help
    | none => helpOnHelp

end BandMath.CommandLine
