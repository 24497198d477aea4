import Statevector.Circuit.Validity
import Statevector.Run.History
import Statevector.Source.Sample
import Statevector.State.Ket

/-!
# What commands print

* `padStart`, `padEnd`: texts filled up with blanks;
* `Page.circuit`, `Page.states`, `Page.samples`, `Page.version`: the lines of a circuit, of the
  states of a run, of the sample programs, and about the program.
-/

namespace Statevector.Command

open Text

/-- A text filled up with blanks at its start. -/
def padStart (width : Nat) (s : String) : String :=
  String.ofList (List.replicate (width - s.length) ' ') ++ s

/-- A text filled up with blanks at its end. -/
def padEnd (width : Nat) (s : String) : String :=
  s ++ String.ofList (List.replicate (width - s.length) ' ')

/-- The text of lines, every one ended by a line feed. -/
def ofLines (ls : List String) : String := String.join (ls.map (· ++ "\n"))

/-- The size of a circuit in words. -/
def sizeText (c : Circuit) : String :=
  "(" ++ decimal c.width.toNat ++ " qubits, " ++ decimal c.gates.size ++ " gates)"

namespace Page

/-- The lines of a circuit. -/
def circuit (c : Circuit) : List String :=
  ["✓ Parsed circuit", "", "  Name:        " ++ c.name, "  Description: " ++ c.description,
    "  Qubits:      " ++ decimal c.width.toNat ++ "   Gates: " ++ decimal c.gates.size, ""] ++
  if c.gates.isEmpty then ["  (no gates)"]
  else
    (c.gates.toList.map fun g =>
      "  " ++ padStart 4 (decimal g.position.toNat) ++ "  " ++ g.gate.text) ++
    match c.validate with
    | .ok () => []
    | .error fault => ["", "⚠ " ++ fault.message]

/-- The line that announces a run. -/
def announcement (c : Circuit) : String := "→ Running " ++ c.name ++ " " ++ sizeText c

/-- The lines of a state. -/
def state (s : State Float) : List String :=
  (if s.kets.isEmpty then [noSignificant] else s.kets).map ("  " ++ ·)

/-- The lines of the states of a run, with every step or only the last state. -/
def states (c : Circuit) (h : History Float) (steps : Bool) : List String :=
  (if steps then
    ["", "Initial state:"] ++ state h.initial ++
      (c.gates.toList.zip h.states.toList).flatMap fun (g, s) =>
        ["", "Step " ++ decimal g.position.toNat ++ ": " ++ g.gate.text] ++ state s
  else []) ++ ["", "✓ Final state:"] ++ state h.final

/-- The line about the time of a run, in milliseconds. -/
def time (milliseconds : String) : List String := ["", "  Execution time: " ++ milliseconds ++ " ms"]

/-- The lines of a sample program. -/
def sample (s : Source.Sample) : Except Source.Fault (List String) := do
  let c ← s.circuit
  return ["  " ++ padEnd 14 s.key ++ " " ++ c.name ++ " " ++ sizeText c,
    "  " ++ padEnd 14 "" ++ " " ++ c.description]

/-- The lines of all sample programs. -/
def samples : Except Source.Fault (List String) := do
  let all ← Source.Sample.all.mapM sample
  return ["QStep Bundled circuits:", ""] ++ all.flatten ++
    ["", "Run one with: qstep run --sample <name>"]

/-- The version of the program. -/
def versionNumber : String := "0.3.0"

/-- The line of the program's name and version. -/
def versionLine : String := "qstep " ++ versionNumber

/-- The lines about the program. -/
def version : List String :=
  ["QStep v" ++ versionNumber ++ " - step-through statevector simulator", "", "Components:",
    "  qstep-ir   Circuit representation",
    "  qstep-dsl  Circuit language parser and emitter",
    "  qstep-sim  Statevector kernels and stepwise executor",
    "  qstep-cli  Command-line interface", "",
    "Repository: https://github.com/qstep-dev/qstep", "License:    Apache-2.0"]

/-- The lines that tell how the program is used. -/
def usage : List String :=
  ["Usage: qstep [OPTIONS] <COMMAND>", "", "Commands:",
    "  parse    Parse a circuit and print its structure",
    "  run      Run a circuit gate by gate",
    "  samples  List the bundled sample circuits",
    "  version  Show version information"]

end Page

end Statevector.Command
