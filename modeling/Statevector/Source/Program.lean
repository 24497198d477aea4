import Statevector.Circuit.Basic
import Statevector.Source.Line
import Statevector.Text.Lines

/-!
# Circuits from source

A source is read line by line. Of each setting the last line counts; gates are taken in order.
The width is the declared one if that is not zero, and otherwise the least that holds all qubits
named, at least one.

* `Program`: what the lines of a source set and do; `Program.ofLines`: gathered from the meanings
  of the lines;
* `Program.width`, `Program.circuit`: the circuit that a program describes;
* `classifyAll`: the meanings of all lines, numbered from one;
* `Circuit.ofSource`: the circuit that a source describes.
-/

namespace Statevector

namespace Source

open Text

/-- What the lines of a source set and do. -/
structure Program where
  width : Option UInt32 := none
  name : Option String := none
  description : Option String := none
  gates : Array Gate := #[]
deriving DecidableEq, Repr, Inhabited

namespace Program

/-- Take in one more line. -/
def add (p : Program) : Line → Program
  | .directive (.qubits n) => { p with width := some n }
  | .directive (.name s) => { p with name := some s }
  | .directive (.description s) => { p with description := some s }
  | .gate g => { p with gates := p.gates.push g }
  | .blank | .comment | .unrecognized => p

/-- The program of a list of lines. -/
def ofLines (ls : List Line) : Program := ls.foldl add {}

/-- The least width that holds every qubit the gates name, at least one. -/
def inferredWidth (p : Program) : Except Fault UInt32 :=
  match Circuit.maxIndex? (p.gates.toList.flatMap Gate.qubits) with
  | none => .ok 1
  | some m => match word32? (m.toNat + 1) with
    | some w => .ok w
    | none => .error (.widthTooLarge m)

/-- The width of the circuit: the declared one if that is not zero. -/
def circuitWidth (p : Program) : Except Fault UInt32 :=
  match p.width with
  | some w => if w = 0 then p.inferredWidth else .ok w
  | none => p.inferredWidth

/-- The circuit that a program describes. -/
def circuit (p : Program) : Except Fault Circuit := do
  let width ← p.circuitWidth
  let named := { Circuit.empty width with
    name := p.name.getD Circuit.defaultName
    description := p.description.getD Circuit.defaultDescription }
  return p.gates.toList.foldl Circuit.push named

end Program

/-- The meanings of lines numbered from `first`, or the fault of the first line that has one. -/
def classifyFrom (first : Nat) : List (List Char) → Except Fault (List Line)
  | [] => .ok []
  | cs :: rest => do
    let line ← Line.classify first cs
    let lines ← classifyFrom (first + 1) rest
    return line :: lines

/-- The meanings of the lines of a source, or the fault of the first line that has one. -/
def classifyAll (source : List Char) : Except Fault (List Line) := classifyFrom 1 (lines source)

end Source

/-- The circuit that a source describes. -/
def Circuit.ofSource (source : String) : Except Source.Fault Circuit := do
  let ls ← Source.classifyAll source.toList
  (Source.Program.ofLines ls).circuit

end Statevector
