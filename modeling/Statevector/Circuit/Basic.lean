import Statevector.Circuit.Gate

/-!
# Circuits

A circuit is a list of gates over a fixed number of qubits, with a name and a description for
display. Gates are numbered from one as they are appended, and the last number a 32-bit word can
hold is used for all gates that come after it.

* `Placed`: a gate at its display position;
* `Circuit`, `Circuit.empty`, `Circuit.push`, `Circuit.ofGates`;
* `Circuit.maxQubit?`: the largest index that a gate names.
-/

namespace Statevector

/-- A gate of a circuit, with the column in which it is shown. -/
structure Placed where
  position : UInt32
  gate : Gate
deriving DecidableEq, Repr, Inhabited

/-- A list of gates over a fixed number of qubits. -/
structure Circuit where
  name : String
  description : String
  width : UInt32
  gates : Array Placed
deriving DecidableEq, Repr, Inhabited

namespace Circuit

/-- The name of a circuit that never set one. -/
def defaultName : String := "Custom Circuit"

/-- The description of a circuit that never set one. -/
def defaultDescription : String := "Circuit created from code"

/-- The circuit without gates over `width` qubits. -/
def empty (width : UInt32) : Circuit := ⟨defaultName, defaultDescription, width, #[]⟩

/-- The position of the gate appended after `count` others. -/
def positionAfter (count : Nat) : UInt32 := UInt32.ofNat (min (count + 1) (UInt32.size - 1))

/-- Append a gate, whatever its operands. -/
def push (c : Circuit) (g : Gate) : Circuit :=
  { c with gates := c.gates.push ⟨positionAfter c.gates.size, g⟩ }

/-- The circuit over `width` qubits of the given gates. -/
def ofGates (width : UInt32) (gs : List Gate) : Circuit := gs.foldl push (empty width)

/-- The gates of a circuit, without their positions. -/
def gateList (c : Circuit) : List Gate := c.gates.toList.map Placed.gate

/-- The largest index among the given qubits. -/
def maxIndex? (qs : List Qubit) : Option UInt32 := (qs.map Qubit.index).max?

/-- The largest qubit index that a gate of the circuit names. -/
def maxQubit? (c : Circuit) : Option UInt32 := maxIndex? (c.gateList.flatMap Gate.qubits)

@[simp] theorem gateList_push (c : Circuit) (g : Gate) :
    (c.push g).gateList = c.gateList ++ [g] := by
  simp [gateList, push]

theorem length_gateList (c : Circuit) : c.gateList.length = c.gates.size := by
  simp [gateList]

@[simp] theorem width_push (c : Circuit) (g : Gate) : (c.push g).width = c.width := rfl

end Circuit

end Statevector
