import Statevector.Circuit.Basic

/-!
# Valid circuits

A circuit is valid if it has a qubit, if its gates name only qubits it has, and if no two-qubit
gate names one qubit twice. Within a gate an operand out of range is reported before a repeated
one; within a circuit the first bad gate is reported.

* `Circuit.Fault`, with its wording;
* `Circuit.checkGate`, `Circuit.validate`: the first fault of a gate, of a circuit;
* `Circuit.tryPush`: append a gate only if it has no fault.
-/

namespace Statevector

open Text

/-- What breaks a circuit. -/
inductive Circuit.Fault
  /-- A gate names a qubit that the circuit lacks. -/
  | outOfRange (kind : GateKind) (qubit : Qubit) (width : UInt32)
  /-- A two-qubit gate names one qubit twice. -/
  | repeatedQubit (kind : GateKind) (qubit : Qubit)
  /-- The circuit has no qubit. -/
  | noQubits
deriving DecidableEq, Repr

/-- The wording of a fault. -/
def Circuit.Fault.message : Circuit.Fault → String
  | outOfRange kind qubit width =>
    "Gate '" ++ kind.name ++ "' references " ++ qubit.text ++ " but circuit only has " ++
      decimal width.toNat ++ " qubits"
  | repeatedQubit kind qubit =>
    "Gate '" ++ kind.name ++ "' uses " ++ qubit.text ++ " as both of its operands"
  | noQubits => "Circuit must have at least one qubit"

/-- The qubit that a gate names as both of its operands. -/
def Gate.repeated? : Gate → Option Qubit
  | two _ a (some b) => if a = b then some a else none
  | _ => none

namespace Circuit

/-- The first fault of a gate over `width` qubits. -/
def checkGate (width : UInt32) (g : Gate) : Except Fault Unit :=
  match g.qubits.find? fun q => width ≤ q.index with
  | some q => .error (.outOfRange g.kind q width)
  | none => match g.repeated? with
    | some q => .error (.repeatedQubit g.kind q)
    | none => .ok ()

/-- The first fault of a circuit. -/
def validate (c : Circuit) : Except Fault Unit :=
  if c.width = 0 then .error .noQubits else c.gateList.forM (checkGate c.width)

/-- Append a gate if it has no fault. -/
def tryPush (c : Circuit) (g : Gate) : Except Fault Circuit := do
  checkGate c.width g
  return c.push g

end Circuit

end Statevector
