import Statevector.Circuit.Gate

/-!
# Faults of states and gates

* `State.Fault`, with its wording `State.Fault.message`.
-/

namespace Statevector

open Text

/-- What a state or a gate on it can lack. -/
inductive State.Fault
  /-- The state has no such qubit. -/
  | qubitOutOfRange (qubit : Qubit) (width : Nat) (kind : Option GateKind)
  /-- A two-qubit gate names one qubit twice. -/
  | repeatedQubit (kind : GateKind) (qubit : Qubit)
  /-- The number of amplitudes is not two to the width. -/
  | sizeMismatch (width size : Nat)
  /-- The state would be wider than the limit. -/
  | tooManyQubits (requested limit : Nat)
  /-- An amplitude was read or written at an index that the state does not have. -/
  | noAmplitude (index size : Nat)
  /-- A word has no bit for the qubit: one was shifted by as many places as a word has bits, or by
  more. -/
  | shiftOverflow (qubit : Qubit)
deriving DecidableEq, Repr

/-- The wording of a fault. -/
def State.Fault.message : State.Fault → String
  | qubitOutOfRange qubit width kind =>
    qubit.text ++ " is out of range for a " ++ decimal width ++ "-qubit state" ++
      match kind with
      | some kind => " (gate: " ++ kind.name ++ ")"
      | none => ""
  | repeatedQubit kind qubit =>
    kind.name ++ " needs two distinct qubits, got " ++ qubit.text ++ " twice"
  | sizeMismatch width size =>
    "Amplitude vector of length " ++ decimal size ++ " does not match " ++ decimal width ++ " qubits"
  | tooManyQubits requested limit =>
    "Circuit has " ++ decimal requested ++ " qubits but the simulator is limited to " ++
      decimal limit
  | noAmplitude index size =>
    "No amplitude " ++ decimal index ++ " in a vector of length " ++ decimal size
  | shiftOverflow qubit => "No word has a bit for " ++ qubit.text

end Statevector
