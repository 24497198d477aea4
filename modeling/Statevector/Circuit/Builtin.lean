import Statevector.Circuit.Validity

/-!
# Circuits that come with the library

* `Circuit.build`: gates appended one by one, each checked;
* `Circuit.bell`, `Circuit.teleportation`, `Circuit.grover`.
-/

namespace Statevector.Circuit

/-- Append gates, up to the first that has a fault. -/
def build (c : Circuit) (gs : List Gate) : Except Fault Circuit := gs.foldlM tryPush c

section Calls

/-- Hadamard on qubit `q`. -/
def callH (q : UInt32) : Gate := .one .h ⟨q⟩

/-- Pauli X on qubit `q`. -/
def callX (q : UInt32) : Gate := .one .x ⟨q⟩

/-- Pauli Z on qubit `q`. -/
def callZ (q : UInt32) : Gate := .one .z ⟨q⟩

/-- Controlled-NOT with control `a` and target `b`. -/
def callCnot (a b : UInt32) : Gate := .two .cnot ⟨a⟩ (some ⟨b⟩)

end Calls

/-- The Bell state on two qubits. -/
def bell : Except Fault Circuit :=
  build { empty 2 with
      name := "Bell State"
      description := "Creates a maximally entangled state |00⟩ + |11⟩" }
    [callH 0, callCnot 0 1]

/-- The teleportation protocol on three qubits. -/
def teleportation : Except Fault Circuit :=
  build { empty 3 with
      name := "Quantum Teleportation"
      description := "Protocol to transfer quantum state using entanglement" }
    [callH 1, callCnot 1 2, callCnot 0 1, callH 0, callX 1, callZ 0]

/-- A fixed sequence on three qubits in the manner of Grover's search, for demonstration; it is no
textbook iteration. -/
def grover : Except Fault Circuit :=
  build { empty 3 with
      name := "Grover's Algorithm"
      description := "Quantum search algorithm for unstructured databases" }
    [callH 0, callH 1, callH 2, callX 0, callX 1, callX 2, callH 2, callCnot 0 2, callH 2,
      callX 0, callX 1, callX 2, callH 0, callH 1, callH 2]

end Statevector.Circuit
