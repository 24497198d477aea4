import Statevector.Source.Program

/-!
# Sample programs

* `Sample`, with its `key` and `source`; `Sample.all`, in the order in which they are listed;
* `Sample.ofKey`: the sample with a given key, in any ASCII case;
* `Sample.circuit`: what its source describes.
-/

namespace Statevector.Source

/-- The sample programs. -/
inductive Sample
  | bell
  | teleportation
  | grover
deriving DecidableEq, Repr, Inhabited

namespace Sample

/-- Every sample, in the order in which they are listed. -/
def all : List Sample := [bell, teleportation, grover]

/-- The key under which a sample is found. -/
def key : Sample → String
  | bell => "bell"
  | teleportation => "teleportation"
  | grover => "grover"

/-- The source of a sample. -/
def source : Sample → String
  | bell => "\n".intercalate [
      "// Bell State Circuit",
      "qubits 2",
      "name \"Bell State\"",
      "description \"Creates a maximally entangled state |00⟩ + |11⟩\"",
      "",
      "H(0)",
      "CNOT(0, 1)"]
  | teleportation => "\n".intercalate [
      "// Quantum Teleportation Circuit",
      "qubits 3",
      "name \"Quantum Teleportation\"",
      "description \"Protocol to transfer quantum state using entanglement\"",
      "",
      "H(1)",
      "CNOT(1, 2)",
      "CNOT(0, 1)",
      "H(0)",
      "X(1)",
      "Z(0)"]
  | grover => "\n".intercalate [
      "// Grover's Algorithm (simplified)",
      "qubits 3",
      "name \"Grover's Algorithm\"",
      "description \"Quantum search algorithm for unstructured databases\"",
      "",
      "H(0)",
      "H(1)",
      "H(2)",
      "X(0)",
      "X(1)",
      "X(2)",
      "H(2)",
      "CNOT(0, 2)",
      "H(2)",
      "X(0)",
      "X(1)",
      "X(2)",
      "H(0)",
      "H(1)",
      "H(2)"]

/-- The sample with a given key, in any ASCII case. -/
def ofKey (key : String) : Except Fault Sample :=
  match all.find? fun s => s.key.toList == key.toList.map Char.toLower with
  | some s => .ok s
  | none => .error (.unknownSample key)

/-- The circuit that the source of a sample describes. -/
def circuit (s : Sample) : Except Fault Circuit := Circuit.ofSource s.source

end Sample

end Statevector.Source
