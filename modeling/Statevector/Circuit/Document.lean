import Statevector.Circuit.Basic
import Statevector.Json.Reader
import Statevector.Json.Record
import Statevector.Json.Writer

/-!
# Circuits as JSON documents

A circuit is a record of its name, description, width and gates, a gate one of its position and
operation, and an operation is tagged with its arity. Members may stand in any order, and unknown
ones are ignored; a missing second operand may be left out or null.

* `Circuit.toJson`, `Circuit.toDocument`: the document of a circuit;
* `Circuit.ofJson?`, `Circuit.ofDocument?`: the circuit of a document.
-/

namespace Statevector

open Json

/-! ## Writing -/

/-- The name of a one-qubit gate in a document. -/
def OneQubit.documentName : OneQubit → String
  | h => "H"
  | x => "X"
  | y => "Y"
  | z => "Z"

/-- The name of a two-qubit gate in a document. -/
def TwoQubit.documentName : TwoQubit → String
  | cnot => "Cnot"
  | swap => "Swap"

/-- The value of a word. -/
def Json.Value.ofWord (w : UInt32) : Value := .ofNat w.toNat

/-- The record of a gate's operation. -/
def Gate.toJson : Gate → Value
  | one k q => .ofMembers [("arity", .ofString "single"), ("kind", .ofString k.documentName),
      ("qubit", .ofWord q.index)]
  | two k a b => .ofMembers [("arity", .ofString "two"), ("kind", .ofString k.documentName),
      ("control", .ofWord a.index),
      ("target", match b with
        | some b => .ofWord b.index
        | none => .null)]

/-- The record of a gate at its position. -/
def Placed.toJson (p : Placed) : Value :=
  .ofMembers [("position", .ofWord p.position), ("op", p.gate.toJson)]

namespace Circuit

/-- The record of a circuit. -/
def toJson (c : Circuit) : Value :=
  .ofMembers [("name", .ofString c.name), ("description", .ofString c.description),
    ("num_qubits", .ofWord c.width), ("gates", .array (c.gates.toList.map Placed.toJson))]

/-- The document of a circuit, without blanks. -/
def toDocument (c : Circuit) : String := String.ofList c.toJson.compact

end Circuit

/-! ## Reading -/

/-- The one-qubit gate with a given name. -/
def OneQubit.ofDocumentName? (name : String) : Option OneQubit :=
  [h, x, y, z].find? fun k => k.documentName == name

/-- The two-qubit gate with a given name. -/
def TwoQubit.ofDocumentName? (name : String) : Option TwoQubit :=
  [cnot, swap].find? fun k => k.documentName == name

/-- The name that a value spells: a text, or an object whose only member has that key and holds
nothing. -/
def Json.Value.choice? : Value → Option String
  | string s => symbolsText? s
  | object [(k, null)] => symbolsText? k
  | object [(k, object [])] => symbolsText? k
  | _ => none

/-- The second operand of a two-qubit gate; null if it is missing. -/
def Qubit.ofOptionalJson? : Value → Option (Option Qubit)
  | .null => some none
  | v => v.word32?.map fun w => some ⟨w⟩

/-- The one-qubit gate of a record. -/
def Gate.oneOfJson? (v : Value) : Option Gate := do
  match ← v.fields? [("kind", false), ("qubit", false)] with
  | [kind, qubit] =>
    return .one (← OneQubit.ofDocumentName? (← kind.choice?)) ⟨← qubit.word32?⟩
  | _ => none

/-- The two-qubit gate of a record. -/
def Gate.twoOfJson? (v : Value) : Option Gate := do
  match ← v.fields? [("kind", false), ("control", false), ("target", true)] with
  | [kind, control, target] =>
    return .two (← TwoQubit.ofDocumentName? (← kind.choice?)) ⟨← control.word32?⟩
      (← Qubit.ofOptionalJson? target)
  | _ => none

/-- The tag of a record and the record without it. -/
def Json.Value.tagged? (tag : String) : Value → Option (String × Value)
  | .object members => do
    match ← member? members tag with
    | some v => return (← v.text?, .object (members.filter fun m => !hasName tag m))
    | none => none
  | .array (v :: vs) => do return (← v.text?, .array vs)
  | _ => none

/-- How deep containers may be nested in an operation, itself counted. -/
def Gate.maxDepth : Nat := 124

/-- The gate of an operation's record. All of the record has to be sound and not nested too deep,
what is ignored in it too. -/
def Gate.ofJson? (v : Value) : Option Gate := do
  if v.isSound = false ∨ Gate.maxDepth < v.depth then none
  match ← v.tagged? "arity" with
  | ("single", v) => Gate.oneOfJson? v
  | ("two", v) => Gate.twoOfJson? v
  | _ => none

/-- The gate at its position of a record. -/
def Placed.ofJson? (v : Value) : Option Placed := do
  match ← v.fields? [("position", false), ("op", false)] with
  | [position, op] => return ⟨← position.word32?, ← Gate.ofJson? op⟩
  | _ => none

namespace Circuit

/-- The circuit of a record. -/
def ofJson? (v : Value) : Option Circuit := do
  match ← v.fields? [("name", false), ("description", false), ("num_qubits", false),
      ("gates", false)] with
  | [name, description, width, gates] =>
    let gates ← (← gates.items?).mapM Placed.ofJson?
    return ⟨← name.text?, ← description.text?, ← width.word32?, gates.toArray⟩
  | _ => none

/-- The circuit of a document. -/
def ofDocument? (text : String) : Option Circuit := do ofJson? (← Value.parse? text)

end Circuit

end Statevector
