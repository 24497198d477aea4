import Statevector.Circuit.Validity

/-!
# Edits of circuits

A circuit is built by edits in place. An edit that fails keeps what it changed before it failed;
appending a gate checks the gate first.

* `Circuit.Editing`: what is done to a circuit in place;
* `Circuit.append`: append a gate if it has no fault;
* `Circuit.Edit`, `Circuit.edit`: all edits, with the gate that an edit appends (`Edit.gate?`);
* `Circuit.editAll`: edits one after the other, whether they fail or not.
-/

namespace Statevector.Circuit

/-- Something done to a circuit in place. What is changed before a failure stays changed. -/
abbrev Editing := ExceptT Fault (StateM Circuit)

/-- Append a gate if it has no fault. -/
def append (g : Gate) : Editing Unit := do
  checkGate (← get).width g
  modify (·.push g)

/-- The edits that build a circuit. -/
inductive Edit
  /-- A gate on one qubit. -/
  | one (kind : OneQubit) (qubit : Qubit)
  /-- A gate on two qubits. -/
  | two (kind : TwoQubit) (first second : Qubit)
  /-- Any gate, also one that lacks its second operand. -/
  | gate (g : Gate)
  /-- Another name. -/
  | name (text : String)
  /-- Another description. -/
  | description (text : String)
deriving DecidableEq, Repr

/-- The gate that an edit appends. -/
def Edit.gate? : Edit → Option Gate
  | one k q => some (.one k q)
  | two k a b => some (.two k a (some b))
  | gate g => some g
  | name _ | description _ => none

/-- What an edit does. -/
def Edit.perform : Edit → Editing Unit
  | one k q => append (.one k q)
  | two k a b => append (.two k a (some b))
  | gate g => append g
  | name text => modify fun c => { c with name := text }
  | description text => modify fun c => { c with description := text }

/-- What an edit answers, and the circuit after it. -/
def edit (c : Circuit) (e : Edit) : Except Fault Unit × Circuit := e.perform.run.run c

/-- The circuit after some edits. Those that fail are followed by the others. -/
def editAll (c : Circuit) (es : List Edit) : Circuit := es.foldl (fun c e => (c.edit e).2) c

end Statevector.Circuit
