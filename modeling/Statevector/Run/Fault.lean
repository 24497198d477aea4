import Statevector.Circuit.Validity
import Statevector.Source.Fault
import Statevector.State.Fault

/-!
# Faults of runs

* `Run.Fault`, with its wording `Run.Fault.message`.
-/

namespace Statevector

open Text

/-- What ends a run, a step through one, or a session's work. -/
inductive Run.Fault
  | state (fault : State.Fault)
  | circuit (fault : Circuit.Fault)
  | source (fault : Source.Fault)
  /-- No circuit is loaded. -/
  | noCircuit
  /-- The run was cancelled after some steps. -/
  | cancelled (completed : Nat)
  /-- A trace has no such step. -/
  | stepOutOfRange (step last : Nat)
  /-- A history does not belong to a circuit. -/
  | historyMismatch (states gates : Nat)
deriving DecidableEq, Repr

/-- The wording of a fault. -/
def Run.Fault.message : Run.Fault → String
  | state fault => fault.message
  | circuit fault => "Invalid circuit: " ++ fault.message
  | source fault => "Failed to parse circuit: " ++ fault.message
  | noCircuit => "No valid circuit to execute"
  | cancelled completed => "Execution cancelled after " ++ decimal completed ++ " steps"
  | stepOutOfRange step last =>
    "Step " ++ decimal step ++ " is out of range (last step is " ++ decimal last ++ ")"
  | historyMismatch states gates =>
    "Result has " ++ decimal states ++ " intermediate states but circuit has " ++ decimal gates ++
      " gates"

end Statevector
