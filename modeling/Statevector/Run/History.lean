import Statevector.State.Basic

/-!
# Histories

* `History`: the states of a finished run;
* `History.stateAt?`: the state after a number of steps.
-/

namespace Statevector

/-- The states of a finished run: where it started, one state per gate, and where it ended. -/
structure History (α : Type) where
  initial : State α
  states : Array (State α)
  final : State α
deriving DecidableEq, Repr, Inhabited

namespace History

variable {α : Type}

/-- The number of gates that were applied. -/
def steps (h : History α) : Nat := h.states.size

/-- The state after `step` gates. -/
def stateAt? (h : History α) : Nat → Option (State α)
  | 0 => some h.initial
  | k + 1 => h.states[k]?

end History

end Statevector
