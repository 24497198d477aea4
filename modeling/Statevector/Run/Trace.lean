import Statevector.Run.Executor

/-!
# Stepping through a run

A trace pairs a circuit with the history of a run of it and has a cursor. At step zero it shows the
state in which the run started, at step `k` the state after the `k`-th gate.

* `Trace`, `Trace.ofHistory`: a trace at its start, if circuit and history fit;
* `Trace.current?`, `Trace.gate?`: what the cursor shows;
* `Trace.forward?`, `Trace.back?`, `Trace.jump`, `Trace.rewind`, gathered in `Trace.move`;
* `Trace.step`: a move with the state that it shows.
-/

namespace Statevector

/-- A cursor over the states of a run. -/
structure Trace (α : Type) where
  circuit : Circuit
  history : History α
  cursor : Nat := 0
deriving DecidableEq, Repr, Inhabited

namespace Trace

variable {α : Type}

/-- A trace of a circuit and a history with as many states as the circuit has gates. -/
def ofHistory (c : Circuit) (h : History α) : Except Run.Fault (Trace α) :=
  if h.steps = c.gates.size then .ok { circuit := c, history := h }
  else .error (.historyMismatch h.steps c.gates.size)

/-- The number of the last step. -/
def last (t : Trace α) : Nat := t.history.steps

/-- The state at the cursor. -/
def current? (t : Trace α) : Option (State α) :=
  if t.cursor = 0 then some t.history.initial else t.history.states[t.cursor - 1]?

/-- The gate that led to the state at the cursor. -/
def gate? (t : Trace α) : Option Placed :=
  if t.cursor = 0 then none else t.circuit.gates[t.cursor - 1]?

/-- Whether the cursor is at the first step. -/
def atStart (t : Trace α) : Bool := t.cursor == 0

/-- Whether the cursor is at the last step. -/
def atEnd (t : Trace α) : Bool := t.cursor == t.last

/-- One step forward, unless the cursor is at the end. -/
def forward? (t : Trace α) : Option (Trace α) :=
  if t.atEnd then none else some { t with cursor := t.cursor + 1 }

/-- One step back, unless the cursor is at the start. -/
def back? (t : Trace α) : Option (Trace α) :=
  if t.atStart then none else some { t with cursor := t.cursor - 1 }

/-- To a given step. -/
def jump (t : Trace α) (step : Nat) : Except Run.Fault (Trace α) :=
  if t.last < step then .error (.stepOutOfRange step t.last) else .ok { t with cursor := step }

/-- To the first step. -/
def rewind (t : Trace α) : Trace α := { t with cursor := 0 }

/-- The moves of a cursor. -/
inductive Move
  | forward
  | back
  | jump (step : Nat)
  | rewind
deriving DecidableEq, Repr, Inhabited

/-- How a cursor answers a move. -/
inductive Reply
  /-- It moved; the state to show is the one at the cursor. -/
  | moved
  /-- It could not move, and stays where it is. -/
  | stays
  /-- The move was refused. -/
  | refused (fault : Run.Fault)
  /-- It is at the first step. -/
  | rewound
deriving DecidableEq, Repr

/-- Move the cursor. -/
def move (t : Trace α) : Move → Reply × Trace α
  | .forward => match t.forward? with
    | some t => (.moved, t)
    | none => (.stays, t)
  | .back => match t.back? with
    | some t => (.moved, t)
    | none => (.stays, t)
  | .jump step => match t.jump step with
    | .ok t => (.moved, t)
    | .error fault => (.refused fault, t)
  | .rewind => (.rewound, t.rewind)

/-- The state that an answer shows: the one at the cursor, if that has been moved to show it. -/
def Reply.shown? (reply : Reply) (t : Trace α) : Option (State α) :=
  match reply with
  | .moved => t.current?
  | .stays | .refused _ | .rewound => none

/-- Move the cursor, and show the state at it if the answer does. -/
def step (t : Trace α) (m : Move) : (Reply × Option (State α)) × Trace α :=
  let (reply, t) := t.move m
  ((reply, reply.shown? t), t)

end Trace

end Statevector
