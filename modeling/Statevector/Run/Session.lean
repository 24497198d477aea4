import Statevector.Run.Trace
import Statevector.Source.Program

/-!
# Sessions

A session holds the circuit that is worked on and the trace of its last finished run. Loading
another circuit drops the trace, and a source that cannot be read changes nothing. A run of the
loaded circuit first drops the trace and clears the flag of the executor.

* `Session`, `Session.new`, `Session.copy`;
* `Session.load`, `Session.loadSource`, `Session.run`, `Session.cancel`, `Session.move`;
* `Session.Action`, `Session.act`: all that can be done with a session.
-/

namespace Statevector

/-- A loaded circuit with the trace of its last run. -/
structure Session (α : Type) where
  executor : Executor
  circuit : Option Circuit := none
  trace : Option (Trace α) := none
deriving DecidableEq, Repr, Inhabited

namespace Session

variable {α : Type}

/-- A session without a circuit. -/
def new (settings : Settings) : Session α := { executor := { settings } }

/-- A session with the same circuit and trace and a flag of its own. -/
def copy (s : Session α) : Session α := { s with executor := s.executor.copy }

/-- Make a circuit the loaded one. -/
def load (s : Session α) (c : Circuit) : Session α := { s with circuit := some c, trace := none }

/-- Make the circuit of a source the loaded one. -/
def loadSource (s : Session α) (source : String) : Except Run.Fault (Circuit × Session α) :=
  match Circuit.ofSource source with
  | .ok c => .ok (c, s.load c)
  | .error fault => .error (.source fault)

/-- Set the flag of the executor. -/
def cancel (s : Session α) : Session α := { s with executor := s.executor.cancel }

/-- The loaded circuit, and the session that is ready to run it. -/
def ready (s : Session α) : Except Run.Fault (Circuit × Session α) :=
  match s.circuit with
  | none => .error .noCircuit
  | some c => .ok (c, { s with trace := none, executor := s.executor.reset })

/-- Run the loaded circuit. -/
def run [Zero α] [One α] [Add α] [Sub α] [Mul α] [Neg α] [HalfRoot α] (s : Session α)
    (pace : Pace) (watch : Observer α) : Report α (Trace α) × Session α :=
  match s.ready with
  | .error fault => ({ outcome := .error fault }, s)
  | .ok (c, s) =>
    let (report, executor) := s.executor.run pace c watch
    let outcome := report.outcome >>= Trace.ofHistory c
    ({ report with outcome }, { s with executor, trace := outcome.toOption })

/-- Move the cursor of the trace, if there is one. -/
def move (s : Session α) (m : Trace.Move) : Option (Trace.Reply × Session α) :=
  s.trace.map fun t =>
    let (reply, t) := t.move m
    (reply, { s with trace := some t })

/-- What can be done with a session. -/
inductive Action (α : Type)
  | loadSource (source : String)
  | load (circuit : Circuit)
  | run (pace : Pace) (watch : Observer α)
  | cancel
  | move (move : Trace.Move)

/-- What a session answers. -/
inductive Reply (α : Type)
  | loaded (circuit : Circuit)
  | refused (fault : Run.Fault)
  | ran (report : Report α (Trace α))
  | done
  | moved (reply : Trace.Reply)
  | noTrace

/-- Do one thing with a session. -/
def act [Zero α] [One α] [Add α] [Sub α] [Mul α] [Neg α] [HalfRoot α] (s : Session α) :
    Action α → Reply α × Session α
  | .loadSource source => match s.loadSource source with
    | .ok (c, s) => (.loaded c, s)
    | .error fault => (.refused fault, s)
  | .load c => (.loaded c, s.load c)
  | .run pace watch =>
    let (report, s) := s.run pace watch
    (.ran report, s)
  | .cancel => (.done, s.cancel)
  | .move m => match s.move m with
    | some (reply, s) => (.moved reply, s)
    | none => (.noTrace, s)

end Session

end Statevector
