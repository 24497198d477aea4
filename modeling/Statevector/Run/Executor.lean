import Statevector.Run.Fault
import Statevector.Run.History
import Statevector.Settings.Basic
import Statevector.State.Kernel

/-!
# Running circuits

An executor applies the gates of a circuit one by one to the state whose qubits all read zero. An
observer sees the state after every gate. A run stops before its next gate once the executor's flag
is set, and the flag stays set until it is cleared.

* `Observer`: what watches a run, and may ask to cancel it;
* `Progress`: how far a run has come; `Progress.advance`: one more gate;
* `Progress.runBlocking`, `Progress.runPaced`: all gates, without and with pauses between them;
* `Executor`, `Executor.prepare`, `Executor.run`, and `Report`: what a run leaves behind;
* `longestPause`, `Report.slept`: how long a run pauses at most, and in all;
* `Executor.Action`, `Executor.act`: all that can be done with an executor.
-/

namespace Statevector

variable {α : Type}

/-- What watches a run: given the state after a gate and the index of the gate, it says whether it
asks to cancel the run. -/
abbrev Observer (α : Type) := State α → Nat → Bool

/-- An observer that asks to cancel at one step, or never. -/
def Observer.cancelAt (step : Option Nat) : Observer α := fun _ k => step == some k

/-- Whether a run pauses between gates. -/
inductive Pace
  | blocking
  | paced
deriving DecidableEq, Repr, Inhabited

/-! ## Progress -/

/-- How far a run has come. -/
structure Progress (α : Type) where
  current : State α
  states : Array (State α) := #[]
  observed : Array (State α × Nat) := #[]
  pauses : Array Nat := #[]
  cancelled : Bool

namespace Progress

/-- A pause of some milliseconds. -/
def pause (p : Progress α) (milliseconds : Nat) : Progress α :=
  { p with pauses := p.pauses.push milliseconds }

/-- Take in the state after gate number `step`. -/
def record (p : Progress α) (watch : Observer α) (step : Nat) (next : State α) : Progress α :=
  { p with
    current := next
    states := p.states.push next
    observed := p.observed.push (next, step)
    cancelled := p.cancelled || watch next step }

variable [Add α] [Sub α] [Mul α] [Neg α] [HalfRoot α]

/-- Apply gate number `step`, unless the run is cancelled. -/
def advance (watch : Observer α) (p : Progress α) (step : Nat) (g : Gate) :
    Except Run.Fault (Progress α) :=
  if p.cancelled then .error (.cancelled step)
  else match p.current.apply g with
    | .error e => .error (.state e)
    | .ok next => .ok (p.record watch step next)

/-- Apply gates from number `step` on, one right after the other. -/
def runBlocking (watch : Observer α) (p : Progress α) (step : Nat) :
    List Gate → Progress α × Option Run.Fault
  | [] => (p, none)
  | g :: gs => match p.advance watch step g with
    | .error e => (p, some e)
    | .ok p => p.runBlocking watch (step + 1) gs

/-- Apply gates from number `step` on, with a pause before each but number zero. -/
def runPaced (watch : Observer α) (delay : Nat) (p : Progress α) (step : Nat) :
    List Gate → Progress α × Option Run.Fault
  | [] => (p, none)
  | g :: gs =>
    let p := if 0 < step ∧ delay ≠ 0 then p.pause delay else p
    match p.advance watch step g with
    | .error e => (p, some e)
    | .ok p => p.runPaced watch delay (step + 1) gs

end Progress

/-! ## Executors -/

/-- What a run leaves behind: how it ended, what its observer saw, and how it paused. -/
structure Report (α β : Type) where
  outcome : Except Run.Fault β
  observed : Array (State α × Nat) := #[]
  pauses : Array Nat := #[]

/-- No pause lasts longer, whatever is asked for: thirty years of 365 days, in milliseconds. -/
def longestPause : Nat := 30 * 365 * 24 * 60 * 60 * 1000

/-- The time for which a run paused, in milliseconds. -/
def Report.slept {β : Type} (r : Report α β) : Nat :=
  r.pauses.foldl (fun time pause => time + min pause longestPause) 0

/-- Settings, and a flag that stops runs before their next gate. -/
structure Executor where
  settings : Settings
  cancelled : Bool := false
deriving DecidableEq, Repr, Inhabited

namespace Executor

/-- Set the flag. -/
def cancel (e : Executor) : Executor := { e with cancelled := true }

/-- Clear the flag. -/
def reset (e : Executor) : Executor := { e with cancelled := false }

/-- An executor with the same settings and a flag of its own. -/
def copy (e : Executor) : Executor := { settings := e.settings }

/-- The widest circuit that an executor takes. -/
def limit (e : Executor) : UInt32 := min e.settings.maxQubits widthLimit

/-- The state in which a run of a circuit starts, if the circuit can be run. -/
def prepare [Zero α] [One α] (e : Executor) (c : Circuit) : Except Run.Fault (State α) :=
  match c.validate with
  | .error fault => .error (.circuit fault)
  | .ok () =>
    if e.limit < c.width then .error (.state (.tooManyQubits c.width.toNat e.limit.toNat))
    else match State.zero? c.width.toNat with
      | .error fault => .error (.state fault)
      | .ok s => .ok s

variable [Zero α] [One α] [Add α] [Sub α] [Mul α] [Neg α] [HalfRoot α]

/-- The gates of a circuit applied to a state at a given pace. -/
def runGates (e : Executor) (pace : Pace) (c : Circuit) (watch : Observer α) (s : State α) :
    Progress α × Option Run.Fault :=
  let start : Progress α := { current := s, cancelled := e.cancelled }
  match pace with
  | .blocking => start.runBlocking watch 0 c.gateList
  | .paced => start.runPaced watch e.settings.stepDelay.toNat 0 c.gateList

/-- Run a circuit; the executor afterwards has its flag set if the observer asked to cancel. -/
def run (e : Executor) (pace : Pace) (c : Circuit) (watch : Observer α) :
    Report α (History α) × Executor :=
  match e.prepare c with
  | .error fault => ({ outcome := .error fault }, e)
  | .ok s =>
    let (p, fault) := e.runGates pace c watch s
    let outcome := match fault with
      | some fault => .error fault
      | none => .ok ⟨s, p.states, p.current⟩
    ({ outcome, observed := p.observed, pauses := p.pauses }, { e with cancelled := p.cancelled })

/-- What can be done with an executor. -/
inductive Action (α : Type)
  | run (pace : Pace) (circuit : Circuit) (watch : Observer α)
  | cancel
  | reset

/-- What an executor answers. -/
inductive Reply (α : Type)
  | ran (report : Report α (History α))
  | done

/-- Do one thing with an executor. -/
def act (e : Executor) : Action α → Reply α × Executor
  | .run pace c watch =>
    let (report, e) := e.run pace c watch
    (.ran report, e)
  | .cancel => (.done, e.cancel)
  | .reset => (.done, e.reset)

end Executor

end Statevector
