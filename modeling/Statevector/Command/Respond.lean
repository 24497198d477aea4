import Statevector.Circuit.Document
import Statevector.Command.Arguments
import Statevector.Command.Fault
import Statevector.Command.Files
import Statevector.Command.Page
import Statevector.Run.Executor
import Statevector.Settings.File
import Statevector.Source.Listing
import Statevector.State.Document

/-!
# Responding to a command line

* `Host`: what a command can see of the machine it runs on;
* `loadSettings`, `loadExecutor`, `loadCircuit`: the settings, the executor and the circuit of a
  task; `pathsOf`: the paths that they may read;
* `Response`, `respond`: what a command line leads to; `Output.render`: the text that is printed.
-/

namespace Statevector.Command

/-- What a command can see of the machine it runs on. -/
structure Host where
  entry : String → Entry
  home : Option String := none
  config : Option String := none
  environment : Settings.Environment := {}

/-- The settings file of a user, read if there is one. -/
def defaultConfig (home : String) : String :=
  home ++ (if home.toList.getLast? = some '/' then "" else "/") ++ ".qstep/config.yaml"

/-- The settings of the file at a path. -/
def settingsOfFile (read : Settings.Reader) (host : Host) (path : String) :
    Except Settings.Fault Settings :=
  match (host.entry path).text with
  | .error reason => .error (.unreadable path reason)
  | .ok text => Settings.ofText read path text

/-- The path of the settings file: the named one, or that of the user if there is one. -/
def configPath? (host : Host) (named : Option String) : Option String :=
  match named with
  | some path => some path
  | none => (host.home.map defaultConfig).filter fun path => (host.entry path).exist

/-- The settings of a task: those of the file, over which go the values of the environment. -/
def loadSettings (read : Settings.Reader) (host : Host) (named : Option String) :
    Except Fault Settings := do
  let base ← match configPath? host named with
    | some path => (settingsOfFile read host path).mapError (.settings (some path))
    | none => .ok .standard
  let settings := base.override host.environment
  settings.check.mapError (.settings none)
  return settings

/-- The executor of a run: it has the settings of the task, but for the pause if one is given. -/
def loadExecutor (read : Settings.Reader) (host : Host) (named : Option String)
    (delay : Option UInt64) : Except Fault Executor := do
  let settings ← loadSettings read host named
  return { settings := { settings with stepDelay := delay.getD settings.stepDelay } }

/-- The paths that an invocation may read. -/
def pathsOf (home : Option String) (i : Invocation) : List String :=
  let input : Input → List String
    | .file path => [path]
    | .sample _ => []
  match i.task with
  | .parse source _ => input source
  | .run source _ _ _ => i.config.toList ++ (home.map defaultConfig).toList ++ input source
  | .samples | .version => []

/-- The circuit of a task. -/
def loadCircuit (host : Host) : Input → Except Fault Circuit
  | .sample key => (Source.Sample.ofKey key >>= Source.Sample.circuit).mapError (.source none)
  | .file path =>
    let entry := host.entry path
    if !entry.exist then .error (.fileNotFound path)
    else match entry.text with
      | .error reason => .error (.fileUnreadable path reason)
      | .ok text => (Circuit.ofSource text).mapError (.source (some path))

/-- What is written to the standard output. -/
inductive Output
  | text (text : String)
  /-- The states of a run, and then the time it took. -/
  | timed (text : String)
  /-- A circuit with the result of a run of it. -/
  | result (circuit : Circuit) (history : History Float)
deriving Inhabited

/-- What a command line leads to: what is printed at once, the pauses of a run in milliseconds, the
output after them, and why it failed. -/
structure Response where
  announced : String := ""
  pauses : Array Nat := #[]
  output : Output
  fault : Option Fault := none

/-- The response to a task that only prints. -/
def Response.ofLines : Except Fault (List String) → Response
  | .ok ls => { output := .text (Command.ofLines ls) }
  | .error fault => { output := .text "", fault }

/-- Run a circuit. A run whose result is shown as text is announced. -/
def runCircuit (e : Executor) (c : Circuit) (format : Format) (steps : Bool) : Response :=
  let (report, _) := e.run .paced c (Observer.cancelAt none)
  let announced := match format with
    | .text => ofLines [Page.announcement c]
    | .json => ""
  match report.outcome with
  | .error fault =>
    { announced, pauses := report.pauses, output := .text "", fault := some (.run fault) }
  | .ok h =>
    let output : Output := match format with
      | .text => .timed (ofLines (Page.states c h steps))
      | .json => .result c h
    { announced, pauses := report.pauses, output }

/-- What an invocation leads to. -/
def perform (read : Settings.Reader) (host : Host) (i : Invocation) : Response :=
  match i.task with
  | .samples => .ofLines (Page.samples.mapError (.source none))
  | .version => .ofLines (.ok Page.version)
  | .parse input emit => match loadCircuit host input with
    | .error fault => { output := .text "", fault := some fault }
    | .ok c =>
      if emit then { output := .text c.toSource } else .ofLines (.ok (Page.circuit c))
  | .run input delay format steps =>
    match do pure (← loadExecutor read host i.config delay, ← loadCircuit host input) with
    | .error fault => { output := .text "", fault := some fault }
    | .ok (e, c) => runCircuit e c format steps

/-- The text of an output, for a run with an identifier and a time in milliseconds. -/
def Output.render (run : String) (time : Float) : Output → String
  | text s => s
  | timed s => s ++ ofLines (Page.time (fixed 3 time))
  | result c h =>
    (Json.Value.ofMembers [("circuit", c.toJson), ("result", h.toJson run time)]).pretty ++ "\n"

/-- What a command line leads to, or why it is refused. -/
def respond (host : Host) (args : List String) : Except Refusal Response := do
  return perform Settings.Values.ofText? host (← Invocation.ofArguments args host.config)

/-- The status with which a command ends. -/
def Response.status (r : Response) : Nat := if r.fault.isSome then 1 else 0

/-- What is written to the standard error output. -/
def Response.error? (r : Response) : Option String := r.fault.map fun f => "Error: " ++ f.message

/-- The status with which a refused command line ends. -/
def Refusal.status : Refusal → Nat
  | usage _ => 2
  | _ => 0

/-- The lines that are written for a refused command line. -/
def Refusal.lines : Refusal → List String
  | help => Page.usage
  | version => [Page.versionLine]
  | usage reason => ["error: " ++ reason, ""] ++ Page.usage

end Statevector.Command
