import Statevector.Settings.Basic

/-!
# Command-line arguments

A command line is a list of switches and a task; a task has switches of its own. A switch that
takes a value takes what is attached to it, or the next argument if that is no switch. A switch may
be given once, but for the one that counts. After a lone `--` everything is an operand.

* `Switch`, `Scope.switches`: the switches that may be given, before and after the task's name;
* `readScope`: the switches and operands of one scope;
* `Invocation`, `Invocation.ofArguments`: what a command line asks for; `Refusal`: why it asks for
  nothing.
-/

namespace Statevector.Command

open Text

/-- What a switch is for. -/
inductive Switch
  | help
  | version
  | verbose
  | config
  | sample
  | emit
  | delay
  | format
  | steps
deriving DecidableEq, Repr, Inhabited

namespace Switch

/-- The long name of a switch. -/
def long : Switch → String
  | help => "help"
  | version => "version"
  | verbose => "verbose"
  | config => "config"
  | sample => "sample"
  | emit => "emit"
  | delay => "delay-ms"
  | format => "format"
  | steps => "steps"

/-- The letter of a switch. -/
def short? : Switch → Option Char
  | help => some 'h'
  | version => some 'V'
  | verbose => some 'v'
  | sample => some 's'
  | delay => some 'd'
  | format => some 'f'
  | config | emit | steps => none

/-- Whether a switch takes a value. -/
def takesValue : Switch → Bool
  | config | sample | delay | format => true
  | help | version | verbose | emit | steps => false

end Switch

/-- Where in a command line a switch stands. -/
inductive Scope
  | top
  | parse
  | run
  | samples
  | version
deriving DecidableEq, Repr, Inhabited

namespace Scope

/-- The switches that may stand in a scope. -/
def switches : Scope → List Switch
  | top => [.help, .version, .verbose, .config]
  | parse => [.help, .verbose, .config, .sample, .emit]
  | run => [.help, .verbose, .config, .sample, .delay, .format, .steps]
  | samples | version => [.help, .verbose, .config]

/-- The number of operands that may stand in a scope. -/
def maxOperands : Scope → Nat
  | parse | run => 1
  | top | samples | version => 0

/-- The scope of the task with a given name. -/
def ofName? : String → Option Scope
  | "parse" => some parse
  | "run" => some run
  | "samples" => some samples
  | "version" => some version
  | _ => none

end Scope

/-- Why a command line asks for no task. -/
inductive Refusal
  | help
  | version
  | usage (reason : String)
deriving DecidableEq, Repr

/-! ## One scope -/

/-- The switches of a scope with their values, and the operands. -/
structure Given where
  switches : List (Switch × String) := []
  operands : List String := []
deriving DecidableEq, Repr, Inhabited

namespace Given

/-- The value of a switch. -/
def value? (g : Given) (s : Switch) : Option String := (g.switches.find? fun p => p.1 == s).map (·.2)

/-- Whether a switch is given. -/
def has (g : Given) (s : Switch) : Bool := (g.value? s).isSome

/-- The values that a switch takes. -/
def accepts : Switch → String → Bool
  | .config, v => v ≠ ""
  | .delay, v => (Settings.readWord64? v).isSome
  | .format, v => v == "text" || v == "json"
  | _, _ => true

/-- Take in a switch. Asking for help or for the version ends reading. -/
def addSwitch (g : Given) (s : Switch) (v : String) : Except Refusal Given :=
  if s = .help then .error .help
  else if s = .version then .error .version
  else if s ≠ .verbose ∧ g.has s then .error (.usage ("--" ++ s.long ++ " is given twice"))
  else if !accepts s v then .error (.usage ("invalid value for --" ++ s.long))
  else .ok { g with switches := g.switches ++ [(s, v)] }

/-- Take in an operand. -/
def addOperand (g : Given) (scope : Scope) (v : String) : Except Refusal Given :=
  if g.operands.length < scope.maxOperands then .ok { g with operands := g.operands ++ [v] }
  else .error (.usage ("unexpected argument: " ++ v))

end Given

/-- Whether an argument is read as a switch. -/
def isSwitch (arg : String) : Bool := arg.toList.head? == some '-' && arg ≠ "-"

/-- The long name before the first equals sign, and the value after it. -/
def splitEquals (cs : List Char) : List Char × Option (List Char) :=
  match cs.dropWhile (· ≠ '=') with
  | [] => (cs, none)
  | _ :: value => (cs.takeWhile (· ≠ '='), some value)

/-- The letters after a dash: switches up to one that takes a value, which takes the rest. The
switch that still needs a value is returned. -/
def readLetters (scope : Scope) (g : Given) : List Char → Except Refusal (Given × Option Switch)
  | [] => .ok (g, none)
  | c :: cs =>
    match scope.switches.find? fun s => s.short? == some c with
    | none => .error (.usage ("unexpected letter: " ++ String.singleton c))
    | some s =>
      if s.takesValue then
        match cs with
        | [] => .ok (g, some s)
        | '=' :: value => do return (← g.addSwitch s (String.ofList value), none)
        | value => do return (← g.addSwitch s (String.ofList value), none)
      else do readLetters scope (← g.addSwitch s "") cs

/-- An argument that is a switch. The switch that still needs a value is returned. -/
def readSwitch (scope : Scope) (g : Given) (arg : List Char) :
    Except Refusal (Given × Option Switch) :=
  match arg with
  | '-' :: '-' :: cs =>
    let (name, value) := splitEquals cs
    match scope.switches.find? fun s => s.long.toList == name with
    | none => .error (.usage ("unexpected argument: --" ++ String.ofList name))
    | some s => match s.takesValue, value with
      | true, some value => do return (← g.addSwitch s (String.ofList value), none)
      | true, none => .ok (g, some s)
      | false, none => do return (← g.addSwitch s "", none)
      | false, some _ => .error (.usage ("no value is expected for --" ++ s.long))
  | _ => readLetters scope g arg.tail

/-- The switches and operands of a scope. In the scope of the task's name, that name ends the
scope, and what follows it is returned. -/
def readScope (scope : Scope) (g : Given) :
    List String → Except Refusal (Given × Option (String × List String))
  | [] => .ok (g, none)
  | arg :: args =>
    if arg = "--" then do
      return (← args.foldlM (fun g v => g.addOperand scope v) g, none)
    else if isSwitch arg then do
      match ← readSwitch scope g arg.toList, args with
      | (g, none), args => readScope scope g args
      | (_, some s), [] => .error (.usage ("a value is required for --" ++ s.long))
      | (g, some s), value :: args =>
        if isSwitch value then .error (.usage ("a value is required for --" ++ s.long))
        else readScope scope (← g.addSwitch s value) args
    else if scope = .top then .ok (g, some (arg, args))
    else do readScope scope (← g.addOperand scope arg) args

/-! ## Whole command lines -/

/-- Where a circuit comes from. -/
inductive Input
  | file (path : String)
  | sample (key : String)
deriving DecidableEq, Repr, Inhabited

/-- How the result of a run is written. -/
inductive Format
  | text
  | json
deriving DecidableEq, Repr, Inhabited

/-- What a command line asks for. -/
inductive Task
  | parse (input : Input) (emit : Bool)
  | run (input : Input) (delay : Option UInt64) (format : Format) (steps : Bool)
  | samples
  | version
deriving DecidableEq, Repr, Inhabited

/-- A task with the settings file named for it. -/
structure Invocation where
  config : Option String
  task : Task
deriving DecidableEq, Repr, Inhabited

/-- The circuit of a task: a file or a sample, not both. -/
def Input.ofGiven (g : Given) : Except Refusal Input :=
  match g.operands, g.value? .sample with
  | [], some key => .ok (.sample key)
  | [path], none => .ok (.file path)
  | [], none => .error (.usage "a circuit file or --sample is required")
  | _, _ => .error (.usage "a circuit file cannot be used with --sample")

/-- The task of a scope. -/
def Task.ofGiven (scope : Scope) (g : Given) : Except Refusal Task :=
  match scope with
  | .top => .error (.usage "a command is required")
  | .parse => do return .parse (← Input.ofGiven g) (g.has .emit)
  | .run => do
    return .run (← Input.ofGiven g) (g.value? .delay >>= Settings.readWord64?)
      (if g.value? .format = some "json" then .json else .text) (g.has .steps)
  | .samples => .ok .samples
  | .version => .ok .version

/-- The answer to the task `help` with the names that follow it. -/
def refuseHelp : List String → Refusal
  | [] | ["help"] => .help
  | [name] => if (Scope.ofName? name).isSome then .help else .usage ("no such command: " ++ name)
  | _ => .usage "no such command"

/-- What a command line asks for. A settings file that is named after the task comes before one
that is named before it, and both before the one of the environment. The environment has to name
one if it says anything, unless both places of the command line do. -/
def Invocation.ofArguments (args : List String) (environment : Option String) :
    Except Refusal Invocation := do
  let (top, rest) ← readScope .top {} args
  match rest with
  | none => .error (.usage "a command is required")
  | some ("help", names) => .error (refuseHelp names)
  | some (name, args) =>
    match Scope.ofName? name with
    | none => .error (.usage ("no such command: " ++ name))
    | some scope =>
      let (given, _) ← readScope scope {} args
      let task ← Task.ofGiven scope given
      if environment = some "" ∧ !(top.has .config && given.has .config) then
        .error (.usage "a value is required for --config")
      else return ⟨given.value? .config <|> top.value? .config <|> environment, task⟩

end Statevector.Command
