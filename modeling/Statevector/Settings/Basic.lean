import Statevector.Text.Numeral

/-!
# Settings of a simulation

* `Settings`, with `Settings.standard` and `Settings.immediate`;
* `Settings.Fault`, with its wording;
* `Settings.check`: the width limit has to lie between one and the widest state there can be;
* `Settings.Values`, `Settings.Values.over`: values that are given take the place of those of
  `Settings`; `Settings.override`: the environment gives values;
* `Settings.Reader`: what reads settings files; `Settings.ofText`: the settings of a file's text,
  checked.
-/

namespace Statevector

open Text

/-- Settings of a simulation: the pause between gates in milliseconds, and the widest circuit that
is accepted. -/
structure Settings where
  stepDelay : UInt64 := 300
  maxQubits : UInt32 := 20
deriving DecidableEq, Repr, Inhabited

/-- The width beyond which no settings make a statevector. -/
def widthLimit : UInt32 := 30

/-- What makes settings unusable. -/
inductive Settings.Fault
  /-- A settings file cannot be read, or is no settings file. -/
  | unreadable (path reason : String)
  /-- The width limit is out of range. -/
  | widthLimit (got : UInt32)
deriving DecidableEq, Repr

/-- The wording of a fault. -/
def Settings.Fault.message : Settings.Fault → String
  | unreadable path reason => "Configuration error: " ++ path ++ ": " ++ reason
  | widthLimit got =>
    "Configuration error: max_qubits must be between 1 and " ++
      decimal Statevector.widthLimit.toNat ++ ", got " ++ decimal got.toNat

namespace Settings

/-- The settings used when nothing else is given. -/
def standard : Settings := {}

/-- The standard settings without a pause between gates. -/
def immediate : Settings := { stepDelay := 0 }

/-- Fails unless the width limit is in range. -/
def check (s : Settings) : Except Fault Unit :=
  if s.maxQubits = 0 ∨ Statevector.widthLimit < s.maxQubits then .error (.widthLimit s.maxQubits)
  else .ok ()

/-- The pause between gates, as seconds and milliseconds. -/
def pause (s : Settings) : Nat × Nat := (s.stepDelay.toNat / 1000, s.stepDelay.toNat % 1000)

/-- Values that are given for some of the settings. -/
structure Values where
  stepDelay : Option UInt64 := none
  maxQubits : Option UInt32 := none
deriving DecidableEq, Repr, Inhabited

/-- The settings with the values that are given. -/
def Values.over (v : Values) (s : Settings) : Settings where
  stepDelay := v.stepDelay.getD s.stepDelay
  maxQubits := v.maxQubits.getD s.maxQubits

/-- The values of the environment for the two settings. One that is not an unsigned number of the
right size is ignored. -/
structure Environment where
  stepDelay : Option String := none
  maxQubits : Option String := none
deriving Repr, Inhabited

/-- A 64-bit word from outside. -/
def readWord64? (s : String) : Option UInt64 := unsigned? s.toList >>= word64?

/-- A 32-bit word from outside. -/
def readWord32? (s : String) : Option UInt32 := unsigned? s.toList >>= word32?

/-- The values that the environment gives. -/
def Environment.values (env : Environment) : Values where
  stepDelay := env.stepDelay >>= readWord64?
  maxQubits := env.maxQubits >>= readWord32?

/-- The settings with the values that the environment gives. -/
def override (s : Settings) (env : Environment) : Settings := env.values.over s

/-- What finds the values that the text of a settings file gives, if it is one. -/
abbrev Reader := String → Option Values

/-- The settings of the text of the file at `path`, as it is read. -/
def ofText (read : Reader) (path text : String) : Except Fault Settings :=
  match read text with
  | none => .error (.unreadable path "not a settings file")
  | some v => do
    let s := v.over .standard
    s.check
    return s

end Settings

end Statevector
