import Statevector.Run.Fault
import Statevector.Settings.Basic

/-!
# Faults of a command

* `Command.Fault`, with its wording: what failed, then why, parted by colons.
-/

namespace Statevector

/-- Why a command fails. -/
inductive Command.Fault
  | fileNotFound (path : String)
  | fileUnreadable (path reason : String)
  | source (path : Option String) (fault : Source.Fault)
  | settings (path : Option String) (fault : Settings.Fault)
  | run (fault : Run.Fault)
deriving DecidableEq, Repr

/-- The wording of a fault of a run, with the fault it stems from once more. -/
def Run.Fault.chain : Run.Fault → String
  | circuit fault => (Run.Fault.circuit fault).message ++ ": " ++ fault.message
  | source fault => (Run.Fault.source fault).message ++ ": " ++ fault.message
  | fault => fault.message

/-- The wording of a fault. -/
def Command.Fault.message : Command.Fault → String
  | fileNotFound path => "File not found: " ++ path
  | fileUnreadable path reason => "Failed to read file: " ++ path ++ ": " ++ reason
  | source (some path) fault => "Failed to parse circuit: " ++ path ++ ": " ++ fault.message
  | source none fault => fault.message
  | settings (some path) fault => "Failed to load config: " ++ path ++ ": " ++ fault.message
  | settings none fault => fault.message
  | run fault => fault.chain

end Statevector
