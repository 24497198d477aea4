import Statevector.Text.Numeral

/-!
# Faults of circuit source

Lines that mean nothing are no faults. A source is refused only for a number that does not fit.

* `Source.Fault`, with its wording `Source.Fault.message`.
-/

namespace Statevector.Source

open Text

/-- What makes circuit source unusable. -/
inductive Fault
  /-- A literal on line `line` exceeds a qubit index. -/
  | literalTooLarge (line : Nat) (literal : String)
  /-- A circuit with the largest qubit index has no width. -/
  | widthTooLarge (index : UInt32)
  /-- No sample program has this key. -/
  | unknownSample (key : String)
deriving DecidableEq, Repr

/-- The wording of a fault. -/
def Fault.message : Fault → String
  | literalTooLarge line literal =>
    "Integer literal '" ++ literal ++ "' at line " ++ decimal line ++ " is too large"
  | widthTooLarge index =>
    "Qubit index " ++ decimal index.toNat ++ " is too large to infer a circuit width"
  | unknownSample key =>
    "Unknown sample '" ++ key ++ "'. Available: bell, teleportation, grover"

end Statevector.Source
