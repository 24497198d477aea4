import Statevector.Text.Numeral

/-!
# Qubits and gates

The gate set: Hadamard and the three Pauli gates on one qubit, controlled-NOT and swap on two.

* `Qubit`: qubit `q` is bit `q` of a basis index;
* `GateKind`, with its mnemonic (`name`, `ofName?`; `ofName?_name` and `name_of_ofName?` say that
  the mnemonics name the kinds one to one) and its number of qubits (`arity`);
* `Gate`: a kind with its operands. The second operand of a two-qubit gate may be missing; such a
  gate does nothing.
-/

namespace Statevector

open Text

/-- A qubit, by its index. Qubit `q` is bit `q` of a basis index. -/
structure Qubit where
  index : UInt32
deriving DecidableEq, Repr, Inhabited

/-- The written name of a qubit. -/
def Qubit.text (q : Qubit) : String := "q" ++ decimal q.index.toNat

/-- The gates on one qubit. -/
inductive OneQubit
  | h
  | x
  | y
  | z
deriving DecidableEq, Repr, Inhabited

/-- The gates on two qubits. -/
inductive TwoQubit
  | cnot
  | swap
deriving DecidableEq, Repr, Inhabited

/-- The kinds of gates. -/
inductive GateKind
  | one (kind : OneQubit)
  | two (kind : TwoQubit)
deriving DecidableEq, Repr, Inhabited

/-! ## Mnemonics -/

namespace GateKind

/-- The mnemonic of a gate in circuit source. -/
def name : GateKind → String
  | one .h => "H"
  | one .x => "X"
  | one .y => "Y"
  | one .z => "Z"
  | two .cnot => "CNOT"
  | two .swap => "SWAP"

/-- The gate with a given mnemonic; case matters. -/
def ofName? : String → Option GateKind
  | "H" => some (one .h)
  | "X" => some (one .x)
  | "Y" => some (one .y)
  | "Z" => some (one .z)
  | "CNOT" => some (two .cnot)
  | "SWAP" => some (two .swap)
  | _ => none

/-- The number of qubits a gate acts on. -/
def arity : GateKind → Nat
  | one _ => 1
  | two _ => 2

theorem ofName?_name (k : GateKind) : ofName? k.name = some k := by
  rcases k with (_ | _ | _ | _) | (_ | _) <;> rfl

theorem name_of_ofName? {s : String} {k : GateKind} (h : ofName? s = some k) : k.name = s := by
  unfold ofName? at h
  split at h <;> cases h <;> rfl

end GateKind

/-! ## Gates -/

/-- A gate with its operands. For a controlled-NOT `first` is the control and `second` the target;
for a swap they are the two swapped qubits. -/
inductive Gate
  | one (kind : OneQubit) (qubit : Qubit)
  | two (kind : TwoQubit) (first : Qubit) (second : Option Qubit)
deriving DecidableEq, Repr, Inhabited

namespace Gate

/-- The kind of a gate. -/
def kind : Gate → GateKind
  | one k _ => .one k
  | two k _ _ => .two k

/-- The operands of a gate in order; a missing one is left out. -/
def qubits : Gate → List Qubit
  | one _ q => [q]
  | two _ a b => a :: b.toList

/-- Whether the second operand of a two-qubit gate is missing. -/
def lacksOperand : Gate → Bool
  | two _ _ none => true
  | _ => false

/-- A gate in call notation, a missing operand as a question mark. -/
def text (g : Gate) : String :=
  g.kind.name ++ "(" ++ match g with
    | one _ q => decimal q.index.toNat ++ ")"
    | two _ a (some b) => decimal a.index.toNat ++ ", " ++ decimal b.index.toNat ++ ")"
    | two _ a none => decimal a.index.toNat ++ ", ?)"

end Gate

end Statevector
