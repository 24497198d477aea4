import Statevector.State.Amplitude
import Statevector.State.Fault

/-!
# Statevectors

A state of `width` qubits lists an amplitude for every basis index; bit `q` of the index is the
value of qubit `q`. States that come from outside may have any number of amplitudes.

* `dimension`: the number of basis indices;
* `State`; `State.IsFull`: there are as many amplitudes as basis indices;
* `State.basis`, `State.zero?`: the state whose qubits all read zero;
* `State.ofAmplitudes?`: a state from its amplitudes, if their number is right.
-/

namespace Statevector

/-- A statevector. -/
structure State (α : Type) where
  width : Nat
  amplitudes : Array (Amplitude α)
deriving DecidableEq, Repr, Inhabited

/-- The width beyond which no statevector is built. -/
def maxWidth : Nat := 30

/-- The number of bits of a basis index. -/
def indexBits : Nat := 64

/-- The number of basis indices of `width` qubits, two to the width. -/
def dimension (width : Nat) : Nat := 1 <<< width

namespace State

variable {α : Type}

/-- Fails unless `size` is the number of basis indices of `width` qubits. -/
def checkSize (size width : Nat) : Except Fault Unit :=
  if width < indexBits ∧ size = dimension width then .ok () else .error (.sizeMismatch width size)

/-- A state has an amplitude for every basis index. -/
def IsFull (s : State α) : Prop := s.width < indexBits ∧ s.amplitudes.size = dimension s.width

instance (s : State α) : Decidable s.IsFull := inferInstanceAs (Decidable (_ ∧ _))

/-- The state of `width` qubits whose amplitude at index zero is one and at all others zero. -/
def ground [Zero α] [One α] (width : Nat) : State α :=
  ⟨width, (Array.replicate (dimension width) 0).setIfInBounds 0 1⟩

/-- The state of `width` qubits that all read zero, if it is not too wide. -/
def zero? [Zero α] [One α] (width : Nat) : Except Fault (State α) :=
  if maxWidth < width then .error (.tooManyQubits (min width (UInt32.size - 1)) maxWidth)
  else .ok (ground width)

/-- A state from its amplitudes, if their number is right. -/
def ofAmplitudes? (width : Nat) (amplitudes : Array (Amplitude α)) : Except Fault (State α) := do
  checkSize amplitudes.size width
  return ⟨width, amplitudes⟩

/-- Whether two states have the same width and amplitudes that compare equal. -/
def same [BEq α] (s t : State α) : Bool :=
  s.width == t.width && s.amplitudes.size == t.amplitudes.size &&
    (s.amplitudes.toList.zip t.amplitudes.toList).all fun (a, b) => a.same b

end State

end Statevector
