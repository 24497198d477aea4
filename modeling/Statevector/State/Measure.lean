import Statevector.State.Kernel

/-!
# Probabilities

* `State.weights`, `State.norm`: the weight of every basis index, and their sum;
* `State.marginal`: the weight of the indices at which a qubit reads one;
* `State.label`: a basis index in binary, the highest qubit first.
-/

namespace Statevector

/-- A number in binary, filled up with zeros to at least `width` digits. -/
def binary (width n : Nat) : List Char :=
  let digits := Nat.toDigits 2 n
  List.replicate (width - digits.length) '0' ++ digits

namespace State

variable {α : Type}

/-- The weight of every basis index. -/
def weights [Add α] [Mul α] (s : State α) : List α := s.amplitudes.toList.map Amplitude.weight

/-- The sum of all weights. -/
def norm [Zero α] [Neg α] [Add α] [Mul α] (s : State α) : α := total s.weights

/-- The sum of the weights at which the bit of qubit `q` is set, in the order of the indices. -/
def marginal [Zero α] [Neg α] [Add α] [Mul α] (s : State α) (q : Qubit) : Except Fault α :=
  if s.width ≤ q.index.toNat then .error (.qubitOutOfRange q s.width none)
  else do
    let mask ← q.mask
    let set := s.amplitudes.toList.zipIdx.filter fun (_, i) => i &&& mask ≠ 0
    return total (set.map fun (a, _) => a.weight)

/-- The label of a basis index. It is not cut if the index has more digits than the state has
qubits. -/
def label (s : State α) (index : Nat) : List Char := binary s.width index

end State

end Statevector
