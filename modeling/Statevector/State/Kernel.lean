import Statevector.State.Basic

/-!
# Gates on states

A kernel reads from the given amplitudes and writes new ones, so that it never reads a half-finished
vector. Only Pauli X works in place: it exchanges amplitudes pair by pair. Reads, writes and shifts
are checked.

* `Qubit.mask`: the word in which only the bit of a qubit is set, if it has that bit;
* `Kernel.butterfly`: a map of pairs, on all pairs of amplitudes that differ in one qubit;
  `Kernel.exchange`: the two of every such pair change places; `Kernel.gather`: amplitudes read in
  another order;
* `Kernel.hadamard`, `Kernel.pauliX`, `Kernel.pauliY`, `Kernel.pauliZ`, `Kernel.cnot`,
  `Kernel.swap`: the kernels with their checks;
* `State.apply`: a gate on a state.
-/

namespace Statevector

open State (Fault)

/-- The word in which only the bit of a qubit is set. Words have no bit for the qubits after the
first 64. -/
def Qubit.mask (q : Qubit) : Except Fault Nat :=
  if q.index.toNat < indexBits then .ok (1 <<< q.index.toNat) else .error (.shiftOverflow q)

namespace Kernel

variable {α : Type}

/-- The amplitude at an index. -/
def read (amps : Array (Amplitude α)) (i : Nat) : Except Fault (Amplitude α) :=
  match amps[i]? with
  | some a => .ok a
  | none => .error (.noAmplitude i amps.size)

/-- The amplitudes with another one at an index. -/
def write (amps : Array (Amplitude α)) (i : Nat) (a : Amplitude α) :
    Except Fault (Array (Amplitude α)) :=
  if i < amps.size then .ok (amps.setIfInBounds i a) else .error (.noAmplitude i amps.size)

/-- One step of a butterfly: if the masked bit of `i` is clear, the amplitudes at `i` and at its
partner are read, and what `f` makes of them is written in their places. -/
def butterflyAt (f : Amplitude α → Amplitude α → Amplitude α × Amplitude α) (mask : Nat)
    (amps out : Array (Amplitude α)) (i : Nat) : Except Fault (Array (Amplitude α)) :=
  if i &&& mask = 0 then do
    let a ← read amps i
    let b ← read amps (i ||| mask)
    write (← write out i (f a b).1) (i ||| mask) (f a b).2
  else return out

/-- The map `f` on every pair of amplitudes whose indices differ in the masked bit. -/
def butterfly (f : Amplitude α → Amplitude α → Amplitude α × Amplitude α) (mask : Nat)
    (amps : Array (Amplitude α)) : Except Fault (Array (Amplitude α)) :=
  (List.range amps.size).foldlM (butterflyAt f mask amps) amps

/-- One step of an exchange: if the masked bit of `i` is clear, the amplitudes at `i` and at its
partner change places. -/
def exchangeAt (mask : Nat) (amps : Array (Amplitude α)) (i : Nat) :
    Except Fault (Array (Amplitude α)) :=
  if i &&& mask = 0 then do
    let a ← read amps i
    let b ← read amps (i ||| mask)
    write (← write amps i b) (i ||| mask) a
  else return amps

/-- The amplitudes whose indices differ in the masked bit change places. -/
def exchange (mask : Nat) (amps : Array (Amplitude α)) : Except Fault (Array (Amplitude α)) :=
  (List.range amps.size).foldlM (exchangeAt mask) amps

/-- The amplitudes read at the indices that `f` gives. -/
def gather (f : Nat → Nat) (amps : Array (Amplitude α)) : Except Fault (Array (Amplitude α)) := do
  return (← (List.range amps.size).mapM fun i => read amps (f i)).toArray

/-! ## Operands -/

/-- The mask of the operand of a gate, after the number of amplitudes and the operand's range are
checked. -/
def operandMask (size width : Nat) (kind : GateKind) (q : Qubit) : Except Fault Nat := do
  State.checkSize size width
  if width ≤ q.index.toNat then .error (.qubitOutOfRange q width (some kind)) else q.mask

/-- The masks of the operands of a two-qubit gate, which have to be distinct. -/
def operandMasks (size width : Nat) (kind : GateKind) (a b : Qubit) : Except Fault (Nat × Nat) :=
  if a = b then .error (.repeatedQubit kind a)
  else do return (← operandMask size width kind a, ← operandMask size width kind b)

/-! ## One-qubit gates -/

/-- What a Hadamard gate makes of a pair. -/
def hadamardPair [Add α] [Sub α] [Mul α] [HalfRoot α] (a b : Amplitude α) :
    Amplitude α × Amplitude α :=
  (.scale halfRoot (a + b), .scale halfRoot (a - b))

/-- What a Pauli Y gate makes of a pair: `-i * b` and `i * a`. -/
def pauliYPair [Neg α] (a b : Amplitude α) : Amplitude α × Amplitude α :=
  (⟨b.im, -b.re⟩, ⟨-a.im, a.re⟩)

/-- Hadamard on qubit `q`. -/
def hadamard [Add α] [Sub α] [Mul α] [HalfRoot α] (width : Nat) (q : Qubit)
    (amps : Array (Amplitude α)) : Except Fault (Array (Amplitude α)) := do
  butterfly hadamardPair (← operandMask amps.size width (.one .h) q) amps

/-- Pauli X on qubit `q`. -/
def pauliX (width : Nat) (q : Qubit) (amps : Array (Amplitude α)) :
    Except Fault (Array (Amplitude α)) := do
  exchange (← operandMask amps.size width (.one .x) q) amps

/-- Pauli Y on qubit `q`. -/
def pauliY [Neg α] (width : Nat) (q : Qubit) (amps : Array (Amplitude α)) :
    Except Fault (Array (Amplitude α)) := do
  butterfly pauliYPair (← operandMask amps.size width (.one .y) q) amps

/-- Pauli Z on qubit `q`. -/
def pauliZ [Neg α] (width : Nat) (q : Qubit) (amps : Array (Amplitude α)) :
    Except Fault (Array (Amplitude α)) := do
  let mask ← operandMask amps.size width (.one .z) q
  return amps.mapIdx fun i a => if i &&& mask = 0 then a else -a

/-! ## Two-qubit gates -/

/-- Where a controlled-NOT reads the amplitude at `i`. -/
def cnotSource (control target i : Nat) : Nat := if i &&& control = 0 then i else i ^^^ target

/-- Where a swap reads the amplitude at `i`. -/
def swapSource (first second i : Nat) : Nat :=
  if (i &&& first = 0 ↔ i &&& second = 0) then i else i ^^^ first ^^^ second

/-- Controlled-NOT: flips `target` wherever `control` reads one. -/
def cnot (width : Nat) (control target : Qubit) (amps : Array (Amplitude α)) :
    Except Fault (Array (Amplitude α)) := do
  let (c, t) ← operandMasks amps.size width (.two .cnot) control target
  gather (cnotSource c t) amps

/-- Swap: exchanges the values of two qubits. -/
def swap (width : Nat) (a b : Qubit) (amps : Array (Amplitude α)) :
    Except Fault (Array (Amplitude α)) := do
  let (first, second) ← operandMasks amps.size width (.two .swap) a b
  gather (swapSource first second) amps

end Kernel

namespace State

variable {α : Type} [Add α] [Sub α] [Mul α] [Neg α] [HalfRoot α]

/-- The amplitudes after a gate, unless the gate lacks an operand. -/
def amplitudesAfter? (s : State α) : Gate → Option (Except Fault (Array (Amplitude α)))
  | .one .h q => some (Kernel.hadamard s.width q s.amplitudes)
  | .one .x q => some (Kernel.pauliX s.width q s.amplitudes)
  | .one .y q => some (Kernel.pauliY s.width q s.amplitudes)
  | .one .z q => some (Kernel.pauliZ s.width q s.amplitudes)
  | .two .cnot a (some b) => some (Kernel.cnot s.width a b s.amplitudes)
  | .two .swap a (some b) => some (Kernel.swap s.width a b s.amplitudes)
  | .two _ _ none => none

/-- The state after a gate. A gate that lacks an operand leaves the state as it is. -/
def apply (s : State α) (g : Gate) : Except Fault (State α) :=
  match s.amplitudesAfter? g with
  | none => .ok s
  | some amps => amps >>= ofAmplitudes? s.width

end State

end Statevector
