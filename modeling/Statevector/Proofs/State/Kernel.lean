import Statevector.Proofs.State.Vector

/-!
# Kernels

* `Kernel.operandMask_of_mismatch`, `Kernel.operandMask_eq_ok_iff`, `Kernel.operandMasks_eq_ok`,
  `Kernel.operandMasks_eq_error`: which operands are accepted;
* `Kernel.hadamard_tabulate`, `Kernel.pauliX_tabulate`, …: what every kernel makes of a vector with
  an amplitude for every basis index.
-/

namespace Statevector

variable {α : Type} {n : Nat}

namespace Kernel

/-! ## Operands -/

theorem checkSize_two_pow (h : n < indexBits) : State.checkSize (2 ^ n) n = .ok () := by
  rw [State.checkSize, if_pos ⟨h, (dimension_eq n).symm⟩]

theorem checkSize_of_mismatch {size width : Nat} (h : ¬ (width < indexBits ∧ size = 2 ^ width)) :
    State.checkSize size width = .error (.sizeMismatch width size) := by
  rw [State.checkSize, dimension_eq, if_neg h]

theorem operandMask_of_mismatch {size width : Nat} (h : ¬ (width < indexBits ∧ size = 2 ^ width))
    (kind : GateKind) (q : Qubit) :
    operandMask size width kind q = .error (.sizeMismatch width size) := by
  rw [operandMask, checkSize_of_mismatch h]
  rfl

theorem operandMask_eq_ok (h : n < indexBits) (kind : GateKind) {q : Qubit}
    (hq : q.index.toNat < n) : operandMask (2 ^ n) n kind q = .ok (2 ^ q.index.toNat) := by
  rw [operandMask, checkSize_two_pow h, ← q.mask_eq_ok (by omega)]
  change (if n ≤ q.index.toNat then _ else _) = _
  rw [if_neg (by omega)]

theorem operandMask_eq_error (h : n < indexBits) (kind : GateKind) {q : Qubit}
    (hq : n ≤ q.index.toNat) :
    operandMask (2 ^ n) n kind q = .error (.qubitOutOfRange q n (some kind)) := by
  rw [operandMask, checkSize_two_pow h]
  change (if n ≤ q.index.toNat then _ else _) = _
  rw [if_pos hq]

/-- An operand is given a mask only if it is a bit of a word and of every index. -/
theorem operandMask_eq_ok_iff {size width mask : Nat} {kind : GateKind} {q : Qubit} :
    operandMask size width kind q = .ok mask ↔ width < indexBits ∧ size = 2 ^ width ∧
      q.index.toNat < width ∧ mask = 2 ^ q.index.toNat := by
  constructor
  · intro h
    by_cases hsize : width < indexBits ∧ size = 2 ^ width
    · obtain ⟨hw, rfl⟩ := hsize
      rcases Nat.lt_or_ge q.index.toNat width with hq | hq
      · rw [operandMask_eq_ok hw kind hq] at h
        cases h
        exact ⟨hw, rfl, hq, rfl⟩
      · rw [operandMask_eq_error hw kind hq] at h
        cases h
    · rw [operandMask_of_mismatch hsize] at h
      cases h
  · rintro ⟨hw, rfl, hq, rfl⟩
    exact operandMask_eq_ok hw kind hq

theorem operandMasks_eq_ok (h : n < indexBits) (kind : GateKind) {a b : Qubit} (hab : a ≠ b)
    (ha : a.index.toNat < n) (hb : b.index.toNat < n) :
    operandMasks (2 ^ n) n kind a b = .ok (2 ^ a.index.toNat, 2 ^ b.index.toNat) := by
  rw [operandMasks, if_neg hab, operandMask_eq_ok h kind ha, operandMask_eq_ok h kind hb]
  rfl

theorem operandMasks_eq_error (h : n < indexBits) (kind : GateKind) {a b : Qubit}
    (hab : ¬ (a ≠ b ∧ a.index.toNat < n ∧ b.index.toNat < n)) :
    ∃ e, operandMasks (2 ^ n) n kind a b = .error e := by
  by_cases hne : a = b
  · exact ⟨_, by rw [operandMasks, if_pos hne]⟩
  rw [operandMasks, if_neg hne]
  by_cases ha : a.index.toNat < n
  · have hb : n ≤ b.index.toNat := Nat.not_lt.mp fun hb => hab ⟨hne, ha, hb⟩
    rw [operandMask_eq_ok h kind ha, operandMask_eq_error h kind hb]
    exact ⟨_, rfl⟩
  · rw [operandMask_eq_error h kind (Nat.not_lt.mp ha)]
    exact ⟨_, rfl⟩

/-! ## Kernels on vectors of the right size -/

variable {q a b : Qubit}

theorem hadamard_tabulate [Add α] [Sub α] [Mul α] [HalfRoot α] (h : n < indexBits)
    (hq : q.index.toNat < n) (f : Nat → Amplitude α) :
    hadamard n q (tabulate n f) = .ok (tabulate n (onPairs hadamardPair q.index.toNat f)) := by
  rw [hadamard, size_tabulate, operandMask_eq_ok h _ hq]
  exact butterfly_tabulate hadamardPair f hq

theorem pauliY_tabulate [Neg α] (h : n < indexBits) (hq : q.index.toNat < n)
    (f : Nat → Amplitude α) :
    pauliY n q (tabulate n f) = .ok (tabulate n (onPairs pauliYPair q.index.toNat f)) := by
  rw [pauliY, size_tabulate, operandMask_eq_ok h _ hq]
  exact butterfly_tabulate pauliYPair f hq

theorem pauliZ_tabulate [Neg α] (h : n < indexBits) (hq : q.index.toNat < n)
    (f : Nat → Amplitude α) :
    pauliZ n q (tabulate n f) =
      .ok (tabulate n fun i => if i.testBit q.index.toNat then -f i else f i) := by
  rw [pauliZ, size_tabulate, operandMask_eq_ok h _ hq]
  refine congrArg Except.ok ?_
  apply Array.ext
  · simp
  · intro i hi hi'
    cases hbit : i.testBit q.index.toNat with
    | false => simp [tabulate, and_mask_eq_zero_iff, hbit]
    | true => simp [tabulate, and_mask_eq_zero_iff, hbit]

theorem pauliX_tabulate (h : n < indexBits) (hq : q.index.toNat < n) (f : Nat → Amplitude α) :
    pauliX n q (tabulate n f) = .ok (tabulate n fun i => f (flipBit q.index.toNat i)) := by
  rw [pauliX, size_tabulate, operandMask_eq_ok h _ hq]
  exact exchange_tabulate f hq

theorem cnotSource_two_pow (c t i : Nat) :
    cnotSource (2 ^ c) (2 ^ t) i = if i.testBit c then flipBit t i else i := by
  rw [cnotSource, flipBit]
  cases hc : i.testBit c with
  | false => rw [if_pos ((and_mask_eq_zero_iff i c).mpr hc), if_neg Bool.false_ne_true]
  | true =>
    rw [if_neg (by rw [and_mask_eq_zero_iff, hc]; decide), if_pos rfl]

theorem swapSource_two_pow (c t i : Nat) : swapSource (2 ^ c) (2 ^ t) i =
    if i.testBit c = i.testBit t then i else flipBit t (flipBit c i) := by
  have hiff : (i &&& 2 ^ c = 0 ↔ i &&& 2 ^ t = 0) ↔ i.testBit c = i.testBit t := by
    rw [and_mask_eq_zero_iff, and_mask_eq_zero_iff]
    cases i.testBit c <;> cases i.testBit t <;> decide
  simp only [swapSource, hiff, flipBit]

theorem cnot_tabulate (h : n < indexBits) (hab : a ≠ b) (ha : a.index.toNat < n)
    (hb : b.index.toNat < n) (f : Nat → Amplitude α) :
    cnot n a b (tabulate n f) = .ok (tabulate n fun i =>
      f (if i.testBit a.index.toNat then flipBit b.index.toNat i else i)) := by
  have hlt : ∀ i < 2 ^ n, cnotSource (2 ^ a.index.toNat) (2 ^ b.index.toNat) i < 2 ^ n := by
    intro i hi
    rw [cnotSource_two_pow]
    split
    · exact flipBit_lt hb hi
    · exact hi
  rw [cnot, size_tabulate, operandMasks_eq_ok h _ hab ha hb]
  change gather _ _ = _
  rw [gather_tabulate hlt]
  simp only [cnotSource_two_pow]

theorem swap_tabulate (h : n < indexBits) (hab : a ≠ b) (ha : a.index.toNat < n)
    (hb : b.index.toNat < n) (f : Nat → Amplitude α) :
    swap n a b (tabulate n f) = .ok (tabulate n fun i =>
      f (if i.testBit a.index.toNat = i.testBit b.index.toNat then i
        else flipBit b.index.toNat (flipBit a.index.toNat i))) := by
  have hlt : ∀ i < 2 ^ n, swapSource (2 ^ a.index.toNat) (2 ^ b.index.toNat) i < 2 ^ n := by
    intro i hi
    rw [swapSource_two_pow]
    split
    · exact hi
    · exact flipBit_lt hb (flipBit_lt ha hi)
  rw [swap, size_tabulate, operandMasks_eq_ok h _ hab ha hb]
  change gather _ _ = _
  rw [gather_tabulate hlt]
  simp only [swapSource_two_pow]

end Kernel

end Statevector
