import Mathlib.Data.Nat.Bitwise
import Statevector.State.Kernel

/-!
# Bits of basis indices

* `flipBit`: an index with one bit flipped; `writeBit`: with one bit given a value;
* `forall_of_pairs`: indices come in pairs that differ in one bit;
* `testBit_flipBit`, `testBit_writeBit`: their bits; `flipBit_lt`, `writeBit_lt`: they stay below
  the dimension;
* `and_mask_eq_zero_iff`, `or_mask_eq_flipBit`: the masks of the kernels test and set one bit.
-/

namespace Statevector

/-- The index `i` with bit `q` flipped. -/
def flipBit (q i : Nat) : Nat := i ^^^ 2 ^ q

/-- The index `i` with bit `q` set to `v`. -/
def writeBit (q : Nat) (v : Bool) (i : Nat) : Nat := if i.testBit q = v then i else flipBit q i

theorem dimension_eq (width : Nat) : dimension width = 2 ^ width := Nat.one_shiftLeft width

variable {n q r i j : Nat}

/-! ## Flipping -/

theorem testBit_flipBit (q i j : Nat) :
    (flipBit q i).testBit j = (i.testBit j ^^ decide (q = j)) := by
  rw [flipBit, Nat.testBit_xor, Nat.testBit_two_pow]

theorem testBit_flipBit_self (q i : Nat) : (flipBit q i).testBit q = !i.testBit q := by
  simp [testBit_flipBit]

theorem testBit_flipBit_of_ne (h : q ≠ j) (i : Nat) : (flipBit q i).testBit j = i.testBit j := by
  simp [testBit_flipBit, h]

@[simp] theorem flipBit_flipBit (q i : Nat) : flipBit q (flipBit q i) = i := by
  rw [flipBit, flipBit, Nat.xor_assoc, Nat.xor_self, Nat.xor_zero]

theorem flipBit_ne (q i : Nat) : flipBit q i ≠ i := fun h => by
  have hbit := testBit_flipBit_self q i
  rw [h] at hbit
  cases hi : i.testBit q <;> simp [hi] at hbit

/-- What holds of the two indices of every pair holds of every index. -/
theorem forall_of_pairs {P : Nat → Prop} (q : Nat)
    (h : ∀ i, i.testBit q = false → P i ∧ P (flipBit q i)) (i : Nat) : P i := by
  cases hi : i.testBit q with
  | false => exact (h i hi).1
  | true =>
    have hpartner := (h (flipBit q i) (by rw [testBit_flipBit_self, hi]; rfl)).2
    rwa [flipBit_flipBit] at hpartner

theorem flipBit_comm (q r i : Nat) : flipBit q (flipBit r i) = flipBit r (flipBit q i) := by
  rw [flipBit, flipBit, flipBit, flipBit, Nat.xor_assoc, Nat.xor_comm (2 ^ r), Nat.xor_assoc]

theorem flipBit_eq_iff : flipBit q i = j ↔ i = flipBit q j := by
  constructor
  · rintro rfl
    rw [flipBit_flipBit]
  · rintro rfl
    rw [flipBit_flipBit]

theorem flipBit_lt (hq : q < n) (hi : i < 2 ^ n) : flipBit q i < 2 ^ n :=
  Nat.xor_lt_two_pow hi (Nat.pow_lt_pow_right (by decide) hq)

/-! ## Writing -/

theorem testBit_writeBit (q : Nat) (v : Bool) (i j : Nat) :
    (writeBit q v i).testBit j = if q = j then v else i.testBit j := by
  unfold writeBit
  split
  · next h =>
    split
    · next e => rw [← e, h]
    · rfl
  · next h =>
    split
    · next e =>
      subst e
      rw [testBit_flipBit_self]
      exact Bool.not_eq.mpr h
    · next e => rw [testBit_flipBit_of_ne e]

theorem writeBit_lt (hq : q < n) (v : Bool) (hi : i < 2 ^ n) : writeBit q v i < 2 ^ n := by
  unfold writeBit
  split
  · exact hi
  · exact flipBit_lt hq hi

/-- Different bits are written in either order. -/
theorem writeBit_comm (h : q ≠ r) (v w : Bool) (i : Nat) :
    writeBit q v (writeBit r w i) = writeBit r w (writeBit q v i) := by
  apply Nat.eq_of_testBit_eq
  intro j
  simp only [testBit_writeBit]
  by_cases hq : q = j
  · subst hq
    rw [if_pos rfl, if_neg h.symm, if_pos rfl]
  · rw [if_neg hq, if_neg hq]

theorem writeBit_flipBit_of_ne (h : q ≠ r) (v : Bool) (i : Nat) :
    writeBit q v (flipBit r i) = flipBit r (writeBit q v i) := by
  unfold writeBit
  rw [testBit_flipBit_of_ne h.symm]
  split
  · rfl
  · exact flipBit_comm q r i

/-- Only an index and its partner give the same index when a bit is cleared. -/
theorem writeBit_false_eq_iff (h : j.testBit q = false) :
    writeBit q false i = j ↔ i = j ∨ i = flipBit q j := by
  unfold writeBit
  split
  · next hi =>
    refine ⟨.inl, ?_⟩
    rintro (e | rfl)
    · exact e
    · rw [testBit_flipBit_self, h] at hi
      cases hi
  · next hi =>
    rw [flipBit_eq_iff]
    refine ⟨.inr, ?_⟩
    rintro (rfl | e)
    · exact absurd h hi
    · exact e

/-! ## Masks -/

theorem and_mask_eq_zero_iff (i q : Nat) : i &&& 2 ^ q = 0 ↔ i.testBit q = false := by
  rw [Nat.and_two_pow]
  cases i.testBit q <;> simp

/-- Setting a clear bit flips it. -/
theorem or_mask_eq_flipBit (h : i.testBit q = false) : i ||| 2 ^ q = flipBit q i := by
  apply Nat.eq_of_testBit_eq
  intro j
  rw [Nat.testBit_or, testBit_flipBit, Nat.testBit_two_pow]
  by_cases hj : q = j
  · subst hj
    simp [h]
  · simp [hj]

theorem Qubit.mask_eq_ok {q : Qubit} (h : q.index.toNat < indexBits) :
    q.mask = .ok (2 ^ q.index.toNat) := by
  rw [mask, if_pos h, Nat.one_shiftLeft]

theorem Qubit.mask_eq_error {q : Qubit} (h : indexBits ≤ q.index.toNat) :
    q.mask = .error (.shiftOverflow q) := if_neg (Nat.not_lt.mpr h)

end Statevector
