import Mathlib.Data.Set.Function
import Mathlib.Logic.Equiv.Basic
import Mathlib.Order.Interval.Set.Defs
import Statevector.Proofs.State.Gate

/-!
# Gates that move amplitudes

Pauli X, controlled-NOT and swap compute a function of bits.

* `Gate.IsClassical`: these gates; `Gate.bitMap`: the function of a gate on basis indices;
* `Gate.bitMap_bitMap`, `Gate.bijOn_bitMap`: it is its own inverse, and a bijection of the indices
  below the dimension;
* `Gate.acts_of_isClassical`: what a list of such gates does;
* **`Gate.act_bitMap`**: the gate moves every amplitude from an index to the image of that index.
-/

namespace Statevector

variable {α : Type} {n : Nat}

namespace Gate

/-- The gates that only move amplitudes. -/
def IsClassical : Gate → Prop
  | one .x _ => True
  | one .h _ | one .y _ | one .z _ => False
  | two _ _ _ => True

instance : DecidablePred IsClassical
  | one .x _ | two _ _ _ => isTrue trivial
  | one .h _ | one .y _ | one .z _ => isFalse id

/-- Where a gate that only moves amplitudes takes a basis index. Pauli X flips a bit, a
controlled-NOT flips its target if its control is set, a swap exchanges the values of two bits, and
a gate that lacks an operand does nothing. -/
def bitMap (g : Gate) (i : Nat) : Nat :=
  match g with
  | one .x q => flipBit q.index.toNat i
  | two .cnot a (some b) => if i.testBit a.index.toNat then flipBit b.index.toNat i else i
  | two .swap a (some b) => writeBit b.index.toNat (i.testBit a.index.toNat)
      (writeBit a.index.toNat (i.testBit b.index.toNat) i)
  | _ => i

/-- Bits are exchanged by flipping both of them if they differ. -/
theorem writeBit_writeBit_eq (q r i : Nat) :
    writeBit r (i.testBit q) (writeBit q (i.testBit r) i) =
      if i.testBit q = i.testBit r then i else flipBit r (flipBit q i) := by
  apply Nat.eq_of_testBit_eq
  intro j
  rw [testBit_writeBit, testBit_writeBit]
  by_cases hbits : i.testBit q = i.testBit r
  · rw [if_pos hbits]
    split
    · next hr => rw [hbits, hr]
    · split
      · next hq => rw [← hbits, hq]
      · rfl
  · have hqr : q ≠ r := by
      rintro rfl
      exact hbits rfl
    rw [if_neg hbits, testBit_flipBit, testBit_flipBit]
    split
    · next hr =>
      subst hr
      rw [Bool.eq_not.mpr hbits]
      simp [hqr]
    · next hr =>
      split
      · next hq =>
        subst hq
        rw [Bool.eq_not.mpr (Ne.symm hbits)]
        simp [hr]
      · next hq => simp [hq, hr]

theorem testBit_bitMap_cnot (a b : Qubit) (i j : Nat) :
    ((two .cnot a (some b)).bitMap i).testBit j =
      (i.testBit j ^^ (decide (b.index.toNat = j) && i.testBit a.index.toNat)) := by
  rw [bitMap]
  split
  · next ha => rw [testBit_flipBit, ha, Bool.and_true]
  · next ha => simp [ha]

/-- The bits of an index after a swap are those of the index at the exchanged places. -/
theorem testBit_bitMap_swap (a b : Qubit) (i j : Nat) :
    ((two .swap a (some b)).bitMap i).testBit j =
      i.testBit (Equiv.swap a.index.toNat b.index.toNat j) := by
  rw [bitMap, testBit_writeBit, testBit_writeBit, Equiv.swap_apply_def]
  grind

theorem bitMap_lt {g : Gate} (hg : g.Fits n) {i : Nat} (hi : i < 2 ^ n) : g.bitMap i < 2 ^ n := by
  match g with
  | one .x q => exact flipBit_lt (fits_one_iff.mp hg) hi
  | one .h _ | one .y _ | one .z _ | two .cnot _ none | two .swap _ none => exact hi
  | two .cnot a (some b) =>
    obtain ⟨-, -, hb⟩ := fits_two_iff.mp hg
    rw [bitMap]
    split
    · exact flipBit_lt hb hi
    · exact hi
  | two .swap a (some b) =>
    obtain ⟨-, ha, hb⟩ := fits_two_iff.mp hg
    exact writeBit_lt hb _ (writeBit_lt ha _ hi)

/-- A gate that fits and only moves amplitudes undoes itself. -/
theorem bitMap_bitMap {g : Gate} (hg : g.Fits n) (i : Nat) : g.bitMap (g.bitMap i) = i := by
  match g with
  | one .x q => exact flipBit_flipBit _ _
  | one .h _ | one .y _ | one .z _ | two .cnot _ none | two .swap _ none => rfl
  | two .cnot a (some b) =>
    have hne := index_ne (fits_two_iff.mp hg).1
    rw [bitMap, bitMap]
    by_cases ha : i.testBit a.index.toNat = true
    · rw [if_pos ha, testBit_flipBit_of_ne hne.symm, if_pos ha, flipBit_flipBit]
    · rw [if_neg ha, if_neg ha]
  | two .swap a (some b) =>
    have hne := index_ne (fits_two_iff.mp hg).1
    rw [bitMap, bitMap, writeBit_writeBit_eq, writeBit_writeBit_eq]
    by_cases hbits : i.testBit a.index.toNat = i.testBit b.index.toNat
    · rw [if_pos hbits, if_pos hbits]
    · rw [if_neg hbits, testBit_flipBit_of_ne hne.symm, testBit_flipBit_self, testBit_flipBit_self,
        testBit_flipBit_of_ne hne, if_neg (by simpa using hbits), flipBit_comm, flipBit_flipBit,
        flipBit_flipBit]

theorem bijOn_bitMap {g : Gate} (hg : g.Fits n) :
    Set.BijOn g.bitMap (Set.Iio (2 ^ n)) (Set.Iio (2 ^ n)) := by
  have hmaps : Set.MapsTo g.bitMap (Set.Iio (2 ^ n)) (Set.Iio (2 ^ n)) :=
    fun _ hi => bitMap_lt hg hi
  have hinv : Set.InvOn g.bitMap g.bitMap (Set.Iio (2 ^ n)) (Set.Iio (2 ^ n)) :=
    ⟨fun i _ => bitMap_bitMap hg i, fun i _ => bitMap_bitMap hg i⟩
  exact hinv.bijOn hmaps hmaps

variable [Add α] [Sub α] [Mul α] [Neg α] [HalfRoot α]

theorem act_eq_of_isClassical {g : Gate} (h : g.IsClassical) (f : Nat → Amplitude α) (i : Nat) :
    g.act f i = f (g.bitMap i) := by
  match g, h with
  | one .x q, _ => rfl
  | two .cnot _ none, _ | two .swap _ none, _ => rfl
  | two .cnot a (some b), _ => rfl
  | two .swap a (some b), _ => rw [act, bitMap, writeBit_writeBit_eq]

/-- Gates that only move amplitudes are one map of indices. -/
theorem acts_of_isClassical {gs : List Gate}
    (hc : ∀ g ∈ gs, g.IsClassical) (f : Nat → Amplitude α) (i : Nat) :
    acts gs f i = f (gs.foldr bitMap i) := by
  induction gs generalizing f with
  | nil => rfl
  | cons g gs ih =>
    rw [List.forall_mem_cons] at hc
    calc acts (g :: gs) f i
        = acts gs (g.act f) i := rfl
      _ = g.act f (gs.foldr bitMap i) := ih hc.2 _
      _ = f ((g :: gs).foldr bitMap i) := act_eq_of_isClassical hc.1 f _

/-- **A gate that only moves amplitudes takes each from its index to the image of the index.** -/
theorem act_bitMap {g : Gate} (h : g.IsClassical) (hg : g.Fits n) (f : Nat → Amplitude α)
    (i : Nat) : g.act f (g.bitMap i) = f i := by
  rw [act_eq_of_isClassical h, bitMap_bitMap hg]

end Gate

end Statevector
