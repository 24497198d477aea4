import Mathlib.Logic.Function.Basic
import Statevector.Proofs.State.Bits
import Statevector.Proofs.State.Loop

/-!
# Vectors of amplitudes as functions of the index

* `Kernel.tabulate`: the vector of the `2 ^ n` amplitudes that a function gives;
* `Kernel.read_tabulate`, `Kernel.write_tabulate`: reads and writes;
* `Kernel.onPairs`: what a map of pairs makes of the amplitude at an index;
* `Kernel.gather_tabulate`, **`Kernel.butterfly_tabulate`**, **`Kernel.exchange_tabulate`**: the
  loops of the kernels.
-/

namespace Statevector

variable {α : Type} {n : Nat}

namespace Kernel

/-- The vector of the amplitudes that a function gives to the indices below `2 ^ n`. -/
def tabulate (n : Nat) (a : Nat → Amplitude α) : Array (Amplitude α) :=
  Array.ofFn fun i : Fin (2 ^ n) => a i

@[simp] theorem size_tabulate (n : Nat) (a : Nat → Amplitude α) : (tabulate n a).size = 2 ^ n :=
  Array.size_ofFn

theorem getElem?_tabulate (a : Nat → Amplitude α) {i : Nat} (h : i < 2 ^ n) :
    (tabulate n a)[i]? = some (a i) := by
  rw [tabulate, Array.getElem?_ofFn, dif_pos h]

theorem tabulate_congr {a b : Nat → Amplitude α} (h : ∀ i < 2 ^ n, a i = b i) :
    tabulate n a = tabulate n b :=
  congrArg Array.ofFn (funext fun i => h i i.isLt)

theorem exists_tabulate {amps : Array (Amplitude α)} (h : amps.size = 2 ^ n) :
    ∃ a, amps = tabulate n a := by
  have hpos : 0 < amps.size := by
    rw [h]
    exact Nat.two_pow_pos n
  refine ⟨fun i => if hi : i < amps.size then amps[i] else amps[0], ?_⟩
  apply Array.ext
  · rw [size_tabulate, h]
  · intro i hi hi'
    simp [tabulate, hi]

/-! ## Reads and writes -/

theorem read_tabulate (a : Nat → Amplitude α) {i : Nat} (h : i < 2 ^ n) :
    read (tabulate n a) i = .ok (a i) := by
  rw [read, getElem?_tabulate a h]

theorem set_tabulate (a : Nat → Amplitude α) (j : Nat) (v : Amplitude α) :
    (tabulate n a).setIfInBounds j v = tabulate n (Function.update a j v) := by
  apply Array.ext
  · simp
  · intro i hi hi'
    rw [Array.getElem_setIfInBounds (by simpa using hi)]
    by_cases hij : j = i
    · subst hij
      simp [tabulate]
    · simp [tabulate, hij, Function.update_of_ne (Ne.symm hij)]

theorem write_tabulate (a : Nat → Amplitude α) {j : Nat} (h : j < 2 ^ n) (v : Amplitude α) :
    write (tabulate n a) j v = .ok (tabulate n (Function.update a j v)) := by
  rw [write, size_tabulate, if_pos h, set_tabulate]

/-! ## Loops -/

theorem gather_tabulate {f : Nat → Nat} (hf : ∀ i < 2 ^ n, f i < 2 ^ n) (a : Nat → Amplitude α) :
    gather f (tabulate n a) = .ok (tabulate n fun i => a (f i)) := by
  have hread : ∀ i ∈ List.range (tabulate n a).size, read (tabulate n a) (f i) = .ok (a (f i)) := by
    intro i hi
    rw [List.mem_range, size_tabulate] at hi
    exact read_tabulate a (hf i hi)
  rw [gather, mapM_eq_ok hread, size_tabulate]
  refine congrArg Except.ok ?_
  apply Array.ext
  · simp
  · intro i hi hi'
    simp [tabulate]

/-- What a map of pairs makes of the amplitude at an index, the pairs being those of the indices
that differ in bit `q`. -/
def onPairs (f : Amplitude α → Amplitude α → Amplitude α × Amplitude α) (q : Nat)
    (a : Nat → Amplitude α) (i : Nat) : Amplitude α :=
  if i.testBit q then (f (a (flipBit q i)) (a i)).2 else (f (a i) (a (flipBit q i))).1

section OnPairs

variable (f : Amplitude α → Amplitude α → Amplitude α × Amplitude α) {q i : Nat}
  (a : Nat → Amplitude α)

theorem onPairs_of_clear (h : i.testBit q = false) :
    onPairs f q a i = (f (a i) (a (flipBit q i))).1 := by
  rw [onPairs, h, if_neg Bool.false_ne_true]

theorem onPairs_of_set (h : i.testBit q = true) :
    onPairs f q a i = (f (a (flipBit q i)) (a i)).2 := by
  rw [onPairs, h, if_pos rfl]

/-- The other half of the pair of an index whose bit is clear. -/
theorem onPairs_flipBit (h : i.testBit q = false) :
    onPairs f q a (flipBit q i) = (f (a i) (a (flipBit q i))).2 := by
  rw [onPairs_of_set f a (by rw [testBit_flipBit_self, h]; rfl), flipBit_flipBit]

end OnPairs

/-- The amplitudes when `b` is in place of `a` in the pairs whose lower index is below `k`. -/
def halfDone (b a : Nat → Amplitude α) (q k i : Nat) : Amplitude α :=
  if writeBit q false i < k then b i else a i

theorem halfDone_zero (b a : Nat → Amplitude α) (q : Nat) : halfDone b a q 0 = a := by
  funext i
  rw [halfDone, if_neg (Nat.not_lt_zero _)]

theorem halfDone_of_le (b a : Nat → Amplitude α) {q k i : Nat} (h : k ≤ writeBit q false i) :
    halfDone b a q k i = a i := by
  rw [halfDone, if_neg (Nat.not_lt.mpr h)]

theorem halfDone_two_pow (b a : Nat → Amplitude α) {q i : Nat} (hq : q < n) (hi : i < 2 ^ n) :
    halfDone b a q (2 ^ n) i = b i := by
  rw [halfDone, if_pos (writeBit_lt hq false hi)]

theorem halfDone_succ_of_set (b a : Nat → Amplitude α) {q k : Nat} (h : k.testBit q = true) :
    halfDone b a q (k + 1) = halfDone b a q k := by
  funext i
  have hne : writeBit q false i ≠ k := by
    rintro rfl
    rw [testBit_writeBit, if_pos rfl] at h
    cases h
  have hiff : writeBit q false i < k + 1 ↔ writeBit q false i < k := by omega
  simp only [halfDone, hiff]

theorem halfDone_succ_of_clear (b a : Nat → Amplitude α) {q k : Nat} (h : k.testBit q = false) :
    halfDone b a q (k + 1) = Function.update (Function.update (halfDone b a q k) k (b k))
      (flipBit q k) (b (flipBit q k)) := by
  funext i
  by_cases hpartner : i = flipBit q k
  · have hlow : writeBit q false i = k := (writeBit_false_eq_iff h).mpr (.inr hpartner)
    rw [halfDone, if_pos (by omega), hpartner, Function.update_self]
  rw [Function.update_of_ne hpartner]
  by_cases hself : i = k
  · have hlow : writeBit q false i = k := (writeBit_false_eq_iff h).mpr (.inl hself)
    rw [halfDone, if_pos (by omega), hself, Function.update_self]
  rw [Function.update_of_ne hself]
  have hne : writeBit q false i ≠ k := fun e =>
    ((writeBit_false_eq_iff h).mp e).elim hself hpartner
  have hiff : writeBit q false i < k + 1 ↔ writeBit q false i < k := by omega
  simp only [halfDone, hiff]

/-- The indices of the pair that is done at step `k`. -/
theorem halfDone_pair (b a : Nat → Amplitude α) {q k : Nat} (h : k.testBit q = false) :
    halfDone b a q k k = a k ∧ halfDone b a q k (flipBit q k) = a (flipBit q k) :=
  ⟨halfDone_of_le b a ((writeBit_false_eq_iff h).mpr (.inl rfl)).ge,
    halfDone_of_le b a ((writeBit_false_eq_iff h).mpr (.inr rfl)).ge⟩

theorem butterflyAt_tabulate (f : Amplitude α → Amplitude α → Amplitude α × Amplitude α)
    (a : Nat → Amplitude α) {q k : Nat} (hq : q < n) (hk : k < 2 ^ n) :
    butterflyAt f (2 ^ q) (tabulate n a) (tabulate n (halfDone (onPairs f q a) a q k)) k =
      .ok (tabulate n (halfDone (onPairs f q a) a q (k + 1))) := by
  unfold butterflyAt
  split
  · next h =>
    have h : k.testBit q = false := (and_mask_eq_zero_iff k q).mp h
    have hpartner := flipBit_lt hq hk
    rw [or_mask_eq_flipBit h, read_tabulate a hk, read_tabulate a hpartner]
    change (write _ k (f (a k) (a (flipBit q k))).1 >>= fun out =>
      write out (flipBit q k) (f (a k) (a (flipBit q k))).2) = _
    rw [write_tabulate _ hk]
    change write _ _ _ = _
    rw [write_tabulate _ hpartner, halfDone_succ_of_clear _ _ h, onPairs_of_clear f a h,
      onPairs_flipBit f a h]
  · next h =>
    have h : k.testBit q = true := by
      rw [and_mask_eq_zero_iff, Bool.not_eq_false] at h
      exact h
    rw [halfDone_succ_of_set _ _ h]
    rfl

/-- **A butterfly maps every pair once, and from the amplitudes it was given.** -/
theorem butterfly_tabulate (f : Amplitude α → Amplitude α → Amplitude α × Amplitude α)
    (a : Nat → Amplitude α) {q : Nat} (hq : q < n) :
    butterfly f (2 ^ q) (tabulate n a) = .ok (tabulate n (onPairs f q a)) := by
  have hloop := foldlM_range_eq_ok (f := butterflyAt f (2 ^ q) (tabulate n a))
    (fun k => tabulate n (halfDone (onPairs f q a) a q k))
    (fun k (hk : k < 2 ^ n) => butterflyAt_tabulate f a hq hk)
  rw [halfDone_zero] at hloop
  rw [butterfly, size_tabulate, hloop]
  exact congrArg Except.ok (tabulate_congr fun i hi => halfDone_two_pow _ _ hq hi)

theorem exchangeAt_tabulate (a : Nat → Amplitude α) {q k : Nat} (hq : q < n) (hk : k < 2 ^ n) :
    exchangeAt (2 ^ q) (tabulate n (halfDone (fun i => a (flipBit q i)) a q k)) k =
      .ok (tabulate n (halfDone (fun i => a (flipBit q i)) a q (k + 1))) := by
  unfold exchangeAt
  split
  · next h =>
    have h : k.testBit q = false := (and_mask_eq_zero_iff k q).mp h
    have hlt := flipBit_lt hq hk
    obtain ⟨hself, hpartner⟩ := halfDone_pair (fun i => a (flipBit q i)) a h
    rw [or_mask_eq_flipBit h, read_tabulate _ hk, read_tabulate _ hlt, hself, hpartner]
    change (write _ k (a (flipBit q k)) >>= fun out => write out (flipBit q k) (a k)) = _
    rw [write_tabulate _ hk]
    change write _ _ _ = _
    rw [write_tabulate _ hlt, halfDone_succ_of_clear _ _ h, flipBit_flipBit]
  · next h =>
    have h : k.testBit q = true := by
      rw [and_mask_eq_zero_iff, Bool.not_eq_false] at h
      exact h
    rw [halfDone_succ_of_set _ _ h]
    rfl

/-- **An exchange in place moves every amplitude to its partner's index.** No pair is exchanged
twice: the pairs not yet done still hold the amplitudes they were given. -/
theorem exchange_tabulate (a : Nat → Amplitude α) {q : Nat} (hq : q < n) :
    exchange (2 ^ q) (tabulate n a) = .ok (tabulate n fun i => a (flipBit q i)) := by
  have hloop := foldlM_range_eq_ok (f := exchangeAt (2 ^ q))
    (fun k => tabulate n (halfDone (fun i => a (flipBit q i)) a q k))
    (fun k (hk : k < 2 ^ n) => exchangeAt_tabulate a hq hk)
  rw [halfDone_zero] at hloop
  rw [exchange, size_tabulate, hloop]
  exact congrArg Except.ok (tabulate_congr fun i hi => halfDone_two_pow _ _ hq hi)

end Kernel

end Statevector
