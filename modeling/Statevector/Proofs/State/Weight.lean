import Mathlib.Algebra.BigOperators.Group.Finset.Basic
import Mathlib.Algebra.BigOperators.Ring.Finset
import Mathlib.Order.Interval.Finset.Nat
import Mathlib.Tactic.LinearCombination
import Mathlib.Tactic.Ring
import Statevector.Proofs.State.Classical
import Statevector.Proofs.State.Measure
import Statevector.Proofs.State.Trail

/-!
# What gates do to weights

In exact arithmetic a gate moves weight only between an index and its partner, which differ in
operands of the gate. So it keeps the weight of every set of indices that flipping its operands
does not leave: that of all of them, and that of those where another qubit reads one.

* `State.norm_ofFn`, `State.marginal_ofFn`: norm and marginals as sums over indices;
* `Gate.partner`; `Gate.weight_act_add`: the weight of an index and its partner;
  **`Gate.sum_weight_act`**: the weight of a set of indices;
* **`State.IsFull.apply_weight`**, **`State.IsFull.foldlM_weight`**: one gate, and a list of gates.
-/

namespace Statevector

open Finset (range)

variable {α : Type} [CommRing α] {n : Nat}

/-! ## Sums over indices -/

theorem total_eq_sum (xs : List α) : total xs = xs.sum := by
  rw [total, neg_zero, List.sum_eq_foldl]

theorem sum_map_filter_range (P : Nat → Bool) (w : Nat → α) :
    (((List.range n).filter P).map w).sum = ∑ i ∈ range n with P i = true, w i := by
  rw [← List.sum_toFinset w (List.nodup_range.filter P), List.toFinset_filter, List.toFinset_range]

namespace Kernel

omit [CommRing α] in
theorem toList_tabulate (f : Nat → Amplitude α) :
    (tabulate n f).toList = (List.range (2 ^ n)).map f := by
  apply List.ext_getElem
  · simp
  · intro i hi hi'
    simp [tabulate]

omit [CommRing α] in
theorem zipIdx_toList_tabulate (f : Nat → Amplitude α) :
    (tabulate n f).toList.zipIdx = (List.range (2 ^ n)).map fun i => (f i, i) := by
  apply List.ext_getElem
  · simp
  · intro i hi hi'
    simp [tabulate]

end Kernel

namespace State

theorem norm_ofFn (f : Nat → Amplitude α) :
    (ofFn n f).norm = ∑ i ∈ range (2 ^ n), (f i).weight := by
  rw [norm, total_eq_sum, weights, ofFn, Kernel.toList_tabulate, List.map_map,
    ← List.toFinset_range, List.sum_toFinset _ List.nodup_range]
  rfl

theorem marginal_ofFn (hn : n < indexBits) (f : Nat → Amplitude α) {r : Qubit}
    (hr : r.index.toNat < n) : (ofFn n f).marginal r =
      .ok (∑ i ∈ range (2 ^ n) with i.testBit r.index.toNat = true, (f i).weight) := by
  calc (ofFn n f).marginal r
      = .ok (total (((Kernel.tabulate n f).toList.zipIdx.filter fun x =>
          x.2.testBit r.index.toNat).map fun x => x.1.weight)) :=
        marginal_of_lt hr (hr.trans hn)
    _ = .ok (((List.range (2 ^ n)).filter fun i => i.testBit r.index.toNat).map fun i =>
          (f i).weight).sum := by
        rw [total_eq_sum, Kernel.zipIdx_toList_tabulate, List.filter_map, List.map_map]
        rfl
    _ = _ := by rw [sum_map_filter_range]

end State

/-! ## Pairs -/

namespace Amplitude

theorem weight_neg (a : Amplitude α) : (-a).weight = a.weight := by
  change -a.re * -a.re + -a.im * -a.im = a.re * a.re + a.im * a.im
  ring

end Amplitude

namespace Kernel

theorem weight_pauliYPair (x y : Amplitude α) :
    (pauliYPair x y).1.weight + (pauliYPair x y).2.weight = x.weight + y.weight := by
  simp only [pauliYPair, Amplitude.weight]
  ring

/-- Sum and difference have twice the weight of the pair, and both are scaled by the root of one
half. -/
theorem weight_hadamardPair [HalfRoot α] (hroot : 2 * halfRoot * halfRoot = (1 : α))
    (x y : Amplitude α) :
    (hadamardPair x y).1.weight + (hadamardPair x y).2.weight = x.weight + y.weight := by
  obtain ⟨a, b⟩ := x
  obtain ⟨c, d⟩ := y
  change (halfRoot * (a + c) * (halfRoot * (a + c)) + halfRoot * (b + d) * (halfRoot * (b + d))) +
    (halfRoot * (a - c) * (halfRoot * (a - c)) + halfRoot * (b - d) * (halfRoot * (b - d))) =
      a * a + b * b + (c * c + d * d)
  linear_combination (a * a + b * b + c * c + d * d) * hroot

/-- What keeps the weight of a pair keeps it on all pairs of a vector. -/
theorem weight_onPairs {F : Amplitude α → Amplitude α → Amplitude α × Amplitude α}
    (hF : ∀ x y, (F x y).1.weight + (F x y).2.weight = x.weight + y.weight) (q : Nat)
    (f : Nat → Amplitude α) (i : Nat) :
    (onPairs F q f i).weight + (onPairs F q f (flipBit q i)).weight =
      (f i).weight + (f (flipBit q i)).weight := by
  have hpair (j : Nat) (hj : j.testBit q = false) :
      (onPairs F q f j).weight + (onPairs F q f (flipBit q j)).weight =
        (f j).weight + (f (flipBit q j)).weight := by
    rw [onPairs_of_clear F f hj, onPairs_flipBit F f hj, hF]
  revert i
  refine forall_of_pairs q fun j hj => ⟨hpair j hj, ?_⟩
  rw [flipBit_flipBit, add_comm, hpair j hj, add_comm]

end Kernel

/-! ## One gate -/

namespace Gate

/-- The index with which an index exchanges weight, or itself. -/
def partner (g : Gate) (i : Nat) : Nat :=
  match g with
  | one .h q | one .y q => flipBit q.index.toNat i
  | one .x _ | one .z _ | two _ _ _ => g.bitMap i

theorem partner_eq_of_isClassical {g : Gate} (h : g.IsClassical) (i : Nat) :
    g.partner i = g.bitMap i := by
  match g, h with
  | one .x _, _ | two _ _ _, _ => rfl

theorem partner_partner {g : Gate} (hg : g.Fits n) (i : Nat) : g.partner (g.partner i) = i := by
  match g with
  | one .h q | one .y q => exact flipBit_flipBit _ _
  | one .x _ | one .z _ | two _ _ _ => exact bitMap_bitMap hg i

/-- An index and its partner differ in operands of the gate only. -/
theorem partner_mem {g : Gate} {S : Finset Nat}
    (hS : ∀ q ∈ g.qubits, ∀ i ∈ S, flipBit q.index.toNat i ∈ S) {i : Nat} (hi : i ∈ S) :
    g.partner i ∈ S := by
  match g with
  | one .h q | one .y q | one .x q => exact hS q List.mem_cons_self i hi
  | one .z q | two .cnot _ none | two .swap _ none => exact hi
  | two .cnot a (some b) =>
    change (if i.testBit a.index.toNat then flipBit b.index.toNat i else i) ∈ S
    split
    · exact hS b (by simp [qubits]) i hi
    · exact hi
  | two .swap a (some b) =>
    change writeBit b.index.toNat _ (writeBit a.index.toNat _ i) ∈ S
    rw [writeBit_writeBit_eq]
    split
    · exact hi
    · exact hS b (by simp [qubits]) _ (hS a (by simp [qubits]) i hi)

variable [HalfRoot α]

theorem weight_act_of_partner_eq {g : Gate} (f : Nat → Amplitude α) {i : Nat}
    (h : g.partner i = i) : (g.act f i).weight = (f i).weight := by
  by_cases hc : g.IsClassical
  · rw [act_eq_of_isClassical hc, ← partner_eq_of_isClassical hc, h]
  match g with
  | one .x _ | two _ _ _ => exact absurd trivial hc
  | one .h q | one .y q => exact absurd h (flipBit_ne _ _)
  | one .z q =>
    change (if i.testBit q.index.toNat then -f i else f i).weight = _
    split
    · exact (f i).weight_neg
    · rfl

/-- **A gate keeps the weight of an index and its partner together.** -/
theorem weight_act_add (hroot : 2 * halfRoot * halfRoot = (1 : α)) {g : Gate} (hg : g.Fits n)
    (f : Nat → Amplitude α) (i : Nat) : (g.act f i).weight + (g.act f (g.partner i)).weight =
      (f i).weight + (f (g.partner i)).weight := by
  by_cases hc : g.IsClassical
  · rw [act_eq_of_isClassical hc, act_eq_of_isClassical hc, ← partner_eq_of_isClassical hc,
      ← partner_eq_of_isClassical hc, partner_partner hg, add_comm]
  match g with
  | one .x _ | two _ _ _ => exact absurd trivial hc
  | one .h q => exact Kernel.weight_onPairs (Kernel.weight_hadamardPair hroot) _ f i
  | one .y q => exact Kernel.weight_onPairs Kernel.weight_pauliYPair _ f i
  | one .z q =>
    have hself : ((one .z q).act f i).weight = (f i).weight := weight_act_of_partner_eq f rfl
    exact congrArg₂ (· + ·) hself hself

/-- **A gate keeps the weight of every set of indices that flipping its operands does not leave.**
The weight gained at an index is lost at its partner. -/
theorem sum_weight_act (hroot : 2 * halfRoot * halfRoot = (1 : α)) {g : Gate} (hg : g.Fits n)
    {S : Finset Nat} (hS : ∀ q ∈ g.qubits, ∀ i ∈ S, flipBit q.index.toNat i ∈ S)
    (f : Nat → Amplitude α) : ∑ i ∈ S, (g.act f i).weight = ∑ i ∈ S, (f i).weight := by
  rw [← sub_eq_zero, ← Finset.sum_sub_distrib]
  refine Finset.sum_involution (fun i _ => g.partner i) ?cancel ?moved ?mem ?twice
  case cancel =>
    intro i _
    linear_combination weight_act_add hroot hg f i
  case moved =>
    intro i _ hne h
    exact hne (sub_eq_zero.mpr (weight_act_of_partner_eq f h))
  case mem => exact fun i hi => partner_mem hS hi
  case twice => exact fun i _ => partner_partner hg i

end Gate

/-! ## States -/

namespace State

variable [HalfRoot α]

/-- **A gate keeps the norm, and the marginal of every qubit that it does not name.** -/
theorem IsFull.apply_weight (hroot : 2 * halfRoot * halfRoot = (1 : α)) {s t : State α}
    (hs : s.IsFull) {g : Gate} (hg : g.Fits s.width) (h : s.apply g = .ok t) :
    t.norm = s.norm ∧ ∀ r, r ∉ g.qubits → t.marginal r = s.marginal r := by
  have hlt := hs.1
  generalize hn : s.width = n at hg hlt
  obtain ⟨f, rfl⟩ := hs.exists_ofFn_of_width hn
  rw [apply_ofFn hlt f hg] at h
  cases h
  constructor
  · rw [norm_ofFn, norm_ofFn]
    refine Gate.sum_weight_act hroot hg (fun q hq i hi => ?_) f
    rw [Finset.mem_range] at hi ⊢
    exact flipBit_lt (hg.lt q hq) hi
  · intro r hr
    by_cases hw : r.index.toNat < n
    · rw [marginal_ofFn hlt _ hw, marginal_ofFn hlt _ hw]
      refine congrArg Except.ok (Gate.sum_weight_act hroot hg (fun q hq i hi => ?_) f)
      have hqr : q ≠ r := fun e => hr (e ▸ hq)
      rw [Finset.mem_filter, Finset.mem_range] at hi ⊢
      rw [testBit_flipBit_of_ne (Gate.index_ne hqr)]
      exact ⟨flipBit_lt (hg.lt q hq) hi.1, hi.2⟩
    · have hw : n ≤ r.index.toNat := Nat.not_lt.mp hw
      rw [marginal_of_outOfRange hw, marginal_of_outOfRange hw]
      rfl

/-- **Gates keep the norm, and the marginal of every qubit that none of them names.** -/
theorem IsFull.foldlM_weight (hroot : 2 * halfRoot * halfRoot = (1 : α)) {s t : State α}
    (hs : s.IsFull) {gs : List Gate} (hg : ∀ g ∈ gs, g.Fits s.width)
    (h : gs.foldlM apply s = .ok t) :
    t.norm = s.norm ∧ ∀ r, (∀ g ∈ gs, r ∉ g.qubits) → t.marginal r = s.marginal r := by
  refine (foldlM_induction (P := fun u => (u.IsFull ∧ u.width = s.width) ∧ u.norm = s.norm ∧
    ∀ r, (∀ g ∈ gs, r ∉ g.qubits) → u.marginal r = s.marginal r)
    ⟨⟨hs, rfl⟩, rfl, fun _ _ => rfl⟩ ?step h).2
  case step =>
    rintro g hmem u v ⟨⟨hu, hw⟩, hnorm, hmarginal⟩ hv
    obtain ⟨hfull, hwidth⟩ := hu.of_apply hv
    obtain ⟨hnorm', hmarginal'⟩ := hu.apply_weight hroot (hw ▸ hg g hmem) hv
    exact ⟨⟨hfull, hwidth.trans hw⟩, hnorm'.trans hnorm,
      fun r hr => (hmarginal' r (hr g hmem)).trans (hmarginal r hr)⟩

/-! ## The state that reads zero -/

omit [HalfRoot α] in
theorem weight_ite (i : Nat) :
    (if i = 0 then 1 else 0 : Amplitude α).weight = if i = 0 then 1 else 0 := by
  split
  · change (1 : α) * 1 + 0 * 0 = 1
    ring
  · change (0 : α) * 0 + 0 * 0 = 0
    ring

omit [HalfRoot α] in
theorem norm_ground (n : Nat) : (ground n : State α).norm = 1 := by
  simp only [ground_eq_ofFn, norm_ofFn, weight_ite]
  simp

omit [HalfRoot α] in
theorem marginal_ground (hn : n < indexBits) {r : Qubit} (hr : r.index.toNat < n) :
    (ground n : State α).marginal r = .ok 0 := by
  rw [ground_eq_ofFn, marginal_ofFn hn _ hr]
  simp only [weight_ite]
  simp

end State

end Statevector
