import Statevector.Proofs.State.Bits
import Statevector.State.Measure

/-!
# The probability of a qubit

A state that comes from outside may declare any width and have any number of amplitudes, so the
weights of a qubit are added up without knowing how the two go together.

* `State.marginal_of_outOfRange`, `State.marginal_of_overflow`, `State.marginal_of_lt`: one law per
  branch;
* `State.IsSelection`: the entries of a state at some indices; `State.IsSelection.unique`: there is
  one list of them; `State.isSelection_filter`: how it is found;
* `State.SumsOver`: the sum of their squared magnitudes, in the order of the indices;
* **`State.marginal_sums_bit`**: what the probability of a qubit is the sum of.
-/

namespace Statevector

variable {α : Type}

namespace State

section

variable [Zero α] [Neg α] [Add α] [Mul α] {s : State α} {q : Qubit}

theorem marginal_of_outOfRange (h : s.width ≤ q.index.toNat) :
    s.marginal q = .error (.qubitOutOfRange q s.width none) := if_pos h

theorem marginal_of_overflow (hq : q.index.toNat < s.width) (h : indexBits ≤ q.index.toNat) :
    s.marginal q = .error (.shiftOverflow q) := by
  rw [marginal, if_neg (Nat.not_le.mpr hq), Qubit.mask_eq_error h]
  rfl

/-- The mask of a qubit selects the indices that have its bit. -/
theorem marginal_of_lt (hq : q.index.toNat < s.width) (h : q.index.toNat < indexBits) :
    s.marginal q = .ok (total ((s.amplitudes.toList.zipIdx.filter fun x =>
      x.2.testBit q.index.toNat).map fun x => x.1.weight)) := by
  have htests : (fun x : Amplitude α × Nat => decide (x.2 &&& 2 ^ q.index.toNat ≠ 0)) =
      fun x => x.2.testBit q.index.toNat := by
    funext x
    simp [and_mask_eq_zero_iff]
  rw [marginal, if_neg (Nat.not_le.mpr hq), Qubit.mask_eq_ok h, ← htests]
  rfl

end

/-! ## Entries -/

/-- The entries of a state at the indices that have a property, in the order of the indices. -/
structure IsSelection (s : State α) (P : Nat → Prop) (entries : List (Amplitude α × Nat)) :
    Prop where
  sorted : entries.Pairwise fun x y => x.2 < y.2
  mem_iff (a : Amplitude α) (i : Nat) : (a, i) ∈ entries ↔ s.amplitudes[i]? = some a ∧ P i

/-- A sorted list is known by its members. -/
theorem IsSelection.unique {s : State α} {P : Nat → Prop} {l l' : List (Amplitude α × Nat)}
    (h : s.IsSelection P l) (h' : s.IsSelection P l') : l = l' := by
  have hnodup {l : List (Amplitude α × Nat)} (hl : l.Pairwise fun x y => x.2 < y.2) : l.Nodup := by
    refine hl.imp fun {x y} hlt => ?_
    rintro rfl
    exact Nat.lt_irrefl _ hlt
  have hperm : l.Perm l' := by
    rw [List.perm_ext_iff_of_nodup (hnodup h.sorted) (hnodup h'.sorted)]
    rintro ⟨a, i⟩
    rw [h.mem_iff, h'.mem_iff]
  exact hperm.eq_of_pairwise (fun x y _ _ hxy hyx => absurd hyx (Nat.lt_asymm hxy)) h.sorted
    h'.sorted

/-- Numbered entries that are filtered stay in order. -/
theorem isSelection_filter (s : State α) {P : Nat → Prop} {p : Amplitude α × Nat → Bool}
    (hp : ∀ a i, s.amplitudes[i]? = some a → (p (a, i) = true ↔ P i)) :
    s.IsSelection P (s.amplitudes.toList.zipIdx.filter p) := by
  constructor
  · refine List.Pairwise.filter _ ?_
    rw [← List.pairwise_map (f := Prod.snd) (R := (· < ·)), List.zipIdx_map_snd]
    exact List.pairwise_lt_range'
  · intro a i
    rw [List.mem_filter, List.mem_zipIdx_iff_getElem?, Array.getElem?_toList]
    exact and_congr_right fun ha => hp a i ha

/-! ## Sums -/

section

variable [Zero α] [Neg α] [Add α] [Mul α]

/-- A number is the sum from the left, starting at minus zero, of the squared magnitudes of the
amplitudes at the indices that have a property, in the order of the indices. -/
def SumsOver (s : State α) (P : Nat → Prop) (x : α) : Prop :=
  ∃ entries, s.IsSelection P entries ∧
    x = entries.foldl (fun sum e => sum + (e.1.re * e.1.re + e.1.im * e.1.im)) (-0)

theorem IsSelection.sumsOver_iff {s : State α} {P : Nat → Prop} {l : List (Amplitude α × Nat)}
    (h : s.IsSelection P l) {x : α} : s.SumsOver P x ↔ x = total (l.map fun e => e.1.weight) := by
  have htotal : total (l.map fun e => e.1.weight) =
      l.foldl (fun sum e => sum + (e.1.re * e.1.re + e.1.im * e.1.im)) (-0) := by
    rw [total, List.foldl_map]
    rfl
  rw [htotal]
  constructor
  · rintro ⟨l', h', rfl⟩
    rw [h.unique h']
  · rintro rfl
    exact ⟨l, h, rfl⟩

/-- **The probability of one of the first 64 qubits adds up the amplitudes whose index has its
bit**, whatever the width of the state and the number of its amplitudes. It is a fault exactly if
the state has no such qubit, or if it has one for which no word has a bit: in a state that declares
more than 64 qubits, the shift that would select the indices of any later one overflows. -/
theorem marginal_sums_bit (s : State α) (q : Qubit) :
    (∀ fault, s.marginal q = .error fault ↔
      s.width ≤ q.index.toNat ∧ fault = .qubitOutOfRange q s.width none ∨
      q.index.toNat < s.width ∧ 64 ≤ q.index.toNat ∧ fault = .shiftOverflow q) ∧
    (q.index.toNat < s.width → q.index.toNat < 64 → ∃ x, s.marginal q = .ok x ∧
      ∀ y, s.SumsOver (fun i => i / 2 ^ q.index.toNat % 2 = 1) y ↔ y = x) := by
  constructor
  · intro fault
    rcases Nat.lt_or_ge q.index.toNat s.width with hq | hq
    · rcases Nat.lt_or_ge q.index.toNat 64 with hlt | hge
      · rw [marginal_of_lt hq hlt]
        simp [Nat.not_le.mpr hq, Nat.not_le.mpr hlt]
      · rw [marginal_of_overflow hq hge]
        simp [hq, hge, Nat.not_le.mpr hq, eq_comm]
    · rw [marginal_of_outOfRange hq]
      simp [hq, Nat.not_lt.mpr hq, eq_comm]
  · intro hq hlt
    have hselects := s.isSelection_filter (p := fun x => x.2.testBit q.index.toNat)
      (P := fun i => i / 2 ^ q.index.toNat % 2 = 1)
      fun _ i _ => by rw [Nat.testBit_eq_decide_div_mod_eq, decide_eq_true_iff]
    exact ⟨_, marginal_of_lt hq hlt, fun y => hselects.sumsOver_iff⟩

end

/-- A state of three amplitudes that declares 64 qubits: the second qubit is set at index two only,
the last one nowhere, and there is no qubit after it. -/
theorem marginal_sums_bit_three_amplitudes :
    ∃ s : State Float, s = ⟨64, #[⟨1, 0⟩, ⟨0, 1⟩, ⟨2, -1⟩]⟩ ∧
      (s.marginal ⟨1⟩ = .ok 5 ∧ s.SumsOver (fun i => i / 2 ^ 1 % 2 = 1) 5) ∧
      (s.marginal ⟨63⟩ = .ok (-0) ∧ s.SumsOver (fun i => i / 2 ^ 63 % 2 = 1) (-0)) ∧
      s.marginal ⟨64⟩ = .error (.qubitOutOfRange ⟨64⟩ 64 none) := by
  obtain ⟨s, hs⟩ : ∃ s : State Float, s = ⟨64, #[⟨1, 0⟩, ⟨0, 1⟩, ⟨2, -1⟩]⟩ := ⟨_, rfl⟩
  have hwidth : s.width = 64 := by rw [hs]
  have hsecond : s.marginal ⟨1⟩ = .ok 5 := by
    rw [hs]
    decide +kernel
  have hlast : s.marginal ⟨63⟩ = .ok (-0) := by
    rw [hs]
    decide +kernel
  obtain ⟨x, hx, hsums⟩ := (marginal_sums_bit s ⟨1⟩).2 (by rw [hwidth]; decide) (by decide)
  obtain ⟨y, hy, hsums'⟩ := (marginal_sums_bit s ⟨63⟩).2 (by rw [hwidth]; decide) (by decide)
  refine ⟨s, hs, ⟨hsecond, (hsums 5).mpr ?_⟩, ⟨hlast, (hsums' (-0)).mpr ?_⟩, ?_⟩
  · exact Except.ok.inj (hsecond.symm.trans hx)
  · exact Except.ok.inj (hlast.symm.trans hy)
  · exact ((marginal_sums_bit s ⟨64⟩).1 _).mpr (.inl ⟨by rw [hwidth]; decide, by rw [hwidth]⟩)

/-- In a state that declares 65 qubits the last one has no probability: its shift overflows,
although no index has bit 64 and the sum over those that have it is minus zero. -/
theorem marginal_overflow_of_index_64 :
    (⟨65, #[0, 1]⟩ : State Float).marginal ⟨64⟩ = .error (.shiftOverflow ⟨64⟩) ∧
    (⟨65, #[0, 1]⟩ : State Float).SumsOver (fun i => i / 2 ^ 64 % 2 = 1) (-0) ∧
    (⟨65, #[0, 1]⟩ : State Float).marginal ⟨64⟩ ≠ .ok (-0) := by
  have hnone : (⟨65, #[0, 1]⟩ : State Float).IsSelection (fun i => i / 2 ^ 64 % 2 = 1) [] := by
    refine ⟨.nil, fun a i => ⟨nofun, ?_⟩⟩
    rintro ⟨ha, hbit⟩
    have hi : i < 2 := (Array.getElem?_eq_some_iff.mp ha).1
    rw [Nat.div_eq_of_lt (by omega)] at hbit
    omega
  have hoverflow : (⟨65, #[0, 1]⟩ : State Float).marginal ⟨64⟩ = .error (.shiftOverflow ⟨64⟩) :=
    marginal_of_overflow (by decide) (by decide)
  refine ⟨hoverflow, hnone.sumsOver_iff.mpr rfl, ?_⟩
  rw [hoverflow]
  exact nofun

end State

end Statevector
