import Statevector.Proofs.State.Gate

/-!
# What becomes of a gate on any state

States that come from outside may have any width and any number of amplitudes.

* `Gate.fault?`: the first fault of a gate on a state of given width and size, in the order of the
  checks;
* `State.apply_of_mismatch`, `State.apply_of_outOfRange`: one law per check, next to
  `State.apply_of_repeated?`;
* **`State.apply_outcome`**: a gate fails with its first fault and with no other, never leaves the
  amplitudes, and keeps the shape of the state when it has none.
-/

namespace Statevector

open State (Fault)

/-- The first fault of a gate on a state of `width` qubits with `size` amplitudes. A gate that lacks
an operand has none. -/
def Gate.fault? (g : Gate) (width size : Nat) : Option Fault :=
  if g.lacksOperand then none
  else match g.repeated? with
    | some q => some (.repeatedQubit g.kind q)
    | none =>
      if width < indexBits ∧ size = 2 ^ width then
        (g.qubits.find? fun q => width ≤ q.index.toNat).map fun q =>
          .qubitOutOfRange q width (some g.kind)
      else some (.sizeMismatch width size)

namespace Gate

variable {g : Gate} {width size : Nat}

theorem fault?_of_lacksOperand (h : g.lacksOperand = true) : g.fault? width size = none := if_pos h

/-- A fault of a gate is that of one of its checks. -/
theorem fault?_cases {fault : Fault} (h : g.fault? width size = some fault) :
    (∃ q, fault = .repeatedQubit g.kind q) ∨ fault = .sizeMismatch width size ∨
      ∃ q, fault = .qubitOutOfRange q width (some g.kind) := by
  unfold fault? at h
  split at h
  · cases h
  split at h
  · exact .inl ⟨_, (Option.some.inj h).symm⟩
  split at h
  · obtain ⟨q, -, hq⟩ := Option.map_eq_some_iff.mp h
    exact .inr (.inr ⟨q, hq.symm⟩)
  · exact .inr (.inl (Option.some.inj h).symm)

end Gate

namespace State

variable {α : Type} [Add α] [Sub α] [Mul α] [Neg α] [HalfRoot α] {s : State α} {g : Gate}

/-- The number of amplitudes is checked after the operands are compared. -/
theorem apply_of_mismatch (hop : g.lacksOperand = false) (hrep : g.repeated? = none)
    (h : ¬ (s.width < indexBits ∧ s.amplitudes.size = 2 ^ s.width)) :
    s.apply g = .error (.sizeMismatch s.width s.amplitudes.size) := by
  match g with
  | .one k q => exact apply_one_eq_error (Kernel.operandMask_of_mismatch h _ q)
  | .two k a (some b) =>
    apply apply_two_eq_error
    rw [Kernel.operandMasks, if_neg (Gate.repeated?_two_eq_none_iff.mp hrep),
      Kernel.operandMask_of_mismatch h]
    rfl

/-- The operands are compared with the width last, in their order. -/
theorem apply_of_outOfRange (hop : g.lacksOperand = false) (hrep : g.repeated? = none)
    (hw : s.width < indexBits) (hsize : s.amplitudes.size = 2 ^ s.width) {q : Qubit}
    (h : (g.qubits.find? fun q => s.width ≤ q.index.toNat) = some q) :
    s.apply g = .error (.qubitOutOfRange q s.width (some g.kind)) := by
  have herror {r : Qubit} (kind : GateKind) (hr : s.width ≤ r.index.toNat) :
      Kernel.operandMask s.amplitudes.size s.width kind r =
        .error (.qubitOutOfRange r s.width (some kind)) := by
    rw [hsize]
    exact Kernel.operandMask_eq_error hw kind hr
  have hq : s.width ≤ q.index.toNat := by simpa using List.find?_some h
  match g with
  | .one k r =>
    obtain rfl : q = r := by simpa [Gate.qubits] using List.mem_of_find?_eq_some h
    exact apply_one_eq_error (herror (.one k) hq)
  | .two k a (some b) =>
    apply apply_two_eq_error
    rw [Kernel.operandMasks, if_neg (Gate.repeated?_two_eq_none_iff.mp hrep)]
    rcases Nat.lt_or_ge a.index.toNat s.width with ha | ha
    · have hmask : Kernel.operandMask s.amplitudes.size s.width (.two k) a =
          .ok (2 ^ a.index.toNat) := Kernel.operandMask_eq_ok_iff.mpr ⟨hw, hsize, ha, rfl⟩
      obtain rfl : q = b := by
        rw [Gate.qubits, List.find?_cons_of_neg (by simpa using ha)] at h
        simpa using List.mem_of_find?_eq_some h
      rw [hmask, herror (.two k) hq]
      rfl
    · obtain rfl : a = q := by
        rw [Gate.qubits, List.find?_cons_of_pos (by simpa using ha)] at h
        exact Option.some.inj h
      rw [herror (.two k) ha]
      rfl

/-- A gate with a fault fails with it. -/
theorem apply_of_fault? {e : Fault} (h : g.fault? s.width s.amplitudes.size = some e) :
    s.apply g = .error e := by
  cases hop : g.lacksOperand with
  | true =>
    rw [Gate.fault?_of_lacksOperand hop] at h
    cases h
  | false =>
    rw [Gate.fault?, hop, if_neg Bool.false_ne_true] at h
    split at h
    · next hrep =>
      cases h
      exact apply_of_repeated? s hrep
    · next hrep =>
      split at h
      · next hsize =>
        obtain ⟨q, hq, rfl⟩ := Option.map_eq_some_iff.mp h
        exact apply_of_outOfRange hop hrep hsize.1 hsize.2 hq
      · next hsize =>
        cases h
        exact apply_of_mismatch hop hrep hsize

/-- A gate without a fault keeps the shape of the state. -/
theorem exists_apply_of_fault? (h : g.fault? s.width s.amplitudes.size = none) :
    ∃ t, s.apply g = .ok t ∧ t.width = s.width ∧ t.amplitudes.size = s.amplitudes.size := by
  cases hop : g.lacksOperand with
  | true => exact ⟨s, apply_of_lacksOperand s hop, rfl, rfl⟩
  | false =>
    rw [Gate.fault?, hop, if_neg Bool.false_ne_true] at h
    split at h
    · cases h
    · next hrep =>
      split at h
      · next hsize =>
        have hfits : g.Fits s.width := by
          refine ⟨fun q hq => ?_, hrep⟩
          simpa using List.find?_eq_none.mp (Option.map_eq_none_iff.mp h) q hq
        have hfull : s.IsFull := ⟨hsize.1, by rw [hsize.2, dimension_eq]⟩
        obtain ⟨f, hf⟩ := hfull.exists_ofFn
        refine ⟨ofFn s.width (g.act f), ?_, rfl, by rw [size_ofFn, hsize.2]⟩
        rw [← apply_ofFn hsize.1 f hfits, ← hf]
      · cases h

/-- **What becomes of a gate, on a state of any width with any number of amplitudes.** A gate that
lacks an operand changes nothing. Any other gate fails with its first fault: a qubit that is named
twice, then a number of amplitudes that is not two to the width, then the first operand that the
state does not have. Without a fault it leads to a state of the same shape. No amplitude is read or
written beyond the last, no shift overflows, and every mask is a one shifted by less than the bits
of a word, with which no index leaves the amplitudes. -/
theorem apply_outcome (s : State α) (g : Gate) :
    (g.lacksOperand = true → s.apply g = .ok s) ∧
    (∀ e, s.apply g = .error e ↔ g.fault? s.width s.amplitudes.size = some e) ∧
    (g.fault? s.width s.amplitudes.size = none →
      ∃ t, s.apply g = .ok t ∧ t.width = s.width ∧ t.amplitudes.size = s.amplitudes.size) ∧
    (∀ i m, s.apply g ≠ .error (.noAmplitude i m)) ∧
    (∀ q, s.apply g ≠ .error (.shiftOverflow q)) ∧
    ∀ kind q mask, Kernel.operandMask s.amplitudes.size s.width kind q = .ok mask →
      q.index.toNat < indexBits ∧ mask = 1 <<< q.index.toNat ∧
        ∀ i < s.amplitudes.size, i ||| mask < s.amplitudes.size ∧ i ^^^ mask < s.amplitudes.size := by
  have herror (e : Fault) :
      s.apply g = .error e ↔ g.fault? s.width s.amplitudes.size = some e := by
    refine ⟨fun h => ?_, apply_of_fault?⟩
    cases hfault : g.fault? s.width s.amplitudes.size with
    | none =>
      obtain ⟨t, ht, -⟩ := exists_apply_of_fault? hfault
      rw [ht] at h
      cases h
    | some e' =>
      rw [apply_of_fault? hfault] at h
      cases h
      rfl
  refine ⟨apply_of_lacksOperand s, herror, exists_apply_of_fault?, ?_, ?_, ?_⟩
  · intro i m h
    obtain ⟨q, ⟨⟩⟩ | ⟨⟨⟩⟩ | ⟨q, ⟨⟩⟩ := Gate.fault?_cases ((herror _).mp h)
  · intro q h
    obtain ⟨q, ⟨⟩⟩ | ⟨⟨⟩⟩ | ⟨q, ⟨⟩⟩ := Gate.fault?_cases ((herror _).mp h)
  · intro kind q mask h
    obtain ⟨hw, hsize, hq, rfl⟩ := Kernel.operandMask_eq_ok_iff.mp h
    refine ⟨by omega, (Nat.one_shiftLeft _).symm, fun i hi => ?_⟩
    have hmask : 2 ^ q.index.toNat < 2 ^ s.width := Nat.pow_lt_pow_right (by decide) hq
    rw [hsize] at hi ⊢
    exact ⟨Nat.or_lt_two_pow hi hmask, Nat.xor_lt_two_pow hi hmask⟩

/-- Three amplitudes for two qubits, two for the widest state, and two for one qubit: every check in
its turn. -/
theorem apply_outcome_three_states :
    (⟨2, #[⟨1, 0⟩, ⟨0, 0⟩, ⟨0, 0⟩]⟩ : State Float).apply (.two .cnot ⟨9⟩ none) =
      .ok ⟨2, #[⟨1, 0⟩, ⟨0, 0⟩, ⟨0, 0⟩]⟩ ∧
    (⟨2, #[⟨1, 0⟩, ⟨0, 0⟩, ⟨0, 0⟩]⟩ : State Float).apply (.two .swap ⟨5⟩ (some ⟨5⟩)) =
      .error (.repeatedQubit (.two .swap) ⟨5⟩) ∧
    (⟨2, #[⟨1, 0⟩, ⟨0, 0⟩, ⟨0, 0⟩]⟩ : State Float).apply (.one .h ⟨7⟩) = .error (.sizeMismatch 2 3) ∧
    (⟨2 ^ 64 - 1, #[⟨1, 0⟩, ⟨0, 0⟩]⟩ : State Float).apply (.one .z ⟨0⟩) =
      .error (.sizeMismatch (2 ^ 64 - 1) 2) ∧
    (⟨1, #[⟨1, 0⟩, ⟨0, 0⟩]⟩ : State Float).apply (.two .cnot ⟨0⟩ (some ⟨3⟩)) =
      .error (.qubitOutOfRange ⟨3⟩ 1 (some (.two .cnot))) ∧
    (∃ t, (⟨1, #[⟨1, 0⟩, ⟨0, 0⟩]⟩ : State Float).apply (.one .y ⟨0⟩) = .ok t ∧ t.width = 1 ∧
      t.amplitudes.size = 2) :=
  ⟨(apply_outcome _ _).1 rfl, ((apply_outcome _ _).2.1 _).mpr rfl,
    ((apply_outcome _ _).2.1 _).mpr rfl, ((apply_outcome _ _).2.1 _).mpr rfl,
    ((apply_outcome _ _).2.1 _).mpr rfl, (apply_outcome _ _).2.2.1 rfl⟩

end State

end Statevector
