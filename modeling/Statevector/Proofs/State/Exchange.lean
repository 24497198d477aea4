import Mathlib.Data.List.Lattice
import Statevector.Proofs.State.Classical
import Statevector.Proofs.State.OneQubit
import Statevector.Proofs.State.Trail

/-!
# Gates without a common qubit

* `Gate.testBit_bitMap_of_not_mem`, `Gate.bitMap_flipBit`: a gate that only moves amplitudes does not
  see other qubits than its own;
* `Gate.act_comm_of_isClassical`, `Gate.act_comm_of_interchange`: gates without a common qubit may
  change places if one of them only moves amplitudes, or if both are maps of pairs that interchange;
* **`Gate.act_comm_of_neg_neg`**, **`Gate.act_comm`**: those that do so in any arithmetic, and in an
  exact one;
* **`State.Trail.exchange`**: only the state between two such gates depends on their order.
-/

namespace Statevector

variable {α : Type}

namespace Gate

/-! ## Other qubits -/

theorem testBit_bitMap_of_not_mem {g : Gate} {q : Qubit} (hq : q ∉ g.qubits) (i : Nat) :
    (g.bitMap i).testBit q.index.toNat = i.testBit q.index.toNat := by
  match g with
  | one .x p => exact testBit_flipBit_of_ne (index_ne (Ne.symm (List.ne_of_not_mem_cons hq))) i
  | one .h _ | one .y _ | one .z _ | two .cnot _ none | two .swap _ none => rfl
  | two .cnot a (some b) =>
    obtain ⟨-, hb⟩ : q ≠ a ∧ q ≠ b := by simpa [qubits] using hq
    rw [bitMap]
    split
    · exact testBit_flipBit_of_ne (index_ne hb.symm) i
    · rfl
  | two .swap a (some b) =>
    obtain ⟨ha, hb⟩ : q ≠ a ∧ q ≠ b := by simpa [qubits] using hq
    rw [bitMap, testBit_writeBit, if_neg (index_ne hb.symm), testBit_writeBit,
      if_neg (index_ne ha.symm)]

theorem bitMap_flipBit {g : Gate} {q : Qubit} (hq : q ∉ g.qubits) (i : Nat) :
    g.bitMap (flipBit q.index.toNat i) = flipBit q.index.toNat (g.bitMap i) := by
  match g with
  | one .x p => exact flipBit_comm _ _ i
  | one .h _ | one .y _ | one .z _ | two .cnot _ none | two .swap _ none => rfl
  | two .cnot a (some b) =>
    obtain ⟨ha, -⟩ : q ≠ a ∧ q ≠ b := by simpa [qubits] using hq
    rw [bitMap, bitMap, testBit_flipBit_of_ne (index_ne ha)]
    split
    · exact flipBit_comm _ _ i
    · rfl
  | two .swap a (some b) =>
    obtain ⟨ha, hb⟩ : q ≠ a ∧ q ≠ b := by simpa [qubits] using hq
    rw [bitMap, bitMap, testBit_flipBit_of_ne (index_ne ha), testBit_flipBit_of_ne (index_ne hb),
      writeBit_flipBit_of_ne (index_ne ha.symm), writeBit_flipBit_of_ne (index_ne hb.symm)]

theorem isClassical_or_one (g : Gate) : g.IsClassical ∨ ∃ k q, g = one k q := by
  cases g with
  | one k q => exact .inr ⟨k, q, rfl⟩
  | two _ _ _ => exact .inl trivial

/-! ## Two gates -/

section

variable [Add α] [Sub α] [Mul α] [Neg α] [HalfRoot α] {g h : Gate}

/-- A gate that only moves amplitudes moves them for another gate as for none. -/
theorem act_comm_of_isClassical (hc : g.IsClassical) (hd : g.qubits.Disjoint h.qubits)
    (f : Nat → Amplitude α) : h.act (g.act f) = g.act (h.act f) := by
  have hmove (f : Nat → Amplitude α) : g.act f = f ∘ g.bitMap :=
    funext (act_eq_of_isClassical hc f)
  have hother (q : Qubit) (hq : q ∈ h.qubits) : q ∉ g.qubits := fun hg => hd hg hq
  have hact : (h.map id).act (f ∘ g.bitMap) = h.act f ∘ g.bitMap :=
    act_map (fun q hq i => (testBit_bitMap_of_not_mem (hother q hq) i).symm)
      (fun q hq i => bitMap_flipBit (hother q hq) i) f
  rw [hmove, hmove, ← hact, map_id]

/-- Gates without a common qubit may change places, if those on one qubit each interchange. -/
theorem act_comm_of_interchange (hd : g.qubits.Disjoint h.qubits)
    (hone : ∀ k q l r, g = one k q → h = one l r →
      Kernel.Interchange (l.onPair (α := α)) k.onPair) (f : Nat → Amplitude α) :
    h.act (g.act f) = g.act (h.act f) := by
  obtain hc | ⟨k, q, rfl⟩ := g.isClassical_or_one
  · exact act_comm_of_isClassical hc hd f
  obtain hc | ⟨l, r, rfl⟩ := h.isClassical_or_one
  · exact (act_comm_of_isClassical hc hd.symm f).symm
  have hqr : r ≠ q := fun e => hd List.mem_cons_self (e ▸ List.mem_cons_self)
  simp only [act_one]
  exact Kernel.onPairs_comm (hone k q l r rfl rfl) (index_ne hqr) f

/-- **Gates without a common qubit may change places if one of them only moves amplitudes, or if
neither is a Hadamard gate.** -/
theorem act_comm_of_neg_neg (hneg : ∀ x : α, - -x = x) (hd : g.qubits.Disjoint h.qubits)
    (hk : g.IsClassical ∨ h.IsClassical ∨ g.kind ≠ .one .h ∧ h.kind ≠ .one .h)
    (f : Nat → Amplitude α) : h.act (g.act f) = g.act (h.act f) := by
  obtain hc | hc | ⟨hg, hh⟩ := hk
  · exact act_comm_of_isClassical hc hd f
  · exact (act_comm_of_isClassical hc hd.symm f).symm
  · refine act_comm_of_interchange hd ?_ f
    rintro k q l r rfl rfl
    refine OneQubit.interchange_of_neg_neg hneg ?_ ?_
    · rintro rfl
      exact hh rfl
    · rintro rfl
      exact hg rfl

end

/-- **In exact arithmetic all gates without a common qubit may change places.** -/
theorem act_comm [CommRing α] [HalfRoot α] {g h : Gate} (hd : g.qubits.Disjoint h.qubits)
    (f : Nat → Amplitude α) : h.act (g.act f) = g.act (h.act f) :=
  act_comm_of_interchange hd (fun k _ l _ _ _ => OneQubit.interchange l k) f

end Gate

/-! ## States along a list of gates -/

namespace State

variable [Add α] [Sub α] [Mul α] [Neg α] [HalfRoot α]

/-- **Only the state between two gates that may change places depends on their order.** -/
theorem Trail.exchange {g h : Gate} (hcomm : ∀ f : Nat → Amplitude α,
    h.act (g.act f) = g.act (h.act f)) {pre post : List Gate} {s : State α} {ts : List (State α)}
    (hs : s.IsFull) (hg : g.Fits s.width) (hh : h.Fits s.width)
    (ht : Trail s (pre ++ g :: h :: post) ts) :
    ∃ u, Trail s (pre ++ h :: g :: post) (ts.set pre.length u) := by
  induction pre generalizing s ts with
  | nil =>
    obtain ⟨f, hf⟩ := hs.exists_ofFn
    cases ht with
    | cons hfirst ht =>
      cases ht with
      | cons hsecond ht =>
        rw [hf, apply_ofFn hs.1 f hg] at hfirst
        cases hfirst
        rw [apply_ofFn hs.1 _ hh, hcomm] at hsecond
        refine ⟨ofFn s.width (h.act f), .cons ?_ (.cons ?_ ht)⟩
        · rw [hf]
          exact apply_ofFn hs.1 f hh
        · rw [← hsecond]
          exact apply_ofFn hs.1 _ hg
  | cons g' pre ih =>
    cases ht with
    | cons hfirst ht =>
      obtain ⟨hfull, hwidth⟩ := hs.of_apply hfirst
      obtain ⟨u, hu⟩ := ih hfull (hwidth ▸ hg) (hwidth ▸ hh) ht
      exact ⟨u, .cons hfirst hu⟩

end State

end Statevector
