import Statevector.Proofs.Run.History
import Statevector.Proofs.State.Classical

/-!
# Runs of gates that move amplitudes

* `Gate.bitMaps`: the function of bits that a list of gates computes; `Gate.bijOn_bitMaps`: it is a
  bijection of the indices below the dimension;
* `State.IsFull.apply_bitMap`, **`State.IsFull.foldlM_bitMaps`**: one such gate, and a list of them,
  take every amplitude from its index to the image of the index; `State.foldlM_ground`: they take
  the state that reads zero to a basis state;
* **`Executor.outcome_bitMaps`**: a run of such gates ends in a basis state.
-/

namespace Statevector

variable {α : Type} {n : Nat}

/-! ## Lists of gates -/

namespace Gate

/-- Where gates that only move amplitudes take a basis index, one after the other. -/
def bitMaps (gs : List Gate) (i : Nat) : Nat := gs.foldl (fun i g => g.bitMap i) i

theorem bijOn_bitMaps {gs : List Gate} (h : ∀ g ∈ gs, g.Fits n) :
    Set.BijOn (bitMaps gs) (Set.Iio (2 ^ n)) (Set.Iio (2 ^ n)) := by
  induction gs with
  | nil => exact Set.bijOn_id _
  | cons g gs ih =>
    rw [List.forall_mem_cons] at h
    exact (ih h.2).comp (bijOn_bitMap h.1)

end Gate

namespace State

variable [Add α] [Sub α] [Mul α] [Neg α] [HalfRoot α]

theorem IsFull.apply_bitMap {s : State α} (hs : s.IsFull) {g : Gate} (hc : g.IsClassical)
    (hg : g.Fits s.width) : ∃ t, s.apply g = .ok t ∧ t.IsFull ∧ t.width = s.width ∧
      ∀ k < 2 ^ s.width, t.amplitudes[g.bitMap k]? = s.amplitudes[k]? := by
  obtain ⟨f, hf⟩ := hs.exists_ofFn
  refine ⟨ofFn s.width (g.act f), ?_, isFull_ofFn hs.1 _, rfl, ?_⟩
  · rw [hf]
    exact apply_ofFn hs.1 f hg
  · intro k hk
    have hbefore : s.amplitudes[k]? = some (f k) := by
      rw [hf]
      exact Kernel.getElem?_tabulate f hk
    have hafter : (ofFn s.width (g.act f)).amplitudes[g.bitMap k]? = some (g.act f (g.bitMap k)) :=
      Kernel.getElem?_tabulate _ (Gate.bitMap_lt hg hk)
    rw [hbefore, hafter, Gate.act_bitMap hc hg]

/-- **Gates that only move amplitudes take each from its index to the image of the index.** -/
theorem IsFull.foldlM_bitMaps {s t : State α} (hs : s.IsFull) {gs : List Gate}
    (hc : ∀ g ∈ gs, g.IsClassical) (hg : ∀ g ∈ gs, g.Fits s.width)
    (h : gs.foldlM apply s = .ok t) :
    ∀ k < 2 ^ s.width, t.amplitudes[Gate.bitMaps gs k]? = s.amplitudes[k]? := by
  induction gs generalizing s with
  | nil =>
    cases h
    exact fun k _ => rfl
  | cons g gs ih =>
    rw [List.forall_mem_cons] at hc hg
    obtain ⟨u, hu, hfull, hwidth, hmove⟩ := hs.apply_bitMap hc.1 hg.1
    rw [List.foldlM_cons, hu] at h
    intro k hk
    have hlt : g.bitMap k < 2 ^ u.width := by
      rw [hwidth]
      exact Gate.bitMap_lt hg.1 hk
    have hrest : ∀ g ∈ gs, g.Fits u.width := by
      rw [hwidth]
      exact hg.2
    calc t.amplitudes[Gate.bitMaps gs (g.bitMap k)]?
        = u.amplitudes[g.bitMap k]? := ih hfull hc.2 hrest h _ hlt
      _ = s.amplitudes[k]? := hmove k hk

/-- Gates that only move amplitudes take the state that reads zero to a basis state. -/
theorem foldlM_ground [Zero α] [One α] (hn : n < indexBits) {t : State α} {gs : List Gate}
    (hc : ∀ g ∈ gs, g.IsClassical) (hg : ∀ g ∈ gs, g.Fits n)
    (h : gs.foldlM apply (ground n) = .ok t) {k : Nat} (hk : k < 2 ^ n) :
    t.amplitudes[k]? = some (if k = Gate.bitMaps gs 0 then 1 else 0) := by
  have hbij := Gate.bijOn_bitMaps hg
  have hzero : 0 < 2 ^ n := Nat.two_pow_pos n
  -- Some index is taken to `k`; that it is zero shows in where zero is taken.
  obtain ⟨i, hi, rfl⟩ := hbij.surjOn hk
  have hmove := (isFull_ground hn).foldlM_bitMaps hc hg h i hi
  have hiff : i = 0 ↔ Gate.bitMaps gs i = Gate.bitMaps gs 0 := (hbij.injOn.eq_iff hi hzero).symm
  rw [hmove, getElem?_ground hi]
  simp only [hiff]

end State

/-! ## Runs -/

namespace Executor

variable [Zero α] [One α] [Add α] [Sub α] [Mul α] [Neg α] [HalfRoot α]

/-- **Pauli X, controlled-NOT and swap compute a function of bits.** Each of them permutes the basis
indices and takes every amplitude along, and a run of them ends in the basis state to which they
take zero. As binary64 numbers, the amplitudes of that state are one and plus zero. -/
theorem outcome_bitMaps :
    (∀ (s : State α) (g : Gate), s.IsFull → g.IsClassical → g.Fits s.width →
      Set.BijOn g.bitMap (Set.Iio (2 ^ s.width)) (Set.Iio (2 ^ s.width)) ∧
      ∃ t, s.apply g = .ok t ∧ t.width = s.width ∧ t.amplitudes.size = 2 ^ s.width ∧
        ∀ k < 2 ^ s.width, t.amplitudes[g.bitMap k]? = s.amplitudes[k]?) ∧
    (∀ (e : Executor) (c : Circuit) (pace : Pace) (watch : Observer α) (history : History α),
      (∀ g ∈ c.gateList, g.IsClassical) → (e.run pace c watch).1.outcome = .ok history →
      history.final.width = c.width.toNat ∧
      history.final.amplitudes.size = 2 ^ c.width.toNat ∧
      Gate.bitMaps c.gateList 0 < 2 ^ c.width.toNat ∧
      ∀ k < 2 ^ c.width.toNat, history.final.amplitudes[k]? =
        some (if k = Gate.bitMaps c.gateList 0 then 1 else 0)) ∧
    (1 : Amplitude Float) = ⟨1.0, 0.0⟩ ∧ (0 : Amplitude Float) = ⟨0.0, 0.0⟩ ∧
      (0.0 : Float).toBits = 0 := by
  refine ⟨?move, ?run, rfl, rfl, rfl⟩
  case move =>
    intro s g hs hc hg
    obtain ⟨t, happly, hfull, hwidth, hmove⟩ := hs.apply_bitMap hc hg
    refine ⟨Gate.bijOn_bitMap hg, t, happly, hwidth, ?_, hmove⟩
    rw [← hwidth]
    exact hfull.size_eq
  case run =>
    intro e c pace watch history hc h
    obtain ⟨s, ts, hs, ht, rfl, -⟩ := exists_ofTrail h
    obtain ⟨hfull, hwidth⟩ := isFull_of_prepare hs
    have hfit := fits_of_prepare hs
    have hfold : c.gateList.foldlM State.apply s = .ok (History.ofTrail s ts).final := ht.foldlM_eq
    obtain ⟨hfull', hwidth'⟩ := hfull.of_foldlM hfold
    obtain ⟨-, hw, rfl⟩ := prepare_eq_ok_iff.mp hs
    refine ⟨hwidth', ?_, (Gate.bijOn_bitMaps hfit).mapsTo (Nat.two_pow_pos _), ?_⟩
    · exact hfull'.size_eq.trans (by rw [hwidth', hwidth])
    · intro k hk
      exact State.foldlM_ground (toNat_width_lt hw) hc hfit hfold hk

/-- Pauli X sets qubit 0, a controlled-NOT copies it to qubit 2, and a swap takes it to qubit 1. -/
theorem outcome_bitMaps_three_qubits :
    ∃ history : History Float, (({ settings := .immediate } : Executor).run .blocking
      (.ofGates 3 [.one .x ⟨0⟩, .two .cnot ⟨0⟩ (some ⟨2⟩), .two .swap ⟨0⟩ (some ⟨1⟩)])
      (.cancelAt none)).1.outcome = .ok history ∧
      ∀ k < 8, history.final.amplitudes[k]? = some (if k = 6 then 1 else 0) := by
  have h : (({ settings := .immediate } : Executor).run .blocking
      (.ofGates 3 [.one .x ⟨0⟩, .two .cnot ⟨0⟩ (some ⟨2⟩), .two .swap ⟨0⟩ (some ⟨1⟩)])
      (.cancelAt none)).1.outcome = .ok (⟨⟨3, #[1, 0, 0, 0, 0, 0, 0, 0]⟩,
        #[⟨3, #[0, 1, 0, 0, 0, 0, 0, 0]⟩, ⟨3, #[0, 0, 0, 0, 0, 1, 0, 0]⟩,
          ⟨3, #[0, 0, 0, 0, 0, 0, 1, 0]⟩], ⟨3, #[0, 0, 0, 0, 0, 0, 1, 0]⟩⟩ : History Float) := rfl
  obtain ⟨-, -, -, hbasis⟩ := outcome_bitMaps.2.1 _ _ _ _ _ (by decide) h
  exact ⟨_, h, hbasis⟩

end Executor

end Statevector
