import Statevector.Proofs.Run.History
import Statevector.Proofs.State.Reversal
import Statevector.Proofs.State.Weight

/-!
# Weights along runs

* `Executor.weight_of_trail`: the weights of the states of a run;
* **`Executor.outcome_weight`**: in exact arithmetic gates keep norms, and no gate can be noticed at
  a qubit that it does not name.
-/

namespace Statevector

namespace Executor

variable {α : Type} [CommRing α] [HalfRoot α] {e : Executor} {c : Circuit}

/-- After the first `k` gates of a circuit the norm is one, and the qubits that they do not name
read zero. -/
theorem weight_of_trail (hroot : 2 * halfRoot * halfRoot = (1 : α)) {s t : State α}
    {ts : List (State α)} (hs : e.prepare c = .ok s) (ht : State.Trail s c.gateList ts) {k : Nat}
    (hk : (s :: ts)[k]? = some t) : t.norm = 1 ∧ ∀ r : Qubit, r.index < c.width →
      (∀ g ∈ c.gateList.take k, r ∉ g.qubits) → t.marginal r = .ok 0 := by
  obtain ⟨hfull, -⟩ := isFull_of_prepare hs
  have hfit : ∀ g ∈ c.gateList.take k, g.Fits s.width :=
    fun g hg => fits_of_prepare hs g (List.mem_of_mem_take hg)
  obtain ⟨hnorm, hmarginal⟩ := hfull.foldlM_weight hroot hfit (ht.foldlM_take hk)
  obtain ⟨-, hw, rfl⟩ := prepare_eq_ok_iff.mp hs
  refine ⟨hnorm.trans (State.norm_ground _), fun r hr hunnamed => ?_⟩
  rw [hmarginal r hunnamed]
  exact State.marginal_ground (toNat_width_lt hw) (UInt32.lt_iff_toNat_lt.mp hr)

/-- **Gates keep norms, and do not signal.** In exact arithmetic, with a number for the root of one
half whose square is one half, a gate keeps the norm of a state and the marginal of every qubit that
it does not name. So all states of a run have norm one, and after its first gates every qubit that
they do not name still reads zero. -/
theorem outcome_weight (hroot : 2 * halfRoot * halfRoot = (1 : α)) :
    (∀ (s : State α) (g : Gate), s.IsFull → g.lacksOperand = true ∨ g.Fits s.width →
      ∃ t, s.apply g = .ok t ∧ t.norm = s.norm ∧
        ∀ r, r ∉ g.qubits → t.marginal r = s.marginal r) ∧
    (∀ (e : Executor) (c : Circuit) (pace : Pace) (watch : Observer α) (history : History α),
      (e.run pace c watch).1.outcome = .ok history →
      ∀ k ≤ c.gates.size, ∃ t, history.stateAt? k = some t ∧ t.norm = 1 ∧
        ∀ r : Qubit, r.index < c.width → (∀ g ∈ c.gateList.take k, r ∉ g.qubits) →
          t.marginal r = .ok 0) := by
  refine ⟨?gate, ?run⟩
  case gate =>
    rintro s g hs (hop | hg)
    · exact ⟨s, State.apply_of_lacksOperand s hop, rfl, fun _ _ => rfl⟩
    · obtain ⟨t, ht⟩ := hs.exists_apply hg
      exact ⟨t, ht, hs.apply_weight hroot hg ht⟩
  case run =>
    intro e c pace watch history h k hk
    obtain ⟨s, ts, hs, ht, rfl, -⟩ := exists_ofTrail h
    have hlt : k < (s :: ts).length := by
      rw [List.length_cons, ht.length_eq, c.length_gateList]
      omega
    refine ⟨(s :: ts)[k], ?_, weight_of_trail hroot hs ht (List.getElem?_eq_getElem hlt)⟩
    rw [History.stateAt?_ofTrail, List.getElem?_eq_getElem hlt]

/-- Numbers modulo seven, in which four is one half and two its root: a Hadamard gate on the higher
of two qubits, and a run whose first two gates do not name qubit 1. -/
theorem outcome_weight_mod_seven :
    (2 * halfRoot * halfRoot : ZMod 7) = 1 ∧
    (∃ t, (⟨2, #[⟨1, 2⟩, ⟨3, 4⟩, ⟨5, 6⟩, ⟨0, 1⟩]⟩ : State (ZMod 7)).apply (.one .h ⟨1⟩) = .ok t ∧
      t.norm = 1 ∧ t.marginal ⟨0⟩ = .ok 5) ∧
    ∃ history : History (ZMod 7), (({ settings := .immediate } : Executor).run .paced
      (.ofGates 3 [.one .h ⟨0⟩, .two .cnot ⟨0⟩ (some ⟨2⟩), .one .y ⟨1⟩])
      (.cancelAt none)).1.outcome = .ok history ∧
      ∃ t, history.stateAt? 2 = some t ∧ t.norm = 1 ∧ t.marginal ⟨1⟩ = .ok 0 := by
  have hroot : (2 * halfRoot * halfRoot : ZMod 7) = 1 := by decide
  obtain ⟨u, hu, hnorm, hmarginal⟩ := (outcome_weight hroot).1
    ⟨2, #[⟨1, 2⟩, ⟨3, 4⟩, ⟨5, 6⟩, ⟨0, 1⟩]⟩ (.one .h ⟨1⟩) (by decide) (.inr (by decide))
  have hrun : ∃ history : History (ZMod 7), (({ settings := .immediate } : Executor).run .paced
      (.ofGates 3 [.one .h ⟨0⟩, .two .cnot ⟨0⟩ (some ⟨2⟩), .one .y ⟨1⟩])
      (.cancelAt none)).1.outcome = .ok history := ⟨_, rfl⟩
  obtain ⟨history, h⟩ := hrun
  obtain ⟨t, ht, hone, hzero⟩ := (outcome_weight hroot).2 _ _ _ _ _ h 2 (by decide)
  exact ⟨hroot, ⟨u, hu, hnorm.trans (by decide), (hmarginal ⟨0⟩ (by decide)).trans (by decide)⟩,
    history, h, t, ht, hone, hzero ⟨1⟩ (by decide) (by decide)⟩

end Executor

end Statevector
