import Statevector.Proofs.Run.History

/-!
# The size of the states of runs

* `Executor.IsBounded`: what it means that the runs of an executor make no large states;
* `Executor.size_le_of_trail`: the states of a run have as many amplitudes as its circuit asks for;
* **`Executor.isBounded`**: the width limit of an executor bounds them.
-/

namespace Statevector

namespace Executor

/-- No state that a run of an executor leads through has more amplitudes than a bound: none after
any number of gates, none that is observed, and none that is recorded. A circuit that is wider than
the limit has no state to start in, and its run fails with nothing observed. -/
structure IsBounded (e : Executor) (bound : Nat) : Prop where
  reached (c : Circuit) (s t : State Float) (k : Nat) : e.prepare c = .ok s →
    (c.gateList.take k).foldlM State.apply s = .ok t → t.amplitudes.size ≤ bound
  observed (pace : Pace) (c : Circuit) (watch : Observer Float) :
    ∀ x ∈ (e.run pace c watch).1.observed, x.1.amplitudes.size ≤ bound
  recorded (pace : Pace) (c : Circuit) (watch : Observer Float) (history : History Float) :
    (e.run pace c watch).1.outcome = .ok history → history.final.amplitudes.size ≤ bound ∧
      ∀ k t, history.stateAt? k = some t → t.amplitudes.size ≤ bound
  refused (pace : Pace) (c : Circuit) (watch : Observer Float) : e.limit < c.width →
    (∀ s : State Float, e.prepare c ≠ .ok s) ∧ (e.run pace c watch).1.observed = #[] ∧
      ∃ fault, (e.run pace c watch).1.outcome = .error fault

variable {e : Executor} {c : Circuit} {s t : State Float}

theorem size_le_of_isFull (hs : e.prepare c = .ok s) (ht : t.IsFull) (hwidth : t.width = s.width) :
    t.amplitudes.size ≤ 2 ^ e.limit.toNat := by
  obtain ⟨-, hlimit, -⟩ := prepare_eq_ok_iff.mp hs
  rw [ht.size_eq, hwidth, (isFull_of_prepare hs).2]
  exact Nat.pow_le_pow_right (by decide) (UInt32.le_iff_toNat_le.mp hlimit)

theorem size_le_of_trail {ts : List (State Float)} (hs : e.prepare c = .ok s)
    (h : State.Trail s c.gateList ts) (ht : t ∈ s :: ts) :
    t.amplitudes.size ≤ 2 ^ e.limit.toNat := by
  obtain ⟨hfull, hwidth⟩ := h.isFull (isFull_of_prepare hs).1 ht
  exact size_le_of_isFull hs hfull hwidth

theorem run_of_error {pace : Pace} {watch : Observer Float} {fault : Run.Fault}
    (h : (e.prepare c : Except Run.Fault (State Float)) = .error fault) :
    (e.run pace c watch).1.observed = #[] ∧ (e.run pace c watch).1.outcome = .error fault := by
  rw [run, h]
  exact ⟨rfl, rfl⟩

/-- **No state of a run is larger than the width limit of the executor allows.** -/
theorem isBounded (e : Executor) : e.IsBounded (2 ^ e.limit.toNat) where
  reached c s t k hs ht := by
    obtain ⟨hfull, hwidth⟩ := (isFull_of_prepare hs).1.of_foldlM ht
    exact size_le_of_isFull hs hfull hwidth
  observed pace c watch := by
    intro x hx
    cases hs : (e.prepare c : Except Run.Fault (State Float)) with
    | error fault =>
      rw [(run_of_error hs).1] at hx
      exact absurd hx (Array.not_mem_empty x)
    | ok s =>
      obtain ⟨ts, ht⟩ := exists_trail hs
      obtain ⟨k, -, -, hobserved, -⟩ := run_of_trail hs ht pace watch
      rw [hobserved, List.mem_toArray] at hx
      have hmem : x.1 ∈ ts := List.mem_of_mem_take (List.fst_mem_of_mem_zipIdx hx)
      exact size_le_of_trail hs ht (List.mem_cons_of_mem _ hmem)
  recorded pace c watch history h := by
    obtain ⟨s, ts, hs, ht, rfl, -⟩ := exists_ofTrail h
    have hfinal := History.final_ofTrail_take s (Nat.le_refl ts.length)
    rw [List.take_length] at hfinal
    refine ⟨size_le_of_trail hs ht (List.mem_of_getElem? hfinal), fun k t hk => ?_⟩
    rw [History.stateAt?_ofTrail] at hk
    exact size_le_of_trail hs ht (List.mem_of_getElem? hk)
  refused pace c watch h := by
    have hnone (s : State Float) : e.prepare c ≠ .ok s := fun hs =>
      UInt32.not_le.mpr h (prepare_eq_ok_iff.mp hs).2.1
    cases hs : (e.prepare c : Except Run.Fault (State Float)) with
    | error fault => exact ⟨nofun, (run_of_error hs).1, fault, (run_of_error hs).2⟩
    | ok s => exact absurd hs (hnone s)

end Executor

end Statevector
