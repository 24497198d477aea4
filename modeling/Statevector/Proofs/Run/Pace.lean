import Statevector.Proofs.Run.History

/-!
# Runs at different paces

* `Progress.pauses_runPaced`: a paced run pauses before every gate that it reaches but the first;
* `Executor.runGates_paced`: but for the pauses, the gates are applied alike at both paces;
  `Executor.pauses_blocking`, **`Executor.pauses_paced`**: the pauses of a run, by the number of
  states that its observer sees;
* **`Executor.run_paced`**: a paced run is a blocking one with pauses in between.
-/

namespace Statevector

variable {α : Type}

namespace Progress

variable [Add α] [Sub α] [Mul α] [Neg α] [HalfRoot α] (watch : Observer α)

/-! ## Pauses -/

/-- From a later gate on, a run pauses before every gate that it reaches: those whose states are
observed, and one more if there is one. -/
theorem pauses_runPaced_of_pos {delay step : Nat} (hdelay : delay ≠ 0) (hstep : 0 < step)
    (p : Progress α) (gs : List Gate) : ∃ done,
      (p.runPaced watch delay step gs).1.observed.size = p.observed.size + done ∧
      (p.runPaced watch delay step gs).1.pauses =
        p.pauses ++ Array.replicate (min (done + 1) gs.length) delay := by
  induction gs generalizing p step with
  | nil => exact ⟨0, by simp [runPaced]⟩
  | cons g gs ih =>
    rw [runPaced, if_pos ⟨hstep, hdelay⟩]
    cases hadvance : (p.pause delay).advance watch step g with
    | error e =>
      -- The flag is looked at after the pause, so the run has paused once more than it took in.
      exact ⟨0, by simp [pause]⟩
    | ok p' =>
      obtain ⟨-, t, -, rfl⟩ := exists_of_advance watch hadvance
      obtain ⟨done, hobserved, hpauses⟩ :=
        ih (Nat.succ_pos step) ((p.pause delay).record watch step t)
      refine ⟨done + 1, ?_, ?_⟩
      · rw [hobserved]
        simp [record, pause]
        omega
      · rw [hpauses]
        simp [record, pause, Array.replicate_succ']

/-- A run from the first gate on does not pause before it. -/
theorem pauses_runPaced {delay : Nat} (hdelay : delay ≠ 0) {p : Progress α}
    (hobserved : p.observed = #[]) (hpauses : p.pauses = #[]) (gs : List Gate) :
    (p.runPaced watch delay 0 gs).1.pauses = Array.replicate
      (min (p.runPaced watch delay 0 gs).1.observed.size (gs.length - 1)) delay := by
  cases gs with
  | nil => simp [runPaced, hpauses]
  | cons g gs =>
    rw [runPaced, if_neg fun h => Nat.lt_irrefl 0 h.1]
    cases hadvance : p.advance watch 0 g with
    | error e => simp [hobserved, hpauses]
    | ok p' =>
      obtain ⟨-, t, -, rfl⟩ := exists_of_advance watch hadvance
      obtain ⟨done, hobserved', hpauses'⟩ :=
        pauses_runPaced_of_pos watch hdelay Nat.one_pos (p.record watch 0 t) gs
      have hsize : (p.record watch 0 t).observed.size = 1 := by simp [record, hobserved]
      have hnone : (p.record watch 0 t).pauses = #[] := hpauses
      rw [hpauses', hobserved', hsize, hnone, Nat.add_comm 1 done, List.length_cons,
        Nat.add_sub_cancel, Array.empty_append]

theorem runPaced_zero (p : Progress α) (step : Nat) (gs : List Gate) :
    p.runPaced watch 0 step gs = p.runBlocking watch step gs := by
  induction gs generalizing p step with
  | nil => rfl
  | cons g gs ih =>
    rw [runPaced, runBlocking, if_neg fun h => h.2 rfl]
    cases p.advance watch step g with
    | error e => rfl
    | ok p' => exact ih p' (step + 1)

theorem pauses_runBlocking (p : Progress α) (step : Nat) (gs : List Gate) :
    (p.runBlocking watch step gs).1.pauses = p.pauses :=
  runBlocking_induction watch (P := fun p' => p'.pauses = p.pauses) (fun _ _ _ h => h) rfl step gs

end Progress

namespace Executor

variable [Zero α] [One α] [Add α] [Sub α] [Mul α] [Neg α] [HalfRoot α]
variable (e : Executor) (c : Circuit) (watch : Observer α)

/-! ## Both paces -/

omit [Zero α] [One α] in
theorem runGates_paced (s : State α) :
    (e.runGates .paced c watch s).1.unpaced = (e.runGates .blocking c watch s).1 ∧
      (e.runGates .paced c watch s).2 = (e.runGates .blocking c watch s).2 :=
  Progress.runPaced_unpaced watch e.settings.stepDelay.toNat
    { current := s, cancelled := e.cancelled } 0 c.gateList

theorem run_paced_eq : e.run .paced c watch =
    ({ (e.run .blocking c watch).1 with pauses := (e.run .paced c watch).1.pauses },
      (e.run .blocking c watch).2) := by
  cases hs : (e.prepare c : Except Run.Fault (State α)) with
  | error fault => simp only [run, hs]
  | ok s =>
    obtain ⟨hprogress, hfault⟩ := runGates_paced e c watch s
    have hcurrent := congrArg Progress.current hprogress
    have hstates := congrArg Progress.states hprogress
    have hobserved := congrArg Progress.observed hprogress
    have hcancelled := congrArg Progress.cancelled hprogress
    simp only [Progress.unpaced] at hcurrent hstates hobserved hcancelled
    simp only [run, hs, hfault, hcurrent, hstates, hobserved, hcancelled]

theorem pauses_blocking : (e.run .blocking c watch).1.pauses = #[] := by
  cases hs : (e.prepare c : Except Run.Fault (State α)) with
  | error fault => simp only [run, hs]
  | ok s =>
    simp only [run, hs]
    exact Progress.pauses_runBlocking watch _ 0 c.gateList

/-- **A paced run pauses before every gate that it reaches but the first.** It reaches the gates
whose states its observer sees, and one more if there is one. -/
theorem pauses_paced : (e.run .paced c watch).1.pauses = Array.replicate
    (if e.settings.stepDelay = 0 then 0
      else min (e.run .paced c watch).1.observed.size (c.gates.size - 1))
    e.settings.stepDelay.toNat := by
  cases hs : (e.prepare c : Except Run.Fault (State α)) with
  | error fault => simp [run, hs]
  | ok s =>
    simp only [run, hs, runGates]
    by_cases hdelay : e.settings.stepDelay = 0
    · have hzero : e.settings.stepDelay.toNat = 0 := congrArg UInt64.toNat hdelay
      rw [hzero, Progress.runPaced_zero, Progress.pauses_runBlocking, if_pos hdelay]
      rfl
    · have hpos : e.settings.stepDelay.toNat ≠ 0 := fun h => hdelay (UInt64.toNat_inj.mp h)
      rw [Progress.pauses_runPaced watch hpos rfl rfl, if_neg hdelay, c.length_gateList]

variable {e c watch} {pace : Pace}

/-! ## The number of states seen -/

theorem size_observed_of_ok {history : History α}
    (h : (e.run pace c watch).1.outcome = .ok history) :
    (e.run pace c watch).1.observed.size = c.gates.size := by
  obtain ⟨s, ts, -, ht, -, hobserved, -⟩ := exists_ofTrail h
  rw [hobserved, ← c.length_gateList, ← ht.length_eq]
  simp

theorem size_observed_of_cancelled {k : Nat}
    (h : (e.run pace c watch).1.outcome = .error (.cancelled k)) :
    k < c.gates.size ∧ (e.run pace c watch).1.observed.size = k := by
  obtain ⟨f, hf⟩ | ⟨f, hf⟩ | ⟨k', hlt, hk, hsize⟩ := error_cases h
  · cases hf
  · cases hf
  · cases hk
    exact ⟨hlt, hsize⟩

/-- **A paced run is a blocking one with pauses in between.** They end alike, their observers see
the same, and they leave the same flag. There is no pause without a delay, nor before the first
gate, and otherwise one before every gate that is reached, also before the one at which the run
finds its flag set. -/
theorem run_paced (e : Executor) (c : Circuit) (watch : Observer α) :
    (e.run .paced c watch).1.outcome = (e.run .blocking c watch).1.outcome ∧
    (e.run .paced c watch).1.observed = (e.run .blocking c watch).1.observed ∧
    (e.run .paced c watch).2 = (e.run .blocking c watch).2 ∧
    (e.run .blocking c watch).1.pauses = #[] ∧
    ∃ n, (e.run .paced c watch).1.pauses = Array.replicate n e.settings.stepDelay.toNat ∧
      (e.settings.stepDelay = 0 → n = 0) ∧
      (c.gates.size = 0 → n = 0) ∧
      (∀ fault, (e.prepare c : Except Run.Fault (State α)) = .error fault → n = 0) ∧
      (e.settings.stepDelay ≠ 0 →
        n = min (e.run .paced c watch).1.observed.size (c.gates.size - 1) ∧
        (∀ history, (e.run .paced c watch).1.outcome = .ok history → n = c.gates.size - 1) ∧
        (∀ k, (e.run .paced c watch).1.outcome = .error (.cancelled k) → n = k)) := by
  refine ⟨by rw [run_paced_eq], by rw [run_paced_eq], by rw [run_paced_eq],
    pauses_blocking e c watch, _, pauses_paced e c watch, fun hdelay => if_pos hdelay, ?none,
    ?unprepared, ?some⟩
  case none =>
    intro hnone
    rw [hnone]
    split
    · rfl
    · exact Nat.min_zero _
  case unprepared =>
    intro fault hs
    have hobserved : (e.run .paced c watch).1.observed = #[] := by rw [run, hs]
    rw [hobserved]
    split
    · rfl
    · exact Nat.zero_min _
  case some =>
    intro hdelay
    rw [if_neg hdelay]
    refine ⟨rfl, fun history h => ?_, fun k h => ?_⟩
    · rw [size_observed_of_ok h]
      omega
    · obtain ⟨hlt, hsize⟩ := size_observed_of_cancelled h
      rw [hsize]
      omega

/-- A run of three gates pauses twice; one that is cancelled after the first gate pauses once; one
of a gate that does not fit does not pause. -/
theorem run_paced_three_gates :
    (({ settings := { stepDelay := 5 } } : Executor).run .paced
      (.ofGates 1 [.one .x ⟨0⟩, .one .x ⟨0⟩, .one .x ⟨0⟩])
      (.cancelAt none : Observer Float)).1.pauses = #[5, 5] ∧
    (({ settings := { stepDelay := 5 } } : Executor).run .paced
      (.ofGates 1 [.one .x ⟨0⟩, .one .x ⟨0⟩, .one .x ⟨0⟩])
      (.cancelAt (some 0) : Observer Float)).1.pauses = #[5] ∧
    (({ settings := { stepDelay := 5 } } : Executor).run .paced (.ofGates 1 [.one .x ⟨1⟩])
      (.cancelAt none : Observer Float)).1.pauses = #[] := by
  refine ⟨?_, ?_, ?_⟩
  · obtain ⟨-, -, -, -, n, hpauses, -, -, -, hdelay⟩ := run_paced { settings := { stepDelay := 5 } }
      (.ofGates 1 [.one .x ⟨0⟩, .one .x ⟨0⟩, .one .x ⟨0⟩]) (.cancelAt none : Observer Float)
    rw [hpauses, (hdelay (by decide)).2.1 _ rfl]
    rfl
  · obtain ⟨-, -, -, -, n, hpauses, -, -, -, hdelay⟩ := run_paced { settings := { stepDelay := 5 } }
      (.ofGates 1 [.one .x ⟨0⟩, .one .x ⟨0⟩, .one .x ⟨0⟩]) (.cancelAt (some 0) : Observer Float)
    rw [hpauses, (hdelay (by decide)).2.2 1 rfl]
    rfl
  · obtain ⟨-, -, -, -, n, hpauses, -, -, hfault, -⟩ := run_paced { settings := { stepDelay := 5 } }
      (.ofGates 1 [.one .x ⟨1⟩]) (.cancelAt none : Observer Float)
    rw [hpauses, hfault _ rfl]
    rfl

end Executor

end Statevector
