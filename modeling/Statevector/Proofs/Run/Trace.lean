import Statevector.Proofs.Run.Cancellation
import Statevector.Run.Trace

/-!
# Traces of uncancelled runs

* `Trace.move_eq`: all that a move of the cursor can do; `Trace.move_of_refused`: a move that does
  not take place; `Trace.current?_eq`, `Trace.gate?_eq`: what the cursor shows;
* `Executor.outcome_uncancelled`: the uncancelled run that has the history of a finished one;
  `Executor.outcome_bind_ofHistory`: a finished run gives a trace;
* `Trace.Records`: the traces that record an uncancelled run; `Trace.Records.move`: they are moved
  without harm; **`Trace.Records.current?_eq_some`**: they show the gates so far.
-/

namespace Statevector

variable {α : Type}

/-! ## The cursor -/

namespace Trace

/-- At the last step the cursor does not move forward. -/
theorem move_forward_of_last {t : Trace α} (h : t.cursor = t.last) :
    t.move .forward = (.stays, t) := by
  have hnone : t.forward? = none := if_pos (beq_iff_eq.mpr h)
  rw [move, hnone]

theorem move_back_of_start {t : Trace α} (h : t.cursor = 0) : t.move .back = (.stays, t) := by
  have hnone : t.back? = none := if_pos (beq_iff_eq.mpr h)
  rw [move, hnone]

theorem move_jump_of_lt {t : Trace α} {step : Nat} (h : t.last < step) :
    t.move (.jump step) = (.refused (.stepOutOfRange step t.last), t) := by
  have hrefused : t.jump step = .error (.stepOutOfRange step t.last) := if_pos h
  rw [move, hrefused]

/-- A move puts the cursor at some step of the run, and changes nothing else of a trace. -/
theorem move_eq {t : Trace α} (h : t.cursor ≤ t.last) (m : Move) :
    ∃ k ≤ t.last, (t.move m).2 = { t with cursor := k } := by
  cases m with
  | forward =>
    by_cases hend : t.cursor = t.last
    · exact ⟨t.cursor, h, by rw [move_forward_of_last hend]⟩
    · have hsome : t.forward? = some { t with cursor := t.cursor + 1 } :=
        if_neg (mt beq_iff_eq.mp hend)
      exact ⟨t.cursor + 1, by omega, by rw [move, hsome]⟩
  | back =>
    by_cases hstart : t.cursor = 0
    · exact ⟨t.cursor, h, by rw [move_back_of_start hstart]⟩
    · have hsome : t.back? = some { t with cursor := t.cursor - 1 } :=
        if_neg (mt beq_iff_eq.mp hstart)
      exact ⟨t.cursor - 1, by omega, by rw [move, hsome]⟩
  | jump step =>
    by_cases hstep : t.last < step
    · exact ⟨t.cursor, h, by rw [move_jump_of_lt hstep]⟩
    · have hmoved : t.jump step = .ok { t with cursor := step } := if_neg hstep
      exact ⟨step, by omega, by rw [move, hmoved]⟩
  | rewind => exact ⟨0, Nat.zero_le _, rfl⟩

/-- A move that does not take place leaves a trace as it is. -/
theorem move_of_refused {t : Trace α} {m : Move}
    (h : (t.move m).1 = .stays ∨ ∃ fault, (t.move m).1 = .refused fault) : (t.move m).2 = t := by
  cases m with
  | forward =>
    cases hforward : t.forward? with
    | none => simp only [move, hforward]
    | some t' => simp [move, hforward] at h
  | back =>
    cases hback : t.back? with
    | none => simp only [move, hback]
    | some t' => simp [move, hback] at h
  | jump step =>
    cases hjump : t.jump step with
    | error fault => simp only [move, hjump]
    | ok t' => simp [move, hjump] at h
  | rewind => simp [move] at h

/-- The cursor shows the state after as many gates as its step says. -/
theorem current?_eq (t : Trace α) : t.current? = t.history.stateAt? t.cursor := by
  unfold current?
  cases t.cursor with
  | zero => rfl
  | succ k => rfl

/-- The cursor shows the gate whose number is its step. -/
theorem gate?_eq (t : Trace α) (k : Nat) (h : t.cursor = k + 1) :
    t.gate? = t.circuit.gates[k]? := by
  rw [gate?, h, if_neg (Nat.succ_ne_zero k), Nat.add_sub_cancel]

theorem gate?_eq_none_iff {t : Trace α} (h : t.cursor ≤ t.circuit.gates.size) :
    t.gate? = none ↔ t.cursor = 0 := by
  cases hk : t.cursor with
  | zero => simp [gate?, hk]
  | succ k =>
    have hlt : k < t.circuit.gates.size := by omega
    simp [t.gate?_eq k hk, hlt]

end Trace

/-! ## Finished runs -/

namespace Executor

variable [Zero α] [One α] [Add α] [Sub α] [Mul α] [Neg α] [HalfRoot α]
variable {e : Executor} {c : Circuit} {pace : Pace} {watch : Observer α}

/-- A run that finishes has the history of an uncancelled run under the same settings. -/
theorem outcome_uncancelled {history : History α}
    (h : (e.run pace c watch).1.outcome = .ok history) (pace' : Pace) :
    (({ settings := e.settings } : Executor).run pace' c (.cancelAt none)).1.outcome =
      .ok history := by
  obtain ⟨s, ts, hs, ht, rfl, -⟩ := exists_ofTrail h
  exact run_reset_cancelAt hs ht pace'

/-- A run that finishes has as many states as its circuit has gates, and so gives a trace. -/
theorem outcome_bind_ofHistory : (e.run pace c watch).1.outcome >>= Trace.ofHistory c =
    (e.run pace c watch).1.outcome.map fun history => { circuit := c, history } := by
  cases h : (e.run pace c watch).1.outcome with
  | error fault => rfl
  | ok history =>
    obtain ⟨s, ts, -, ht, rfl, -⟩ := exists_ofTrail h
    exact if_pos (ht.length_eq.trans c.length_gateList)

/-- No run ends with a history that does not belong to its circuit. -/
theorem outcome_ne_historyMismatch (states gates : Nat) :
    (e.run pace c watch).1.outcome ≠ .error (.historyMismatch states gates) := by
  intro h
  obtain ⟨f, hf⟩ | ⟨f, hf⟩ | ⟨k, -, hk, -⟩ := error_cases h
  · cases hf
  · cases hf
  · cases hk

end Executor

/-! ## Traces that record a run -/

variable [Zero α] [One α] [Add α] [Sub α] [Mul α] [Neg α] [HalfRoot α]

/-- A trace records an uncancelled run of its circuit, and its cursor is at a step of that run. -/
structure Trace.Records (t : Trace α) (settings : Settings) : Prop where
  outcome_eq (pace : Pace) :
    (({ settings } : Executor).run pace t.circuit (.cancelAt none)).1.outcome = .ok t.history
  cursor_le : t.cursor ≤ t.last

namespace Trace.Records

variable {t : Trace α} {settings : Settings}

theorem move (h : t.Records settings) (m : Trace.Move) : (t.move m).2.Records settings := by
  obtain ⟨k, hk, heq⟩ := move_eq h.cursor_le m
  rw [heq]
  exact ⟨h.outcome_eq, hk⟩

theorem exists_ofTrail (h : t.Records settings) : ∃ s ts,
    State.zero? t.circuit.width.toNat = .ok s ∧ State.Trail s t.circuit.gateList ts ∧
      t.history = .ofTrail s ts := by
  obtain ⟨s, ts, hs, ht, hhistory, -⟩ := Executor.exists_ofTrail (h.outcome_eq .blocking)
  exact ⟨s, ts, Executor.zero?_of_prepare hs, ht, hhistory⟩

theorem last_eq (h : t.Records settings) : t.last = t.circuit.gates.size := by
  obtain ⟨s, ts, -, ht, hhistory⟩ := h.exists_ofTrail
  rw [last, hhistory]
  exact ht.length_eq.trans t.circuit.length_gateList

/-- **The cursor shows what the gates so far make of the state that reads zero.** -/
theorem current?_eq_some (h : t.Records settings) : ∃ s u,
    State.zero? t.circuit.width.toNat = .ok s ∧ t.current? = some u ∧
      (t.circuit.gateList.take t.cursor).foldlM State.apply s = .ok u := by
  obtain ⟨s, ts, hs, ht, hhistory⟩ := h.exists_ofTrail
  have hlen : ts.length = t.last := by rw [last, hhistory]; rfl
  have hlt : t.cursor < (s :: ts).length := by
    rw [List.length_cons, hlen]
    exact Nat.lt_succ_of_le h.cursor_le
  have hshown : (s :: ts)[t.cursor]? = some (s :: ts)[t.cursor] := List.getElem?_eq_getElem hlt
  refine ⟨s, _, hs, ?_, ht.foldlM_take hshown⟩
  rw [current?_eq, hhistory, History.stateAt?_ofTrail, hshown]

end Trace.Records

end Statevector
