import Statevector.Proofs.State.Trail
import Statevector.Run.Executor

/-!
# The progress of a run

* `Progress.follow`: the progress of a run that takes in given states; what it has recorded then
  (`Progress.states_follow`, `Progress.observed_follow`, `Progress.current_follow`);
* `Progress.exists_of_advance`: all that one more gate can do; `Progress.runBlocking_induction`,
  `Progress.runPaced_induction`: what every state taken in and every pause keep, runs keep;
* **`Progress.runBlocking_of_trail`**: a run takes in the states of a trail until it is cancelled;
* **`Progress.runPaced_unpaced`**: but for its pauses, a paced run is a blocking one.
-/

namespace Statevector

namespace Progress

variable {α : Type} (watch : Observer α)

/-! ## States taken in -/

/-- Take in some states, the first of them after gate number `step`. -/
def follow (p : Progress α) (step : Nat) : List (State α) → Progress α
  | [] => p
  | t :: ts => (p.record watch step t).follow (step + 1) ts

theorem states_follow (p : Progress α) (step : Nat) (ts : List (State α)) :
    (p.follow watch step ts).states = p.states ++ ts.toArray := by
  induction ts generalizing p step with
  | nil => simp [follow]
  | cons t ts ih =>
    rw [follow, ih]
    simp [record]

theorem observed_follow (p : Progress α) (step : Nat) (ts : List (State α)) :
    (p.follow watch step ts).observed = p.observed ++ (ts.zipIdx step).toArray := by
  induction ts generalizing p step with
  | nil => simp [follow]
  | cons t ts ih =>
    rw [follow, ih]
    simp [record]

theorem current_follow (p : Progress α) (step : Nat) (ts : List (State α)) :
    (p.follow watch step ts).current = ts.getLast?.getD p.current := by
  induction ts generalizing p step with
  | nil => rfl
  | cons t ts ih =>
    rw [follow, ih, List.getLast?_cons]
    rfl

/-- The flag is set if it was, or if the observer asked for it. -/
theorem cancelled_follow (p : Progress α) (step : Nat) (ts : List (State α)) :
    (p.follow watch step ts).cancelled =
      (p.cancelled || (ts.zipIdx step).any fun (t, k) => watch t k) := by
  induction ts generalizing p step with
  | nil => simp [follow]
  | cons t ts ih =>
    rw [follow, ih]
    simp [record, Bool.or_assoc]

/-- The progress of a run without its pauses. -/
def unpaced (p : Progress α) : Progress α := { p with pauses := #[] }

theorem unpaced_pause (p : Progress α) (milliseconds : Nat) :
    (p.pause milliseconds).unpaced = p.unpaced := rfl

/-! ## Blocking runs -/

variable [Add α] [Sub α] [Mul α] [Neg α] [HalfRoot α]

theorem advance_of_apply {p : Progress α} {g : Gate} {t : State α} (h : p.current.apply g = .ok t)
    (step : Nat) : p.advance watch step g =
      if p.cancelled then .error (.cancelled step) else .ok (p.record watch step t) := by
  rw [advance, h]

theorem advance_of_cancelled {p : Progress α} (h : p.cancelled = true) (step : Nat) (g : Gate) :
    p.advance watch step g = .error (.cancelled step) := by
  rw [advance, if_pos h]

/-- One more gate takes in the state that the gate leads to, and the flag was clear. -/
theorem exists_of_advance {p p' : Progress α} {step : Nat} {g : Gate}
    (h : p.advance watch step g = .ok p') :
    p.cancelled = false ∧ ∃ t, p.current.apply g = .ok t ∧ p' = p.record watch step t := by
  unfold advance at h
  split at h
  · cases h
  · next hp =>
    cases ht : p.current.apply g with
    | error e =>
      rw [ht] at h
      cases h
    | ok t =>
      rw [ht] at h
      cases h
      exact ⟨Bool.eq_false_iff.mpr hp, t, rfl, rfl⟩

/-- What every state taken in keeps, a run keeps. -/
theorem runBlocking_induction {P : Progress α → Prop}
    (hrecord : ∀ p step t, P p → P (p.record watch step t)) {p : Progress α} (hp : P p) (step : Nat)
    (gs : List Gate) : P (p.runBlocking watch step gs).1 := by
  induction gs generalizing p step with
  | nil => exact hp
  | cons g gs ih =>
    rw [runBlocking]
    split
    · exact hp
    · next p' hadvance =>
      obtain ⟨-, t, -, rfl⟩ := exists_of_advance watch hadvance
      exact ih (hrecord p step t hp) (step + 1)

/-- **A run takes in the states that its gates lead to, until its flag is set.** -/
theorem runBlocking_of_trail {p : Progress α} {gs : List Gate} {ts : List (State α)}
    (h : State.Trail p.current gs ts) (step : Nat) : ∃ k ≤ gs.length,
      p.runBlocking watch step gs = (p.follow watch step (ts.take k),
        if k < gs.length then some (.cancelled (step + k)) else none) ∧
      (∀ j < k, (p.follow watch step (ts.take j)).cancelled = false) ∧
      (k < gs.length → (p.follow watch step (ts.take k)).cancelled = true) := by
  induction gs generalizing p step ts with
  | nil => exact ⟨0, Nat.le_refl 0, rfl, by simp, by simp⟩
  | cons g gs ih =>
    cases h with
    | @cons _ t _ _ ts hg h =>
      -- The flag is looked at before the first gate; if it is clear, the rest is a run of its own.
      cases hp : p.cancelled with
      | true =>
        refine ⟨0, Nat.zero_le _, ?_, by simp, fun _ => hp⟩
        rw [runBlocking, advance_of_apply watch hg, hp]
        rfl
      | false =>
        obtain ⟨k, hk, hrun, hbefore, hafter⟩ := ih (p := p.record watch step t) h (step + 1)
        refine ⟨k + 1, Nat.succ_le_succ hk, ?_, ?_, ?_⟩
        · rw [runBlocking, advance_of_apply watch hg, hp]
          simp only [Bool.false_eq_true, if_false, hrun, List.length_cons, Nat.add_lt_add_iff_right]
          rw [Nat.add_assoc, Nat.add_comm 1 k]
          rfl
        · intro j hj
          cases j with
          | zero => exact hp
          | succ j => exact hbefore j (Nat.lt_of_succ_lt_succ hj)
        · intro hlt
          exact hafter (Nat.lt_of_succ_lt_succ hlt)

/-! ## Paced runs -/

/-- What every state taken in and every pause keep, a run with pauses keeps. -/
theorem runPaced_induction {P : Progress α → Prop}
    (hrecord : ∀ p step t, P p → P (p.record watch step t)) (hpause : ∀ p ms, P p → P (p.pause ms))
    (delay : Nat) {p : Progress α} (hp : P p) (step : Nat) (gs : List Gate) :
    P (p.runPaced watch delay step gs).1 := by
  induction gs generalizing p step with
  | nil => exact hp
  | cons g gs ih =>
    have hp' : P (if 0 < step ∧ delay ≠ 0 then p.pause delay else p) := by
      split
      · exact hpause p delay hp
      · exact hp
    rw [runPaced]
    split
    · exact hp'
    · next p' hadvance =>
      obtain ⟨-, t, -, rfl⟩ := exists_of_advance watch hadvance
      exact ih (hrecord _ step t hp') (step + 1)

theorem advance_unpaced (p : Progress α) (step : Nat) (g : Gate) :
    p.unpaced.advance watch step g = (p.advance watch step g).map unpaced := by
  unfold advance
  cases hp : p.cancelled with
  | true => simp [unpaced, hp, Except.map]
  | false =>
    cases hg : p.current.apply g with
    | error e => simp [unpaced, hp, hg, Except.map]
    | ok t => simp [unpaced, hp, hg, record, Except.map]

/-- **But for its pauses, a paced run is a blocking one.** -/
theorem runPaced_unpaced (delay : Nat) (p : Progress α) (step : Nat) (gs : List Gate) :
    (p.runPaced watch delay step gs).1.unpaced = (p.unpaced.runBlocking watch step gs).1 ∧
      (p.runPaced watch delay step gs).2 = (p.unpaced.runBlocking watch step gs).2 := by
  induction gs generalizing p step with
  | nil => exact ⟨rfl, rfl⟩
  | cons g gs ih =>
    have hpause : (if 0 < step ∧ delay ≠ 0 then p.pause delay else p).unpaced = p.unpaced := by
      split
      · exact unpaced_pause p delay
      · rfl
    rw [runPaced, runBlocking, ← hpause, advance_unpaced]
    cases advance watch (if 0 < step ∧ delay ≠ 0 then p.pause delay else p) step g with
    | error e => exact ⟨rfl, rfl⟩
    | ok p => exact ih p (step + 1)

end Progress

end Statevector
