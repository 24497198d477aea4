import Statevector.Proofs.Run.Trace
import Statevector.Proofs.Source.Program
import Statevector.Run.Session

/-!
# Sessions that can be reached

* `Session.Reachable`: the sessions that come about by actions and copies;
* `Session.act_loadSource_of_error`, `Session.act_loadSource_of_ok`, `Session.act_move_of_none`,
  `Session.act_move_of_some`: what a source and a move make of a session;
* `Session.run_of_loaded`: what a run makes of a session with a circuit;
* `Session.IsFaithful`: the trace of a session, if it has one, records an uncancelled run of the
  loaded circuit; **`Session.IsFaithful.act`**: actions keep this, and so
  **`Session.Reachable.isFaithful`**;
* **`Session.trace_of_reachable`**: what the trace of a session shows.
-/

namespace Statevector

namespace Session

variable {α : Type} [Zero α] [One α] [Add α] [Sub α] [Mul α] [Neg α] [HalfRoot α]

/-- The sessions that come about from a session without a circuit by actions and copies. -/
inductive Reachable : Session α → Prop
  | new (settings : Settings) : Reachable (new settings)
  | act {s : Session α} (a : Action α) : Reachable s → Reachable (s.act a).2
  | copy {s : Session α} : Reachable s → Reachable s.copy

/-! ## Loads and moves -/

theorem act_loadSource_of_error {source : String} {fault : Source.Fault}
    (h : Circuit.ofSource source = .error fault) (s : Session α) :
    s.act (.loadSource source) = (.refused (.source fault), s) := by
  simp only [act, loadSource, h]

theorem act_loadSource_of_ok {source : String} {c : Circuit} (h : Circuit.ofSource source = .ok c)
    (s : Session α) : s.act (.loadSource source) = (.loaded c, s.load c) := by
  simp only [act, loadSource, h]

theorem act_move_of_none {s : Session α} (h : s.trace = none) (m : Trace.Move) :
    s.act (.move m) = (.noTrace, s) := by
  simp only [act, move, h, Option.map_none]

theorem act_move_of_some {s : Session α} {t : Trace α} (h : s.trace = some t) (m : Trace.Move) :
    s.act (.move m) = (.moved (t.move m).1, { s with trace := some (t.move m).2 }) := by
  simp only [act, move, h, Option.map_some]

/-! ## Runs of sessions -/

/-- A run of a session with a circuit clears the flag, runs the circuit, and keeps the trace of the
run if it finishes. -/
theorem run_of_loaded {s : Session α} {c : Circuit} (h : s.circuit = some c) (pace : Pace)
    (watch : Observer α) : s.run pace watch =
      ({ (s.executor.reset.run pace c watch).1 with
          outcome := (s.executor.reset.run pace c watch).1.outcome.map
            fun history => { circuit := c, history } },
        { s with
          executor := (s.executor.reset.run pace c watch).2
          trace := ((s.executor.reset.run pace c watch).1.outcome.map
            fun history => { circuit := c, history }).toOption }) := by
  simp only [run, ready, h, Executor.outcome_bind_ofHistory]

theorem run_of_unloaded {s : Session α} (h : s.circuit = none) (pace : Pace)
    (watch : Observer α) : s.run pace watch = ({ outcome := .error .noCircuit }, s) := by
  simp only [run, ready, h]

/-- A run of a session fails as the run of its circuit does. -/
theorem outcome_of_error {s : Session α} {c : Circuit} (h : s.circuit = some c) {pace : Pace}
    {watch : Observer α} {fault : Run.Fault} (hrun : (s.run pace watch).1.outcome = .error fault) :
    (s.executor.reset.run pace c watch).1.outcome = .error fault := by
  rw [run_of_loaded h] at hrun
  cases hout : (s.executor.reset.run pace c watch).1.outcome with
  | ok history =>
    rw [hout] at hrun
    cases hrun
  | error fault' =>
    rw [hout] at hrun
    cases hrun
    rfl

/-- No run of a session ends with a history that does not belong to the loaded circuit. -/
theorem outcome_ne_historyMismatch (s : Session α) (pace : Pace) (watch : Observer α)
    (states gates : Nat) :
    (s.run pace watch).1.outcome ≠ .error (.historyMismatch states gates) := by
  intro h
  cases hc : s.circuit with
  | none =>
    rw [run_of_unloaded hc] at h
    cases h
  | some c => exact Executor.outcome_ne_historyMismatch states gates (outcome_of_error hc h)

/-! ## Traces of sessions -/

/-- The trace of a session, if it has one, records an uncancelled run of the loaded circuit. -/
structure IsFaithful (s : Session α) : Prop where
  circuit_eq : ∀ t, s.trace = some t → s.circuit = some t.circuit
  records : ∀ t, s.trace = some t → t.Records s.executor.settings

theorem isFaithful_of_none {s : Session α} (h : s.trace = none) : s.IsFaithful := by
  have hnot (t : Trace α) : s.trace ≠ some t := by simp [h]
  exact ⟨fun t ht => absurd ht (hnot t), fun t ht => absurd ht (hnot t)⟩

theorem IsFaithful.of_settings {s s' : Session α} (h : s.IsFaithful)
    (hcircuit : s'.circuit = s.circuit) (htrace : s'.trace = s.trace)
    (hsettings : s'.executor.settings = s.executor.settings) : s'.IsFaithful := by
  constructor
  · rw [htrace, hcircuit]
    exact h.circuit_eq
  · rw [htrace, hsettings]
    exact h.records

theorem IsFaithful.run {s : Session α} (h : s.IsFaithful) (pace : Pace) (watch : Observer α) :
    (s.run pace watch).2.IsFaithful := by
  cases hc : s.circuit with
  | none =>
    rw [run_of_unloaded hc]
    exact h
  | some c =>
    rw [run_of_loaded hc]
    -- The old trace is gone in any case, and only a run that finishes leaves a new one.
    cases hrun : (s.executor.reset.run pace c watch).1.outcome with
    | error fault => exact isFaithful_of_none rfl
    | ok history =>
      refine ⟨fun t ht => ?_, fun t ht => ?_⟩
      · cases ht
        exact hc
      · cases ht
        have hsettings : (s.executor.reset.run pace c watch).2.settings = s.executor.settings := by
          rw [Executor.flag_run]
          rfl
        have huncancelled := Executor.outcome_uncancelled hrun
        rw [hsettings]
        exact ⟨huncancelled, Nat.zero_le _⟩

theorem IsFaithful.move {s : Session α} (h : s.IsFaithful) {t : Trace α} (ht : s.trace = some t)
    (m : Trace.Move) : IsFaithful { s with trace := some (t.move m).2 } := by
  obtain ⟨k, -, hk⟩ := Trace.move_eq (h.records t ht).cursor_le m
  have hmoved := (h.records t ht).move m
  refine ⟨fun t' ht' => ?_, fun t' ht' => ?_⟩
  · rw [← Option.some.inj ht', hk]
    exact h.circuit_eq t ht
  · rw [← Option.some.inj ht']
    exact hmoved

/-- **Every action keeps a session faithful.** -/
theorem IsFaithful.act {s : Session α} (h : s.IsFaithful) (a : Action α) :
    (s.act a).2.IsFaithful := by
  cases a with
  | loadSource source =>
    cases hc : Circuit.ofSource source with
    | error fault =>
      rw [act_loadSource_of_error hc]
      exact h
    | ok c =>
      rw [act_loadSource_of_ok hc]
      exact isFaithful_of_none rfl
  | load c => exact isFaithful_of_none rfl
  | run pace watch => exact h.run pace watch
  | cancel => exact h.of_settings rfl rfl rfl
  | move m =>
    cases ht : s.trace with
    | none =>
      rw [act_move_of_none ht]
      exact h
    | some t =>
      rw [act_move_of_some ht]
      exact h.move ht m

/-- **A session that can be reached is faithful.** -/
theorem Reachable.isFaithful {s : Session α} (h : s.Reachable) : s.IsFaithful := by
  induction h with
  | new settings => exact isFaithful_of_none rfl
  | act a _ ih => exact ih.act a
  | copy _ ih => exact ih.of_settings rfl rfl rfl

/-- **What the trace of a session shows.** It belongs to the loaded circuit and holds the states of
an uncancelled run of it. Its cursor is at one of the steps of the run and shows the state that the
gates so far make of the state that reads zero, and the last of these gates; if the circuit was read
from a source, the position of the gate is the number of the step, or the last number that a
position can be. No run ends with a history that does not belong to the loaded circuit. -/
theorem trace_of_reachable {s : Session α} (h : s.Reachable) :
    (∀ t, s.trace = some t → ∃ c ground u,
      s.circuit = some c ∧ t.circuit = c ∧
      (∀ pace, (({ settings := s.executor.settings } : Executor).run pace c
        (.cancelAt none)).1.outcome = .ok t.history) ∧
      t.history.states.size = c.gates.size ∧ t.cursor ≤ c.gates.size ∧
      State.zero? c.width.toNat = .ok ground ∧ t.current? = some u ∧
      (c.gateList.take t.cursor).foldlM State.apply ground = .ok u ∧
      (t.gate? = none ↔ t.cursor = 0) ∧
      ∀ k, t.cursor = k + 1 → ∃ g, t.gate? = some g ∧ c.gates[k]? = some g ∧
        ∀ source, Circuit.ofSource source = .ok c →
          g.position.toNat = min t.cursor (UInt32.size - 1)) ∧
    (∀ pace watch states gates,
      (s.run pace watch).1.outcome ≠ .error (.historyMismatch states gates)) := by
  refine ⟨fun t ht => ?_, outcome_ne_historyMismatch s⟩
  have hrecords := h.isFaithful.records t ht
  have hcursor : t.cursor ≤ t.circuit.gates.size := by
    rw [← hrecords.last_eq]
    exact hrecords.cursor_le
  obtain ⟨ground, u, hground, hshown, hfold⟩ := hrecords.current?_eq_some
  refine ⟨t.circuit, ground, u, h.isFaithful.circuit_eq t ht, rfl, hrecords.outcome_eq,
    hrecords.last_eq, hcursor, hground, hshown, hfold, Trace.gate?_eq_none_iff hcursor, ?_⟩
  intro k hk
  have hlt : k < t.circuit.gates.size := by omega
  have hgate : t.circuit.gates[k]? = some t.circuit.gates[k] := Array.getElem?_eq_getElem hlt
  refine ⟨t.circuit.gates[k], by rw [t.gate?_eq k hk, hgate], hgate, fun source hsource => ?_⟩
  have hposition := (Circuit.isBuilt_of_ofSource hsource).position_eq k _ hgate
  rw [hposition, Circuit.toNat_positionAfter, hk]

/-- Two gates are loaded from a source and run, and the cursor is put after the second of them. The
observer asks to cancel at the last gate, when there is nothing left to cancel. -/
theorem trace_of_reachable_two_gates : ∃ s : Session Float, ∃ t c ground u g,
    s.Reachable ∧ s.trace = some t ∧ t.cursor = 2 ∧ s.circuit = some c ∧
    c.gateList = [.one .x ⟨0⟩, .two .cnot ⟨0⟩ (some ⟨1⟩)] ∧
    State.zero? 2 = .ok ground ∧ t.current? = some u ∧
    [Gate.one .x ⟨0⟩, .two .cnot ⟨0⟩ (some ⟨1⟩)].foldlM State.apply ground = .ok u ∧
    t.gate? = some g ∧ g.position = 2 := by
  have hsource : Circuit.ofSource "X(0)\nCNOT(0, 1)" =
      .ok (.ofGates 2 [.one .x ⟨0⟩, .two .cnot ⟨0⟩ (some ⟨1⟩)]) := by decide +kernel
  have hreach := (((Reachable.new (α := Float) .immediate).act (.loadSource "X(0)\nCNOT(0, 1)")).act
    (.run .paced (.cancelAt (some 1)))).copy.act (.move (.jump 2))
  simp only [act, loadSource, hsource] at hreach
  obtain ⟨c, ground, u, hcircuit, hc, -, -, -, hground, hshown, hfold, -, hgate⟩ :=
    (trace_of_reachable hreach).1 _ rfl
  obtain ⟨g, hg, -, hposition⟩ := hgate 1 rfl
  subst hc
  refine ⟨_, _, _, ground, u, g, hreach, rfl, rfl, hcircuit, rfl, hground, hshown, hfold, hg, ?_⟩
  exact UInt32.toNat_inj.mp (hposition _ hsource)

end Session

end Statevector
