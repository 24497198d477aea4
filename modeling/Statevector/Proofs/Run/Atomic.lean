import Statevector.Proofs.Run.Roster
import Statevector.Proofs.Run.Session

/-!
# Sessions that fail change nothing, and forget their runs

* `Session.run_snd`: what a run of the loaded circuit leaves behind; `Session.run_eq_fresh`: it
  takes nothing from the session but its settings and its circuit; `Session.settings_perform`: no
  actions change the settings;
* `Session.pos_of_cancelled`: it goes through a gate before it is cancelled;
* `Session.Reply.Refuses`: the replies that turn an action down; **`Session.act_of_refuses`**: such
  an action changes nothing;
* `Session.act_move_of_eq`: a move that leaves the trace as it is;
* **`Session.act_atomic`**: loads, runs and moves change all that they should, or nothing.
-/

namespace Statevector

namespace Session

variable {α : Type} [Zero α] [One α] [Add α] [Sub α] [Mul α] [Neg α] [HalfRoot α]
variable {s : Session α} {c : Circuit}

/-! ## Runs -/

/-- A run of the loaded circuit leaves the circuit, the trace of the run if it finished, and the
flag if the observer asked for it. -/
theorem run_snd (h : s.circuit = some c) (pace : Pace) (watch : Observer α) :
    (s.run pace watch).2 =
      { executor :=
          { settings := s.executor.settings
            cancelled := (s.run pace watch).1.observed.any fun x => watch x.1 x.2 }
        circuit := some c
        trace := (s.run pace watch).1.outcome.toOption } := by
  rw [run_of_loaded h, Executor.flag_run, h]
  simp [Executor.reset]

theorem trace_run_eq_some_iff (h : s.circuit = some c) {pace : Pace} {watch : Observer α}
    {t : Trace α} :
    (s.run pace watch).2.trace = some t ↔ (s.run pace watch).1.outcome = .ok t := by
  rw [run_snd h]
  cases (s.run pace watch).1.outcome with
  | error fault => simp [Except.toOption]
  | ok t' => simp [Except.toOption]

theorem trace_of_run (h : s.circuit = some c) {pace : Pace} {watch : Observer α} {t : Trace α}
    (ht : (s.run pace watch).1.outcome = .ok t) : t.circuit = c ∧ t.cursor = 0 := by
  rw [run_of_loaded h] at ht
  cases hrun : (s.executor.reset.run pace c watch).1.outcome with
  | error fault =>
    rw [hrun] at ht
    cases ht
  | ok history =>
    rw [hrun] at ht
    cases ht
    exact ⟨rfl, rfl⟩

/-- **A run takes nothing from a session but its settings and its circuit.** -/
theorem run_eq_fresh (h : s.circuit = some c) (pace : Pace) (watch : Observer α) :
    s.run pace watch = ((new s.executor.settings).load c).run pace watch := by
  have hreset : s.executor.reset = ((new s.executor.settings).load c : Session α).executor.reset :=
    rfl
  rw [run_of_loaded h, run_of_loaded (s := (new s.executor.settings).load c) rfl, hreset]
  simp [load, new, h]

/-- A run is never cancelled before its first gate. -/
theorem pos_of_cancelled {pace : Pace} {watch : Observer α} {k : Nat}
    (hrun : (s.run pace watch).1.outcome = .error (.cancelled k)) : 0 < k := by
  cases h : s.circuit with
  | none =>
    rw [run_of_unloaded h] at hrun
    cases hrun
  | some c => exact Executor.pos_of_cancelled rfl (outcome_of_error h hrun)

theorem outcome_eq_noCircuit_iff {pace : Pace} {watch : Observer α} :
    (s.run pace watch).1.outcome = .error .noCircuit ↔ s.circuit = none := by
  constructor
  · intro hrun
    cases h : s.circuit with
    | none => rfl
    | some c =>
      obtain ⟨f, hf⟩ | ⟨f, hf⟩ | ⟨k, -, hf, -⟩ := Executor.error_cases (outcome_of_error h hrun)
      · cases hf
      · cases hf
      · cases hf
  · intro h
    rw [run_of_unloaded h]

/-- No action changes the settings. -/
theorem settings_act (s : Session α) (a : Action α) :
    (s.act a).2.executor.settings = s.executor.settings := by
  cases a with
  | loadSource source =>
    cases hc : Circuit.ofSource source with
    | error fault => rw [act_loadSource_of_error hc]
    | ok c =>
      rw [act_loadSource_of_ok hc]
      rfl
  | load c => rfl
  | run pace watch =>
    cases h : s.circuit with
    | none => exact congrArg (fun r => r.2.executor.settings) (run_of_unloaded h pace watch)
    | some c => exact congrArg (fun s => s.executor.settings) (run_snd h pace watch)
  | cancel => rfl
  | move m =>
    cases ht : s.trace with
    | none => rw [act_move_of_none ht]
    | some t => rw [act_move_of_some ht]

theorem settings_perform (s : Session α) (actions : List (Action α)) :
    (Roster.perform act s actions).2.executor.settings = s.executor.settings := by
  induction actions generalizing s with
  | nil => rfl
  | cons a actions ih => exact (ih (s.act a).2).trans (settings_act s a)

/-! ## Moves -/

theorem act_move_of_eq {t : Trace α} (h : s.trace = some t) {m : Trace.Move}
    {reply : Trace.Reply} (hm : t.move m = (reply, t)) : s.act (.move m) = (.moved reply, s) := by
  rw [act_move_of_some h, hm, ← h]

/-! ## Actions that are turned down -/

/-- The replies that turn an action down. A run that starts and then fails is none of them. -/
inductive Reply.Refuses : Reply α → Prop
  | refused (fault : Run.Fault) : Refuses (.refused fault)
  | noCircuit {report : Report α (Trace α)} (h : report.outcome = .error .noCircuit) :
      Refuses (.ran report)
  | stays : Refuses (.moved .stays)
  | outOfRange (fault : Run.Fault) : Refuses (.moved (.refused fault))
  | noTrace : Refuses .noTrace

/-- **An action that is turned down changes nothing.** -/
theorem act_of_refuses {a : Action α} (h : (s.act a).1.Refuses) : (s.act a).2 = s := by
  cases a with
  | loadSource source =>
    cases hc : Circuit.ofSource source with
    | error fault => rw [act_loadSource_of_error hc]
    | ok c =>
      rw [act_loadSource_of_ok hc] at h
      cases h
  | load c => cases h
  | run pace watch =>
    have hfault : (s.run pace watch).1.outcome = .error .noCircuit := by
      cases h with
      | noCircuit h => exact h
    exact congrArg Prod.snd (run_of_unloaded (outcome_eq_noCircuit_iff.mp hfault) pace watch)
  | cancel => cases h
  | move m =>
    cases ht : s.trace with
    | none => rw [act_move_of_none ht]
    | some t =>
      rw [act_move_of_some ht] at h ⊢
      have hsame : (t.move m).2 = t := by
        generalize hreply : (t.move m).1 = reply at h
        cases h with
        | stays => exact Trace.move_of_refused (.inl hreply)
        | outOfRange fault => exact Trace.move_of_refused (.inr ⟨fault, hreply⟩)
      rw [hsame, ← ht]

/-- **Loads, runs and moves change all that they should, or nothing.** A source that cannot be read,
a run without a circuit, a jump beyond the last step and a step over either end leave the session as
it is, its flag and the cursor of its trace included. A run of the loaded circuit does the same as
in a session that has only just loaded it, whatever was done before, so it is not cancelled before
its first gate; after it the trace is there if the run finished, and the flag is set if the observer
asked for it. -/
theorem act_atomic (s : Session α) :
    (∀ source fault, Circuit.ofSource source = .error fault →
      s.act (.loadSource source) = (.refused (.source fault), s)) ∧
    (∀ source c, Circuit.ofSource source = .ok c →
      s.act (.loadSource source) = (.loaded c, { s with circuit := some c, trace := none })) ∧
    (s.circuit = none → ∀ pace watch,
      s.act (.run pace watch) = (.ran { outcome := .error .noCircuit }, s)) ∧
    (∀ c, s.circuit = some c → ∀ pace watch, ∃ report s',
      s.act (.run pace watch) = (.ran report, s') ∧
      ((new s.executor.settings).load c).act (.run pace watch) = (.ran report, s') ∧
      s'.circuit = some c ∧ s'.executor.settings = s.executor.settings ∧
      (∀ t, s'.trace = some t ↔ report.outcome = .ok t) ∧
      (∀ t, s'.trace = some t → t.circuit = c ∧ t.cursor = 0) ∧
      (s'.executor.cancelled = true ↔ ∃ x ∈ report.observed, watch x.1 x.2 = true) ∧
      ∀ k, report.outcome = .error (.cancelled k) → 0 < k) ∧
    (∀ actions c, (Roster.perform act s actions).2.circuit = some c → ∀ pace watch,
      (Roster.perform act s actions).2.act (.run pace watch) =
        ((new s.executor.settings).load c).act (.run pace watch)) ∧
    (∀ t, s.trace = some t →
      (∀ step, t.last < step → s.act (.move (.jump step)) =
        (.moved (.refused (.stepOutOfRange step t.last)), s)) ∧
      (t.cursor = t.last → s.act (.move .forward) = (.moved .stays, s)) ∧
      (t.cursor = 0 → s.act (.move .back) = (.moved .stays, s))) ∧
    ∀ a, (s.act a).1.Refuses → (s.act a).2 = s := by
  refine ⟨fun _ _ h => act_loadSource_of_error h s, fun _ _ h => act_loadSource_of_ok h s,
    ?unloaded, ?loaded, ?forgets, ?moves, fun _ => act_of_refuses⟩
  case unloaded =>
    intro h pace watch
    simp only [act, run_of_unloaded h]
  case loaded =>
    intro c h pace watch
    refine ⟨(s.run pace watch).1, (s.run pace watch).2, rfl, ?_, ?_, ?_,
      fun t => trace_run_eq_some_iff h,
      fun t ht => trace_of_run h ((trace_run_eq_some_iff h).mp ht), ?_, fun k => pos_of_cancelled⟩
    · simp only [act, run_eq_fresh h]
    · rw [run_snd h]
    · rw [run_snd h]
    · rw [run_snd h, Array.any_eq_true']
  case forgets =>
    intro actions c h pace watch
    simp only [act, run_eq_fresh h, settings_perform]
  case moves =>
    intro t ht
    exact ⟨fun step hstep => act_move_of_eq ht (Trace.move_jump_of_lt hstep),
      fun hlast => act_move_of_eq ht (Trace.move_forward_of_last hlast),
      fun hstart => act_move_of_eq ht (Trace.move_back_of_start hstart)⟩

/-- A run of two gates is cancelled after the first, and then cancelled again when it is over. A
source that cannot be read does not touch the flag, and the next run finishes as if nothing had been
cancelled. Its trace cannot be moved back, nor beyond the second gate. -/
theorem act_atomic_after_cancelled : ∃ (s s' : Session Float) (report : Report Float (Trace Float))
    (t : Trace Float),
    s = (Roster.perform act ((new .immediate).load (.ofGates 1 [.one .x ⟨0⟩, .one .x ⟨0⟩]))
      [.run .blocking (.cancelAt (some 0)), .cancel]).2 ∧
    s.executor.cancelled = true ∧ s.trace = none ∧
    s.act (.loadSource "X(4294967296)") =
      (.refused (.source (.literalTooLarge 1 "4294967296")), s) ∧
    s.act (.run .paced (.cancelAt none)) = (.ran report, s') ∧
    ((new .immediate).load (.ofGates 1 [.one .x ⟨0⟩, .one .x ⟨0⟩])).act
      (.run .paced (.cancelAt none)) = (.ran report, s') ∧
    s'.executor.cancelled = false ∧ s'.trace = some t ∧ report.outcome = .ok t ∧ t.cursor = 0 ∧
    s'.act (.move .back) = (.moved .stays, s') ∧
    s'.act (.move (.jump 3)) = (.moved (.refused (.stepOutOfRange 3 2)), s') := by
  have hsource : Circuit.ofSource "X(4294967296)" = .error (.literalTooLarge 1 "4294967296") := by
    decide +kernel
  obtain ⟨hrefused, -, -, hrun, -⟩ := act_atomic (Roster.perform act
    ((new .immediate).load (.ofGates 1 [.one .x ⟨0⟩, .one .x ⟨0⟩]) : Session Float)
    [.run .blocking (.cancelAt (some 0)), .cancel]).2
  obtain ⟨report, s', hran, hfresh, -, -, htrace, hstart, hflag, -⟩ :=
    hrun (.ofGates 1 [.one .x ⟨0⟩, .one .x ⟨0⟩]) rfl .paced (.cancelAt none)
  have hclear : s'.executor.cancelled = false := by
    rw [← Bool.not_eq_true, hflag]
    rintro ⟨x, -, hx⟩
    cases hx
  obtain ⟨t, ht, hlast⟩ : ∃ t, s'.trace = some t ∧ t.last = 2 := by
    cases hran
    exact ⟨_, rfl, rfl⟩
  obtain ⟨hjump, -, hback⟩ := (act_atomic s').2.2.2.2.2.1 t ht
  refine ⟨_, s', report, t, rfl, rfl, rfl, hrefused _ _ hsource, hran, hfresh, hclear, ht,
    (htrace t).mp ht, (hstart t ht).2, hback (hstart t ht).2, ?_⟩
  rw [hjump 3 (by rw [hlast]; decide), hlast]

end Session

end Statevector
