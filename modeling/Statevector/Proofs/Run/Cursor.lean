import Statevector.Proofs.Run.Roster
import Statevector.Proofs.Run.Trace

/-!
# The cursor of a trace counts its steps

* `History.isSome_stateAt?_iff`: the steps at which a history has a state;
* `Trace.step_forward`, `Trace.step_back`, `Trace.step_jump`, `Trace.step_rewind`: a step in terms
  of the number at which the cursor is;
* `Trace.IsOf`: the traces of a circuit and a history; `Trace.IsOf.step`: a step keeps them, and so
  **`Trace.IsOf.perform`**;
* `Trace.perform_forward`: the states shown on the way to the end;
* **`Trace.ofHistory_counts`**: a trace is a counter from zero to the number of gates, which shows
  the states of the history.
-/

namespace Statevector

open Roster (perform perform_cons)

variable {α : Type}

theorem History.isSome_stateAt?_iff {h : History α} {k : Nat} :
    (h.stateAt? k).isSome ↔ k ≤ h.steps := by
  cases k with
  | zero => simp [stateAt?]
  | succ k => rw [stateAt?, steps, isSome_getElem?, Nat.succ_le_iff]

namespace Trace

/-! ## Steps -/

theorem step_forward (t : Trace α) : t.step .forward =
    if t.cursor = t.last then ((.stays, none), t)
    else ((.moved, t.history.stateAt? (t.cursor + 1)), { t with cursor := t.cursor + 1 }) := by
  split
  · next h => rw [step, move_forward_of_last h]; rfl
  · next h =>
    have hsome : t.forward? = some { t with cursor := t.cursor + 1 } := if_neg (mt beq_iff_eq.mp h)
    simp only [step, move, hsome, Reply.shown?, current?_eq]

theorem step_back (t : Trace α) : t.step .back =
    if t.cursor = 0 then ((.stays, none), t)
    else ((.moved, t.history.stateAt? (t.cursor - 1)), { t with cursor := t.cursor - 1 }) := by
  split
  · next h => rw [step, move_back_of_start h]; rfl
  · next h =>
    have hsome : t.back? = some { t with cursor := t.cursor - 1 } := if_neg (mt beq_iff_eq.mp h)
    simp only [step, move, hsome, Reply.shown?, current?_eq]

theorem step_jump (t : Trace α) (k : Nat) : t.step (.jump k) =
    if t.last < k then ((.refused (.stepOutOfRange k t.last), none), t)
    else ((.moved, t.history.stateAt? k), { t with cursor := k }) := by
  split
  · next h => rw [step, move_jump_of_lt h]; rfl
  · next h =>
    have hok : t.jump k = .ok { t with cursor := k } := if_neg h
    simp only [step, move, hok, Reply.shown?, current?_eq]

theorem step_rewind (t : Trace α) :
    t.step .rewind = ((.rewound, none), { t with cursor := 0 }) := rfl

/-! ## Sequences of steps -/

/-- A trace pairs a circuit with a history of as many states as the circuit has gates, and its
cursor is at one of the steps. -/
structure IsOf (t : Trace α) (c : Circuit) (h : History α) : Prop where
  circuit_eq : t.circuit = c
  history_eq : t.history = h
  steps_eq : h.steps = c.gates.size
  cursor_le : t.cursor ≤ c.gates.size

namespace IsOf

variable {t : Trace α} {c : Circuit} {h : History α}

theorem last_eq (ht : t.IsOf c h) : t.last = c.gates.size := by
  rw [last, ht.history_eq, ht.steps_eq]

/-- A step moves the cursor to one of the steps and changes nothing else. -/
theorem step (ht : t.IsOf c h) (m : Move) : (t.step m).2.IsOf c h := by
  obtain ⟨k, hk, heq⟩ := move_eq (ht.cursor_le.trans_eq ht.last_eq.symm) m
  show (t.move m).2.IsOf c h
  rw [heq]
  exact ⟨ht.circuit_eq, ht.history_eq, ht.steps_eq, hk.trans_eq ht.last_eq⟩

/-- **Any sequence of steps leaves a trace of the same circuit and the same history.** -/
theorem perform (ht : t.IsOf c h) (ms : List Move) : (perform Trace.step t ms).2.IsOf c h := by
  induction ms generalizing t with
  | nil => exact ht
  | cons m ms ih => exact ih (ht.step m)

/-- The cursor shows a state of the history. -/
theorem exists_current? (ht : t.IsOf c h) :
    ∃ u, t.current? = some u ∧ h.stateAt? t.cursor = some u := by
  have hle : t.cursor ≤ h.steps := ht.cursor_le.trans_eq ht.steps_eq.symm
  obtain ⟨u, hu⟩ := Option.isSome_iff_exists.mp (History.isSome_stateAt?_iff.mpr hle)
  refine ⟨u, ?_, hu⟩
  rw [current?_eq, ht.history_eq, hu]

/-- After the first step the cursor shows the gate before it. -/
theorem exists_gate? (ht : t.IsOf c h) {k : Nat} (hk : t.cursor = k + 1) :
    ∃ p, t.gate? = some p ∧ c.gates[k]? = some p := by
  have hlt : k < c.gates.size := by
    have := ht.cursor_le
    omega
  refine ⟨c.gates[k], ?_, Array.getElem?_eq_getElem hlt⟩
  rw [t.gate?_eq k hk, ht.circuit_eq, Array.getElem?_eq_getElem hlt]

end IsOf

/-- The steps that are left to the end show the states that are left. -/
theorem perform_forward {t : Trace α} {n : Nat} (h : t.cursor + n = t.last) :
    perform step t (List.replicate n .forward) =
      ((t.history.states.toList.drop t.cursor).map fun u => (.moved, some u),
        { t with cursor := t.last }) := by
  have hlen : t.history.states.toList.length = t.last := Array.length_toList
  induction n generalizing t with
  | zero =>
    have hend : t.cursor = t.last := h
    rw [hend, List.drop_of_length_le hlen.le, ← hend]
    rfl
  | succ n ih =>
    have hlt : t.cursor < t.history.states.toList.length := by omega
    have hstate : t.history.stateAt? (t.cursor + 1) = some t.history.states.toList[t.cursor] :=
      Array.getElem?_eq_getElem (by simpa using hlt)
    have hstep : t.step .forward =
        ((.moved, some t.history.states.toList[t.cursor]), { t with cursor := t.cursor + 1 }) := by
      rw [step_forward, if_neg (by omega), hstate]
    have hcursor : t.cursor + 1 + n = t.last := by omega
    have hrest := ih (t := { t with cursor := t.cursor + 1 }) hcursor hlen
    rw [List.drop_eq_getElem_cons hlt, List.replicate_succ, perform_cons, hstep, hrest]
    rfl

/-! ## Traces of circuits and histories -/

/-- **A trace is a counter from zero to the number of gates, which shows the states of its
history.** There is a trace of a circuit and a history exactly if the numbers of gates and of states
are the same. Whatever moves it has made, its cursor is at a step of the history and shows the state
and the gate of that step. It moves by one, or to a given step, and shows the state there; at an end
or beyond the last step it does not move. From the first step it goes through all states in order. -/
theorem ofHistory_counts (c : Circuit) (h : History α) :
    (∀ fault, ofHistory c h = .error fault ↔
      h.steps ≠ c.gates.size ∧ fault = .historyMismatch h.steps c.gates.size) ∧
    (h.steps = c.gates.size → ∃ t₀, ofHistory c h = .ok t₀ ∧ t₀.cursor = 0 ∧
      ∀ ms t, (perform step t₀ ms).2 = t →
        (t.circuit = c ∧ t.history = h ∧ t.cursor ≤ c.gates.size) ∧
        (∃ u, t.current? = some u ∧ h.stateAt? t.cursor = some u) ∧
        (t.gate? = none ↔ t.cursor = 0) ∧
        (∀ k, t.cursor = k + 1 → ∃ p, t.gate? = some p ∧ c.gates[k]? = some p) ∧
        (t.atStart = true ↔ t.cursor = 0) ∧
        (t.atEnd = true ↔ t.cursor = c.gates.size) ∧
        (∀ k ≤ c.gates.size, ∃ u, h.stateAt? k = some u) ∧
        t.step .forward = (if t.cursor = c.gates.size then ((.stays, none), t)
          else ((.moved, h.stateAt? (t.cursor + 1)), { t with cursor := t.cursor + 1 })) ∧
        t.step .back = (if t.cursor = 0 then ((.stays, none), t)
          else ((.moved, h.stateAt? (t.cursor - 1)), { t with cursor := t.cursor - 1 })) ∧
        (∀ k, t.step (.jump k) = if c.gates.size < k
          then ((.refused (.stepOutOfRange k c.gates.size), none), t)
          else ((.moved, h.stateAt? k), { t with cursor := k })) ∧
        t.step .rewind = ((.rewound, none), { t with cursor := 0 }) ∧
        perform step t (.jump 0 :: List.replicate c.gates.size .forward) =
          ((.moved, some h.initial) :: h.states.toList.map fun u => (.moved, some u),
            { t with cursor := c.gates.size })) := by
  refine ⟨fun fault => ?mismatch, fun hsteps => ?trace⟩
  case mismatch =>
    unfold ofHistory
    split
    · next heq => simp [heq]
    · next hne => simp [hne, eq_comm]
  case trace =>
    have hstart : IsOf { circuit := c, history := h } c h := ⟨rfl, rfl, hsteps, Nat.zero_le _⟩
    refine ⟨{ circuit := c, history := h }, if_pos hsteps, rfl, ?_⟩
    rintro ms t rfl
    have ht := hstart.perform ms
    generalize (perform step { circuit := c, history := h } ms).2 = t at ht
    have hlast := ht.last_eq
    have hhistory := ht.history_eq
    refine ⟨⟨ht.circuit_eq, hhistory, ht.cursor_le⟩, ht.exists_current?, ?gate,
      fun _ => ht.exists_gate?, beq_iff_eq, ?atEnd, ?states, ?forward, ?back, ?jump,
      step_rewind t, ?replay⟩
    case gate => exact gate?_eq_none_iff (by rw [ht.circuit_eq]; exact ht.cursor_le)
    case atEnd => rw [atEnd, beq_iff_eq, hlast]
    case states =>
      intro k hk
      exact Option.isSome_iff_exists.mp (History.isSome_stateAt?_iff.mpr (hk.trans_eq hsteps.symm))
    case forward => rw [step_forward, hlast, hhistory]
    case back => rw [step_back, hhistory]
    case jump => intro k; rw [step_jump, hlast, hhistory]
    case replay =>
      have hjump : t.step (.jump 0) = ((.moved, some h.initial), { t with cursor := 0 }) := by
        rw [step_jump, if_neg (Nat.not_lt_zero _), hhistory]
        rfl
      have hforward := perform_forward (t := { t with cursor := 0 }) (n := c.gates.size)
        (by rw [Nat.zero_add]; exact hlast.symm)
      rw [perform_cons, hjump, hforward, ← hlast, ← hhistory]
      rfl

/-- Two gates and two states. After a step forward, a jump that is refused, two steps of which the
second stays at the end, and a step back, the cursor shows the first gate and the state after it. -/
theorem ofHistory_counts_two_gates : ∃ (c : Circuit) (h : History Float) (t₀ t : Trace Float),
    c = .ofGates 1 [.one .x ⟨0⟩, .one .z ⟨0⟩] ∧
    h = ⟨⟨1, #[1, 0]⟩, #[⟨1, #[0, 1]⟩, ⟨1, #[0, -1]⟩], ⟨1, #[0, -1]⟩⟩ ∧
    ofHistory (c.take 1) h = .error (.historyMismatch 2 1) ∧ ofHistory c h = .ok t₀ ∧
    perform step t₀ [.forward, .jump 3, .forward, .forward, .back] =
      ([(.moved, some ⟨1, #[0, 1]⟩), (.refused (.stepOutOfRange 3 2), none),
        (.moved, some ⟨1, #[0, -1]⟩), (.stays, none), (.moved, some ⟨1, #[0, 1]⟩)], t) ∧
    t.cursor = 1 ∧ t.current? = some ⟨1, #[0, 1]⟩ ∧ t.gate? = some ⟨1, .one .x ⟨0⟩⟩ ∧
    t.step .forward = ((.moved, some ⟨1, #[0, -1]⟩), { t with cursor := 2 }) ∧
    perform step t [.jump 0, .forward, .forward] =
      ([(.moved, some ⟨1, #[1, 0]⟩), (.moved, some ⟨1, #[0, 1]⟩), (.moved, some ⟨1, #[0, -1]⟩)],
        { t with cursor := 2 }) := by
  obtain ⟨c, hc⟩ : ∃ c : Circuit, c = .ofGates 1 [.one .x ⟨0⟩, .one .z ⟨0⟩] := ⟨_, rfl⟩
  obtain ⟨h, hh⟩ : ∃ h : History Float,
      h = ⟨⟨1, #[1, 0]⟩, #[⟨1, #[0, 1]⟩, ⟨1, #[0, -1]⟩], ⟨1, #[0, -1]⟩⟩ := ⟨_, rfl⟩
  have hsteps : h.steps = c.gates.size := by subst hc hh; rfl
  have hmoves : perform step { circuit := c, history := h }
      [.forward, .jump 3, .forward, .forward, .back] =
        ([(.moved, some ⟨1, #[0, 1]⟩), (.refused (.stepOutOfRange 3 2), none),
          (.moved, some ⟨1, #[0, -1]⟩), (.stays, none), (.moved, some ⟨1, #[0, 1]⟩)],
          { circuit := c, history := h, cursor := 1 }) := by subst hc hh; rfl
  obtain ⟨t₀, ht₀, -, hreach⟩ := (ofHistory_counts c h).2 hsteps
  obtain rfl : { circuit := c, history := h } = t₀ :=
    Except.ok.inj ((if_pos hsteps).symm.trans ht₀)
  obtain ⟨-, ⟨u, hu, hstate⟩, -, hgate, -, -, -, hforward, -, -, -, hreplay⟩ :=
    hreach _ _ (congrArg Prod.snd hmoves)
  obtain ⟨p, hp, hplaced⟩ := hgate 0 rfl
  refine ⟨c, h, _, _, hc, hh, ?mismatch, ht₀, hmoves, rfl, ?state, ?gate, ?forward, ?replay⟩
  case mismatch =>
    refine ((ofHistory_counts (c.take 1) h).1 _).mpr ?_
    subst hc hh
    exact ⟨by decide, rfl⟩
  case state =>
    rw [hu, ← hstate]
    subst hh
    rfl
  case gate =>
    rw [hp, ← hplaced]
    subst hc
    rfl
  case forward =>
    rw [hforward]
    subst hc hh
    rfl
  case replay =>
    subst hc hh
    exact hreplay

end Trace

end Statevector
