import Statevector.Proofs.Run.Executor

/-!
# Histories of runs

* `Circuit.take`: the circuit of the first gates of a circuit;
* `History.stateAt?_ofTrail`: what the history of a trail shows after a number of steps;
* `Executor.outcome_eq_of_outcome_eq`: all runs of a circuit that finish have the same history;
  `Executor.outcome_take`: the history of a run of the first gates;
* **`Executor.outcome_history`**: what a history says of the run, and of runs of the first gates.
-/

namespace Statevector

variable {α : Type}

/-! ## The first gates of a circuit -/

namespace Circuit

/-- The circuit of the first `k` gates of a circuit. -/
def take (c : Circuit) (k : Nat) : Circuit := { c with gates := c.gates.take k }

theorem gateList_take (c : Circuit) (k : Nat) : (c.take k).gateList = c.gateList.take k := by
  simp [gateList, take]

theorem validate_take {c : Circuit} (h : c.validate = .ok ()) (k : Nat) :
    (c.take k).validate = .ok () :=
  validate_of_subset h rfl (by rw [gateList_take]; exact List.take_subset k _)

end Circuit

/-! ## The states of a trail -/

namespace History

theorem stateAt?_ofTrail (s : State α) (ts : List (State α)) (k : Nat) :
    (ofTrail s ts).stateAt? k = (s :: ts)[k]? := by
  cases k with
  | zero => rfl
  | succ k => simp [stateAt?, ofTrail]

theorem getElem?_states_ofTrail (s : State α) (ts : List (State α)) (k : Nat) :
    (ofTrail s ts).states[k]? = ts[k]? := by
  simp [ofTrail]

theorem final_ofTrail (s : State α) (ts : List (State α)) :
    (ofTrail s ts).final = (ofTrail s ts).states[ts.length - 1]?.getD s := by
  rw [getElem?_states_ofTrail, ← List.getLast?_eq_getElem?]
  rfl

/-- The history of the first states of a trail has the first of its states. -/
theorem ofTrail_take (s : State α) (ts : List (State α)) (k : Nat) : ofTrail s (ts.take k) =
    ⟨s, (ofTrail s ts).states.take k, (ofTrail s (ts.take k)).final⟩ := by
  simp [ofTrail]

/-- The first states of a trail end with the state that the trail shows at their number. -/
theorem final_ofTrail_take (s : State α) {ts : List (State α)} {k : Nat} (h : k ≤ ts.length) :
    (s :: ts)[k]? = some (ofTrail s (ts.take k)).final := by
  cases k with
  | zero => simp [ofTrail]
  | succ k =>
    have hk : k < ts.length := h
    simp [ofTrail, List.getLast?_take, hk]

end History

namespace Executor

variable {e : Executor} {c : Circuit} {pace : Pace} {watch : Observer α}
variable [Zero α] [One α] [Add α] [Sub α] [Mul α] [Neg α] [HalfRoot α]

/-! ## Runs that finish -/

/-- All runs of a circuit that finish have the same history. -/
theorem outcome_eq_of_outcome_eq {e' : Executor} {pace' : Pace} {watch' : Observer α}
    {history history' : History α} (h : (e.run pace c watch).1.outcome = .ok history)
    (h' : (e'.run pace' c watch').1.outcome = .ok history') : history' = history := by
  obtain ⟨s, ts, hs, ht, rfl, -⟩ := exists_ofTrail h
  obtain ⟨s', ts', hs', ht', rfl, -⟩ := exists_ofTrail h'
  obtain ⟨-, -, rfl⟩ := prepare_eq_ok_iff.mp hs
  obtain ⟨-, -, rfl⟩ := prepare_eq_ok_iff.mp hs'
  rw [ht.unique ht']

omit [Add α] [Sub α] [Mul α] [Neg α] [HalfRoot α] in
theorem prepare_take {s : State α} (h : e.prepare c = .ok s) (k : Nat) :
    e.prepare (c.take k) = .ok s := by
  rw [prepare_eq_ok_iff] at h ⊢
  exact ⟨Circuit.validate_take h.1 k, h.2⟩

/-- A run of the first gates finishes if a run of all gates does. -/
theorem outcome_take {s : State α} {ts : List (State α)} (hs : e.prepare c = .ok s)
    (ht : State.Trail s c.gateList ts)
    (hflag : ∀ j < c.gateList.length, e.flagAfter watch (ts.take j) = false) (k : Nat) :
    (e.run pace (c.take k) watch).1.outcome = .ok (.ofTrail s (ts.take k)) := by
  have ht' : State.Trail s (c.take k).gateList (ts.take k) := by
    rw [Circuit.gateList_take]
    exact ht.take k
  refine run_of_flagAfter (prepare_take hs k) ht' ?_ pace
  intro j hj
  rw [Circuit.gateList_take, List.length_take] at hj
  rw [List.take_take, Nat.min_eq_left (by omega)]
  exact hflag j (by omega)

/-- **The history of a run.** It starts in the state that reads zero, has one state per gate, each
of them what the gates so far make of the start, and ends with the last of them; the observer has
seen the same states in the same order. A run of the first `k` gates has the first `k` states. -/
theorem outcome_history {history : History α}
    (h : (e.run pace c watch).1.outcome = .ok history) :
    State.zero? c.width.toNat = .ok history.initial ∧
    history.states.size = c.gates.size ∧
    (∀ k < c.gates.size, ∃ t, history.states[k]? = some t ∧ history.stateAt? (k + 1) = some t ∧
      (c.gateList.take (k + 1)).foldlM State.apply history.initial = .ok t) ∧
    history.stateAt? 0 = some history.initial ∧
    (∀ k > c.gates.size, history.stateAt? k = none) ∧
    history.final = history.states[c.gates.size - 1]?.getD history.initial ∧
    (∀ t, t = history.initial ∨ t ∈ history.states ∨ t = history.final →
      t.width = c.width.toNat ∧ t.amplitudes.size = 2 ^ c.width.toNat) ∧
    (e.run pace c watch).1.observed = history.states.zipIdx ∧
    (∀ k ≤ c.gates.size, ∃ t, history.stateAt? k = some t ∧
      (e.run pace (c.take k) watch).1.outcome =
        .ok ⟨history.initial, history.states.take k, t⟩ ∧
      ∀ (e' : Executor) pace' watch' history',
        (e'.run pace' (c.take k) watch').1.outcome = .ok history' →
          history' = ⟨history.initial, history.states.take k, t⟩) := by
  obtain ⟨s, ts, hs, ht, rfl, hobserved, hflag⟩ := exists_ofTrail h
  obtain ⟨hfull, hwidth⟩ := isFull_of_prepare hs
  have hlen : ts.length = c.gates.size := ht.length_eq.trans c.length_gateList
  have hfinal := History.final_ofTrail_take s (Nat.le_refl ts.length)
  rw [List.take_length] at hfinal
  refine ⟨zero?_of_prepare hs, by simpa [History.ofTrail] using hlen, ?entry, rfl, ?beyond, ?final,
    ?full, ?seen, ?first⟩
  case entry =>
    intro k hk
    have ht' : ts[k]? = some ts[k] := List.getElem?_eq_getElem (by omega)
    refine ⟨ts[k], ?_, ?_, ht.foldlM_take (k := k + 1) ht'⟩
    · rw [History.getElem?_states_ofTrail, ht']
    · rw [History.stateAt?_ofTrail, List.getElem?_cons_succ, ht']
  case beyond =>
    intro k hk
    rw [History.stateAt?_ofTrail, List.getElem?_eq_none]
    rw [List.length_cons]
    omega
  case final => rw [History.final_ofTrail, hlen]; rfl
  case full =>
    intro t htmem
    have hmem : t ∈ s :: ts := by
      rcases htmem with rfl | hstates | rfl
      · exact List.mem_cons_self
      · exact List.mem_cons_of_mem _ (by simpa [History.ofTrail] using hstates)
      · exact List.mem_of_getElem? hfinal
    obtain ⟨htfull, htwidth⟩ := ht.isFull hfull hmem
    rw [← hwidth, ← htwidth]
    exact ⟨rfl, htfull.size_eq⟩
  case seen =>
    rw [hobserved]
    simp [History.ofTrail]
  case first =>
    intro k hk
    have hrun : (e.run pace (c.take k) watch).1.outcome = .ok (.ofTrail s (ts.take k)) :=
      outcome_take hs ht hflag k
    refine ⟨(History.ofTrail s (ts.take k)).final, ?_, ?_, ?_⟩
    · rw [History.stateAt?_ofTrail, History.final_ofTrail_take s (by omega)]
    · rw [hrun]
      exact congrArg Except.ok (History.ofTrail_take s ts k)
    · intro e' pace' watch' history' h'
      rw [outcome_eq_of_outcome_eq hrun h']
      exact History.ofTrail_take s ts k

/-- A run of two gates that is cancelled only after the second finishes. Its history starts with
that of the first gate. -/
theorem outcome_history_two_gates :
    ∃ history : History Float, history.states = #[⟨2, #[0, 0, 1, 0]⟩, ⟨2, #[0, 0, 0, 1]⟩] ∧
      (({ settings := .immediate } : Executor).run .paced
        (.ofGates 2 [.one .x ⟨1⟩, .two .cnot ⟨1⟩ (some ⟨0⟩)]) (.cancelAt (some 1))).1.outcome =
          .ok history ∧
      ∃ t, history.stateAt? 1 = some t ∧
        (({ settings := .immediate } : Executor).run .paced
          ((Circuit.ofGates 2 [.one .x ⟨1⟩, .two .cnot ⟨1⟩ (some ⟨0⟩)]).take 1)
          (.cancelAt (some 1))).1.outcome =
            .ok ⟨history.initial, #[⟨2, #[0, 0, 1, 0]⟩], t⟩ := by
  have h : (({ settings := .immediate } : Executor).run .paced
      (.ofGates 2 [.one .x ⟨1⟩, .two .cnot ⟨1⟩ (some ⟨0⟩)]) (.cancelAt (some 1))).1.outcome =
        .ok (⟨⟨2, #[1, 0, 0, 0]⟩, #[⟨2, #[0, 0, 1, 0]⟩, ⟨2, #[0, 0, 0, 1]⟩],
          ⟨2, #[0, 0, 0, 1]⟩⟩ : History Float) := rfl
  obtain ⟨t, ht, hfirst, -⟩ := (outcome_history h).2.2.2.2.2.2.2.2 1 (by decide)
  exact ⟨_, rfl, h, t, ht, hfirst⟩

end Executor

end Statevector
