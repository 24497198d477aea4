import Statevector.Proofs.Run.History

/-!
# Cancelled runs

* `Executor.flag_run`: the flag after a run; `Executor.actAll`: an executor after some actions;
  `Executor.cancelled_actAll`: only a reset clears its flag;
* `Executor.run_of_cancelled`: a run that finds its flag set does nothing;
  `Executor.pos_of_cancelled`: one that finds it clear goes through a gate before it is cancelled;
* `Observer.AsksFirstAt`: the observers that ask to cancel a run for the first time at a given step;
* `Executor.completed`: how many gates a run goes through under such an observer;
  **`Executor.run_of_asksFirstAt`**: it goes through as many;
* **`Executor.run_stops`**: how a run ends under such an observer, what the observer sees, and how
  long the flag stays set.
-/

namespace Statevector

variable {α : Type}

/-! ## The flag -/

namespace Executor

variable [Zero α] [One α] [Add α] [Sub α] [Mul α] [Neg α] [HalfRoot α]

omit [Zero α] [One α] in
/-- What every state taken in and every pause keep, the gates of a circuit keep. -/
theorem runGates_induction {P : Progress α → Prop} {watch : Observer α}
    (hrecord : ∀ p step t, P p → P (p.record watch step t)) (hpause : ∀ p ms, P p → P (p.pause ms))
    (e : Executor) (pace : Pace) (c : Circuit) {s : State α}
    (hstart : P { current := s, cancelled := e.cancelled }) :
    P (e.runGates pace c watch s).1 := by
  cases pace with
  | blocking => exact Progress.runBlocking_induction watch hrecord hstart 0 c.gateList
  | paced => exact Progress.runPaced_induction watch hrecord hpause _ hstart 0 c.gateList

/-- A run sets the flag if its observer asks for it, and changes nothing else of the executor. -/
theorem flag_run (e : Executor) (pace : Pace) (c : Circuit) (watch : Observer α) :
    (e.run pace c watch).2 = { e with
      cancelled := e.cancelled || (e.run pace c watch).1.observed.any fun x => watch x.1 x.2 } := by
  cases hs : (e.prepare c : Except Run.Fault (State α)) with
  | error fault => simp [run, hs]
  | ok s =>
    have hrecord (p : Progress α) (step : Nat) (t : State α)
        (hp : p.cancelled = (e.cancelled || p.observed.any fun x => watch x.1 x.2)) :
        (p.record watch step t).cancelled =
          (e.cancelled || (p.record watch step t).observed.any fun x => watch x.1 x.2) := by
      simp [Progress.record, hp, Bool.or_assoc]
    have hflag := runGates_induction hrecord (fun _ _ hp => hp) e pace c (s := s) (by simp)
    simp only [run, hs, hflag]

/-- An executor after some actions. -/
def actAll (e : Executor) (actions : List (Action α)) : Executor :=
  actions.foldl (fun e a => (e.act a).2) e

theorem settings_act (e : Executor) (a : Action α) : (e.act a).2.settings = e.settings := by
  cases a with
  | run pace c watch =>
    change (e.run pace c watch).2.settings = _
    rw [flag_run]
  | cancel => rfl
  | reset => rfl

theorem settings_actAll (e : Executor) (actions : List (Action α)) :
    (e.actAll actions).settings = e.settings := by
  induction actions generalizing e with
  | nil => rfl
  | cons a actions ih => exact (ih (e.act a).2).trans (settings_act e a)

/-- Only a reset clears the flag. -/
theorem cancelled_act {e : Executor} (he : e.cancelled = true) {a : Action α} (ha : a ≠ .reset) :
    (e.act a).2.cancelled = true := by
  cases a with
  | run pace c watch =>
    change (e.run pace c watch).2.cancelled = true
    rw [flag_run, he]
    rfl
  | cancel => rfl
  | reset => exact absurd rfl ha

theorem cancelled_actAll {e : Executor} (he : e.cancelled = true) {actions : List (Action α)}
    (hactions : .reset ∉ actions) : (e.actAll actions).cancelled = true := by
  induction actions generalizing e with
  | nil => exact he
  | cons a actions ih =>
    rw [List.mem_cons, not_or] at hactions
    exact ih (cancelled_act he (Ne.symm hactions.1)) hactions.2

/-- A run that finds its flag set does nothing. -/
theorem run_of_cancelled {e : Executor} (he : e.cancelled = true) {c : Circuit} {s : State α}
    (hs : e.prepare c = .ok s) (hgates : 1 ≤ c.gates.size) (pace : Pace) (watch : Observer α) :
    e.run pace c watch = ({ outcome := .error (.cancelled 0) }, e) := by
  have hstop : e.runGates pace c watch s =
      ({ current := s, cancelled := e.cancelled }, some (.cancelled 0)) := by
    rw [← c.length_gateList] at hgates
    obtain ⟨g, gs, hlist⟩ := List.exists_cons_of_length_pos hgates
    cases pace with
    | blocking =>
      rw [runGates, hlist, Progress.runBlocking, Progress.advance_of_cancelled watch he]
    | paced =>
      rw [runGates, hlist, Progress.runPaced, if_neg fun h => Nat.lt_irrefl 0 h.1,
        Progress.advance_of_cancelled watch he]
  simp only [run, hs, hstop]

/-- Only a run that starts is cancelled. -/
theorem exists_prepare_of_cancelled {e : Executor} {c : Circuit} {pace : Pace} {watch : Observer α}
    {k : Nat} (h : (e.run pace c watch).1.outcome = .error (.cancelled k)) :
    ∃ s : State α, e.prepare c = .ok s := by
  cases hs : (e.prepare c : Except Run.Fault (State α)) with
  | ok s => exact ⟨s, rfl⟩
  | error fault =>
    rw [run, hs] at h
    cases h
    unfold prepare at hs
    split at hs
    · cases hs
    · split at hs
      · cases hs
      · split at hs <;> cases hs

/-- A run that finds its flag clear goes through a gate before it is cancelled. -/
theorem pos_of_cancelled {e : Executor} (he : e.cancelled = false) {c : Circuit} {pace : Pace}
    {watch : Observer α} {k : Nat}
    (h : (e.run pace c watch).1.outcome = .error (.cancelled k)) : 0 < k := by
  obtain ⟨s, hs⟩ := exists_prepare_of_cancelled h
  obtain ⟨ts, ht⟩ := exists_trail hs
  obtain ⟨n, -, houtcome, -, -, hset⟩ := run_of_trail hs ht pace watch
  rw [houtcome] at h
  by_cases hlt : n < c.gateList.length
  · rw [if_pos hlt] at h
    cases h
    -- Before gate number zero nothing has been observed, so the flag is what it was.
    refine Nat.pos_of_ne_zero fun hzero => ?_
    subst hzero
    have hclear : e.flagAfter watch (ts.take 0) = false := by simp [flagAfter, he]
    rw [hclear] at hset
    cases hset hlt
  · rw [if_neg hlt] at h
    cases h

end Executor

/-! ## Observers that ask at a given step -/

/-- The observer asks to cancel the run at step `stop` whatever it sees there, and not before; if
`stop` is `none`, it never asks. -/
def Observer.AsksFirstAt (watch : Observer α) (stop : Option Nat) : Prop :=
  ∀ t k, (∀ c ∈ stop, k ≤ c) → watch t k = (stop == some k)

theorem Observer.asksFirstAt_cancelAt (stop : Option Nat) :
    (Observer.cancelAt stop : Observer α).AsksFirstAt stop := fun _ _ _ => rfl

namespace Executor

variable {e : Executor} {c : Circuit} {s : State α} {ts : List (State α)} {pace : Pace}
  {watch : Observer α} {stop : Option Nat}

/-- How many of some gates a run goes through if its observer asks first at step `stop`. -/
def completed (e : Executor) (stop : Option Nat) (gates : Nat) : Nat :=
  if e.cancelled then 0 else stop.elim gates fun k => min (k + 1) gates

theorem completed_le (e : Executor) (stop : Option Nat) (gates : Nat) :
    e.completed stop gates ≤ gates := by
  unfold completed
  split
  · exact Nat.zero_le gates
  · cases stop with
    | none => exact Nat.le_refl gates
    | some k => exact Nat.min_le_right (k + 1) gates

theorem completed_of_clear (he : e.cancelled = false) (stop : Option Nat) (gates : Nat) :
    e.completed stop gates = stop.elim gates fun k => min (k + 1) gates := by
  rw [completed, he, if_neg Bool.false_ne_true]

theorem completed_eq_self {gates : Nat}
    (h : gates = 0 ∨ (e.cancelled = false ∧ ∀ k, stop = some k → gates ≤ k + 1)) :
    e.completed stop gates = gates := by
  obtain hzero | ⟨he, hstop⟩ := h
  · exact Nat.le_antisymm (e.completed_le stop gates) (by omega)
  · rw [completed_of_clear he]
    cases stop with
    | none => rfl
    | some k => exact Nat.min_eq_right (hstop k rfl)

theorem flagAfter_take (hwatch : watch.AsksFirstAt stop) {j : Nat} (hj : j ≤ ts.length) :
    e.flagAfter watch (ts.take j) = (e.cancelled || stop.any (· < j)) := by
  refine congrArg (e.cancelled || ·) ?_
  cases stop with
  | none =>
    rw [Option.any_none, List.any_eq_false]
    rintro ⟨t, i⟩ -
    have hclear : watch t i = false := hwatch t i (by simp)
    simp [hclear]
  | some k =>
    by_cases hk : k < j
    · have hmem : (ts[k], k) ∈ (ts.take j).zipIdx := by
        rw [List.mem_zipIdx_iff_getElem?]
        simp [hk]
      have hasks : watch ts[k] k = true := by
        rw [hwatch ts[k] k (by simp)]
        simp
      rw [Option.any_some, decide_eq_true hk, List.any_eq_true]
      exact ⟨_, hmem, hasks⟩
    · rw [Option.any_some, decide_eq_false hk, List.any_eq_false]
      rintro ⟨t, i⟩ hmem
      have hi : i < j := by
        have hlt := List.snd_lt_of_mem_zipIdx hmem
        rw [List.length_take] at hlt
        omega
      have hclear : watch t i = false := by
        rw [hwatch t i (by simp; omega)]
        simp
        omega
      simp [hclear]

/-- A run that goes on as long as its flag is clear, and no longer, goes through this many. -/
theorem eq_completed {k gates : Nat} (hk : k ≤ gates)
    (hbefore : ∀ j < k, (e.cancelled || stop.any (· < j)) = false)
    (hafter : k < gates → (e.cancelled || stop.any (· < k)) = true) :
    k = e.completed stop gates := by
  cases he : e.cancelled with
  | true =>
    rw [completed, he, if_pos rfl]
    by_contra hne
    have hzero := hbefore 0 (Nat.pos_of_ne_zero hne)
    rw [he] at hzero
    cases hzero
  | false =>
    rw [completed_of_clear he]
    cases stop with
    | none =>
      simp only [he, Option.any_none, Bool.or_false, Bool.false_eq_true] at hafter
      exact Nat.le_antisymm hk (Nat.not_lt.mp hafter)
    | some c =>
      simp only [he, Option.any_some, Bool.false_or, decide_eq_false_iff_not,
        decide_eq_true_eq] at hbefore hafter
      have hle : k ≤ c + 1 := by
        by_contra hgt
        exact hbefore (c + 1) (by omega) (Nat.lt_succ_self c)
      rw [Option.elim_some]
      omega

variable [Zero α] [One α] [Add α] [Sub α] [Mul α] [Neg α] [HalfRoot α]

/-- **A run goes through its gates up to the one at which its observer asks first.** -/
theorem run_of_asksFirstAt (hs : e.prepare c = .ok s) (ht : State.Trail s c.gateList ts)
    (hwatch : watch.AsksFirstAt stop) (pace : Pace) :
    (e.run pace c watch).1.outcome = (if e.completed stop c.gates.size < c.gates.size
      then .error (.cancelled (e.completed stop c.gates.size)) else .ok (.ofTrail s ts)) ∧
    (e.run pace c watch).1.observed = (ts.take (e.completed stop c.gates.size)).zipIdx.toArray := by
  obtain ⟨k, hk, houtcome, hobserved, hbefore, hafter⟩ := run_of_trail hs ht pace watch
  have hlen := ht.length_eq
  rw [c.length_gateList] at hk houtcome hafter hlen
  have hflag (j : Nat) (hj : j ≤ c.gates.size) :
      e.flagAfter watch (ts.take j) = (e.cancelled || stop.any (· < j)) :=
    flagAfter_take hwatch (hj.trans_eq hlen.symm)
  have hcompleted : k = e.completed stop c.gates.size := by
    refine eq_completed hk (fun j hj => ?_) (fun hlt => ?_)
    · rw [← hflag j (hj.le.trans hk)]
      exact hbefore j hj
    · rw [← hflag k hk]
      exact hafter hlt
  rw [← hcompleted]
  exact ⟨houtcome, hobserved⟩

/-- The flag is set after a run if it was before or the observer came to ask. -/
theorem flag_of_asksFirstAt (hwatch : watch.AsksFirstAt stop) :
    (e.cancelled || (e.run pace c watch).1.observed.any fun x => watch x.1 x.2) =
      (e.cancelled || stop.any (· < (e.run pace c watch).1.observed.size)) := by
  cases hs : (e.prepare c : Except Run.Fault (State α)) with
  | error fault =>
    rw [run, hs]
    cases stop <;> simp
  | ok s =>
    obtain ⟨ts, ht⟩ := exists_trail hs
    have hle : e.completed stop c.gates.size ≤ ts.length := by
      rw [ht.length_eq, c.length_gateList]
      exact e.completed_le stop c.gates.size
    have hsize : (ts.take (e.completed stop c.gates.size)).zipIdx.toArray.size =
        e.completed stop c.gates.size := by simp [hle]
    rw [(run_of_asksFirstAt hs ht hwatch pace).2, List.any_toArray, hsize]
    exact flagAfter_take hwatch hle

/-- The uncancelled run with which a run is compared. -/
theorem run_reset_cancelAt (hs : e.prepare c = .ok s) (ht : State.Trail s c.gateList ts)
    (pace : Pace) :
    (e.reset.run pace c (.cancelAt none)).1.outcome = .ok (.ofTrail s ts) := by
  have hrun := (run_of_asksFirstAt (e := e.reset) hs ht (Observer.asksFirstAt_cancelAt none) pace).1
  rw [hrun]
  exact if_neg (Nat.lt_irrefl _)

/-- **A run stops at the first gate before which its flag is set.** With the flag set from the start
it does nothing; if its observer asks first after gate number `k`, and this is not the last gate, it
stops before the next one; otherwise it finishes. Its observer sees the first states of the
uncancelled run. The flag is set after it if it was before or the observer came to ask, it stays set
until it is cleared, and faults of the circuit are reported in spite of it. -/
theorem run_stops (e : Executor) (c : Circuit) (pace : Pace) {watch : Observer α}
    {stop : Option Nat} (hwatch : watch.AsksFirstAt stop) :
    (c.validate = .ok () → c.width ≤ e.limit → ∃ history : History α,
      (∀ pace', (e.reset.run pace' c (.cancelAt none)).1.outcome = .ok history) ∧
      history.states.size = c.gates.size ∧
      (e.cancelled = true → 1 ≤ c.gates.size →
        (e.run pace c watch).1.outcome = .error (.cancelled 0) ∧
        (e.run pace c watch).1.observed = #[]) ∧
      (∀ k, e.cancelled = false → stop = some k → k + 1 < c.gates.size →
        (e.run pace c watch).1.outcome = .error (.cancelled (k + 1)) ∧
        (e.run pace c watch).1.observed = (history.states.take (k + 1)).zipIdx) ∧
      (c.gates.size = 0 ∨ (e.cancelled = false ∧ ∀ k, stop = some k → c.gates.size ≤ k + 1) →
        (e.run pace c watch).1.outcome = .ok history ∧
        (e.run pace c watch).1.observed = history.states.zipIdx)) ∧
    (e.run pace c watch).2 = { e with
      cancelled := e.cancelled || stop.any (· < (e.run pace c watch).1.observed.size) } ∧
    (∀ actions : List (Action α), .reset ∉ actions → (e.run pace c watch).2.cancelled = true →
      ∀ c' pace' (watch' : Observer α), c'.validate = .ok () → c'.width ≤ e.limit →
        1 ≤ c'.gates.size → ((e.run pace c watch).2.actAll actions).run pace' c' watch' =
          ({ outcome := .error (.cancelled 0) }, (e.run pace c watch).2.actAll actions)) ∧
    (∀ fault, c.validate = .error fault →
      (e.run pace c watch).1.outcome = .error (.circuit fault) ∧
      (e.run pace c watch).1.observed = #[]) ∧
    (c.validate = .ok () → e.limit < c.width →
      (e.run pace c watch).1.outcome =
        .error (.state (.tooManyQubits c.width.toNat e.limit.toNat)) ∧
      (e.run pace c watch).1.observed = #[]) := by
  refine ⟨?ends, ?flag, ?later, ?invalid, ?wide⟩
  case ends =>
    intro hv hw
    have hs := prepare_of_narrow (α := α) hv hw
    obtain ⟨ts, ht⟩ := exists_trail hs
    obtain ⟨houtcome, hobserved⟩ := run_of_asksFirstAt hs ht hwatch pace
    have hlen : ts.length = c.gates.size := ht.length_eq.trans c.length_gateList
    refine ⟨_, run_reset_cancelAt hs ht, hlen, fun he hgates => ?_, fun k he hk hlt => ?_,
      fun hfinish => ?_⟩
    · rw [run_of_cancelled he hs hgates]
      exact ⟨rfl, rfl⟩
    · have hcompleted : e.completed stop c.gates.size = k + 1 := by
        rw [completed_of_clear he, hk, Option.elim_some]
        exact Nat.min_eq_left hlt.le
      rw [houtcome, hobserved, hcompleted, if_pos hlt]
      exact ⟨rfl, by simp [History.ofTrail]⟩
    · rw [houtcome, hobserved, completed_eq_self hfinish, if_neg (Nat.lt_irrefl _), ← hlen,
        List.take_length]
      exact ⟨rfl, by simp [History.ofTrail]⟩
  case flag => rw [flag_run, flag_of_asksFirstAt hwatch]
  case later =>
    intro actions hactions hset c' pace' watch' hv hw hgates
    have hsettings : ((e.run pace c watch).2.actAll actions).limit = e.limit := by
      rw [limit, settings_actAll, flag_run]
      rfl
    rw [← hsettings] at hw
    exact run_of_cancelled (cancelled_actAll hset hactions) (prepare_of_narrow hv hw) hgates pace'
      watch'
  case invalid =>
    intro fault hv
    rw [run, prepare_of_invalid hv]
    exact ⟨rfl, rfl⟩
  case wide =>
    intro hv hw
    rw [run, prepare_of_wide hv hw]
    exact ⟨rfl, rfl⟩

/-- A run of four gates that is cancelled after the second stops before the third. With the flag
set, a run of no gates finishes and leaves the flag set for a run of one gate, which stops before
it. -/
theorem run_stops_four_gates :
    (∃ history : History Float, history.states.size = 4 ∧
      (({ settings := .immediate } : Executor).run .paced
        (.ofGates 2 [.one .x ⟨0⟩, .one .h ⟨1⟩, .one .y ⟨1⟩, .one .z ⟨0⟩])
        (.cancelAt (some 1) : Observer Float)).1.outcome = .error (.cancelled 2) ∧
      (({ settings := .immediate } : Executor).run .paced
        (.ofGates 2 [.one .x ⟨0⟩, .one .h ⟨1⟩, .one .y ⟨1⟩, .one .z ⟨0⟩])
        (.cancelAt (some 1) : Observer Float)).1.observed = (history.states.take 2).zipIdx) ∧
    (∃ history : History Float,
      (({ settings := .immediate, cancelled := true } : Executor).run .blocking
        (.empty 1) (.cancelAt (some 7))).1.outcome = .ok history) ∧
    ({ settings := .immediate, cancelled := true } : Executor).run .blocking
      (.ofGates 1 [.one .x ⟨0⟩]) (.cancelAt none : Observer Float) =
        ({ outcome := .error (.cancelled 0) }, { settings := .immediate, cancelled := true }) := by
  refine ⟨?_, ?_, ?_⟩
  · obtain ⟨history, -, hsize, -, hstop, -⟩ := (run_stops { settings := .immediate }
      (.ofGates 2 [.one .x ⟨0⟩, .one .h ⟨1⟩, .one .y ⟨1⟩, .one .z ⟨0⟩]) .paced
      (Observer.asksFirstAt_cancelAt (α := Float) (some 1))).1 (by decide) (by decide)
    exact ⟨history, hsize, hstop 1 rfl rfl (by decide)⟩
  · obtain ⟨history, -, -, -, -, hfinish⟩ := (run_stops
      { settings := .immediate, cancelled := true } (.empty 1) .blocking
      (Observer.asksFirstAt_cancelAt (α := Float) (some 7))).1 (by decide) (by decide)
    exact ⟨history, (hfinish (.inl rfl)).1⟩
  · exact (run_stops { settings := .immediate, cancelled := true } (.empty 1) .blocking
      (Observer.asksFirstAt_cancelAt (α := Float) (some 7))).2.2.1 [.cancel] (by simp) rfl
      (.ofGates 1 [.one .x ⟨0⟩]) .blocking (.cancelAt none) (by decide) (by decide) (by decide)

end Executor

end Statevector
