import Statevector.Proofs.Circuit.Operands
import Statevector.Proofs.Run.Progress

/-!
# Runs of executors

* `Circuit.checkGate_eq_ok_iff_fits`: the gates without a fault are those that fit;
* `Executor.prepare_eq_ok_iff`: which circuits a run starts for, and in which state;
  `Executor.exists_trail`: their gates lead on from it;
* `History.ofTrail`: the history with the states of a trail;
* `Executor.flagAfter`: whether the flag is set once some states have been observed;
* **`Executor.run_of_trail`**: a run goes through its gates until its flag is set;
  `Executor.run_of_trails`: two runs that are cancelled alike;
  `Executor.run_of_flagAfter`, `Executor.exists_ofTrail`: the runs that finish;
  `Executor.error_cases`: the runs that do not.
-/

namespace Statevector

/-- A circuit asks of the operands of its gates what a state of its width asks of them. -/
theorem Circuit.checkGate_eq_ok_iff_fits {width : UInt32} {g : Gate} :
    checkGate width g = .ok () ↔ g.Fits width.toNat := by
  rw [checkGate_eq_ok_iff]
  simp only [UInt32.lt_iff_toNat_lt]
  exact ⟨fun h => ⟨h.1, h.2⟩, fun h => ⟨h.lt, h.repeated⟩⟩

/-- The history that starts at `s` and goes through the states `ts`. -/
def History.ofTrail {α : Type} (s : State α) (ts : List (State α)) : History α :=
  ⟨s, ts.toArray, ts.getLast?.getD s⟩

namespace Executor

variable {α : Type} {e : Executor} {c : Circuit}

/-! ## The start of a run -/

theorem limit_le (e : Executor) : e.limit.toNat ≤ maxWidth := by
  change (if e.settings.maxQubits ≤ widthLimit then _ else widthLimit).toNat ≤ _
  split
  · next h => exact UInt32.le_iff_toNat_le.mp h
  · decide

theorem toNat_width_le (h : c.width ≤ e.limit) : c.width.toNat ≤ maxWidth :=
  (UInt32.le_iff_toNat_le.mp h).trans e.limit_le

theorem toNat_width_lt (h : c.width ≤ e.limit) : c.width.toNat < indexBits :=
  (toNat_width_le h).trans_lt (by decide)

section Prepare

variable [Zero α] [One α]

theorem prepare_of_invalid {fault : Circuit.Fault} (h : c.validate = .error fault) :
    (e.prepare c : Except Run.Fault (State α)) = .error (.circuit fault) := by
  rw [prepare, h]

theorem prepare_of_wide (h : c.validate = .ok ()) (hw : e.limit < c.width) :
    (e.prepare c : Except Run.Fault (State α)) =
      .error (.state (.tooManyQubits c.width.toNat e.limit.toNat)) := by
  rw [prepare, h]
  exact if_pos hw

theorem prepare_of_narrow (h : c.validate = .ok ()) (hw : c.width ≤ e.limit) :
    e.prepare c = .ok (State.ground c.width.toNat : State α) := by
  rw [prepare, h]
  change (if e.limit < c.width then _ else _) = _
  rw [if_neg (UInt32.not_lt.mpr hw), State.zero?_eq_ok (toNat_width_le hw)]

theorem prepare_eq_ok_iff {s : State α} : e.prepare c = .ok s ↔
    c.validate = .ok () ∧ c.width ≤ e.limit ∧ s = State.ground c.width.toNat := by
  constructor
  · intro h
    cases hv : c.validate with
    | error fault =>
      rw [prepare_of_invalid hv] at h
      cases h
    | ok _ =>
      by_cases hw : c.width ≤ e.limit
      · rw [prepare_of_narrow hv hw] at h
        cases h
        exact ⟨rfl, hw, rfl⟩
      · rw [prepare_of_wide hv (UInt32.not_le.mp hw)] at h
        cases h
  · rintro ⟨hv, hw, rfl⟩
    exact prepare_of_narrow hv hw

theorem isFull_of_prepare {s : State α} (h : e.prepare c = .ok s) :
    s.IsFull ∧ s.width = c.width.toNat := by
  obtain ⟨-, hw, rfl⟩ := prepare_eq_ok_iff.mp h
  exact ⟨State.isFull_ground (toNat_width_lt hw), rfl⟩

theorem zero?_of_prepare {s : State α} (h : e.prepare c = .ok s) :
    State.zero? c.width.toNat = .ok s := by
  obtain ⟨-, hw, rfl⟩ := prepare_eq_ok_iff.mp h
  exact State.zero?_eq_ok (toNat_width_le hw)

/-- The gates of a circuit that can be run fit the state in which the run starts. -/
theorem fits_of_prepare {s : State α} (h : e.prepare c = .ok s) :
    ∀ g ∈ c.gateList, g.Fits s.width := by
  obtain ⟨hv, -, -⟩ := prepare_eq_ok_iff.mp h
  rw [(isFull_of_prepare h).2]
  intro g hg
  exact Circuit.checkGate_eq_ok_iff_fits.mp ((Circuit.validate_eq_ok_iff.mp hv).2 g hg)

end Prepare

variable [Zero α] [One α] [Add α] [Sub α] [Mul α] [Neg α] [HalfRoot α]

/-- **All gates of a circuit that can be run succeed.** -/
theorem exists_trail {s : State α} (h : e.prepare c = .ok s) :
    ∃ ts, State.Trail s c.gateList ts :=
  (isFull_of_prepare h).1.exists_trail (fits_of_prepare h)

/-! ## The rest of a run -/

/-- Whether the flag is set once the states `ts` have been observed. -/
def flagAfter (e : Executor) (watch : Observer α) (ts : List (State α)) : Bool :=
  e.cancelled || ts.zipIdx.any fun (t, k) => watch t k

variable {s : State α} {ts : List (State α)} {pace : Pace} {watch : Observer α}

omit [Zero α] [One α] in
/-- At both paces a run takes in the same states, and ends in the same way. -/
theorem runGates_of_trail (h : State.Trail s c.gateList ts) (pace : Pace) (watch : Observer α) :
    ∃ k ≤ c.gateList.length,
      (e.runGates pace c watch s).1.unpaced =
        (Progress.follow watch { current := s, cancelled := e.cancelled } 0 (ts.take k)).unpaced ∧
      (e.runGates pace c watch s).2 =
        (if k < c.gateList.length then some (.cancelled k) else none) ∧
      (∀ j < k, e.flagAfter watch (ts.take j) = false) ∧
      (k < c.gateList.length → e.flagAfter watch (ts.take k) = true) := by
  obtain ⟨k, hk, hrun, hbefore, hafter⟩ := Progress.runBlocking_of_trail watch
    (p := { current := s, cancelled := e.cancelled }) h 0
  simp only [Progress.cancelled_follow] at hbefore hafter
  rw [Nat.zero_add] at hrun
  refine ⟨k, hk, ?_, ?_, hbefore, hafter⟩
  · cases pace with
    | blocking => rw [runGates, hrun]
    | paced =>
      have hpaced := (Progress.runPaced_unpaced watch e.settings.stepDelay.toNat
        { current := s, cancelled := e.cancelled } 0 c.gateList).1
      calc (e.runGates .paced c watch s).1.unpaced
          = (e.runGates .paced c watch s).1.unpaced.unpaced := rfl
        _ = (e.runGates .blocking c watch s).1.unpaced := congrArg Progress.unpaced hpaced
        _ = _ := congrArg (fun r => r.1.unpaced) hrun
  · cases pace with
    | blocking => rw [runGates, hrun]
    | paced =>
      have hpaced := (Progress.runPaced_unpaced watch e.settings.stepDelay.toNat
        { current := s, cancelled := e.cancelled } 0 c.gateList).2
      rw [runGates, hpaced]
      exact congrArg Prod.snd hrun

/-- **A run goes through its gates until its flag is set.** -/
theorem run_of_trail (hs : e.prepare c = .ok s) (ht : State.Trail s c.gateList ts) (pace : Pace)
    (watch : Observer α) : ∃ k ≤ c.gateList.length,
      (e.run pace c watch).1.outcome = (if k < c.gateList.length then .error (.cancelled k)
        else .ok (.ofTrail s ts)) ∧
      (e.run pace c watch).1.observed = (ts.take k).zipIdx.toArray ∧
      (∀ j < k, e.flagAfter watch (ts.take j) = false) ∧
      (k < c.gateList.length → e.flagAfter watch (ts.take k) = true) := by
  obtain ⟨k, hk, hprogress, hfault, hbefore, hafter⟩ := runGates_of_trail (e := e) ht pace watch
  have hcurrent := congrArg Progress.current hprogress
  have hstates := congrArg Progress.states hprogress
  have hobserved := congrArg Progress.observed hprogress
  simp only [Progress.unpaced, Progress.current_follow, Progress.states_follow,
    Progress.observed_follow, Array.empty_append] at hcurrent hstates hobserved
  refine ⟨k, hk, ?_, ?_, hbefore, hafter⟩
  · simp only [run, hs, hfault, hcurrent, hstates]
    by_cases hlt : k < c.gateList.length
    · rw [if_pos hlt, if_pos hlt]
    · rw [if_neg hlt, if_neg hlt, List.take_of_length_le (by rw [ht.length_eq]; omega)]
      rfl
  · simp only [run, hs, hobserved]

/-- Two runs stop at the same gate if their flags are set at the same gates. -/
theorem eq_of_first {flag : Nat → Bool} {count k l : Nat} (hk : k ≤ count) (hl : l ≤ count)
    (hbefore : ∀ j < k, flag j = false) (hafter : k < count → flag k = true)
    (hbefore' : ∀ j < l, flag j = false) (hafter' : l < count → flag l = true) : k = l := by
  rcases Nat.lt_trichotomy k l with h | h | h
  · exact absurd (hafter (by omega)) (by simp [hbefore' k h])
  · exact h
  · exact absurd (hafter' (by omega)) (by simp [hbefore l h])

/-- Two runs stop at the same gate if their flags are set after the same numbers of gates. -/
theorem run_of_trails {c' : Circuit} {s' : State α} {ts' : List (State α)} {watch' : Observer α}
    (hs : e.prepare c = .ok s) (ht : State.Trail s c.gateList ts) (hs' : e.prepare c' = .ok s')
    (ht' : State.Trail s' c'.gateList ts') (hlen : c'.gateList.length = c.gateList.length)
    (hflag : ∀ j, e.flagAfter watch' (ts'.take j) = e.flagAfter watch (ts.take j)) (pace : Pace) :
    ∃ k, (e.run pace c watch).1.outcome = (if k < c.gateList.length then .error (.cancelled k)
        else .ok (.ofTrail s ts)) ∧
      (e.run pace c watch).1.observed = (ts.take k).zipIdx.toArray ∧
      (e.run pace c' watch').1.outcome = (if k < c.gateList.length then .error (.cancelled k)
        else .ok (.ofTrail s' ts')) ∧
      (e.run pace c' watch').1.observed = (ts'.take k).zipIdx.toArray := by
  obtain ⟨k, hk, houtcome, hobserved, hbefore, hafter⟩ := run_of_trail hs ht pace watch
  obtain ⟨l, hl, houtcome', hobserved', hbefore', hafter'⟩ := run_of_trail hs' ht' pace watch'
  simp only [hflag] at hbefore' hafter'
  rw [hlen] at hl houtcome' hafter'
  obtain rfl : k = l := eq_of_first hk hl hbefore hafter hbefore' hafter'
  exact ⟨k, houtcome, hobserved, houtcome', hobserved'⟩

/-- A run finishes if its flag is not set before the last gate. -/
theorem run_of_flagAfter (hs : e.prepare c = .ok s) (ht : State.Trail s c.gateList ts)
    (hflag : ∀ j < c.gateList.length, e.flagAfter watch (ts.take j) = false) (pace : Pace) :
    (e.run pace c watch).1.outcome = .ok (.ofTrail s ts) := by
  obtain ⟨k, -, houtcome, -, -, hafter⟩ := run_of_trail hs ht pace watch
  rw [houtcome, if_neg]
  intro hlt
  rw [hflag k hlt] at hafter
  cases hafter hlt

/-- The history of a run that finishes, and what its observer has seen. -/
theorem exists_ofTrail {history : History α} (h : (e.run pace c watch).1.outcome = .ok history) :
    ∃ s ts, e.prepare c = .ok s ∧ State.Trail s c.gateList ts ∧ history = .ofTrail s ts ∧
      (e.run pace c watch).1.observed = ts.zipIdx.toArray ∧
      ∀ j < c.gateList.length, e.flagAfter watch (ts.take j) = false := by
  cases hs : (e.prepare c : Except Run.Fault (State α)) with
  | error fault =>
    rw [run, hs] at h
    cases h
  | ok s =>
    obtain ⟨ts, ht⟩ := exists_trail hs
    obtain ⟨k, hk, houtcome, hobserved, hbefore, -⟩ := run_of_trail hs ht pace watch
    rw [houtcome] at h
    by_cases hlt : k < c.gateList.length
    · rw [if_pos hlt] at h
      cases h
    · have hall : k = c.gateList.length := by omega
      subst hall
      rw [if_neg hlt] at h
      rw [List.take_of_length_le ht.length_eq.le] at hobserved
      cases h
      exact ⟨s, ts, rfl, ht, rfl, hobserved, hbefore⟩

/-- A run fails for its circuit, for its states, or by being cancelled before one of its gates. -/
theorem error_cases {fault : Run.Fault} (h : (e.run pace c watch).1.outcome = .error fault) :
    (∃ f, fault = .circuit f) ∨ (∃ f, fault = .state f) ∨
      ∃ k < c.gates.size, fault = .cancelled k ∧ (e.run pace c watch).1.observed.size = k := by
  cases hv : c.validate with
  | error f =>
    rw [run, prepare_of_invalid hv] at h
    cases h
    exact .inl ⟨f, rfl⟩
  | ok _ =>
    by_cases hw : c.width ≤ e.limit
    · have hs := prepare_of_narrow (α := α) hv hw
      obtain ⟨ts, ht⟩ := exists_trail hs
      obtain ⟨k, hk, houtcome, hobserved, -⟩ := run_of_trail hs ht pace watch
      rw [houtcome] at h
      by_cases hlt : k < c.gateList.length
      · rw [if_pos hlt] at h
        cases h
        refine .inr (.inr ⟨k, hlt.trans_eq c.length_gateList, rfl, ?_⟩)
        rw [hobserved]
        simp [ht.length_eq, hk]
      · rw [if_neg hlt] at h
        cases h
    · rw [run, prepare_of_wide hv (UInt32.not_le.mp hw)] at h
      cases h
      exact .inr (.inl ⟨_, rfl⟩)

end Executor

end Statevector
