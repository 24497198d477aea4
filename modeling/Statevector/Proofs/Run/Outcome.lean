import Statevector.Proofs.Run.Executor

/-!
# Outcomes of runs

* `Executor.outcome_eq_circuit_iff`, `Executor.outcome_eq_state_iff`, `Executor.outcome_isOk_iff`:
  when a run fails for its circuit, when for its states, and when it finishes;
* `Executor.exists_step`: no step of a run can fail, and what is known before it;
* `Circuit.exists_rejected`: the first gate with a fault is the first that a state refuses;
* **`Executor.outcome_validate`**: checking a circuit and running it agree.
-/

namespace Statevector

variable {α : Type}

namespace Executor

variable {e : Executor} {c : Circuit} {pace : Pace} {watch : Observer α}

theorem flagAfter_eq_false_iff {ts : List (State α)} : e.flagAfter watch ts = false ↔
    e.cancelled = false ∧ ∀ x ∈ ts.zipIdx, watch x.1 x.2 = false := by
  simp [flagAfter]

variable [Zero α] [One α] [Add α] [Sub α] [Mul α] [Neg α] [HalfRoot α]

/-! ## How a run ends -/

theorem outcome_of_invalid {fault : Circuit.Fault} (h : c.validate = .error fault) :
    (e.run pace c watch).1.outcome = .error (.circuit fault) := by
  rw [run, prepare_of_invalid h]

theorem outcome_of_wide (h : c.validate = .ok ()) (hw : e.limit < c.width) :
    (e.run pace c watch).1.outcome =
      .error (.state (.tooManyQubits c.width.toNat e.limit.toNat)) := by
  rw [run, prepare_of_wide h hw]

/-- A circuit that can be run is run to its end, or until it is cancelled. -/
theorem outcome_of_narrow (h : c.validate = .ok ()) (hw : c.width ≤ e.limit) (pace : Pace)
    (watch : Observer α) : (∃ k, (e.run pace c watch).1.outcome = .error (.cancelled k)) ∨
      ∃ history, (e.run pace c watch).1.outcome = .ok history := by
  have hs := prepare_of_narrow (α := α) h hw
  obtain ⟨ts, ht⟩ := exists_trail hs
  obtain ⟨k, -, houtcome, -⟩ := run_of_trail hs ht pace watch
  rw [houtcome]
  split
  · exact .inl ⟨k, rfl⟩
  · exact .inr ⟨_, rfl⟩

theorem outcome_eq_circuit_iff {fault : Circuit.Fault} :
    (e.run pace c watch).1.outcome = .error (.circuit fault) ↔ c.validate = .error fault := by
  cases hv : c.validate with
  | error fault' =>
    rw [outcome_of_invalid hv]
    simp
  | ok _ =>
    by_cases hw : c.width ≤ e.limit
    · obtain ⟨k, hk⟩ | ⟨history, hh⟩ := outcome_of_narrow hv hw pace watch
      · simp [hk]
      · simp [hh]
    · rw [outcome_of_wide hv (UInt32.not_le.mp hw)]
      simp

theorem outcome_eq_state_iff {fault : State.Fault} :
    (e.run pace c watch).1.outcome = .error (.state fault) ↔ c.validate = .ok () ∧
      e.limit < c.width ∧ fault = .tooManyQubits c.width.toNat e.limit.toNat := by
  cases hv : c.validate with
  | error fault' =>
    rw [outcome_of_invalid hv]
    simp
  | ok _ =>
    by_cases hw : c.width ≤ e.limit
    · have hnot : ¬ e.limit < c.width := UInt32.not_lt.mpr hw
      obtain ⟨k, hk⟩ | ⟨history, hh⟩ := outcome_of_narrow hv hw pace watch
      · simp [hk, hnot]
      · simp [hh, hnot]
    · have hw : e.limit < c.width := UInt32.not_le.mp hw
      rw [outcome_of_wide hv hw]
      simp [hw, eq_comm]

theorem outcome_isOk_iff (he : e.cancelled = false)
    (hwatch : ∀ x ∈ (e.run pace c watch).1.observed, watch x.1 x.2 = false) :
    (∃ history, (e.run pace c watch).1.outcome = .ok history) ↔
      c.validate = .ok () ∧ c.width ≤ e.limit := by
  constructor
  · rintro ⟨history, hh⟩
    cases hv : c.validate with
    | error fault =>
      rw [outcome_of_invalid hv] at hh
      cases hh
    | ok _ =>
      refine ⟨rfl, UInt32.not_lt.mp fun hw => ?_⟩
      rw [outcome_of_wide hv hw] at hh
      cases hh
  · rintro ⟨hv, hw⟩
    have hs := prepare_of_narrow (α := α) hv hw
    obtain ⟨ts, ht⟩ := exists_trail hs
    obtain ⟨k, -, houtcome, hobserved, -, hafter⟩ := run_of_trail hs ht pace watch
    rw [hobserved] at hwatch
    have hflag : e.flagAfter watch (ts.take k) = false :=
      flagAfter_eq_false_iff.mpr ⟨he, by simpa using hwatch⟩
    rw [hflag] at hafter
    rw [houtcome, if_neg fun hlt => by cases hafter hlt]
    exact ⟨_, rfl⟩

/-! ## Steps -/

/-- No step of a run can fail: the state before it has an amplitude for every basis index, and its
gate names only qubits of that state. -/
theorem exists_step {s : State α} (hs : e.prepare c = .ok s) {k : Nat} {g : Gate}
    (hk : c.gateList[k]? = some g) : ∃ t u,
      (c.gateList.take k).foldlM State.apply s = .ok t ∧ t.apply g = .ok u ∧ t.IsFull ∧
      t.width = c.width.toNat ∧ ∀ q ∈ g.qubits, q.index.toNat < t.width := by
  obtain ⟨ts, ht⟩ := exists_trail hs
  obtain ⟨hfull, hwidth⟩ := isFull_of_prepare hs
  obtain ⟨t, u, hbefore, -, happly⟩ := ht.getElem? hk
  obtain ⟨htfull, htwidth⟩ := ht.isFull hfull (List.mem_of_getElem? hbefore)
  refine ⟨t, u, ht.foldlM_take hbefore, happly, htfull, htwidth.trans hwidth, ?_⟩
  rw [htwidth]
  exact (fits_of_prepare hs g (List.mem_of_getElem? hk)).lt

end Executor

/-! ## Gates with a fault -/

variable [Zero α] [One α] [Add α] [Sub α] [Mul α] [Neg α] [HalfRoot α]

/-- The first gate with a fault is the first gate that a state refuses. -/
theorem Circuit.exists_rejected {c : Circuit} (hw : c.width ≠ 0) (hmax : c.width.toNat ≤ maxWidth)
    (hop : ∀ g ∈ c.gateList, g.lacksOperand = false) {fault : Fault}
    (h : c.validate = .error fault) : ∃ s : State α, State.zero? c.width.toNat = .ok s ∧
      ∃ pre g post t e, c.gateList = pre ++ g :: post ∧
        (∀ g' ∈ pre, checkGate c.width g' = .ok ()) ∧ checkGate c.width g = .error fault ∧
        pre.foldlM State.apply s = .ok t ∧ t.apply g = .error e ∧
        c.gateList.foldlM State.apply s = .error e := by
  have hlt : c.width.toNat < indexBits := hmax.trans_lt (by decide)
  obtain ⟨pre, g, post, hsplit, hpre, hg⟩ := (validate_eq_error_iff hw).mp h
  have hfull : (State.ground c.width.toNat : State α).IsFull := State.isFull_ground hlt
  obtain ⟨ts, ht⟩ := hfull.exists_trail fun g' hg' => checkGate_eq_ok_iff_fits.mp (hpre g' hg')
  have hfold := ht.foldlM_eq
  have hnot : ¬ g.Fits c.width.toNat := by
    rw [← checkGate_eq_ok_iff_fits, hg]
    exact fun h => by cases h
  obtain ⟨htfull, htwidth⟩ := hfull.of_foldlM hfold
  obtain ⟨e, he⟩ := htfull.exists_error (by rw [htwidth]; exact hnot)
    (hop g (by rw [hsplit]; simp))
  refine ⟨_, State.zero?_eq_ok hmax, pre, g, post, _, e, hsplit, hpre, hg, hfold, he, ?_⟩
  rw [hsplit]
  exact State.foldlM_append_eq_error hfold he

namespace Executor

/-- **Checking a circuit and running it agree.** A run fails for its circuit exactly if the circuit
has that fault, otherwise for its states exactly if the circuit is too wide, and otherwise finishes
unless it is cancelled. No step can fail, and all operands fit in an index. Conversely, gates with a
fault cannot be applied: the first of them is the first that a state refuses. -/
theorem outcome_validate (e : Executor) (c : Circuit) (pace : Pace) (watch : Observer α) :
    (∀ fault, (e.run pace c watch).1.outcome = .error (.circuit fault) ↔
      c.validate = .error fault) ∧
    (∀ fault, (e.run pace c watch).1.outcome = .error (.state fault) ↔ c.validate = .ok () ∧
      e.limit < c.width ∧ fault = .tooManyQubits c.width.toNat e.limit.toNat) ∧
    (e.cancelled = false → (∀ x ∈ (e.run pace c watch).1.observed, watch x.1 x.2 = false) →
      ((∃ history, (e.run pace c watch).1.outcome = .ok history) ↔
        c.validate = .ok () ∧ c.width ≤ e.limit)) ∧
    (∀ s : State α, e.prepare c = .ok s → ∀ k g, c.gateList[k]? = some g → ∃ t u,
      (c.gateList.take k).foldlM State.apply s = .ok t ∧ t.apply g = .ok u ∧ t.IsFull ∧
      t.width = c.width.toNat ∧ t.width < indexBits ∧
      ∀ q ∈ g.qubits, q.index.toNat < t.width) ∧
    (c.width ≠ 0 → c.width.toNat ≤ maxWidth → (∀ g ∈ c.gateList, g.lacksOperand = false) →
      ∀ fault, c.validate = .error fault → ∃ s : State α, State.zero? c.width.toNat = .ok s ∧
        ∃ pre g post t refusal, c.gateList = pre ++ g :: post ∧
          (∀ g' ∈ pre, Circuit.checkGate c.width g' = .ok ()) ∧
          Circuit.checkGate c.width g = .error fault ∧
          pre.foldlM State.apply s = .ok t ∧ t.apply g = .error refusal ∧
          c.gateList.foldlM State.apply s = .error refusal) := by
  refine ⟨fun _ => outcome_eq_circuit_iff, fun _ => outcome_eq_state_iff, outcome_isOk_iff, ?_,
    fun hw hmax hop _ h => Circuit.exists_rejected hw hmax hop h⟩
  intro s hs k g hk
  obtain ⟨t, u, hfold, happly, hfull, hwidth, hlt⟩ := exists_step hs hk
  exact ⟨t, u, hfold, happly, hfull, hwidth, hfull.1, hlt⟩

/-- A circuit with a gate on each pair of three qubits runs; one whose second gate names a qubit
twice, and whose third names a qubit that there is not, stops being applied at the second. -/
theorem outcome_validate_three_qubits :
    (∃ history : History Float, (({ settings := .immediate } : Executor).run .paced
      (.ofGates 3 [.one .h ⟨0⟩, .two .cnot ⟨0⟩ (some ⟨2⟩), .two .swap ⟨2⟩ (some ⟨1⟩)])
      (.cancelAt none)).1.outcome = .ok history) ∧
    ∃ s : State Float, State.zero? 3 = .ok s ∧ ∃ pre g post t refusal,
      [.one .x ⟨0⟩, .two .cnot ⟨1⟩ (some ⟨1⟩), .one .z ⟨3⟩] = pre ++ g :: post ∧
      (∀ g' ∈ pre, Circuit.checkGate 3 g' = .ok ()) ∧
      Circuit.checkGate 3 g = .error (.repeatedQubit (.two .cnot) ⟨1⟩) ∧
      pre.foldlM State.apply s = .ok t ∧ t.apply g = .error refusal ∧
      [.one .x ⟨0⟩, .two .cnot ⟨1⟩ (some ⟨1⟩), .one .z ⟨3⟩].foldlM State.apply s =
        .error refusal :=
  ⟨((outcome_validate _ _ .paced _).2.2.1 rfl fun _ _ => rfl).mpr ⟨by decide, by decide⟩,
    (outcome_validate { settings := .immediate }
      (.ofGates 3 [.one .x ⟨0⟩, .two .cnot ⟨1⟩ (some ⟨1⟩), .one .z ⟨3⟩]) .blocking
      (.cancelAt none)).2.2.2.2 (by decide) (by decide) (by decide) _ (by decide)⟩

end Executor

end Statevector
