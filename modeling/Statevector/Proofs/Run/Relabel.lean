import Mathlib.Logic.Equiv.Fin.Rotate
import Statevector.Proofs.Run.History
import Statevector.Proofs.State.Relabel

/-!
# Runs with renamed qubits

* `Circuit.permute`, `History.permute`, `Observer.permute`: circuits, histories and observers with
  their qubits renamed; `Circuit.validate_permute`: circuits without a fault stay so;
* `Executor.trail_permute`, **`Executor.run_renamed`**: the renamed circuit leads through the
  renamed states, and so does every run of it;
* **`Executor.run_permute`**: renaming the qubits renames what a gate does, and what a run does.
-/

namespace Statevector

variable {α : Type} {n : Nat}

/-! ## Circuits, observers and histories -/

namespace Circuit

variable {c : Circuit}

/-- A circuit with its qubits renamed. -/
def permute (c : Circuit) (p : Equiv.Perm (Fin c.width.toNat)) : Circuit :=
  { c with gates := c.gates.map fun x => { x with gate := x.gate.permute p } }

variable {p : Equiv.Perm (Fin c.width.toNat)}

@[simp] theorem width_permute : (c.permute p).width = c.width := rfl

theorem gateList_permute : (c.permute p).gateList = c.gateList.map (Gate.permute p) := by
  simp [gateList, permute, Function.comp_def]

theorem validate_permute (h : c.validate = .ok ()) : (c.permute p).validate = .ok () := by
  rw [validate_eq_ok_iff] at h ⊢
  refine ⟨h.1, ?_⟩
  rw [gateList_permute, List.forall_mem_map]
  intro g hg
  rw [width_permute, checkGate_eq_ok_iff_fits]
  exact (checkGate_eq_ok_iff_fits.mp (h.2 g hg)).permute c.width.toNat_lt.le

end Circuit

/-- An observer that is shown renamed states. -/
def Observer.permute (p : Equiv.Perm (Fin n)) (watch : Observer α) : Observer α :=
  fun t k => watch (t.permute p) k

namespace History

/-- A history with the qubits of its states renamed. -/
def permute (p : Equiv.Perm (Fin n)) (h : History α) : History α :=
  ⟨h.initial.permute p, h.states.map (State.permute p), h.final.permute p⟩

variable {p : Equiv.Perm (Fin n)}

theorem permute_ofTrail (s : State α) (ts : List (State α)) :
    (ofTrail s ts).permute p = ofTrail (s.permute p) (ts.map (State.permute p)) := by
  cases h : ts.getLast? <;> simp [permute, ofTrail, h]

theorem stateAt?_permute (h : History α) (k : Nat) :
    (h.permute p).stateAt? k = (h.stateAt? k).map (State.permute p) := by
  cases k with
  | zero => rfl
  | succ k => simp [stateAt?, permute]

end History

/-! ## Runs -/

namespace Executor

variable {e : Executor} {c : Circuit} {watch : Observer α}

theorem flagAfter_permute (p : Equiv.Perm (Fin n)) (ts : List (State α)) :
    e.flagAfter watch (ts.map (State.permute p)) = e.flagAfter (watch.permute p) ts := by
  simp [flagAfter, Observer.permute, List.zipIdx_map, Function.comp_def]

variable [Zero α] [One α] [Add α] [Sub α] [Mul α] [Neg α] [HalfRoot α]

omit [Add α] [Sub α] [Mul α] [Neg α] [HalfRoot α] in
theorem prepare_permute {s : State α} (h : e.prepare c = .ok s)
    (p : Equiv.Perm (Fin c.width.toNat)) : e.prepare (c.permute p) = .ok (s.permute p) := by
  obtain ⟨hv, hw, rfl⟩ := prepare_eq_ok_iff.mp h
  rw [State.permute_ground]
  exact prepare_of_narrow (Circuit.validate_permute hv) hw

/-- The gates of the renamed circuit lead through the renamed states. -/
theorem trail_permute {s : State α} {ts : List (State α)} (hs : e.prepare c = .ok s)
    (ht : State.Trail s c.gateList ts) (p : Equiv.Perm (Fin c.width.toNat)) :
    State.Trail (s.permute p) (c.permute p).gateList (ts.map (State.permute p)) := by
  obtain ⟨hfull, hwidth⟩ := isFull_of_prepare hs
  rw [Circuit.gateList_permute]
  exact ht.permute hfull hwidth (hwidth ▸ fits_of_prepare hs)

/-- **A run of the renamed circuit is the renamed run of the circuit.** Both runs stop at the same
gate if the one observer asks of the states what the other asks of the renamed states. -/
theorem run_renamed (hv : c.validate = .ok ()) (p : Equiv.Perm (Fin c.width.toNat)) (pace : Pace) :
    (e.run pace (c.permute p) watch).1.outcome =
        (e.run pace c (watch.permute p)).1.outcome.map (History.permute p) ∧
      (e.run pace (c.permute p) watch).1.observed =
        (e.run pace c (watch.permute p)).1.observed.map (Prod.map (State.permute p) id) := by
  by_cases hw : c.width ≤ e.limit
  · have hs := prepare_of_narrow (α := α) hv hw
    obtain ⟨ts, ht⟩ := exists_trail hs
    have hlen : (c.permute p).gateList.length = c.gateList.length := by
      rw [Circuit.gateList_permute, List.length_map]
    have hflag (j : Nat) : e.flagAfter watch ((ts.map (State.permute p)).take j) =
        e.flagAfter (watch.permute p) (ts.take j) := by
      rw [← List.map_take, flagAfter_permute]
    obtain ⟨k, houtcome, hobserved, houtcome', hobserved'⟩ :=
      run_of_trails hs ht (prepare_permute hs p) (trail_permute hs ht p) hlen hflag pace
    constructor
    · rw [houtcome, houtcome', ← History.permute_ofTrail]
      split <;> rfl
    · rw [hobserved, hobserved', ← List.map_take, List.zipIdx_map, List.map_toArray]
  · have hw : e.limit < c.width := UInt32.not_le.mp hw
    simp [run, prepare_of_wide hv hw, prepare_of_wide (Circuit.validate_permute hv) hw, Except.map]

/-- The runs of both circuits that finish have the same history, renamed. -/
theorem eq_permute_of_outcome {e' : Executor} {pace pace' : Pace} {watch' : Observer α}
    {p : Equiv.Perm (Fin c.width.toNat)} {history history' : History α}
    (h : (e.run pace c watch).1.outcome = .ok history)
    (h' : (e'.run pace' (c.permute p) watch').1.outcome = .ok history') :
    history' = history.permute p := by
  obtain ⟨s, ts, hs, ht, rfl, -⟩ := exists_ofTrail h
  obtain ⟨s', ts', hs', ht', rfl, -⟩ := exists_ofTrail h'
  obtain ⟨-, -, rfl⟩ := prepare_eq_ok_iff.mp hs
  obtain ⟨-, -, rfl⟩ := prepare_eq_ok_iff.mp hs'
  have hrenamed := trail_permute hs ht p
  rw [State.permute_ground] at hrenamed
  rw [History.permute_ofTrail, State.permute_ground, ht'.unique hrenamed]
  rfl

/-- **Renaming the qubits renames what a gate does, and what a run does.** A permutation moves the
amplitude at an index to the index with its bits moved. A gate whose operands are renamed leads from
the renamed state to the renamed next state, amplitude for amplitude, or both gates name a qubit
twice. A run of the renamed circuit goes through the renamed states. Nothing is assumed of the
numbers. -/
theorem run_permute :
    (∀ (n : Nat) (p : Equiv.Perm (Fin n)) (s : State α) (g : Gate), s.IsFull → s.width = n →
      (∀ q ∈ g.qubits, q.index.toNat < n) →
      (∀ k < 2 ^ n, permuteBits p k < 2 ^ n ∧
        (∀ q : Fin n, (permuteBits p k).testBit (p q) = k.testBit q) ∧
        (s.permute p).amplitudes[permuteBits p k]? = s.amplitudes[k]?) ∧
      (∀ (q : Qubit) (h : q.index.toNat < n), (q.permute p).index.toNat = p ⟨q.index.toNat, h⟩) ∧
      ((∃ t, s.apply g = .ok t ∧ (s.permute p).apply (g.permute p) = .ok (t.permute p)) ∨
        ∃ q ∈ g.qubits, s.apply g = .error (.repeatedQubit g.kind q) ∧
          (s.permute p).apply (g.permute p) = .error (.repeatedQubit g.kind (q.permute p)))) ∧
    (∀ (c : Circuit) (p : Equiv.Perm (Fin c.width.toNat)), c.validate = .ok () →
      (∀ (e : Executor) (pace : Pace) (watch : Observer α),
        (e.run pace (c.permute p) watch).1.outcome =
          (e.run pace c (watch.permute p)).1.outcome.map (History.permute p) ∧
        (e.run pace (c.permute p) watch).1.observed =
          (e.run pace c (watch.permute p)).1.observed.map (Prod.map (State.permute p) id)) ∧
      (∀ (e e' : Executor) (pace pace' : Pace) (watch watch' : Observer α)
        (history history' : History α), (e.run pace c watch).1.outcome = .ok history →
        (e'.run pace' (c.permute p) watch').1.outcome = .ok history' →
        ∀ k, history'.stateAt? k = (history.stateAt? k).map (State.permute p))) := by
  refine ⟨?gate, ?run⟩
  case gate =>
    intro n p s g hs hn hg
    have hsize : n ≤ UInt32.size := le_size_of_lt_indexBits (hn ▸ hs.1)
    exact ⟨fun k hk => ⟨permuteBits_lt p k, testBit_permuteBits p k, hs.getElem?_permute hn hk⟩,
      fun q hq => Qubit.index_permute hsize hq, hs.apply_permute_cases hn hg⟩
  case run =>
    intro c p hv
    refine ⟨fun e pace watch => run_renamed hv p pace, ?_⟩
    intro e e' pace pace' watch watch' history history' h h' k
    rw [eq_permute_of_outcome h h', History.stateAt?_permute]

/-- The names of two qubits are exchanged and a controlled-NOT with them, and a run of two gates on
three qubits is renamed in a circle. -/
theorem run_permute_three_qubits :
    (∃ t, (⟨2, #[⟨0.5, 0⟩, ⟨-0.0, 0⟩, ⟨0, 0.5⟩, ⟨0.25, 1⟩]⟩ : State Float).apply
        (.two .cnot ⟨0⟩ (some ⟨1⟩)) = .ok t ∧
      (⟨2, #[⟨0.5, 0⟩, ⟨0, 0.5⟩, ⟨-0.0, 0⟩, ⟨0.25, 1⟩]⟩ : State Float).apply
        (.two .cnot ⟨1⟩ (some ⟨0⟩)) = .ok (t.permute (Equiv.swap (0 : Fin 2) 1))) ∧
    ∃ history history' : History Float,
      (({ settings := .immediate } : Executor).run .blocking
        (.ofGates 3 [.one .x ⟨0⟩, .two .cnot ⟨0⟩ (some ⟨1⟩)]) (.cancelAt none)).1.outcome =
          .ok history ∧
      (({ settings := .immediate } : Executor).run .paced
        (.ofGates 3 [.one .x ⟨1⟩, .two .cnot ⟨1⟩ (some ⟨2⟩)]) (.cancelAt none)).1.outcome =
          .ok history' ∧
      ∀ k, history'.stateAt? k = (history.stateAt? k).map (State.permute (finRotate 3)) := by
  constructor
  · obtain ⟨t, h, h'⟩ | ⟨q, -, h, -⟩ := (run_permute.1 2 (Equiv.swap 0 1)
      (⟨2, #[⟨0.5, 0⟩, ⟨-0.0, 0⟩, ⟨0, 0.5⟩, ⟨0.25, 1⟩]⟩ : State Float)
      (.two .cnot ⟨0⟩ (some ⟨1⟩)) (by decide) rfl (by decide)).2.2
    · exact ⟨t, h, h'⟩
    · cases (show Except.ok _ = Except.error _ from h)
  · have h : (({ settings := .immediate } : Executor).run .blocking
      (.ofGates 3 [.one .x ⟨0⟩, .two .cnot ⟨0⟩ (some ⟨1⟩)]) (.cancelAt none)).1.outcome =
        .ok (⟨⟨3, #[1, 0, 0, 0, 0, 0, 0, 0]⟩, #[⟨3, #[0, 1, 0, 0, 0, 0, 0, 0]⟩,
          ⟨3, #[0, 0, 0, 1, 0, 0, 0, 0]⟩], ⟨3, #[0, 0, 0, 1, 0, 0, 0, 0]⟩⟩ : History Float) := rfl
    have h' : (({ settings := .immediate } : Executor).run .paced
      (.ofGates 3 [.one .x ⟨1⟩, .two .cnot ⟨1⟩ (some ⟨2⟩)]) (.cancelAt none)).1.outcome =
        .ok (⟨⟨3, #[1, 0, 0, 0, 0, 0, 0, 0]⟩, #[⟨3, #[0, 0, 1, 0, 0, 0, 0, 0]⟩,
          ⟨3, #[0, 0, 0, 0, 0, 0, 1, 0]⟩], ⟨3, #[0, 0, 0, 0, 0, 0, 1, 0]⟩⟩ : History Float) := rfl
    have hrenamed : (Circuit.ofGates 3 [.one .x ⟨0⟩, .two .cnot ⟨0⟩ (some ⟨1⟩)]).permute
        (finRotate 3) = .ofGates 3 [.one .x ⟨1⟩, .two .cnot ⟨1⟩ (some ⟨2⟩)] := by decide +kernel
    have hstates := (run_permute.2 (.ofGates 3 [.one .x ⟨0⟩, .two .cnot ⟨0⟩ (some ⟨1⟩)])
      (finRotate 3) (by decide)).2 _ _ _ _ _ _ _ _ h (by rw [hrenamed]; exact h')
    exact ⟨_, _, h, h', hstates⟩

end Executor

end Statevector
