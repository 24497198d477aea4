import Statevector.Circuit.Edit
import Statevector.Proofs.Circuit.Append
import Statevector.Proofs.Circuit.Operands

/-!
# Circuits built by edits

* `Circuit.edit_cases`: all that an edit does; `Circuit.edit_fst`: what one that appends a gate
  answers; `Circuit.edit_eq_of_error`: one that fails changes nothing;
* `Circuit.IsSound`: circuits built by appending, valid and of some width;
  `Circuit.IsSound.edit`, `Circuit.IsSound.editAll`: edits keep them so;
* **`Circuit.checks_agree`**: checked edits, unchecked appending and validation agree.
-/

namespace Statevector.Circuit

variable {c : Circuit} {e : Edit} {g : Gate} {fault : Fault} {width : UInt32}

/-! ## One edit -/

theorem run_append (g : Gate) (c : Circuit) : (append g).run.run c =
    match checkGate c.width g with
    | .ok _ => (.ok (), c.push g)
    | .error fault => (.error fault, c) := by
  -- What follows the check is decided by its result, which `change` brings to the front.
  change (ExceptT.bindCont (fun _ => (modify (·.push g) : Editing Unit))
    (checkGate c.width g)).run c = _
  cases checkGate c.width g <;> rfl

theorem edit_of_gate? (c : Circuit) (he : e.gate? = some g) :
    c.edit e = (append g).run.run c := by
  cases e <;> cases he <;> rfl

/-- An edit that appends a gate answers what is wrong with the gate. -/
theorem edit_fst (c : Circuit) (he : e.gate? = some g) : (c.edit e).1 = checkGate c.width g := by
  rw [edit_of_gate? c he, run_append]
  cases checkGate c.width g <;> rfl

/-- All that an edit can do: fail and change nothing, append a gate without a fault, or change the
name or the description. -/
theorem edit_cases (c : Circuit) (e : Edit) :
    (∃ g fault, e.gate? = some g ∧ checkGate c.width g = .error fault ∧
      c.edit e = (.error fault, c)) ∨
    (∃ g, e.gate? = some g ∧ checkGate c.width g = .ok () ∧ c.edit e = (.ok (), c.push g)) ∨
    (∃ text, c.edit e = (.ok (), { c with name := text })) ∨
    ∃ text, c.edit e = (.ok (), { c with description := text }) := by
  cases he : e.gate? with
  | some g =>
    have hedit := (edit_of_gate? c he).trans (run_append g c)
    cases hg : checkGate c.width g with
    | error fault => exact .inl ⟨g, fault, rfl, hg, by rw [hedit, hg]⟩
    | ok _ => exact .inr (.inl ⟨g, rfl, hg, by rw [hedit, hg]⟩)
  | none =>
    match e, he with
    | .name text, _ => exact .inr (.inr (.inl ⟨text, rfl⟩))
    | .description text, _ => exact .inr (.inr (.inr ⟨text, rfl⟩))

theorem edit_eq_of_error (h : (c.edit e).1 = .error fault) : (c.edit e).2 = c := by
  obtain ⟨_, _, -, -, hedit⟩ | ⟨_, -, -, hedit⟩ | ⟨_, hedit⟩ | ⟨_, hedit⟩ := edit_cases c e
  · rw [hedit]
  all_goals
    rw [hedit] at h
    cases h

theorem edit_eq_push (he : e.gate? = some g) (h : (c.edit e).1 = .ok ()) :
    (c.edit e).2 = c.push g := by
  rw [edit_fst c he] at h
  rw [edit_of_gate? c he, run_append, h]

/-! ## Any number of edits -/

/-- The circuits of some width that are built by appending gates and valid. -/
structure IsSound (c : Circuit) (width : UInt32) : Prop where
  width_eq : c.width = width
  built : c.IsBuilt
  valid : c.validate = .ok ()

theorem isSound_empty (hw : width ≠ 0) : (empty width).IsSound width where
  width_eq := rfl
  built := .empty width
  valid := validate_eq_ok_iff.mpr ⟨hw, fun g hg => by cases hg⟩

theorem IsSound.edit (h : c.IsSound width) (e : Edit) : (c.edit e).2.IsSound width := by
  obtain ⟨g, fault, -, -, hedit⟩ | ⟨g, -, hg, hedit⟩ | ⟨text, hedit⟩ | ⟨text, hedit⟩ :=
    edit_cases c e <;> rw [hedit]
  · exact h
  · exact ⟨h.width_eq, h.built.push g, (validate_push h.valid g).trans hg⟩
  · exact ⟨h.width_eq, h.built.named text, h.valid⟩
  · exact ⟨h.width_eq, h.built.described text, h.valid⟩

theorem IsSound.editAll (h : c.IsSound width) (es : List Edit) : (c.editAll es).IsSound width := by
  induction es generalizing c with
  | nil => exact h
  | cons e es ih => exact ih (h.edit e)

theorem IsSound.position_eq (h : c.IsSound width) {k : Nat} {p : Placed}
    (hk : c.gates[k]? = some p) (hlt : k + 1 < UInt32.size) : p.position.toNat = k + 1 := by
  rw [h.built.position_eq k p hk, toNat_positionAfter]
  omega

/-! ## Agreement -/

/-- **Checked edits, unchecked appending and validation agree.** After any edits of an empty circuit
with a qubit, the circuit is valid and its gates are numbered from one, an edit that fails changes
nothing, and one that appends a gate does so as if unchecked, or fails as validation would then. The
validation of any circuit with a qubit reports what the first edit would report that fails to append
one of its gates; it succeeds if the largest operand is in range and no gate repeats one; and of a
gate an operand out of range is reported before a repeated one. -/
theorem checks_agree :
    (∀ (width : UInt32) (es : List Edit) (c : Circuit), width ≠ 0 →
      (empty width).editAll es = c →
      c.validate = .ok () ∧
      (∀ k p, c.gates[k]? = some p → k + 1 < UInt32.size → p.position.toNat = k + 1) ∧
      ∀ e : Edit, (∀ fault, (c.edit e).1 = .error fault → (c.edit e).2 = c) ∧
        ∀ g, e.gate? = some g → ((c.edit e).1 = .ok () → (c.edit e).2 = c.push g) ∧
          ∀ fault, (c.edit e).1 = .error fault ↔ (c.push g).validate = .error fault) ∧
    (∀ c : Circuit, c.width ≠ 0 →
      (∀ fault, c.validate = .error fault ↔ ∃ pre g post, c.gateList = pre ++ g :: post ∧
        ∀ d : Circuit, d.width = c.width →
          (∀ g' ∈ pre, (d.edit (.gate g')).1 = .ok ()) ∧ (d.edit (.gate g)).1 = .error fault) ∧
      (c.validate = .ok () ↔
        (∀ m, c.maxQubit? = some m → m < c.width) ∧ ∀ g ∈ c.gateList, g.repeated? = none) ∧
      ((∀ m, c.maxQubit? = some m → m < c.width) ↔
        ∀ g ∈ c.gateList, ∀ q ∈ g.qubits, q.index < c.width) ∧
      ∀ g fault, (c.edit (.gate g)).1 = .error fault ↔ HasFault c.width g fault) := by
  refine ⟨?edited, ?any⟩
  case edited =>
    rintro width es c hw rfl
    have h := (isSound_empty hw).editAll es
    refine ⟨h.valid, fun k p => h.position_eq, fun e => ⟨fun fault => edit_eq_of_error, ?_⟩⟩
    refine fun g he => ⟨edit_eq_push he, fun fault => ?_⟩
    rw [edit_fst _ he, validate_push h.valid]
  case any =>
    intro c hw
    have hanswer (d : Circuit) (g : Gate) : (d.edit (.gate g)).1 = checkGate d.width g :=
      edit_fst d rfl
    refine ⟨fun fault => ?first, ?valid, ?operands, fun g fault => ?one⟩
    case first =>
      rw [validate_eq_error_iff hw]
      constructor
      · rintro ⟨pre, g, post, hsplit, hpre, hg⟩
        refine ⟨pre, g, post, hsplit, fun d hd => ?_⟩
        simp only [hanswer, hd]
        exact ⟨hpre, hg⟩
      · rintro ⟨pre, g, post, hsplit, hall⟩
        have hc := hall c rfl
        simp only [hanswer] at hc
        exact ⟨pre, g, post, hsplit, hc⟩
    case valid =>
      rw [validate_eq_ok_iff_maxQubit?, and_iff_right hw, and_comm]
    case operands =>
      rw [maxQubit?, maxIndex?_lt_iff, List.forall_mem_flatMap]
    case one =>
      rw [hanswer, checkGate_eq_error_iff]

/-- Edits of which two fail, and a gate with two faults of which the first is reported. -/
theorem checks_agree_two_qubits :
    ((empty 2).editAll [.one .h ⟨0⟩, .two .cnot ⟨1⟩ ⟨1⟩, .gate (.two .swap ⟨1⟩ none), .one .x ⟨2⟩,
      .name "Pair"]).validate = .ok () ∧
    ((empty 2).editAll [.one .h ⟨0⟩, .two .cnot ⟨1⟩ ⟨1⟩, .gate (.two .swap ⟨1⟩ none), .one .x ⟨2⟩,
      .name "Pair"]).gateList = [.one .h ⟨0⟩, .two .swap ⟨1⟩ none] ∧
    (ofGates 2 [.one .h ⟨0⟩, .two .swap ⟨1⟩ none]).validate = .ok () ∧
    ((ofGates 2 [.one .h ⟨7⟩]).edit (.gate (.two .cnot ⟨5⟩ (some ⟨5⟩)))).1 =
      .error (.outOfRange (.two .cnot) ⟨5⟩ 2) := by
  refine ⟨?edited, by decide, ?valid, ?fault⟩
  case edited => exact (checks_agree.1 2 _ _ (by decide) rfl).1
  case valid =>
    obtain ⟨-, hvalid, hoperands, -⟩ :=
      checks_agree.2 (ofGates 2 [.one .h ⟨0⟩, .two .swap ⟨1⟩ none]) (by decide)
    exact hvalid.mpr ⟨hoperands.mpr (by decide), by decide⟩
  case fault =>
    obtain ⟨-, -, -, hfault⟩ := checks_agree.2 (ofGates 2 [.one .h ⟨7⟩]) (by decide)
    have hqubits : (Gate.two .cnot ⟨5⟩ (some ⟨5⟩)).qubits = [] ++ ⟨5⟩ :: [⟨5⟩] := rfl
    exact (hfault _ _).mpr (.outOfRange hqubits (by simp) (by decide))

end Statevector.Circuit
