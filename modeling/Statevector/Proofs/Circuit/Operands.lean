import Statevector.Circuit.Validity

/-!
# Operands of gates

* `Circuit.maxIndex?_eq_some_iff`: what the largest index among some qubits is;
  `Circuit.maxIndex?_lt_iff`: bounds on all indices are bounds on the largest;
* `Circuit.checkGate_eq_ok_iff`: the gates without a fault; `Circuit.HasFault`: what is wrong with
  the others;
* `Circuit.validate_eq_ok_iff`, `Circuit.validate_eq_ok_iff_maxQubit?`: the circuits without a
  fault; `Circuit.validate_of_subset`: with fewer gates they stay so;
* `Circuit.validate_eq_error_iff`: the fault of a circuit is that of its first bad gate;
  `Circuit.validate_eq_error_of_lt`: if all operands are in range, it is a repeated one;
* `Circuit.validate_push`: what another gate does to a valid circuit.
-/

namespace Statevector

/-! ## The largest index -/

theorem max_eq_ite (a b : UInt32) : max a b = if a ≤ b then b else a := rfl

instance lawfulOrderMaxUInt32 : Std.LawfulOrderMax UInt32 := .of_max_le_iff
  (fun a b c => by
    rw [max_eq_ite]
    split <;> simp only [UInt32.le_iff_toNat_le] at * <;> omega)
  (fun a b => by
    rw [max_eq_ite]
    split
    · exact .inr rfl
    · exact .inl rfl)

namespace Circuit

theorem maxIndex?_eq_some_iff {qs : List Qubit} {m : UInt32} :
    maxIndex? qs = some m ↔ ⟨m⟩ ∈ qs ∧ ∀ q ∈ qs, q.index ≤ m := by
  rw [maxIndex?, List.max?_eq_some_iff, List.forall_mem_map]
  refine and_congr_left fun _ => ?_
  rw [List.mem_map]
  constructor
  · rintro ⟨q, hq, rfl⟩
    exact hq
  · exact fun h => ⟨_, h, rfl⟩

theorem eq_nil_of_maxIndex?_eq_none {qs : List Qubit} (h : maxIndex? qs = none) : qs = [] :=
  List.map_eq_nil_iff.mp (List.max?_eq_none_iff.mp h)

theorem maxIndex?_lt_iff {qs : List Qubit} {width : UInt32} :
    (∀ m, maxIndex? qs = some m → m < width) ↔ ∀ q ∈ qs, q.index < width := by
  constructor
  · intro h q hq
    cases hm : maxIndex? qs with
    | none =>
      rw [eq_nil_of_maxIndex?_eq_none hm] at hq
      cases hq
    | some m => exact UInt32.lt_of_le_of_lt ((maxIndex?_eq_some_iff.mp hm).2 q hq) (h m hm)
  · intro h m hm
    exact h ⟨m⟩ (maxIndex?_eq_some_iff.mp hm).1

/-! ## Faults of gates -/

theorem checkGate_eq_ok_iff {width : UInt32} {g : Gate} :
    checkGate width g = .ok () ↔ (∀ q ∈ g.qubits, q.index < width) ∧ g.repeated? = none := by
  unfold checkGate
  cases hf : g.qubits.find? fun q => width ≤ q.index with
  | none =>
    have hr : ∀ q ∈ g.qubits, q.index < width := by
      simpa [List.find?_eq_none] using hf
    cases hd : g.repeated? with
    | none => simpa using hr
    | some q => simp
  | some q =>
    have hq : width ≤ q.index := by simpa using List.find?_some hf
    have hmem : q ∈ g.qubits := List.mem_of_find?_eq_some hf
    simp only [reduceCtorEq, false_iff, not_and]
    exact fun h => absurd (h q hmem) (UInt32.not_lt.mpr hq)

theorem checkGate_eq_error_of_lt {width : UInt32} {g : Gate} {e : Fault}
    (hlt : ∀ q ∈ g.qubits, q.index < width) (h : checkGate width g = .error e) :
    ∃ q, g.repeated? = some q ∧ e = .repeatedQubit g.kind q := by
  have hnone : (g.qubits.find? fun q => width ≤ q.index) = none := by
    simpa [List.find?_eq_none] using hlt
  rw [checkGate, hnone] at h
  cases hq : g.repeated? with
  | none => simp [hq] at h
  | some q =>
    simp only [hq, Except.error.injEq] at h
    exact ⟨q, rfl, h.symm⟩

/-- What is wrong with a gate over `width` qubits: its first operand out of range, or an operand that
it repeats if all of them are in range. -/
inductive HasFault (width : UInt32) (g : Gate) : Fault → Prop
  | outOfRange {pre post : List Qubit} {q : Qubit} : g.qubits = pre ++ q :: post →
      (∀ p ∈ pre, p.index < width) → width ≤ q.index → HasFault width g (.outOfRange g.kind q width)
  | repeatedQubit {q : Qubit} : (∀ p ∈ g.qubits, p.index < width) → g.repeated? = some q →
      HasFault width g (.repeatedQubit g.kind q)

theorem checkGate_eq_error_iff {width : UInt32} {g : Gate} {e : Fault} :
    checkGate width g = .error e ↔ HasFault width g e := by
  constructor
  · intro h
    cases hf : g.qubits.find? fun q => width ≤ q.index with
    | none =>
      have hlt : ∀ q ∈ g.qubits, q.index < width := by
        simpa [List.find?_eq_none] using hf
      obtain ⟨q, hq, rfl⟩ := checkGate_eq_error_of_lt hlt h
      exact .repeatedQubit hlt hq
    | some q =>
      rw [checkGate, hf] at h
      cases h
      obtain ⟨hle, pre, post, hsplit, hpre⟩ := List.find?_eq_some_iff_append.mp hf
      exact .outOfRange hsplit (by simpa using hpre) (by simpa using hle)
  · rintro (⟨hsplit, hpre, hle⟩ | ⟨hlt, hq⟩)
    · rw [checkGate, List.find?_eq_some_iff_append.mpr
        ⟨by simpa using hle, _, _, hsplit, by simpa using hpre⟩]
    · rw [checkGate, List.find?_eq_none.mpr (by simpa using hlt)]
      simp only [hq]

theorem forM_checkGate_cons_of_ok {width : UInt32} {g : Gate} (gs : List Gate)
    (h : checkGate width g = .ok ()) :
    (g :: gs).forM (checkGate width) = gs.forM (checkGate width) := by
  change (checkGate width g >>= fun _ => gs.forM (checkGate width)) = _
  rw [h]
  rfl

theorem forM_checkGate_cons_of_error {width : UInt32} {g : Gate} (gs : List Gate) {e : Fault}
    (h : checkGate width g = .error e) : (g :: gs).forM (checkGate width) = .error e := by
  change (checkGate width g >>= fun _ => gs.forM (checkGate width)) = _
  rw [h]
  rfl

theorem forM_checkGate_eq_ok_iff {width : UInt32} {gs : List Gate} :
    gs.forM (checkGate width) = .ok () ↔ ∀ g ∈ gs, checkGate width g = .ok () := by
  induction gs with
  | nil => exact ⟨fun _ => by simp, fun _ => rfl⟩
  | cons g gs ih =>
    rw [List.forall_mem_cons]
    cases hg : checkGate width g with
    | error e => simp [forM_checkGate_cons_of_error gs hg]
    | ok _ => rw [forM_checkGate_cons_of_ok gs hg, ih]; simp

theorem validate_eq_ok_iff {c : Circuit} :
    c.validate = .ok () ↔ c.width ≠ 0 ∧ ∀ g ∈ c.gateList, checkGate c.width g = .ok () := by
  unfold validate
  split
  · simp [*]
  · next h => rw [forM_checkGate_eq_ok_iff]; simp [h]

/-- A circuit of the same width whose gates are among those of a valid circuit is valid. -/
theorem validate_of_subset {c d : Circuit} (h : c.validate = .ok ()) (hw : d.width = c.width)
    (hg : d.gateList ⊆ c.gateList) : d.validate = .ok () := by
  rw [validate_eq_ok_iff] at h ⊢
  rw [hw]
  exact ⟨h.1, fun g hmem => h.2 g (hg hmem)⟩

/-- The fault of a list of gates is that of the first gate that has one. -/
theorem forM_checkGate_eq_error {width : UInt32} {gs : List Gate} {e : Fault}
    (h : gs.forM (checkGate width) = .error e) : ∃ pre g post, gs = pre ++ g :: post ∧
      (∀ g' ∈ pre, checkGate width g' = .ok ()) ∧ checkGate width g = .error e := by
  induction gs with
  | nil => cases h
  | cons g gs ih =>
    cases hg : checkGate width g with
    | error e' =>
      rw [forM_checkGate_cons_of_error gs hg] at h
      cases h
      exact ⟨[], g, gs, rfl, by simp, hg⟩
    | ok _ =>
      rw [forM_checkGate_cons_of_ok gs hg] at h
      obtain ⟨pre, g', post, rfl, hpre, hg'⟩ := ih h
      exact ⟨g :: pre, g', post, rfl, List.forall_mem_cons.mpr ⟨hg, hpre⟩, hg'⟩

theorem forM_checkGate_append {width : UInt32} {gs : List Gate} (hs : List Gate)
    (h : ∀ g ∈ gs, checkGate width g = .ok ()) :
    (gs ++ hs).forM (checkGate width) = hs.forM (checkGate width) := by
  induction gs with
  | nil => rfl
  | cons g gs ih =>
    rw [List.forall_mem_cons] at h
    rw [List.cons_append, forM_checkGate_cons_of_ok _ h.1, ih h.2]

/-- The fault of a circuit is that of its first gate that has one. -/
theorem validate_eq_error_iff {c : Circuit} (hw : c.width ≠ 0) {e : Fault} :
    c.validate = .error e ↔ ∃ pre g post, c.gateList = pre ++ g :: post ∧
      (∀ g' ∈ pre, checkGate c.width g' = .ok ()) ∧ checkGate c.width g = .error e := by
  rw [validate, if_neg hw]
  constructor
  · exact forM_checkGate_eq_error
  · rintro ⟨pre, g, post, hsplit, hpre, hg⟩
    rw [hsplit, forM_checkGate_append _ hpre, forM_checkGate_cons_of_error _ hg]

/-- A gate appended to a valid circuit decides whether the circuit stays valid. -/
theorem validate_push {c : Circuit} (h : c.validate = .ok ()) (g : Gate) :
    (c.push g).validate = checkGate c.width g := by
  rw [validate_eq_ok_iff] at h
  rw [validate, width_push, if_neg h.1, gateList_push, forM_checkGate_append _ h.2]
  cases hg : checkGate c.width g with
  | ok _ =>
    rw [forM_checkGate_cons_of_ok _ hg]
    rfl
  | error e => rw [forM_checkGate_cons_of_error _ hg]

/-- A circuit is valid if it has a qubit, names no qubit twice in a gate, and holds the largest
index that it names. -/
theorem validate_eq_ok_iff_maxQubit? {c : Circuit} : c.validate = .ok () ↔ c.width ≠ 0 ∧
    (∀ g ∈ c.gateList, g.repeated? = none) ∧ ∀ m, c.maxQubit? = some m → m < c.width := by
  rw [maxQubit?, maxIndex?_lt_iff, validate_eq_ok_iff]
  simp only [checkGate_eq_ok_iff, forall_and, List.forall_mem_flatMap]
  exact and_congr_right fun _ => and_comm

/-- If all operands are in range, only a repeated one can be at fault, and the first is reported. -/
theorem validate_eq_error_of_lt {c : Circuit} {e : Fault} (hw : c.width ≠ 0)
    (hlt : ∀ g ∈ c.gateList, ∀ q ∈ g.qubits, q.index < c.width) (h : c.validate = .error e) :
    ∃ pre g post q, c.gateList = pre ++ g :: post ∧ (∀ g' ∈ pre, g'.repeated? = none) ∧
      g.repeated? = some q ∧ e = .repeatedQubit g.kind q := by
  obtain ⟨pre, g, post, hsplit, hpre, hg⟩ := (validate_eq_error_iff hw).mp h
  obtain ⟨q, hq, rfl⟩ := checkGate_eq_error_of_lt (hlt g (by simp [hsplit])) hg
  exact ⟨pre, g, post, q, hsplit, fun g' hg' => (checkGate_eq_ok_iff.mp (hpre g' hg')).2, hq, rfl⟩

end Circuit

end Statevector
