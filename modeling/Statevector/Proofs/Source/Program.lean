import Statevector.Proofs.Circuit.Append
import Statevector.Proofs.Circuit.Operands
import Statevector.Source.Program

/-!
# Circuits of programs

* `Line.width?`, `Line.name?`, `Line.description?`, `Line.gate?`: what a line sets or does;
  `Line.last?`, `Line.gates`: what some lines set last, and all gates that they call;
  **`Program.ofLines_eq`**: of each setting the last one counts, and every gate does;
* `Program.inferredWidth_of_max`, `Program.inferredWidth_of_none`: the width of a program that
  declares none; `Program.lt_of_inferredWidth`: it holds every qubit that the gates name;
  `Program.circuitWidth_of_zero`: a declared width of zero is none;
* `Program.circuit_eq`: the circuit of a program, in terms of its width;
* **`Circuit.isBuilt_of_ofSource`**: every circuit that a source describes is built by appending
  gates.
-/

namespace Statevector

open Text

namespace Source

/-! ## What a line sets or does -/

namespace Line

/-- The width that a line declares. -/
def width? : Line → Option UInt32
  | directive (.qubits w) => some w
  | _ => none

/-- The name that a line gives. -/
def name? : Line → Option String
  | directive (.name s) => some s
  | _ => none

/-- The description that a line gives. -/
def description? : Line → Option String
  | directive (.description s) => some s
  | _ => none

/-- The gate that a line calls. -/
def gate? : Line → Option Gate
  | gate g => some g
  | _ => none

theorem eq_of_name? {m : Line} {s : String} (h : m.name? = some s) : m = directive (.name s) := by
  unfold name? at h
  split at h <;> cases h
  rfl

theorem eq_of_description? {m : Line} {s : String} (h : m.description? = some s) :
    m = directive (.description s) := by
  unfold description? at h
  split at h <;> cases h
  rfl

theorem eq_of_gate? {m : Line} {g : Gate} (h : m.gate? = some g) : m = gate g := by
  unfold gate? at h
  split at h <;> cases h
  rfl

/-- What the last of some lines that set something sets it to. -/
def last? {β : Type} (setting? : Line → Option β) (ms : List Line) : Option β :=
  (ms.filterMap setting?).getLast?

/-- The gates that some lines call, in order. -/
def gates (ms : List Line) : List Gate := ms.filterMap gate?

theorem last?_cons {β : Type} (setting? : Line → Option β) (m : Line) (ms : List Line) :
    last? setting? (m :: ms) = (last? setting? ms).or (setting? m) := by
  rw [last?, last?, List.filterMap_cons]
  cases setting? m with
  | none => simp
  | some x => rw [List.getLast?_cons, Option.or_some]

theorem exists_of_last? {β : Type} {setting? : Line → Option β} {ms : List Line} {x : β}
    (h : last? setting? ms = some x) : ∃ m ∈ ms, setting? m = some x :=
  List.mem_filterMap.mp (List.mem_of_getLast? h)

end Line

namespace Program

theorem foldl_add (p : Program) (ms : List Line) : ms.foldl add p =
    { width := (Line.last? Line.width? ms).or p.width
      name := (Line.last? Line.name? ms).or p.name
      description := (Line.last? Line.description? ms).or p.description
      gates := p.gates ++ (Line.gates ms).toArray } := by
  induction ms generalizing p with
  | nil => simp [Line.last?, Line.gates]
  | cons m ms ih =>
    rw [List.foldl_cons, ih]
    simp only [Line.last?_cons, Option.or_assoc]
    cases m with
    | blank | comment | unrecognized => rfl
    | directive d => cases d <;> rfl
    | gate g =>
      have hgates : p.gates.push g ++ (Line.gates ms).toArray =
          p.gates ++ (g :: Line.gates ms).toArray := by simp
      simp only [add, hgates]
      rfl

/-- **Of each setting the last one counts, and every gate does.** -/
theorem ofLines_eq (ms : List Line) : ofLines ms =
    { width := Line.last? Line.width? ms
      name := Line.last? Line.name? ms
      description := Line.last? Line.description? ms
      gates := (Line.gates ms).toArray } := by
  rw [ofLines, foldl_add]
  simp

/-! ## Widths -/

/-- The next index, if there is one. -/
theorem word32?_succ {m : UInt32} (h : m ≠ 4294967295) : word32? (m.toNat + 1) = some (m + 1) := by
  have hm := m.toNat_lt
  have hne : m.toNat ≠ 4294967295 := fun e => h (UInt32.toNat_inj.mp e)
  have hlt : m.toNat + 1 < UInt32.size := by
    rw [UInt32.size]
    omega
  rw [word32?, if_pos hlt, UInt32.ofNat_add, UInt32.ofNat_toNat]
  rfl

theorem inferredWidth_of_max {p : Program} {m : UInt32}
    (h : Circuit.maxIndex? (p.gates.toList.flatMap Gate.qubits) = some m) :
    p.inferredWidth = if m = 4294967295 then .error (.widthTooLarge m) else .ok (m + 1) := by
  by_cases hm : m = 4294967295
  · subst hm
    rw [inferredWidth, h]
    rfl
  · simp only [inferredWidth, h, word32?_succ hm, if_neg hm]

theorem inferredWidth_of_none {p : Program}
    (h : Circuit.maxIndex? (p.gates.toList.flatMap Gate.qubits) = none) :
    p.inferredWidth = .ok 1 := by
  rw [inferredWidth, h]

/-- A width that is told from the gates holds every qubit that they name. -/
theorem lt_of_inferredWidth {p : Program} {w : UInt32} (h : p.inferredWidth = .ok w) :
    ∀ q ∈ p.gates.toList.flatMap Gate.qubits, q.index < w := by
  rw [← Circuit.maxIndex?_lt_iff]
  intro m hm
  rw [inferredWidth_of_max hm] at h
  split at h
  · cases h
  · next hne =>
    cases h
    rw [UInt32.lt_iff_toNat_lt, toNat_of_word32? (word32?_succ hne)]
    exact Nat.lt_succ_self _

theorem circuitWidth_of_declared {p : Program} {w : UInt32} (h : p.width = some w) (hw : w ≠ 0) :
    p.circuitWidth = .ok w := by
  simp only [circuitWidth, h, if_neg hw]

theorem circuitWidth_of_zero {p : Program} (h : ∀ w, p.width = some w → w = 0) :
    p.circuitWidth = p.inferredWidth := by
  cases hw : p.width with
  | none => simp only [circuitWidth, hw]
  | some w => simp only [circuitWidth, hw, h w hw, if_true]

theorem inferredWidth_cases (p : Program) :
    (∃ w, p.inferredWidth = .ok w ∧ w ≠ 0) ∨
      p.inferredWidth = .error (.widthTooLarge 4294967295) := by
  cases hmax : Circuit.maxIndex? (p.gates.toList.flatMap Gate.qubits) with
  | none => exact .inl ⟨1, inferredWidth_of_none hmax, by decide⟩
  | some m =>
    rw [inferredWidth_of_max hmax]
    split
    · next hm =>
      subst hm
      exact .inr rfl
    · next hm =>
      refine .inl ⟨m + 1, rfl, fun hzero => ?_⟩
      have hsucc := toNat_of_word32? (word32?_succ hm)
      rw [hzero] at hsucc
      cases hsucc

/-- A program whose width cannot be told names the largest index. -/
theorem circuitWidth_cases (p : Program) :
    (∃ w, p.circuitWidth = .ok w ∧ w ≠ 0) ∨
      p.circuitWidth = .error (.widthTooLarge 4294967295) := by
  unfold circuitWidth
  split
  · split
    · exact p.inferredWidth_cases
    · next w _ hw => exact .inl ⟨w, rfl, hw⟩
  · exact p.inferredWidth_cases

/-! ## Circuits -/

/-- The circuit of a program, in terms of its width. -/
theorem circuit_eq (p : Program) : p.circuit = p.circuitWidth.map fun w =>
    { name := p.name.getD Circuit.defaultName
      description := p.description.getD Circuit.defaultDescription
      width := w
      gates := (Circuit.ofGates w p.gates.toList).gates } := by
  cases hw : p.circuitWidth with
  | error fault =>
    rw [circuit, hw]
    rfl
  | ok w =>
    rw [circuit, hw]
    exact congrArg Except.ok (Circuit.foldl_push_gates (by rfl) p.gates.toList)

end Program

end Source

namespace Circuit

theorem gateList_foldl_push (c : Circuit) (gs : List Gate) :
    (gs.foldl push c).gateList = c.gateList ++ gs := by
  induction gs generalizing c with
  | nil => simp
  | cons g gs ih =>
    rw [List.foldl_cons, ih, gateList_push, List.append_assoc]
    rfl

theorem isBuilt_foldl_push {c : Circuit} (h : c.IsBuilt) (gs : List Gate) :
    (gs.foldl push c).IsBuilt := by
  induction gs generalizing c with
  | nil => exact h
  | cons g gs ih => exact ih (h.push g)

theorem isBuilt_of_circuit {p : Source.Program} {c : Circuit} (h : p.circuit = .ok c) :
    c.IsBuilt := by
  cases hw : p.circuitWidth with
  | error fault =>
    rw [Source.Program.circuit, hw] at h
    cases h
  | ok width =>
    rw [Source.Program.circuit, hw] at h
    cases h
    exact isBuilt_foldl_push (.described _ (.named _ (.empty width))) p.gates.toList

/-- **The circuit of a source is built by appending gates.** -/
theorem isBuilt_of_ofSource {source : String} {c : Circuit} (h : ofSource source = .ok c) :
    c.IsBuilt := by
  cases hlines : Source.classifyAll source.toList with
  | error fault =>
    rw [ofSource, hlines] at h
    cases h
  | ok lines =>
    rw [ofSource, hlines] at h
    exact isBuilt_of_circuit h

end Circuit

end Statevector
