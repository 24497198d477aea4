import Mathlib.Control.Monad.Basic
import Statevector.Proofs.Source.Line
import Statevector.Proofs.Source.Program
import Statevector.Proofs.Text.Lines

/-!
# Outcomes of sources

* `Source.readings`: the meaning or fault of every line; `Source.classifyFrom_of_fault`,
  `Source.classifyFrom_of_ok`: the first fault decides;
* `Circuit.ofSource_of_ok`: the circuit of a source without a faulty line, in terms of its width;
  `Circuit.ofSource_of_declared`, `Circuit.ofSource_of_largest`, `Circuit.ofSource_of_no_qubits`:
  the width; `Circuit.eq_of_ofSource`: the other parts;
* **`Circuit.ofSource_of_readings`**: what is made of a source, and why it can be refused.
-/

namespace Statevector

open Text

namespace Source

/-! ## Readings -/

/-- The meaning or fault of every line, the first line having number `first`. -/
def readings (first : Nat) (ls : List (List Char)) : List (Except Fault Line) :=
  (ls.zipIdx first).map fun (l, number) => Line.classify number l

theorem readings_cons (first : Nat) (l : List Char) (ls : List (List Char)) :
    readings first (l :: ls) = Line.classify first l :: readings (first + 1) ls := rfl

theorem exists_ok_or_fault (rs : List (Except Fault Line)) :
    (∃ ms : List Line, rs = ms.map .ok) ∨
      ∃ (ms : List Line) (fault : Fault) (rest : List (Except Fault Line)),
        rs = ms.map .ok ++ .error fault :: rest := by
  induction rs with
  | nil => exact .inl ⟨[], rfl⟩
  | cons r rs ih =>
    cases r with
    | error fault => exact .inr ⟨[], fault, rs, rfl⟩
    | ok m =>
      obtain ⟨ms, rfl⟩ | ⟨ms, fault, rest, rfl⟩ := ih
      · exact .inl ⟨m :: ms, rfl⟩
      · exact .inr ⟨m :: ms, fault, rest, rfl⟩

variable {first : Nat} {ls : List (List Char)} {ms : List Line} {fault : Fault}
  {rest : List (Except Fault Line)}

/-- The first fault decides, whatever the other lines are. -/
theorem classifyFrom_of_fault (h : readings first ls = ms.map .ok ++ .error fault :: rest) :
    classifyFrom first ls = .error fault := by
  induction ls generalizing first ms with
  | nil => simp [readings] at h
  | cons l ls ih =>
    rw [readings_cons] at h
    cases ms with
    | nil =>
      obtain ⟨hl, -⟩ := List.cons.inj h
      rw [classifyFrom, hl]
      rfl
    | cons m ms =>
      obtain ⟨hl, hls⟩ := List.cons.inj h
      rw [classifyFrom, hl, ih hls]
      rfl

theorem classifyFrom_of_ok (h : readings first ls = ms.map .ok) :
    classifyFrom first ls = .ok ms := by
  induction ls generalizing first ms with
  | nil =>
    obtain rfl : ms = [] := by simpa [readings] using h.symm
    rfl
  | cons l ls ih =>
    rw [readings_cons] at h
    cases ms with
    | nil => cases h
    | cons m ms =>
      obtain ⟨hl, hls⟩ := List.cons.inj h
      rw [classifyFrom, hl, ih hls]
      rfl

/-- Every reading is one that some line allows. -/
theorem exists_allows_of_mem {r : Except Fault Line} (h : r ∈ readings first ls) :
    ∃ number, ∃ l ∈ ls, Line.Allows number l r := by
  obtain ⟨⟨l, number⟩, hmem, rfl⟩ := List.mem_map.mp h
  exact ⟨number, l, List.fst_mem_of_mem_zipIdx hmem, Line.allows_classify number l⟩

end Source

/-! ## Circuits -/

namespace Circuit

open Source

variable {source : String} {ms : List Line}

theorem ofSource_of_fault {fault : Source.Fault} {rest : List (Except Source.Fault Line)}
    (h : readings 1 (lines source.toList) = ms.map .ok ++ .error fault :: rest) :
    ofSource source = .error fault := by
  rw [ofSource, classifyAll, classifyFrom_of_fault h]
  rfl

/-- What is made of a source without a faulty line depends on its width only through that width. -/
theorem ofSource_of_ok (h : readings 1 (lines source.toList) = ms.map .ok) :
    ofSource source = (Program.ofLines ms).circuitWidth.map fun w =>
      { name := (Line.last? Line.name? ms).getD defaultName
        description := (Line.last? Line.description? ms).getD defaultDescription
        width := w
        gates := (ofGates w (Line.gates ms)).gates } := by
  have hclassify : ofSource source = (Program.ofLines ms).circuit := by
    rw [ofSource, classifyAll, classifyFrom_of_ok h]
    rfl
  rw [hclassify, Program.circuit_eq]
  simp only [Program.ofLines_eq]

theorem ofSource_of_width (h : readings 1 (lines source.toList) = ms.map .ok) {w : UInt32}
    (hw : (Program.ofLines ms).circuitWidth = .ok w) :
    ∃ c, ofSource source = .ok c ∧ c.width = w := by
  rw [ofSource_of_ok h, hw]
  exact ⟨_, rfl, rfl⟩

theorem ofSource_of_declared (h : readings 1 (lines source.toList) = ms.map .ok) {w : UInt32}
    (hw : Line.last? Line.width? ms = some w) (hne : w ≠ 0) :
    ∃ c, ofSource source = .ok c ∧ c.width = w := by
  refine ofSource_of_width h (Program.circuitWidth_of_declared ?_ hne)
  rw [Program.ofLines_eq, hw]

section Inferred

variable (h : readings 1 (lines source.toList) = ms.map .ok)
  (hw : ∀ w, Line.last? Line.width? ms = some w → w = 0)

include hw in
theorem circuitWidth_of_undeclared :
    (Program.ofLines ms).circuitWidth = (Program.ofLines ms).inferredWidth := by
  refine Program.circuitWidth_of_zero ?_
  rw [Program.ofLines_eq]
  exact hw

include h hw in
theorem ofSource_of_largest {q : Qubit} (hq : q ∈ (Line.gates ms).flatMap Gate.qubits)
    (hle : ∀ r ∈ (Line.gates ms).flatMap Gate.qubits, r.index ≤ q.index) :
    if q.index = 4294967295 then ofSource source = .error (.widthTooLarge q.index)
    else ∃ c, ofSource source = .ok c ∧ c.width.toNat = q.index.toNat + 1 := by
  have hmax : maxIndex? ((Program.ofLines ms).gates.toList.flatMap Gate.qubits) = some q.index := by
    rw [Program.ofLines_eq]
    exact maxIndex?_eq_some_iff.mpr ⟨hq, hle⟩
  have hwidth := (circuitWidth_of_undeclared hw).trans (Program.inferredWidth_of_max hmax)
  split
  · next hlast =>
    rw [if_pos hlast] at hwidth
    rw [ofSource_of_ok h, hwidth]
    rfl
  · next hlast =>
    rw [if_neg hlast] at hwidth
    obtain ⟨c, hc, hcw⟩ := ofSource_of_width h hwidth
    refine ⟨c, hc, ?_⟩
    rw [hcw]
    exact toNat_of_word32? (Program.word32?_succ hlast)

include h hw in
theorem ofSource_of_no_qubits (hnone : (Line.gates ms).flatMap Gate.qubits = []) :
    ∃ c, ofSource source = .ok c ∧ c.width = 1 := by
  refine ofSource_of_width h ((circuitWidth_of_undeclared hw).trans ?_)
  refine Program.inferredWidth_of_none ?_
  rw [Program.ofLines_eq]
  change maxIndex? ((Line.gates ms).flatMap Gate.qubits) = none
  rw [hnone]
  rfl

end Inferred

/-- The parts of the circuit of a source. -/
theorem eq_of_ofSource {c : Circuit} (h : readings 1 (lines source.toList) = ms.map .ok)
    (hc : ofSource source = .ok c) : c.gateList = Line.gates ms ∧
      c.name = (Line.last? Line.name? ms).getD defaultName ∧
      c.description = (Line.last? Line.description? ms).getD defaultDescription ∧
      c.width ≠ 0 := by
  rw [ofSource_of_ok h] at hc
  obtain ⟨w, hw, hne⟩ | hw := (Program.ofLines ms).circuitWidth_cases
  · rw [hw] at hc
    cases hc
    exact ⟨(gateList_foldl_push (.empty w) (Line.gates ms)).trans (List.nil_append _), rfl, rfl, hne⟩
  · rw [hw] at hc
    cases hc

theorem exists_readings {c : Circuit} (h : ofSource source = .ok c) :
    ∃ ms : List Line, readings 1 (lines source.toList) = ms.map .ok := by
  obtain ⟨ms, hr⟩ | ⟨ms, fault, rest, hr⟩ := exists_ok_or_fault (readings 1 (lines source.toList))
  · exact ⟨ms, hr⟩
  · rw [ofSource_of_fault hr] at h
    cases h

theorem ofSource_ne_unknownSample (source key : String) :
    ofSource source ≠ .error (.unknownSample key) := by
  intro h
  obtain ⟨ms, hr⟩ | ⟨ms, fault, rest, hr⟩ := exists_ok_or_fault (readings 1 (lines source.toList))
  · rw [ofSource_of_ok hr] at h
    obtain ⟨w, hw, -⟩ | hw := (Program.ofLines ms).circuitWidth_cases <;> rw [hw] at h <;> cases h
  · have hfault : .error fault ∈ readings 1 (lines source.toList) := by
      rw [hr]
      simp
    obtain ⟨number, l, -, text, rfl⟩ := exists_allows_of_mem hfault
    rw [ofSource_of_fault hr] at h
    cases h

/-- **What is made of a source.** Its lines are what stands before its line feeds, each less one
carriage return, and what follows the last of them. The first line with a fault decides. Otherwise
the width is the one declared last if that is not zero, however large the qubits are; or else the
least that holds the largest qubit, if there is such a width, or one. All gates are taken, numbered
from one up to the last number that a position can be, with the name and the description that are
given last. -/
theorem ofSource_of_readings (source : String) :
    (∃ (ls : List (List Char)) (last : List Char), (∀ l ∈ ls, '\n' ∉ l) ∧ '\n' ∉ last ∧
      source.toList = ls.flatMap (· ++ ['\n']) ++ last ∧
      lines source.toList = ls.map dropReturn ++ if last = [] then [] else [last]) ∧
    (∀ (ms : List Line) fault rest,
      readings 1 (lines source.toList) = ms.map .ok ++ .error fault :: rest →
      ofSource source = .error fault) ∧
    (∀ ms : List Line, readings 1 (lines source.toList) = ms.map .ok →
      (∀ w, Line.last? Line.width? ms = some w → w ≠ 0 →
        ∃ c, ofSource source = .ok c ∧ c.width = w) ∧
      ((∀ w, Line.last? Line.width? ms = some w → w = 0) →
        (∀ q ∈ (Line.gates ms).flatMap Gate.qubits,
          (∀ r ∈ (Line.gates ms).flatMap Gate.qubits, r.index ≤ q.index) →
          if q.index = 4294967295 then ofSource source = .error (.widthTooLarge q.index)
          else ∃ c, ofSource source = .ok c ∧ c.width.toNat = q.index.toNat + 1) ∧
        ((Line.gates ms).flatMap Gate.qubits = [] → ∃ c, ofSource source = .ok c ∧ c.width = 1)) ∧
      (∀ c, ofSource source = .ok c → c.gateList = Line.gates ms ∧
        (∀ k p, c.gates[k]? = some p → p.position.toNat = min (k + 1) (UInt32.size - 1)) ∧
        c.name = (Line.last? Line.name? ms).getD defaultName ∧
        c.description = (Line.last? Line.description? ms).getD defaultDescription)) ∧
    (∀ key, ofSource source ≠ .error (.unknownSample key)) := by
  refine ⟨?split, fun _ _ _ => ofSource_of_fault, fun ms h => ⟨fun _ => ofSource_of_declared h,
    fun hw => ⟨fun _ => ofSource_of_largest h hw, ofSource_of_no_qubits h hw⟩, ?parts⟩,
    ofSource_ne_unknownSample source⟩
  case split =>
    obtain ⟨ls, last, hls, hlast, hsource⟩ := exists_flatMap_append source.toList
    refine ⟨ls, last, hls, hlast, hsource, ?_⟩
    rw [hsource, lines_flatMap_append hls hlast]
  case parts =>
    intro c hc
    obtain ⟨hgates, hname, hdescription, -⟩ := eq_of_ofSource h hc
    refine ⟨hgates, fun k p hk => ?_, hname, hdescription⟩
    rw [(isBuilt_of_ofSource hc).position_eq k p hk, toNat_positionAfter]

/-- A literal that is too large on the second line outweighs a width that cannot be told; a width of
zero takes back an earlier one, and then the largest qubit decides; a width that is declared hides a
qubit that has none. -/
theorem ofSource_of_readings_late_lines :
    ofSource "H(4294967295)\nX(4294967296)\nqubits 2" =
      .error (.literalTooLarge 2 "4294967296") ∧
    (∃ c, ofSource "qubits 2\r\nCNOT(7, 4294967294)\nQUBITS 0" = .ok c ∧
      c.width.toNat = 4294967295) ∧
    ∃ c, ofSource "name \"a\"\nSWAP(4294967295, 1)\nname \"b\"\nqubits 1" = .ok c ∧
      c.width = 1 ∧ c.name = "b" := by
  have hfault : readings 1 (lines "H(4294967295)\nX(4294967296)\nqubits 2".toList) =
      [.gate (.one .h ⟨4294967295⟩)].map .ok ++
        .error (.literalTooLarge 2 "4294967296") :: [.ok (.directive (.qubits 2))] := by
    decide +kernel
  have hzero : readings 1 (lines "qubits 2\r\nCNOT(7, 4294967294)\nQUBITS 0".toList) =
      [.directive (.qubits 2), .gate (.two .cnot ⟨7⟩ (some ⟨4294967294⟩)),
        .directive (.qubits 0)].map .ok := by decide +kernel
  have hnarrow : readings 1
      (lines "name \"a\"\nSWAP(4294967295, 1)\nname \"b\"\nqubits 1".toList) =
      [.directive (.name "a"), .gate (.two .swap ⟨4294967295⟩ (some ⟨1⟩)),
        .directive (.name "b"), .directive (.qubits 1)].map .ok := by decide +kernel
  obtain ⟨c, hc, hw⟩ := ((ofSource_of_readings _).2.2.1 _ hnarrow).1 1 rfl (by decide)
  refine ⟨(ofSource_of_readings _).2.1 _ _ _ hfault, ?_, c, hc, hw, ?_⟩
  · have hundeclared (w : UInt32) (h : some 0 = some w) : w = 0 := (Option.some.inj h).symm
    exact (((ofSource_of_readings _).2.2.1 _ hzero).2.1 hundeclared).1 ⟨4294967294⟩ (by decide)
      (by decide)
  · exact (((ofSource_of_readings _).2.2.1 _ hnarrow).2.2 c hc).2.2.1

end Circuit

end Statevector
