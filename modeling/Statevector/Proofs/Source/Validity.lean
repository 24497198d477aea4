import Mathlib.Data.List.Basic
import Statevector.Proofs.Run.Outcome
import Statevector.Proofs.Source.Canonical

/-!
# Circuits read from a source are fit to run

* `Circuit.circuitWidth_of_ofSource`: the width of the circuit of a source;
  `Circuit.index_lt_width_of_ofSource`: if none is declared, it holds every qubit that is named;
* `Executor.outcome_eq_error_iff`: how a run of a valid circuit can fail without being cancelled;
* **`Circuit.validate_of_ofSource`**: what a circuit that was read from a source can be refused for.
-/

namespace Statevector

open Text

namespace Circuit

open Source

variable {source : String} {c : Circuit} {ms : List Line}

/-- The circuit of a source has the width that its lines set or need. -/
theorem circuitWidth_of_ofSource (hr : readings 1 (lines source.toList) = ms.map .ok)
    (h : ofSource source = .ok c) : (Program.ofLines ms).circuitWidth = .ok c.width := by
  rw [ofSource_of_ok hr] at h
  cases hw : (Program.ofLines ms).circuitWidth with
  | error fault =>
    rw [hw] at h
    cases h
  | ok w =>
    rw [hw] at h
    cases h
    rfl

theorem width_of_declared (hr : readings 1 (lines source.toList) = ms.map .ok)
    (h : ofSource source = .ok c) {w : UInt32} (hw : Line.last? Line.width? ms = some w)
    (hne : w ≠ 0) : c.width = w := by
  obtain ⟨d, hd, rfl⟩ := ofSource_of_declared hr hw hne
  rw [h] at hd
  cases hd
  rfl

/-- A width that is not declared holds every qubit that a gate names. -/
theorem index_lt_width_of_ofSource (hr : readings 1 (lines source.toList) = ms.map .ok)
    (h : ofSource source = .ok c) (hw : ∀ w, Line.last? Line.width? ms = some w → w = 0) :
    ∀ g ∈ c.gateList, ∀ q ∈ g.qubits, q.index < c.width := by
  have hwidth := (circuitWidth_of_undeclared hw).symm.trans (circuitWidth_of_ofSource hr h)
  have hlt := Program.lt_of_inferredWidth hwidth
  rw [Program.ofLines_eq] at hlt
  rw [(eq_of_ofSource hr h).1]
  exact fun g hg q hq => hlt q (List.mem_flatMap.mpr ⟨g, hg, hq⟩)

end Circuit

namespace Executor

variable {α : Type} [Zero α] [One α] [Add α] [Sub α] [Mul α] [Neg α] [HalfRoot α]
variable {e : Executor} {c : Circuit} {pace : Pace} {watch : Observer α}

/-- A run of a valid circuit that is not cancelled fails exactly if the circuit is too wide. -/
theorem outcome_eq_error_iff (hv : c.validate = .ok ()) (he : e.cancelled = false)
    (hwatch : ∀ x ∈ (e.run pace c watch).1.observed, watch x.1 x.2 = false) {fault : Run.Fault} :
    (e.run pace c watch).1.outcome = .error fault ↔
      e.limit < c.width ∧ fault = .state (.tooManyQubits c.width.toNat e.limit.toNat) := by
  by_cases hw : c.width ≤ e.limit
  · obtain ⟨history, hok⟩ := (outcome_isOk_iff he hwatch).mpr ⟨hv, hw⟩
    simp [hok, UInt32.not_lt.mpr hw]
  · have hw := UInt32.not_le.mp hw
    rw [outcome_of_wide hv hw]
    simp [hw, eq_comm]

end Executor

namespace Circuit

open Source

variable {α : Type} [Zero α] [One α] [Add α] [Sub α] [Mul α] [Neg α] [HalfRoot α]

/-- **What a circuit that was read from a source can be refused for.** It has a qubit, its gates
have all their operands and are numbered from one, and its texts are not empty and hold neither a
quote nor a line feed. If no width but zero is declared last, every operand is in range, so that
only a repeated operand is a fault, the first of them is reported, and a valid circuit runs unless
it is too wide or cancelled. Otherwise the width is the declared one, and the largest qubit has to
be below it as well. -/
theorem validate_of_ofSource {source : String} {c : Circuit} (h : ofSource source = .ok c) :
    ∃ ms : List Line, readings 1 (lines source.toList) = ms.map .ok ∧
      1 ≤ c.width.toNat ∧
      (∀ g ∈ c.gateList, g.lacksOperand = false) ∧
      (∀ k p, c.gates[k]? = some p → k + 1 < 2 ^ 32 → p.position.toNat = k + 1) ∧
      (∀ s, s = c.name ∨ s = c.description → s ≠ "" ∧ '"' ∉ s.toList ∧ '\n' ∉ s.toList) ∧
      ((∀ w, Line.last? Line.width? ms = some w → w = 0) →
        (∀ g ∈ c.gateList, ∀ q ∈ g.qubits, q.index < c.width) ∧
        (c.validate = .ok () ↔ ∀ g ∈ c.gateList, g.repeated? = none) ∧
        (∀ fault, c.validate = .error fault → ∃ pre g post q, c.gateList = pre ++ g :: post ∧
          (∀ g' ∈ pre, g'.repeated? = none) ∧ g.repeated? = some q ∧
          fault = .repeatedQubit g.kind q) ∧
        (c.validate = .ok () → ∀ (e : Executor) pace (watch : Observer α), e.cancelled = false →
          (∀ x ∈ (e.run pace c watch).1.observed, watch x.1 x.2 = false) → ∀ fault,
          ((e.run pace c watch).1.outcome = .error fault ↔
            e.limit < c.width ∧ fault = .state (.tooManyQubits c.width.toNat e.limit.toNat)))) ∧
      (∀ d, Line.last? Line.width? ms = some d → d ≠ 0 → c.width = d ∧
        (c.validate = .ok () ↔
          (∀ g ∈ c.gateList, g.repeated? = none) ∧ ∀ m, c.maxQubit? = some m → m < d)) := by
  obtain ⟨ms, hr⟩ := exists_readings h
  have hwidth := width_ne_zero_of_ofSource h
  obtain ⟨hname, hdescription, hoperands⟩ := isGiven_of_ofSource h
  refine ⟨ms, hr, ?pos, hoperands, ?position, ?texts, ?undeclared, ?declared⟩
  case pos => exact Nat.pos_of_ne_zero fun hzero => hwidth (UInt32.toNat_inj.mp hzero)
  case position =>
    intro k p hk hlt
    rw [(isBuilt_of_ofSource h).position_eq k p hk, toNat_positionAfter]
    exact Nat.min_eq_left (Nat.le_sub_one_of_lt hlt)
  case texts =>
    rintro s (rfl | rfl)
    · exact ⟨hname.ne_empty, hname.quote_not_mem, hname.lf_not_mem⟩
    · exact ⟨hdescription.ne_empty, hdescription.quote_not_mem, hdescription.lf_not_mem⟩
  case undeclared =>
    intro hw
    have hlt := index_lt_width_of_ofSource hr h hw
    have hmax : ∀ m, c.maxQubit? = some m → m < c.width := by
      rw [maxQubit?, maxIndex?_lt_iff, List.forall_mem_flatMap]
      exact hlt
    refine ⟨hlt, ?_, fun _ => validate_eq_error_of_lt hwidth hlt,
      fun hv e pace watch he hwatch fault => Executor.outcome_eq_error_iff hv he hwatch⟩
    rw [validate_eq_ok_iff_maxQubit?]
    exact ⟨fun hv => hv.2.1, fun hv => ⟨hwidth, hv, hmax⟩⟩
  case declared =>
    intro d hd hne
    obtain rfl := width_of_declared hr h hd hne
    refine ⟨rfl, ?_⟩
    rw [validate_eq_ok_iff_maxQubit?]
    exact and_iff_right hwidth

/-- A width that is taken back leaves room for every qubit, and the repeated operand is found; a
gate on qubit 30 makes a valid circuit that is too wide to run; a declared width hides the largest
qubit. -/
theorem validate_of_ofSource_three_sources :
    (∃ c pre g post q, ofSource "qubits 2\r\nCNOT(4294967294, 1)\nSWAP(5, 5)\nQUBITS 0" = .ok c ∧
      c.validate = .error (.repeatedQubit (.two .swap) ⟨5⟩) ∧ c.gateList = pre ++ g :: post ∧
      (∀ g' ∈ pre, g'.repeated? = none) ∧ g.repeated? = some q ∧
      Fault.repeatedQubit (.two .swap) ⟨5⟩ = .repeatedQubit g.kind q) ∧
    (∃ c, ofSource "X(30)" = .ok c ∧
      (({ settings := .standard } : Executor).run .paced c
        (.cancelAt none : Observer Float)).1.outcome = .error (.state (.tooManyQubits 31 20))) ∧
    ∃ c, ofSource "qubits 3\nH(4294967295)" = .ok c ∧ c.width = 3 ∧ c.validate ≠ .ok () := by
  have hread {ms ms' : List Line}
      (h : ms.map (.ok : Line → Except Source.Fault Line) = ms'.map .ok) : ms = ms' :=
    List.map_injective_iff.mpr (fun _ _ => Except.ok.inj) h
  refine ⟨?_, ?_, ?_⟩
  · have hms : readings 1
        (lines "qubits 2\r\nCNOT(4294967294, 1)\nSWAP(5, 5)\nQUBITS 0".toList) =
        [.directive (.qubits 2), .gate (.two .cnot ⟨4294967294⟩ (some ⟨1⟩)),
          .gate (.two .swap ⟨5⟩ (some ⟨5⟩)), .directive (.qubits 0)].map .ok := by decide +kernel
    have hc : ofSource "qubits 2\r\nCNOT(4294967294, 1)\nSWAP(5, 5)\nQUBITS 0" = .ok
        (.ofGates 4294967295 [.two .cnot ⟨4294967294⟩ (some ⟨1⟩), .two .swap ⟨5⟩ (some ⟨5⟩)]) :=
      (ofSource_of_ok hms).trans rfl
    obtain ⟨ms, hr, -, -, -, -, hzero, -⟩ := validate_of_ofSource (α := Float) hc
    obtain rfl := hread (hr.symm.trans hms)
    obtain ⟨pre, g, post, q, hg⟩ := (hzero fun w hw => (Option.some.inj hw).symm).2.2.1
      (.repeatedQubit (.two .swap) ⟨5⟩) (by decide)
    exact ⟨_, pre, g, post, q, hc, by decide, hg⟩
  · have hms : readings 1 (lines "X(30)".toList) = [.gate (.one .x ⟨30⟩)].map .ok := by
      decide +kernel
    have hc : ofSource "X(30)" = .ok (.ofGates 31 [.one .x ⟨30⟩]) := (ofSource_of_ok hms).trans rfl
    obtain ⟨ms, hr, -, -, -, -, hnone, -⟩ := validate_of_ofSource (α := Float) hc
    obtain rfl := hread (hr.symm.trans hms)
    have hrun := (hnone fun w hw => by cases hw).2.2.2 (by decide) { settings := .standard } .paced
      (.cancelAt none) rfl (fun _ _ => rfl)
    exact ⟨_, hc, (hrun _).mpr ⟨by decide, rfl⟩⟩
  · have hms : readings 1 (lines "qubits 3\nH(4294967295)".toList) =
        [.directive (.qubits 3), .gate (.one .h ⟨4294967295⟩)].map .ok := by decide +kernel
    have hc : ofSource "qubits 3\nH(4294967295)" = .ok (.ofGates 3 [.one .h ⟨4294967295⟩]) :=
      (ofSource_of_ok hms).trans rfl
    obtain ⟨ms, hr, -, -, -, -, -, hthree⟩ := validate_of_ofSource (α := Float) hc
    obtain rfl := hread (hr.symm.trans hms)
    obtain ⟨hw, hiff⟩ := hthree 3 rfl (by decide)
    refine ⟨_, hc, hw, fun hv => ?_⟩
    exact absurd ((hiff.mp hv).2 4294967295 rfl) (by decide)

end Circuit

end Statevector
