import Statevector.Proofs.Source.Listing
import Statevector.Proofs.Source.Program

/-!
# Circuits written as source and read back

Writing a circuit as source loses what the source cannot express: gates that lack an operand,
texts that cannot stand between quotes, positions that are not those of appended gates, and the
width zero.

* `Circuit.wholeGates`, `Circuit.normalForm`: what is left of a circuit; `Circuit.Overflows`: the
  circuits whose source cannot be read;
* `Source.Program.ofLines_meanings`: the program that a listing is read as;
* **`Circuit.ofSource_toSource`**: reading the canonical source of a circuit gives its normal form.
-/

namespace Statevector

open Text

/-! ## Normal forms -/

namespace Circuit

/-- The gates of a circuit that lack no operand. -/
def wholeGates (c : Circuit) : List Gate := c.gateList.filter fun g => !g.lacksOperand

/-- The largest index that a gate which lacks no operand names. -/
def maxWhole? (c : Circuit) : Option UInt32 := maxIndex? (c.wholeGates.flatMap Gate.qubits)

/-- The width of a circuit, or the least that holds the qubits its gates name if that is zero. -/
def normalWidth (c : Circuit) : UInt32 :=
  if c.width ≠ 0 then c.width
  else match c.maxWhole? with
    | some m => m + 1
    | none => 1

/-- A text if it can be quoted on a line, or else another. -/
def quotedOr (default text : String) : String := if Source.quotable text then text else default

/-- What is left of a circuit that is written as source. -/
def normalForm (c : Circuit) : Circuit where
  name := quotedOr defaultName c.name
  description := quotedOr defaultDescription c.description
  width := c.normalWidth
  gates := (ofGates c.normalWidth c.wholeGates).gates

/-- A circuit whose canonical source names the largest index there is and no width. -/
def Overflows (c : Circuit) : Prop :=
  c.width = 0 ∧ ∃ g ∈ c.wholeGates, (⟨4294967295⟩ : Qubit) ∈ g.qubits

instance (c : Circuit) : Decidable c.Overflows := inferInstanceAs (Decidable (_ ∧ _))

end Circuit

/-! ## The program of a listing -/

namespace Source.Program

theorem foldl_add_gates (p : Program) (gs : List Gate) :
    (gs.map Gate.meaning).foldl add p =
      { p with gates := p.gates ++ (gs.filter fun g => !g.lacksOperand).toArray } := by
  induction gs generalizing p with
  | nil => simp
  | cons g gs ih =>
    rw [List.map_cons, List.foldl_cons, ih, Gate.meaning]
    cases hg : g.lacksOperand with
    | true => simp [add, hg]
    | false => simp [add, hg]

theorem foldl_add_name (p : Program) (text : String) :
    (settingMeaning .name text).foldl add p =
      { p with name := if quotable text then some text else p.name } := by
  unfold settingMeaning
  split <;> rfl

theorem foldl_add_description (p : Program) (text : String) :
    (settingMeaning .description text).foldl add p =
      { p with description := if quotable text then some text else p.description } := by
  unfold settingMeaning
  split <;> rfl

theorem foldl_add_blank (p : Program) (b : Bool) :
    (if b then [] else [Line.blank]).foldl add p = p := by
  split <;> rfl

/-- The program that a listing is read as. -/
theorem ofLines_meanings (c : Circuit) : ofLines c.meanings =
    { width := some c.width
      name := if quotable c.name then some c.name else none
      description := if quotable c.description then some c.description else none
      gates := c.wholeGates.toArray } := by
  rw [ofLines, Circuit.meanings, List.foldl_append, List.foldl_append, List.foldl_append,
    List.foldl_append, foldl_add_gates, foldl_add_blank, foldl_add_description, foldl_add_name]
  simp [add, Circuit.wholeGates]

end Source.Program

namespace Circuit

theorem overflows_iff (c : Circuit) :
    c.Overflows ↔ c.width = 0 ∧ c.maxWhole? = some 4294967295 := by
  refine and_congr_right fun _ => ?_
  rw [maxWhole?, maxIndex?_eq_some_iff, List.mem_flatMap]
  refine ⟨fun h => ⟨h, fun q _ => ?_⟩, fun h => h.1⟩
  have hq := q.index.toNat_lt
  rw [UInt32.le_iff_toNat_le]
  exact Nat.le_of_lt_succ hq

theorem circuitWidth_ofLines_meanings (c : Circuit) :
    (Source.Program.ofLines c.meanings).circuitWidth =
      if c.width = 0 then (Source.Program.ofLines c.meanings).inferredWidth else .ok c.width := by
  rw [Source.Program.ofLines_meanings, Source.Program.circuitWidth]

theorem maxIndex?_ofLines_meanings (c : Circuit) : maxIndex?
    ((Source.Program.ofLines c.meanings).gates.toList.flatMap Gate.qubits) = c.maxWhole? := by
  rw [Source.Program.ofLines_meanings, maxWhole?]

theorem circuitWidth_of_overflows {c : Circuit} (h : c.Overflows) :
    (Source.Program.ofLines c.meanings).circuitWidth = .error (.widthTooLarge 4294967295) := by
  obtain ⟨hw, hmax⟩ := (overflows_iff c).mp h
  rw [← maxIndex?_ofLines_meanings] at hmax
  rw [circuitWidth_ofLines_meanings, if_pos hw, Source.Program.inferredWidth_of_max hmax,
    if_pos rfl]

theorem circuitWidth_of_not_overflows {c : Circuit} (h : ¬ c.Overflows) :
    (Source.Program.ofLines c.meanings).circuitWidth = .ok c.normalWidth := by
  rw [circuitWidth_ofLines_meanings, normalWidth]
  by_cases hw : c.width = 0
  · rw [if_pos hw, if_neg (not_not_intro hw)]
    cases hmax : c.maxWhole? with
    | none =>
      rw [← maxIndex?_ofLines_meanings] at hmax
      rw [Source.Program.inferredWidth_of_none hmax]
    | some m =>
      have hm : m ≠ 4294967295 := by
        rintro rfl
        exact h ((overflows_iff c).mpr ⟨hw, hmax⟩)
      rw [← maxIndex?_ofLines_meanings] at hmax
      rw [Source.Program.inferredWidth_of_max hmax, if_neg hm]
  · rw [if_neg hw, if_pos hw]

/-! ## Reading a listing -/

theorem ofSource_toSource_eq (c : Circuit) :
    ofSource c.toSource = (Source.Program.ofLines c.meanings).circuit := by
  rw [ofSource, classifyAll_toSource]
  rfl

theorem ofSource_toSource_of_overflows {c : Circuit} (h : c.Overflows) :
    ofSource c.toSource = .error (.widthTooLarge 4294967295) := by
  rw [ofSource_toSource_eq, Source.Program.circuit, circuitWidth_of_overflows h]
  rfl

theorem ofSource_toSource_of_not_overflows {c : Circuit} (h : ¬ c.Overflows) :
    ofSource c.toSource = .ok c.normalForm := by
  rw [ofSource_toSource_eq, Source.Program.circuit_eq, circuitWidth_of_not_overflows h,
    Source.Program.ofLines_meanings]
  have hquoted (default text : String) :
      (if Source.quotable text then some text else none).getD default = quotedOr default text := by
    rw [quotedOr]
    split <;> rfl
  simp only [hquoted]
  rfl

/-- All that is lost of a circuit that was built, has a width and lacks no operand are its texts. -/
theorem normalForm_of_isBuilt {c : Circuit} (h : c.IsBuilt) (hw : c.width ≠ 0)
    (hg : ∀ g ∈ c.gateList, g.lacksOperand = false) : c.normalForm =
      { c with
        name := quotedOr defaultName c.name
        description := quotedOr defaultDescription c.description } := by
  have hwidth : c.normalWidth = c.width := by rw [normalWidth, if_pos hw]
  have hwhole : c.wholeGates = c.gateList := by
    rw [wholeGates, List.filter_eq_self]
    intro g hmem
    rw [hg g hmem, Bool.not_false]
  rw [normalForm, hwidth, hwhole, ← h.gates_eq]

theorem normalForm_eq_self {c : Circuit} (h : c.IsBuilt) (hw : c.width ≠ 0)
    (hn : Source.quotable c.name = true) (hd : Source.quotable c.description = true)
    (hg : ∀ g ∈ c.gateList, g.lacksOperand = false) : c.normalForm = c := by
  rw [normalForm_of_isBuilt h hw hg, quotedOr, quotedOr, if_pos hn, if_pos hd]

/-- **Writing a circuit as source and reading it back gives its normal form**, unless it has no
width and names the largest index. -/
theorem ofSource_toSource (c : Circuit) :
    (ofSource c.toSource = .error (.widthTooLarge 4294967295) ↔ c.Overflows) ∧
      (¬ c.Overflows → ofSource c.toSource = .ok c.normalForm) ∧
      (∀ line literal, ofSource c.toSource ≠ .error (.literalTooLarge line literal)) ∧
      (c.IsBuilt → c.width ≠ 0 → Source.quotable c.name = true →
        Source.quotable c.description = true → (∀ g ∈ c.gateList, g.lacksOperand = false) →
        ofSource c.toSource = .ok c) := by
  by_cases h : c.Overflows
  · have heq := ofSource_toSource_of_overflows h
    refine ⟨⟨fun _ => h, fun _ => heq⟩, fun hn => absurd h hn, fun line literal he => ?_, ?_⟩
    · rw [heq] at he
      cases he
    · exact fun _ hw => absurd h.1 hw
  · have heq := ofSource_toSource_of_not_overflows h
    refine ⟨⟨fun he => ?_, fun hn => absurd hn h⟩, fun _ => heq, fun line literal he => ?_, ?_⟩
    · rw [heq] at he
      cases he
    · rw [heq] at he
      cases he
    · intro hbuilt hw hn hd hg
      rw [heq, normalForm_eq_self hbuilt hw hn hd hg]

/-- A name with a quote, the width zero, a missing operand and a stray position are lost; a
description that looks like a comment is kept. -/
theorem ofSource_toSource_lossy :
    ofSource (toSource ⟨"a\"b", "// x", 0,
      #[⟨7, .two .cnot ⟨0⟩ none⟩, ⟨7, .two .swap ⟨4⟩ (some ⟨2⟩)⟩]⟩) =
      .ok ⟨defaultName, "// x", 5, #[⟨1, .two .swap ⟨4⟩ (some ⟨2⟩)⟩]⟩ :=
  ((ofSource_toSource _).2.1 (by decide)).trans (congrArg Except.ok (by decide))

end Circuit

end Statevector
