import Statevector.Proofs.Source.NormalForm
import Statevector.Proofs.Source.Outcome

/-!
# Circuits read from a source and written again

* `Source.IsGiven`: the texts that a source can give a circuit; `Source.quotable_iff`: those of them
  that are written again;
* `Circuit.isGiven_of_ofSource`: the texts and gates of the circuit of a source;
* **`Circuit.ofSource_toSource_of_ofSource`**: writing it again loses only texts that hold a
  carriage return.
-/

namespace Statevector

open Text

/-! ## What a source can give -/

namespace Source

/-- A text is not empty and holds neither a quote nor a line feed. -/
structure IsGiven (s : String) : Prop where
  ne_empty : s ≠ ""
  quote_not_mem : '"' ∉ s.toList
  lf_not_mem : '\n' ∉ s.toList

theorem IsQuotedIn.isGiven {l : List Char} {s : String} (h : IsQuotedIn l s) (hl : '\n' ∉ l) :
    IsGiven s := ⟨h.ne_empty, h.quote_not_mem, fun hmem => hl (h.subset hmem)⟩

/-- Of the texts that a source can give, those without a carriage return can be written again. -/
theorem quotable_iff {s : String} (h : IsGiven s) : quotable s = true ↔ '\r' ∉ s.toList := by
  refine ⟨fun hq => (not_mem_of_quotable hq).2.2.2, fun hcr => ?_⟩
  simp only [quotable, Bool.and_eq_true, decide_eq_true_eq, List.all_eq_true]
  refine ⟨h.ne_empty, fun c hc => ⟨⟨?_, ?_⟩, ?_⟩⟩
  · rintro rfl
    exact h.quote_not_mem hc
  · rintro rfl
    exact h.lf_not_mem hc
  · rintro rfl
    exact hcr hc

end Source

namespace Circuit

open Source

variable {source : String} {c : Circuit}

/-- The texts of a circuit that was read from a source, and its gates. -/
theorem isGiven_of_ofSource (h : ofSource source = .ok c) :
    IsGiven c.name ∧ IsGiven c.description ∧ ∀ g ∈ c.gateList, g.lacksOperand = false := by
  obtain ⟨ms, hr⟩ := exists_readings h
  have hallows {m : Line} (hm : m ∈ ms) :
      ∃ number l, '\n' ∉ l ∧ Line.Allows number l (.ok m) := by
    have hmem : .ok m ∈ readings 1 (lines source.toList) := by
      rw [hr]
      exact List.mem_map_of_mem hm
    obtain ⟨number, l, hl, hallows⟩ := exists_allows_of_mem hmem
    exact ⟨number, l, lf_not_mem_of_mem_lines hl, hallows⟩
  obtain ⟨hgates, hname, hdescription, -⟩ := eq_of_ofSource hr h
  refine ⟨?name, ?description, ?gates⟩
  case name =>
    rw [hname]
    cases hlast : Line.last? Line.name? ms with
    | none => exact ⟨by decide, by decide, by decide⟩
    | some s =>
      obtain ⟨m, hm, hs⟩ := Line.exists_of_last? hlast
      obtain rfl := Line.eq_of_name? hs
      obtain ⟨number, l, hl, hquoted⟩ := hallows hm
      exact hquoted.isGiven hl
  case description =>
    rw [hdescription]
    cases hlast : Line.last? Line.description? ms with
    | none => exact ⟨by decide, by decide, by decide⟩
    | some s =>
      obtain ⟨m, hm, hs⟩ := Line.exists_of_last? hlast
      obtain rfl := Line.eq_of_description? hs
      obtain ⟨number, l, hl, hquoted⟩ := hallows hm
      exact hquoted.isGiven hl
  case gates =>
    rw [hgates]
    intro g hg
    obtain ⟨m, hm, hg⟩ := List.mem_filterMap.mp hg
    obtain rfl := Line.eq_of_gate? hg
    obtain ⟨number, l, -, hwhole⟩ := hallows hm
    exact hwhole

theorem width_ne_zero_of_ofSource (h : ofSource source = .ok c) : c.width ≠ 0 := by
  obtain ⟨ms, hr⟩ := exists_readings h
  exact (eq_of_ofSource hr h).2.2.2

/-- A text that holds a carriage return is not written again. -/
theorem quotedOr_of_isGiven {default s : String} (h : IsGiven s) :
    quotedOr default s = if '\r' ∈ s.toList then default else s := by
  unfold quotedOr
  by_cases hcr : '\r' ∈ s.toList
  · rw [if_pos hcr, if_neg fun hq => (quotable_iff h).mp hq hcr]
  · rw [if_neg hcr, if_pos ((quotable_iff h).mpr hcr)]

theorem cr_not_mem_ite {default s : String} (h : '\r' ∉ default.toList) :
    '\r' ∉ (if '\r' ∈ s.toList then default else s).toList := by
  split
  · exact h
  · assumption

/-- Circuits with the same source have the same texts in it. -/
theorem quotable_of_toSource_eq {d : Circuit} (h : d.toSource = c.toSource) :
    (quotable d.name = true ↔ quotable c.name = true) ∧
      (quotable d.description = true ↔ quotable c.description = true) := by
  have hmeanings : d.meanings = c.meanings := by
    have hclassify := d.classifyAll_toSource
    rw [h, c.classifyAll_toSource] at hclassify
    exact (Except.ok.inj hclassify).symm
  have hprogram := congrArg Program.ofLines hmeanings
  rw [Program.ofLines_meanings, Program.ofLines_meanings] at hprogram
  have hiff {s t : String} (hst : (if quotable s then some s else none) =
      if quotable t then some t else none) : quotable s = true ↔ quotable t = true := by
    have hsome := congrArg Option.isSome hst
    revert hsome
    cases quotable s <;> cases quotable t <;> simp
  exact ⟨hiff (congrArg Program.name hprogram), hiff (congrArg Program.description hprogram)⟩

theorem ofSource_toSource_of_read (h : ofSource source = .ok c) : ofSource c.toSource = .ok
    { c with
      name := if '\r' ∈ c.name.toList then defaultName else c.name
      description := if '\r' ∈ c.description.toList then defaultDescription
        else c.description } := by
  have hw := width_ne_zero_of_ofSource h
  obtain ⟨hname, hdescription, hgates⟩ := isGiven_of_ofSource h
  rw [ofSource_toSource_of_not_overflows fun hover => hw hover.1,
    normalForm_of_isBuilt (isBuilt_of_ofSource h) hw hgates, quotedOr_of_isGiven hname,
    quotedOr_of_isGiven hdescription]

/-- **Writing a circuit that was read from a source loses only texts with a carriage return.**
Reading what was written gives the circuit with the default in place of such a text, and from then
on nothing more is lost. The circuit and its source come back exactly if neither text has one. -/
theorem ofSource_toSource_of_ofSource (h : ofSource source = .ok c) :
    ∃ d, ofSource c.toSource = .ok d ∧
      d = { c with
        name := if '\r' ∈ c.name.toList then defaultName else c.name
        description := if '\r' ∈ c.description.toList then defaultDescription
          else c.description } ∧
      ofSource d.toSource = .ok d ∧
      (d = c ↔ '\r' ∉ c.name.toList ∧ '\r' ∉ c.description.toList) ∧
      (d.toSource = c.toSource ↔ '\r' ∉ c.name.toList ∧ '\r' ∉ c.description.toList) := by
  obtain ⟨hname, hdescription, -⟩ := isGiven_of_ofSource h
  have hread := ofSource_toSource_of_read h
  generalize hd : ({ c with
    name := if '\r' ∈ c.name.toList then defaultName else c.name
    description := if '\r' ∈ c.description.toList then defaultDescription
      else c.description } : Circuit) = d at hread
  have hdname : d.name = if '\r' ∈ c.name.toList then defaultName else c.name := by rw [← hd]
  have hddescription : d.description =
      if '\r' ∈ c.description.toList then defaultDescription else c.description := by rw [← hd]
  have hclean : '\r' ∉ d.name.toList ∧ '\r' ∉ d.description.toList := by
    rw [hdname, hddescription]
    exact ⟨cr_not_mem_ite (by decide), cr_not_mem_ite (by decide)⟩
  have hkept (hc : '\r' ∉ c.name.toList ∧ '\r' ∉ c.description.toList) : d = c := by
    rw [← hd, if_neg hc.1, if_neg hc.2]
  refine ⟨d, hread, rfl, ?again, ⟨?same, hkept⟩, ⟨?source, fun hc => by rw [hkept hc]⟩⟩
  case again =>
    rw [ofSource_toSource_of_read hread, if_neg hclean.1, if_neg hclean.2]
  case same =>
    rintro rfl
    exact hclean
  case source =>
    intro heq
    obtain ⟨hdname', hddescription', -⟩ := isGiven_of_ofSource hread
    obtain ⟨hn, hs⟩ := quotable_of_toSource_eq heq
    rw [quotable_iff hdname', quotable_iff hname] at hn
    rw [quotable_iff hddescription', quotable_iff hdescription] at hs
    exact ⟨hn.mp hclean.1, hs.mp hclean.2⟩

/-- A name that holds a carriage return is lost, and nothing else. -/
theorem ofSource_toSource_of_ofSource_name :
    ∃ c, ofSource "name \"//\"\nNAME \"a\rb\"\r\nCNOT(3, 1)" = .ok c ∧ c.name = "a\rb" ∧
      ofSource c.toSource = .ok { c with name := defaultName } ∧
      ofSource { c with name := defaultName }.toSource = .ok { c with name := defaultName } := by
  have h : ofSource "name \"//\"\nNAME \"a\rb\"\r\nCNOT(3, 1)" =
      .ok ⟨"a\rb", defaultDescription, 4, #[⟨1, .two .cnot ⟨3⟩ (some ⟨1⟩)⟩]⟩ := by decide +kernel
  obtain ⟨d, hd, rfl, hagain, -⟩ := ofSource_toSource_of_ofSource h
  exact ⟨_, h, rfl, hd, hagain⟩

/-- Reading a circuit that was read and written need not give the same circuit, nor the same source:
a name can hold a carriage return in the middle of its line, and is not written then. -/
theorem ofSource_toSource_ne_carriageReturn :
    ∃ c d, ofSource "name \"a\rb\"" = .ok c ∧ ofSource c.toSource = .ok d ∧ d ≠ c ∧
      d.toSource ≠ c.toSource := by
  have hc : ofSource "name \"a\rb\"" = .ok ⟨"a\rb", defaultDescription, 1, #[]⟩ := by decide +kernel
  have hd : ofSource (toSource ⟨"a\rb", defaultDescription, 1, #[]⟩) =
      .ok ⟨defaultName, defaultDescription, 1, #[]⟩ :=
    (ofSource_toSource_of_not_overflows (by decide)).trans (congrArg Except.ok (by decide))
  exact ⟨_, _, hc, hd, by decide, by decide⟩

end Circuit

end Statevector
