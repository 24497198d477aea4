import Mathlib.Data.List.Forall2
import Mathlib.Data.List.Nodup
import Statevector.Proofs.State.Measure
import Statevector.Proofs.Text.Lines
import Statevector.State.Ket

/-!
# What is shown of a state

A state is shown by a line for every significant basis index, and the indices are found again in
the lines.

* `binaryValue`, `binaryValue_binary`, `getElem?_reverse_binary`: labels are binary numerals;
* `lf_not_mem_fixed`, `Amplitude.lf_not_mem_text`: what is written of a number keeps to its line;
* `labelOf`, `IsLineOf`: what makes a line one for a basis index; `State.isLineOf_ket`: the lines of
  a state are such lines;
* `State.IsSignificant`, `State.exists_kets`: the indices that are shown; `shownIndices`,
  `State.shownIndices_linesFor`: they are read back;
* **`State.text_lists`**: what is shown of a state.
-/

namespace Statevector

open Text

/-! ## Binary numerals -/

theorem eq_or_eq_of_mem_toDigits_two {n : Nat} {c : Char} (h : c ∈ Nat.toDigits 2 n) :
    c = '0' ∨ c = '1' := by
  have hdigit : ∀ d < 2, c = Nat.digitChar d → c = '0' ∨ c = '1' := by
    intro d hd hc
    obtain rfl | rfl : d = 0 ∨ d = 1 := by omega
    · exact .inl hc
    · exact .inr hc
  induction n using Nat.strongRecOn with
  | ind n ih =>
    rw [Nat.toDigits_eq_if (by decide)] at h
    split at h
    · next hlt => exact hdigit n hlt (List.mem_singleton.mp h)
    · next hle =>
      rcases List.mem_append.mp h with h | h
      · exact ih (n / 2) (by omega) h
      · exact hdigit (n % 2) (Nat.mod_lt _ (by decide)) (List.mem_singleton.mp h)

/-- The digit at a place, from the right, is one if the number has that bit. -/
theorem getElem?_reverse_toDigits_two (n q : Nat) :
    (Nat.toDigits 2 n).reverse[q]? = some '1' ↔ n / 2 ^ q % 2 = 1 := by
  induction n using Nat.strongRecOn generalizing q with
  | ind n ih =>
    rw [Nat.toDigits_eq_if (by decide)]
    split
    · next hlt =>
      cases q with
      | zero => simp [Nat.mod_eq_of_lt hlt]
      | succ q =>
        have hzero : n / 2 ^ (q + 1) = 0 := by
          rw [Nat.pow_succ', ← Nat.div_div_eq_div_mul, Nat.div_eq_of_lt hlt, Nat.zero_div]
        simp [hzero]
    · next hle =>
      rw [List.reverse_append, List.reverse_singleton, List.singleton_append]
      cases q with
      | zero => simp
      | succ q =>
        rw [List.getElem?_cons_succ, ih (n / 2) (by omega), Nat.div_div_eq_div_mul, Nat.pow_succ']

theorem eq_or_eq_of_mem_binary {width n : Nat} {c : Char} (h : c ∈ binary width n) :
    c = '0' ∨ c = '1' := by
  rcases List.mem_append.mp h with h | h
  · exact .inl (List.eq_of_mem_replicate h)
  · exact eq_or_eq_of_mem_toDigits_two h

theorem length_binary {width n : Nat} (hwidth : 0 < width) (hn : n < 2 ^ width) :
    (binary width n).length = width := by
  have hlen : (Nat.toDigits 2 n).length ≤ width :=
    (Nat.length_toDigits_le_iff (by decide) hwidth).mpr hn
  simp only [binary, List.length_append, List.length_replicate]
  omega

theorem getElem?_reverse_binary (width n q : Nat) :
    (binary width n).reverse[q]? = some '1' ↔ n / 2 ^ q % 2 = 1 := by
  rw [← getElem?_reverse_toDigits_two, binary, List.reverse_append, List.reverse_replicate,
    List.getElem?_append]
  split
  · rfl
  · next hlen =>
    -- only zeros are filled in
    have hnone : (Nat.toDigits 2 n).reverse[q]? = none := List.getElem?_eq_none (by omega)
    simp [hnone, List.getElem?_replicate]

/-- The number that binary digits stand for. -/
def binaryValue (ds : List Char) : Nat := Nat.ofDigitChars 2 ds 0

theorem binaryValue_binary (width n : Nat) : binaryValue (binary width n) = n := by
  rw [binaryValue, binary, Nat.ofDigitChars_append, Nat.ofDigitChars_replicate_zero, Nat.mul_zero,
    Nat.ofDigitChars_toDigits (by decide) (by decide)]

/-! ## Numbers without line feeds -/

theorem lf_not_mem_numeral (n : Nat) : '\n' ∉ numeral n := fun h =>
  absurd (isDigit_of_mem_numeral h) (by decide)

theorem lf_not_mem_placePoint (places n : Nat) : '\n' ∉ placePoint places n := by
  simp [placePoint, lf_not_mem_numeral]

theorem lf_not_mem_fixed (places : Nat) (x : Float) : '\n' ∉ (fixed places x).toList := by
  rw [fixed, String.toList_ofList]
  cases Binary64.ofFloat x with
  | nan => simp [Binary64.fixed]
  | infinite negative => cases negative <;> simp [Binary64.fixed]
  | finite negative m e => cases negative <;> simp [Binary64.fixed, lf_not_mem_placePoint]

theorem Amplitude.lf_not_mem_text (a : Amplitude Float) : '\n' ∉ a.text.toList := by
  unfold Amplitude.text
  split
  · split
    · decide
    · exact lf_not_mem_fixed 3 a.re
  · split
    · simp [lf_not_mem_fixed]
    · split <;> simp [lf_not_mem_fixed]

/-! ## Lines -/

/-- The label in a line: what stands between its first character and the first bracket. -/
def labelOf (line : List Char) : List Char := (line.drop 1).takeWhile (· ≠ '⟩')

/-- A line is for a basis index of some qubits: it has a label, and the label is the index in
binary, a digit for every qubit. -/
structure IsLineOf (width i : Nat) (line : List Char) : Prop where
  lf_not_mem : '\n' ∉ line
  shape : ∃ rest, line = '|' :: (labelOf line ++ '⟩' :: rest)
  digit : ∀ c ∈ labelOf line, c = '0' ∨ c = '1'
  length : 1 ≤ width → (labelOf line).length = width
  bit (q : Nat) : (labelOf line).reverse[q]? = some '1' ↔ i / 2 ^ q % 2 = 1
  value : binaryValue (labelOf line) = i

/-- The indices that a text shows: those of its lines that start with a bar. -/
def shownIndices (text : List Char) : List Nat :=
  ((lines text).filter (·.head? = some '|')).map fun line => binaryValue (labelOf line)

namespace State

variable {s : State Float}

theorem toList_ket (s : State Float) (i : Nat) (a : Amplitude Float) :
    ∃ rest, (s.ket i a).toList = '|' :: (s.label i ++ '⟩' :: rest) ∧ '\n' ∉ rest := by
  refine ⟨": ".toList ++ a.text.toList ++ " (".toList ++ (fixed 1 (a.weight * 100)).toList ++
    "%)".toList, ?_, ?_⟩
  · simp [ket]
  · simp [a.lf_not_mem_text, lf_not_mem_fixed]

theorem getLast?_ket (s : State Float) (i : Nat) (a : Amplitude Float) :
    (s.ket i a).toList.getLast? = some ')' := by
  rw [ket, String.toList_append, List.getLast?_append]
  rfl

theorem lf_not_mem_label (s : State Float) (i : Nat) : '\n' ∉ s.label i := fun h =>
  absurd (eq_or_eq_of_mem_binary h) (by decide)

theorem bracket_not_mem_label (s : State Float) (i : Nat) : '⟩' ∉ s.label i := fun h =>
  absurd (eq_or_eq_of_mem_binary h) (by decide)

theorem lf_not_mem_ket (s : State Float) (i : Nat) (a : Amplitude Float) :
    '\n' ∉ (s.ket i a).toList := by
  obtain ⟨rest, hket, hrest⟩ := s.toList_ket i a
  simp [hket, s.lf_not_mem_label, hrest]

theorem labelOf_ket (s : State Float) (i : Nat) (a : Amplitude Float) :
    labelOf (s.ket i a).toList = s.label i := by
  obtain ⟨rest, hket, -⟩ := s.toList_ket i a
  have hlabel : ∀ c ∈ s.label i, decide (c ≠ '⟩') = true := fun c hc =>
    decide_eq_true fun heq => s.bracket_not_mem_label i (heq ▸ hc)
  rw [hket, labelOf, List.drop_succ_cons, List.drop_zero]
  exact takeWhile_append_stop hlabel (by simp)

theorem isLineOf_ket {i : Nat} (hi : i < 2 ^ s.width) (a : Amplitude Float) :
    IsLineOf s.width i (s.ket i a).toList := by
  obtain ⟨rest, hket, -⟩ := s.toList_ket i a
  have hlabel := s.labelOf_ket i a
  exact {
    lf_not_mem := s.lf_not_mem_ket i a
    shape := ⟨rest, by rw [hlabel, hket]⟩
    digit := fun c hc => eq_or_eq_of_mem_binary (hlabel ▸ hc)
    length := fun hwidth => by rw [hlabel, label, length_binary hwidth hi]
    bit := fun q => by rw [hlabel, label, getElem?_reverse_binary]
    value := by rw [hlabel, label, binaryValue_binary] }

/-! ## States -/

/-- A basis index is significant if its squared magnitude is above the threshold. -/
def IsSignificant (s : State Float) (i : Nat) : Prop :=
  ∃ a, s.amplitudes[i]? = some a ∧ 0.001 < a.re * a.re + a.im * a.im

/-- The lines of a state are those of its significant indices. -/
theorem exists_kets (s : State Float) : ∃ entries, s.IsSelection s.IsSignificant entries ∧
    s.kets = entries.map fun e => s.ket e.2 e.1 := by
  refine ⟨_, s.isSelection_filter fun a i ha => ?_, rfl⟩
  change decide (_ < a.weight) = true ↔ _
  rw [decide_eq_true_iff, IsSignificant, ha]
  exact ⟨fun h => ⟨a, rfl, h⟩, fun ⟨b, hb, h⟩ => Option.some.inj hb ▸ h⟩

/-- The lines for some entries of a state. -/
def linesFor (s : State Float) (entries : List (Amplitude Float × Nat)) : List (List Char) :=
  entries.map fun e => (s.ket e.2 e.1).toList

theorem map_labelOf_linesFor (s : State Float) (entries : List (Amplitude Float × Nat)) :
    (s.linesFor entries).map labelOf = (entries.map Prod.snd).map s.label := by
  simp only [linesFor, List.map_map, Function.comp_def, labelOf_ket]

/-- The indices of the entries are found again in the lines for them. -/
theorem shownIndices_linesFor (s : State Float) (entries : List (Amplitude Float × Nat)) :
    shownIndices ((s.linesFor entries).flatMap (· ++ ['\n'])) = entries.map Prod.snd := by
  have hlf : ∀ l ∈ s.linesFor entries, '\n' ∉ l := by
    intro l hl
    obtain ⟨e, -, rfl⟩ := List.mem_map.mp hl
    exact s.lf_not_mem_ket e.2 e.1
  have hcr : ∀ l ∈ s.linesFor entries, l.getLast? ≠ some '\r' := by
    intro l hl
    obtain ⟨e, -, rfl⟩ := List.mem_map.mp hl
    rw [s.getLast?_ket e.2 e.1]
    decide
  have hbar : ∀ l ∈ s.linesFor entries, decide (l.head? = some '|') = true := by
    intro l hl
    obtain ⟨e, -, rfl⟩ := List.mem_map.mp hl
    obtain ⟨rest, hket, -⟩ := s.toList_ket e.2 e.1
    rw [hket]
    rfl
  calc shownIndices ((s.linesFor entries).flatMap (· ++ ['\n']))
      = ((s.linesFor entries).map labelOf).map binaryValue := by
        rw [shownIndices, lines_flatMap_lf hlf hcr, List.filter_eq_self.mpr hbar, List.map_map]
        rfl
    _ = (entries.map Prod.snd).map fun i => binaryValue (s.label i) := by
        rw [map_labelOf_linesFor, List.map_map]
        rfl
    _ = entries.map Prod.snd := List.map_id'' (fun i => binaryValue_binary s.width i) _

/-- What is shown of a state is a sentence, or its lines, each with a line feed. -/
theorem toList_text {entries : List (Amplitude Float × Nat)}
    (h : s.kets = entries.map fun e => s.ket e.2 e.1) :
    (entries = [] → s.text = noSignificant) ∧ (entries ≠ [] →
      s.text.toList = (s.linesFor entries).flatMap (· ++ ['\n'])) := by
  refine ⟨fun hnil => ?_, fun hne => ?_⟩
  · rw [text, h, hnil]
    rfl
  · rw [text, h, if_neg (by simpa using hne), linesFor, String.toList_join, List.flatMap_map,
      List.flatMap_map, List.flatMap_map]
    simp

theorem label_injective (s : State Float) : Function.Injective s.label := by
  intro i j h
  calc i = binaryValue (s.label i) := (binaryValue_binary s.width i).symm
    _ = binaryValue (s.label j) := by rw [h]
    _ = j := binaryValue_binary s.width j

theorem mem_map_snd_iff {entries : List (Amplitude Float × Nat)}
    (h : s.IsSelection s.IsSignificant entries) {i : Nat} :
    i ∈ entries.map Prod.snd ↔ s.IsSignificant i := by
  rw [List.mem_map]
  constructor
  · rintro ⟨⟨a, i⟩, hmem, rfl⟩
    exact ((h.mem_iff a i).mp hmem).2
  · intro hi
    obtain ⟨a, ha, -⟩ := id hi
    exact ⟨(a, i), (h.mem_iff a i).mpr ⟨ha, hi⟩, rfl⟩

/-- The lines for the significant entries of a full state are lines for their indices. -/
theorem forall₂_isLineOf {entries : List (Amplitude Float × Nat)}
    (h : s.IsSelection s.IsSignificant entries) (hs : s.amplitudes.size = 2 ^ s.width) :
    List.Forall₂ (IsLineOf s.width) (entries.map Prod.snd) (s.linesFor entries) := by
  rw [linesFor, List.forall₂_map_left_iff, List.forall₂_map_right_iff, List.forall₂_same]
  rintro ⟨a, i⟩ hmem
  obtain ⟨hi, -⟩ := Array.getElem?_eq_some_iff.mp ((h.mem_iff a i).mp hmem).1
  exact isLineOf_ket (hi.trans_eq hs) a

/-- **What is shown of a full state has a line for every significant index, in order, and for no
other, and tells which.** It is a sentence exactly if no index is significant. Otherwise it is put
together from lines, one for each of them; different lines have different labels, and the indices
are found again in the text. -/
theorem text_lists (s : State Float) (hs : s.amplitudes.size = 2 ^ s.width) :
    (s.text = "No significant amplitudes" ↔ ∀ i, ¬ s.IsSignificant i) ∧
      ∃ (indices : List Nat) (ls : List (List Char)),
        indices.Pairwise (· < ·) ∧ (∀ i, i ∈ indices ↔ s.IsSignificant i) ∧
        List.Forall₂ (IsLineOf s.width) indices ls ∧
        (indices ≠ [] → s.text.toList = ls.flatMap (· ++ ['\n'])) ∧
        (ls.map labelOf).Nodup ∧ shownIndices s.text.toList = indices := by
  obtain ⟨entries, hentries, hkets⟩ := s.exists_kets
  obtain ⟨hempty, htext⟩ := toList_text hkets
  have hmem (i : Nat) : i ∈ entries.map Prod.snd ↔ s.IsSignificant i := mem_map_snd_iff hentries
  have hsorted : (entries.map Prod.snd).Pairwise (· < ·) := List.pairwise_map.mpr hentries.sorted
  have hshown : shownIndices s.text.toList = entries.map Prod.snd := by
    by_cases hnil : entries = []
    · rw [hempty hnil, hnil]
      decide
    · rw [htext hnil, shownIndices_linesFor]
  have hsentence : s.text = noSignificant ↔ entries = [] := by
    refine ⟨fun h => ?_, hempty⟩
    rw [h] at hshown
    exact List.map_eq_nil_iff.mp (hshown.symm.trans (by decide))
  refine ⟨?_, entries.map Prod.snd, s.linesFor entries, hsorted, hmem,
    forall₂_isLineOf hentries hs, fun hne => htext (by simpa using hne), ?_, hshown⟩
  · refine hsentence.trans ⟨fun hnil i hi => ?_, fun hnone => ?_⟩
    · simp [← hmem, hnil] at hi
    · exact List.map_eq_nil_iff.mp (List.eq_nil_iff_forall_not_mem.mpr fun i hi =>
        hnone i ((hmem i).mp hi))
  · rw [map_labelOf_linesFor]
    exact List.Nodup.map s.label_injective (hsorted.imp Nat.ne_of_lt)

/-- An infinite amplitude is shown, one that is not a number is not. -/
theorem text_lists_infinite :
    ∃ s : State Float, s = ⟨2, #[⟨0 / 0, 0⟩, ⟨0.01, 0⟩, ⟨1 / 0, -0.5⟩, ⟨0, 0.25⟩]⟩ ∧
      s.amplitudes.size = 2 ^ s.width ∧
      s.text = "|10⟩: inf-0.500i (inf%)\n|11⟩: 0.250i (6.2%)\n" ∧
      ∀ i, s.IsSignificant i ↔ i ∈ [2, 3] := by
  obtain ⟨s, hs⟩ : ∃ s : State Float,
    s = ⟨2, #[⟨0 / 0, 0⟩, ⟨0.01, 0⟩, ⟨1 / 0, -0.5⟩, ⟨0, 0.25⟩]⟩ := ⟨_, rfl⟩
  have hsize : s.amplitudes.size = 2 ^ s.width := by rw [hs]; rfl
  have htext : s.text = "|10⟩: inf-0.500i (inf%)\n|11⟩: 0.250i (6.2%)\n" := by
    rw [hs]
    decide +kernel
  obtain ⟨-, indices, ls, -, hmem, -, -, -, hshown⟩ := text_lists s hsize
  have hindices : indices = [2, 3] := by
    rw [← hshown, htext]
    decide +kernel
  exact ⟨s, hs, hsize, htext, fun i => by rw [← hmem, hindices]⟩

end State

end Statevector
