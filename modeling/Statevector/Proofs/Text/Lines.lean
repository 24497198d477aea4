import Statevector.Text.Blank
import Statevector.Text.Lines

/-!
# Texts put together from lines

* `lines_cons_lf`: the lines of a text that starts with a line and its line feed;
* `exists_flatMap_append`: every text is put together from texts without line feeds;
  **`lines_flatMap_append`**: its lines are these, the last one only if it is not empty;
  `lf_not_mem_of_mem_lines`: no line holds a line feed;
* `lines_flatMap_lf`: lines that hold no line feed and end in no carriage return are the
  lines of the text in which each of them is followed by a line feed;
* `isBlank_eq_false`: the characters from `!` to the end of ASCII are not blank;
* `trim_eq_self`: a text that neither starts nor ends with a blank is left as it is;
  `isBlank_of_head?_trim`, `isBlank_of_getLast?_trim`: no other text is left.
-/

namespace Statevector.Text

theorem linesOfPieces_cons {p : List Char} {ps : List (List Char)} (h : ps ≠ []) :
    linesOfPieces (p :: ps) = dropReturn p :: linesOfPieces ps := by
  cases ps with
  | nil => exact absurd rfl h
  | cons q qs => rfl

theorem lines_cons_lf {l : List Char} (h : '\n' ∉ l) (cs : List Char) :
    lines (l ++ '\n' :: cs) = dropReturn l :: lines cs := by
  rw [lines, pieces_append_lf h, linesOfPieces_cons (pieces_ne_nil cs), lines]

theorem dropReturn_eq_self {l : List Char} (h : l.getLast? ≠ some '\r') : dropReturn l = l := by
  rw [dropReturn, if_neg h]

theorem lines_eq_singleton {p : List Char} (h : '\n' ∉ p) :
    lines p = if p = [] then [] else [p] := by
  rw [lines, pieces_eq_singleton h]
  rfl

/-- **The lines of a text are what stands before its line feeds, each less one carriage return, and
what follows the last of them.** -/
theorem lines_flatMap_append {ls : List (List Char)} (hls : ∀ l ∈ ls, '\n' ∉ l) {p : List Char}
    (hp : '\n' ∉ p) : lines (ls.flatMap (· ++ ['\n']) ++ p) =
      ls.map dropReturn ++ if p = [] then [] else [p] := by
  induction ls with
  | nil => exact lines_eq_singleton hp
  | cons l ls ih =>
    rw [List.forall_mem_cons] at hls
    rw [List.flatMap_cons, List.append_assoc, List.append_assoc, List.singleton_append,
      lines_cons_lf hls.1, ih hls.2]
    rfl

/-- Every text is some texts without line feeds, each but the last followed by one. -/
theorem exists_flatMap_append (cs : List Char) : ∃ (ls : List (List Char)) (p : List Char),
    (∀ l ∈ ls, '\n' ∉ l) ∧ '\n' ∉ p ∧ cs = ls.flatMap (· ++ ['\n']) ++ p := by
  induction cs with
  | nil => exact ⟨[], [], by simp, by simp, rfl⟩
  | cons c cs ih =>
    obtain ⟨ls, p, hls, hp, rfl⟩ := ih
    by_cases hc : c = '\n'
    · subst hc
      exact ⟨[] :: ls, p, by simpa using hls, hp, rfl⟩
    have hcons {l : List Char} (hl : '\n' ∉ l) : '\n' ∉ c :: l := by simp [Ne.symm hc, hl]
    cases ls with
    | nil => exact ⟨[], c :: p, hls, hcons hp, rfl⟩
    | cons l ls =>
      rw [List.forall_mem_cons] at hls
      exact ⟨(c :: l) :: ls, p, List.forall_mem_cons.mpr ⟨hcons hls.1, hls.2⟩, hp, rfl⟩

theorem mem_of_mem_dropReturn {l : List Char} {c : Char} (h : c ∈ dropReturn l) : c ∈ l := by
  unfold dropReturn at h
  split at h
  · exact (List.dropLast_sublist l).subset h
  · exact h

theorem lf_not_mem_of_mem_lines {cs l : List Char} (h : l ∈ lines cs) : '\n' ∉ l := by
  obtain ⟨ls, p, hls, hp, rfl⟩ := exists_flatMap_append cs
  rw [lines_flatMap_append hls hp, List.mem_append, List.mem_map] at h
  rcases h with ⟨l', hl', rfl⟩ | h
  · exact fun hmem => hls l' hl' (mem_of_mem_dropReturn hmem)
  · split at h
    · cases h
    · rwa [List.mem_singleton.mp h]

/-- Lines that are each followed by a line feed are read back. -/
theorem lines_flatMap_lf {ls : List (List Char)} (hlf : ∀ l ∈ ls, '\n' ∉ l)
    (hcr : ∀ l ∈ ls, l.getLast? ≠ some '\r') : lines (ls.flatMap (· ++ ['\n'])) = ls := by
  have h := lines_flatMap_append hlf (p := []) (by simp)
  rw [List.append_nil, if_pos rfl, List.append_nil] at h
  rw [h, List.map_congr_left fun l hl => dropReturn_eq_self (hcr l hl), List.map_id']

/-! ## Texts without outer blanks -/

theorem isBlank_eq_false {c : Char} (hlow : 0x20 < c.toNat) (hhigh : c.toNat < 0x85) :
    isBlank c = false := by
  rw [Bool.eq_false_iff]
  intro h
  have hle : ∀ d : Char, d.toNat ≤ 0x20 ∨ 0x85 ≤ d.toNat → c ≠ d := by
    rintro d hd rfl
    omega
  have hrange : ∀ d e : Char, e.toNat ≤ 0x20 ∨ 0x85 ≤ d.toNat → ¬ (d ≤ c ∧ c ≤ e) := by
    rintro d e hde ⟨hd, he⟩
    have hd : d.toNat ≤ c.toNat := UInt32.le_iff_toNat_le.mp hd
    have he : c.toNat ≤ e.toNat := UInt32.le_iff_toNat_le.mp he
    omega
  simp only [isBlank, Bool.or_eq_true, Bool.and_eq_true, decide_eq_true_eq, beq_iff_eq] at h
  rcases h with (((((((((h | h) | h) | h) | h) | h) | h) | h) | h) | h) | h
  any_goals exact hle _ (by decide) h
  all_goals exact hrange _ _ (by decide) h

theorem trimStart_eq_self {cs : List Char} (h : ∀ c, cs.head? = some c → isBlank c = false) :
    trimStart cs = cs := by
  cases cs with
  | nil => rfl
  | cons c cs => simp [trimStart, h c rfl]

theorem trimEnd_eq_self {cs : List Char} (h : ∀ c, cs.getLast? = some c → isBlank c = false) :
    trimEnd cs = cs := by
  have hrev : trimStart cs.reverse = cs.reverse := trimStart_eq_self fun c hc =>
    h c (by rwa [List.head?_reverse] at hc)
  rw [trimStart] at hrev
  rw [trimEnd, hrev, List.reverse_reverse]

/-- A text that neither starts nor ends with a blank is left as it is. -/
theorem trim_eq_self {cs : List Char} (hstart : ∀ c, cs.head? = some c → isBlank c = false)
    (hend : ∀ c, cs.getLast? = some c → isBlank c = false) : trim cs = cs := by
  rw [trim, trimStart_eq_self hstart, trimEnd_eq_self hend]

theorem trimEnd_prefix (cs : List Char) : trimEnd cs <+: cs := by
  rw [trimEnd, ← List.reverse_suffix, List.reverse_reverse]
  exact List.dropWhile_suffix _

theorem isBlank_of_head?_trim {cs : List Char} {c : Char} (h : (trim cs).head? = some c) :
    isBlank c = false := by
  obtain ⟨tail, htail⟩ := trimEnd_prefix (trimStart cs)
  have hstart : (cs.dropWhile isBlank).head? = some c := by
    rw [trim] at h
    rw [← trimStart, ← htail, List.head?_append, h]
    rfl
  exact eq_false_of_head?_dropWhile hstart

theorem isBlank_of_getLast?_trim {cs : List Char} {c : Char} (h : (trim cs).getLast? = some c) :
    isBlank c = false := by
  rw [trim, trimEnd, List.getLast?_reverse] at h
  exact eq_false_of_head?_dropWhile h

end Statevector.Text
