/-!
# Blank characters and trimming

The characters with the Unicode property `White_Space`, and the text left when they are taken off
both ends.

* `isBlank`: membership in the table of the property;
* `trimStart`, `trimEnd`, `trim`: a text without the blanks at its start, its end, both;
* `trimStart_append_of_blank`, `trimEnd_append_of_blank`: blanks added at an end are taken off;
* `length_dropWhile_le`: dropping characters makes no text longer; `takeWhile_append_stop`,
  `dropWhile_append_stop`, `eq_false_of_head?_dropWhile`: where a run of characters ends.
-/

namespace Statevector.Text

/-- The characters with the Unicode property `White_Space`. -/
def isBlank (c : Char) : Bool :=
  ('\t' ≤ c && c ≤ '\r') || c == ' ' || c == '\u0085' || c == '\u00a0' || c == '\u1680' ||
    ('\u2000' ≤ c && c ≤ '\u200a') || c == '\u2028' || c == '\u2029' || c == '\u202f' ||
    c == '\u205f' || c == '\u3000'

/-- A text without the blanks at its start. -/
def trimStart (cs : List Char) : List Char := cs.dropWhile isBlank

/-- A text without the blanks at its end. -/
def trimEnd (cs : List Char) : List Char := (cs.reverse.dropWhile isBlank).reverse

/-- A text without the blanks at its two ends. -/
def trim (cs : List Char) : List Char := trimEnd (trimStart cs)

/-- What is left of a text after characters are dropped at its start is not longer. -/
theorem length_dropWhile_le (p : Char → Bool) (cs : List Char) :
    (cs.dropWhile p).length ≤ cs.length :=
  (List.dropWhile_sublist p).length_le

theorem takeWhile_append_stop {p : Char → Bool} {l rest : List Char} (hl : ∀ c ∈ l, p c = true)
    (hr : ∀ c, rest.head? = some c → p c = false) : (l ++ rest).takeWhile p = l := by
  rw [List.takeWhile_append_of_pos hl]
  cases rest with
  | nil => simp
  | cons c rest => simp [hr c rfl]

theorem dropWhile_append_stop {p : Char → Bool} {l rest : List Char} (hl : ∀ c ∈ l, p c = true)
    (hr : ∀ c, rest.head? = some c → p c = false) : (l ++ rest).dropWhile p = rest := by
  rw [List.dropWhile_append_of_pos hl]
  cases rest with
  | nil => rfl
  | cons c rest => simp [hr c rfl]

theorem eq_false_of_head?_dropWhile {p : Char → Bool} {cs : List Char} {c : Char}
    (h : (cs.dropWhile p).head? = some c) : p c = false := by
  have hnot := List.head?_dropWhile_not p cs
  rw [h] at hnot
  simpa using hnot

theorem trimStart_append_of_blank {ws : List Char} (h : ∀ c ∈ ws, isBlank c = true)
    (cs : List Char) : trimStart (ws ++ cs) = trimStart cs := by
  induction ws with
  | nil => rfl
  | cons c ws ih =>
    have hc : isBlank c = true := h c List.mem_cons_self
    have ih := ih fun d hd => h d (List.mem_cons_of_mem _ hd)
    simpa [trimStart, List.dropWhile_cons, hc] using ih

theorem trimEnd_append_of_blank {ws : List Char} (h : ∀ c ∈ ws, isBlank c = true)
    (cs : List Char) : trimEnd (cs ++ ws) = trimEnd cs := by
  have h' : ∀ c ∈ ws.reverse, isBlank c = true := fun c hc => h c (List.mem_reverse.mp hc)
  have := trimStart_append_of_blank h' cs.reverse
  simp only [trimStart] at this
  simp [trimEnd, List.reverse_append, this]

end Statevector.Text
