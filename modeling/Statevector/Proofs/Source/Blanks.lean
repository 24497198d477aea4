import Mathlib.Data.List.Forall2
import Statevector.Proofs.Source.Listing
import Statevector.Proofs.Text.Joined

/-!
# Line ends and outer blanks

* `Source.classifyFrom_congr`: lines are read without their outer blanks;
* `Source.joined`: the source that has the given lines; **`Circuit.ofSource_joined`**: what is made
  of it, in terms of the lines as they are given; `Circuit.ofSource_joined_congr`: their outer
  blanks do not count;
* **`Circuit.ofSource_blanks`**: neither carriage returns before line feeds nor blanks at the ends
  of lines change what is made of a source.
-/

namespace Statevector

open Text

namespace Source

theorem Line.classify_congr {l l' : List Char} (h : trim l = trim l') (number : Nat) :
    classify number l = classify number l' := by
  simp only [classify, h]

/-- Lines are read without their outer blanks. -/
theorem classifyFrom_congr {ls ls' : List (List Char)} (h : ls.map trim = ls'.map trim)
    (first : Nat) : classifyFrom first ls = classifyFrom first ls' := by
  induction ls generalizing first ls' with
  | nil =>
    obtain rfl : ls' = [] := List.map_eq_nil_iff.mp h.symm
    rfl
  | cons l ls ih =>
    cases ls' with
    | nil => cases h
    | cons l' ls' =>
      obtain ⟨hl, hls⟩ := List.cons.inj h
      rw [classifyFrom, classifyFrom, Line.classify_congr hl, ih hls]

/-- A blank line at the end adds nothing. -/
theorem Program.ofLines_append_blank (ms : List Line) :
    Program.ofLines (ms ++ [.blank]) = Program.ofLines ms := by
  rw [ofLines, List.foldl_append]
  rfl

/-- The source that has the given lines, with line feeds between them. -/
def joined (ls : List (List Char)) : String := String.ofList (['\n'].intercalate ls)

theorem joined_pieces (source : String) : joined (pieces source.toList) = source := by
  rw [joined, intercalate_pieces, String.ofList_toList]

end Source

namespace Circuit

open Source

/-- **A source is read by its lines as they are given**: a carriage return at the end of a line does
not count, and neither does a last line that is empty. -/
theorem ofSource_joined {ls : List (List Char)} (hlf : ∀ l ∈ ls, '\n' ∉ l) :
    ofSource (joined ls) = (do (Program.ofLines (← classifyFrom 1 ls)).circuit) := by
  rw [ofSource, joined, String.toList_ofList, classifyAll]
  obtain rfl | ⟨ps, p, rfl⟩ := ls.eq_nil_or_concat'
  · rfl
  have htrim : (ps.map dropReturn).map trim = ps.map trim := by
    rw [List.map_map]
    exact List.map_congr_left fun l _ => trim_dropReturn l
  rw [lines_intercalate hlf, classifyFrom_append, classifyFrom_append, List.length_map,
    classifyFrom_congr htrim]
  by_cases hp : p = []
  · subst hp
    cases classifyFrom 1 ps with
    | error fault => rfl
    | ok ms =>
      show (Program.ofLines (ms ++ [])).circuit = (Program.ofLines (ms ++ [.blank])).circuit
      rw [Program.ofLines_append_blank, List.append_nil]
  · rw [if_neg hp]

theorem ofSource_joined_congr {ls ls' : List (List Char)} (hlf : ∀ l ∈ ls, '\n' ∉ l)
    (h : List.Forall₂ SameInside ls ls') : ofSource (joined ls') = ofSource (joined ls) := by
  rw [ofSource_joined (SameInside.lf_not_mem_of_forall₂ h hlf), ofSource_joined hlf,
    classifyFrom_congr (SameInside.map_trim_eq h)]

/-- **Line ends and outer blanks do not matter.** A carriage return before every line feed changes
nothing, wherever other carriage returns stand. What stands between the line feeds of a source can
get and lose any blanks at its start and its end that are not line feeds, also before a carriage
return at its end, and also if no line feed follows. The outcome is the same circuit, or the same
fault on the same line. -/
theorem ofSource_blanks (source : String) :
    ofSource (String.ofList (withReturns source.toList)) = ofSource source ∧
    joined (pieces source.toList) = source ∧ (∀ p ∈ pieces source.toList, '\n' ∉ p) ∧
    ∀ ls, List.Forall₂ SameInside (pieces source.toList) ls →
      ofSource (joined ls) = ofSource source := by
  have hlf : ∀ p ∈ pieces source.toList, '\n' ∉ p := fun p => lf_not_mem_of_mem_pieces
  have hblanks : ∀ ls, List.Forall₂ SameInside (pieces source.toList) ls →
      ofSource (joined ls) = ofSource source := fun ls h => by
    rw [ofSource_joined_congr hlf h, joined_pieces]
  refine ⟨?_, joined_pieces source, hlf, hblanks⟩
  obtain ⟨ls, hsame, hls⟩ := exists_withReturns hlf
  rw [intercalate_pieces] at hls
  rw [hls]
  exact hblanks ls hsame

/-- The fault of the second line is the same on the second line if carriage returns are put before
the line feeds, and then blanks before one of these and around both lines. -/
theorem ofSource_blanks_two_lines :
    ofSource "H(0)\nX(4294967296)" = .error (.literalTooLarge 2 "4294967296") ∧
    ofSource "H(0)\r\nX(4294967296)" = .error (.literalTooLarge 2 "4294967296") ∧
    ofSource "\u00a0H(0)\u3000\r\n\tX(4294967296)\u2028" =
      .error (.literalTooLarge 2 "4294967296") := by
  have hplain : ofSource "H(0)\nX(4294967296)" = .error (.literalTooLarge 2 "4294967296") := by
    decide +kernel
  have hreturns : ofSource "H(0)\r\nX(4294967296)" = .error (.literalTooLarge 2 "4294967296") :=
    (ofSource_blanks "H(0)\nX(4294967296)").1.trans hplain
  refine ⟨hplain, hreturns, ?_⟩
  have hsame : List.Forall₂ SameInside (pieces "H(0)\r\nX(4294967296)".toList)
      ["\u00a0H(0)\u3000\r".toList, "\tX(4294967296)\u2028".toList] :=
    .cons ⟨[], "H(0)".toList, ['\r'], ['\u00a0'], ['\u3000', '\r'], rfl, rfl, by decide⟩
      (.cons ⟨[], "X(4294967296)".toList, [], ['\t'], ['\u2028'], rfl, rfl, by decide⟩ .nil)
  exact ((ofSource_blanks "H(0)\r\nX(4294967296)").2.2.2 _ hsame).trans hreturns

end Circuit

end Statevector
