import Mathlib.Data.List.Forall2
import Mathlib.Data.List.TakeWhile
import Statevector.Proofs.Text.Lines

/-!
# Texts joined by line feeds

* `pieces_eq_splitOn`: the pieces of a text are what it is split into at its line feeds, so that
  `intercalate_pieces` and `pieces_intercalate` join them again;
* `lines_intercalate`: the lines of texts that are joined by line feeds;
* `IsPadding`: blanks without line feeds; `SameInside`: two texts that differ in nothing but their
  outer blanks, so that the same is left if these are taken off (`SameInside.trim_eq`,
  `SameInside.map_trim_eq`); a carriage return at the end is one of them (`trim_dropReturn`);
* `withReturns`: a text with a carriage return before every line feed; **`exists_withReturns`**: its
  pieces differ from those of the text in nothing but their outer blanks.
-/

namespace Statevector.Text

/-! ## Pieces -/

theorem pieces_eq_splitOn (cs : List Char) : pieces cs = cs.splitOn '\n' := by
  induction cs with
  | nil => rfl
  | cons c cs ih =>
    rw [pieces, List.splitOn_cons_eq_if_modifyHead, ih]
    by_cases hc : c = '\n'
    · simp [hc]
    · have hne : cs.splitOn '\n' ≠ [] := List.splitOn_ne_nil '\n' cs
      cases hs : cs.splitOn '\n' with
      | nil => exact absurd hs hne
      | cons p ps => simp [hc]

theorem intercalate_pieces (cs : List Char) : ['\n'].intercalate (pieces cs) = cs := by
  rw [pieces_eq_splitOn, List.intercalate_splitOn]

theorem pieces_intercalate {ls : List (List Char)} (hlf : ∀ l ∈ ls, '\n' ∉ l) (hne : ls ≠ []) :
    pieces (['\n'].intercalate ls) = ls := by
  rw [pieces_eq_splitOn, List.splitOn_intercalate '\n' hlf hne]

theorem lf_not_mem_of_mem_pieces {cs p : List Char} (h : p ∈ pieces cs) : '\n' ∉ p := by
  induction cs generalizing p with
  | nil =>
    rw [pieces, List.mem_singleton] at h
    simp [h]
  | cons c cs ih =>
    rw [pieces] at h
    by_cases hc : c = '\n'
    · rw [if_pos hc, List.mem_cons] at h
      rcases h with rfl | h
      · simp
      · exact ih h
    · rw [if_neg hc] at h
      cases hp : pieces cs with
      | nil => exact absurd hp (pieces_ne_nil cs)
      | cons q qs =>
        rw [hp] at h ih
        rcases List.mem_cons.mp h with rfl | h
        · simp [Ne.symm hc, ih List.mem_cons_self]
        · exact ih (List.mem_cons_of_mem _ h)

theorem linesOfPieces_concat (ps : List (List Char)) (p : List Char) :
    linesOfPieces (ps ++ [p]) = ps.map dropReturn ++ if p = [] then [] else [p] := by
  induction ps with
  | nil => rfl
  | cons q ps ih =>
    rw [List.cons_append, linesOfPieces_cons (by simp), ih]
    rfl

/-- All texts but the last lose a carriage return at their end, and the last one is a line only if
it is not empty. -/
theorem lines_intercalate {ps : List (List Char)} {p : List Char} (hlf : ∀ l ∈ ps ++ [p], '\n' ∉ l) :
    lines (['\n'].intercalate (ps ++ [p])) =
      ps.map dropReturn ++ if p = [] then [] else [p] := by
  rw [lines, pieces_intercalate hlf (by simp), linesOfPieces_concat]

/-! ## Outer blanks -/

theorem trim_append_of_blank {u v : List Char} (hu : ∀ c ∈ u, isBlank c = true)
    (hv : ∀ c ∈ v, isBlank c = true) (cs : List Char) : trim (u ++ (cs ++ v)) = trim cs := by
  rw [trim, trimStart_append_of_blank hu, trimStart, List.dropWhile_append]
  split
  · next hempty =>
    -- nothing but blanks is left of `cs`, and then nothing is left of `v` either
    have hcs : trimStart cs = [] := List.isEmpty_iff.mp hempty
    have hv : v.dropWhile isBlank = [] := List.dropWhile_eq_nil_iff.mpr hv
    rw [hv, trim, hcs]
  · exact trimEnd_append_of_blank hv _

/-- Blanks that are no line feeds. -/
def IsPadding (w : List Char) : Prop := ∀ c ∈ w, isBlank c = true ∧ c ≠ '\n'

instance isPaddingDecidable (w : List Char) : Decidable (IsPadding w) :=
  decidable_of_iff (w.all fun c => isBlank c && c != '\n') (by simp [IsPadding])

/-- Two texts that have the same inside and differ in nothing but the blanks around it. -/
def SameInside (l l' : List Char) : Prop := ∃ u inside v u' v' : List Char,
  l = u ++ (inside ++ v) ∧ l' = u' ++ (inside ++ v') ∧ ∀ w ∈ [u, v, u', v'], IsPadding w

theorem IsPadding.lf_not_mem {w : List Char} (h : IsPadding w) : '\n' ∉ w :=
  fun hmem => (h '\n' hmem).2 rfl

namespace SameInside

variable {l l' : List Char}

theorem refl (l : List Char) : SameInside l l := ⟨[], l, [], [], [], by simp, by simp, by decide⟩

theorem append_return (l : List Char) : SameInside l (l ++ ['\r']) :=
  ⟨[], l, [], [], ['\r'], by simp, by simp, by decide⟩

theorem trim_eq (h : SameInside l l') : trim l = trim l' := by
  obtain ⟨u, inside, v, u', v', rfl, rfl, h⟩ := h
  have hblank : ∀ w ∈ [u, v, u', v'], ∀ c ∈ w, isBlank c = true := fun w hw c hc => (h w hw c hc).1
  rw [trim_append_of_blank (hblank u (by simp)) (hblank v (by simp)),
    trim_append_of_blank (hblank u' (by simp)) (hblank v' (by simp))]

theorem lf_not_mem (h : SameInside l l') (hl : '\n' ∉ l) : '\n' ∉ l' := by
  obtain ⟨u, inside, v, u', v', rfl, rfl, h⟩ := h
  simp only [List.mem_append, not_or] at hl ⊢
  exact ⟨(h u' (by simp)).lf_not_mem, hl.2.1, (h v' (by simp)).lf_not_mem⟩

/-- Texts without line feeds still have none if only their outer blanks change. -/
theorem lf_not_mem_of_forall₂ {ls ls' : List (List Char)} (h : List.Forall₂ SameInside ls ls')
    (hlf : ∀ l ∈ ls, '\n' ∉ l) : ∀ l ∈ ls', '\n' ∉ l := by
  induction h with
  | nil => exact hlf
  | cons hl _ ih =>
    rw [List.forall_mem_cons] at hlf ⊢
    exact ⟨hl.lf_not_mem hlf.1, ih hlf.2⟩

theorem map_trim_eq {ls ls' : List (List Char)} (h : List.Forall₂ SameInside ls ls') :
    ls.map trim = ls'.map trim := by
  induction h with
  | nil => rfl
  | cons hl _ ih => rw [List.map_cons, List.map_cons, hl.trim_eq, ih]

end SameInside

theorem trim_dropReturn (l : List Char) : trim (dropReturn l) = trim l := by
  unfold dropReturn
  split
  · next h =>
    obtain ⟨init, rfl⟩ := List.getLast?_eq_some_iff.mp h
    rw [List.dropLast_concat]
    exact (SameInside.append_return init).trim_eq
  · rfl

/-! ## Carriage returns -/

/-- A text with a carriage return before every line feed. -/
def withReturns (cs : List Char) : List Char :=
  cs.flatMap fun c => if c = '\n' then ['\r', '\n'] else [c]

theorem withReturns_append (cs cs' : List Char) :
    withReturns (cs ++ cs') = withReturns cs ++ withReturns cs' := List.flatMap_append

theorem withReturns_eq_self {cs : List Char} (h : '\n' ∉ cs) : withReturns cs = cs := by
  induction cs with
  | nil => rfl
  | cons c cs ih =>
    simp only [List.mem_cons, not_or] at h
    have hc : withReturns [c] = [c] := by simp [withReturns, Ne.symm h.1]
    rw [← List.singleton_append, withReturns_append, hc, ih h.2]

/-- **A carriage return before every line feed adds a blank at the end of every piece but the
last.** -/
theorem exists_withReturns {ls : List (List Char)} (hlf : ∀ l ∈ ls, '\n' ∉ l) :
    ∃ ls', List.Forall₂ SameInside ls ls' ∧
      withReturns (['\n'].intercalate ls) = ['\n'].intercalate ls' := by
  induction ls with
  | nil => exact ⟨[], .nil, rfl⟩
  | cons l ls ih =>
    rw [List.forall_mem_cons] at hlf
    obtain ⟨ls', hsame, heq⟩ := ih hlf.2
    cases hsame with
    | nil => exact ⟨[l], .cons (.refl l) .nil, by simpa using withReturns_eq_self hlf.1⟩
    | @cons m m' ms ms' hm hms =>
      refine ⟨(l ++ ['\r']) :: m' :: ms', .cons (.append_return l) (.cons hm hms), ?_⟩
      rw [List.intercalate_cons_cons, List.intercalate_cons_cons, withReturns_append,
        withReturns_append, withReturns_eq_self hlf.1, heq]
      simp [withReturns]

end Statevector.Text
