import Mathlib.Data.List.TakeWhile
import Statevector.Proofs.Source.Scan

/-!
# Renderings of token lists

* `Token.runsInto`: the tokens that would be read as one if nothing stood between them;
  `Token.Separates`: what can stand between a token and those after it;
* `Token.Renders`, `Token.IsRendering`: texts put together from the spellings of tokens and the
  gaps around them;
* `Token.endsBefore_append_iff`: gaps separate exactly if what follows does not make the token
  longer;
* **`Token.scan?_rendering`**: a text has the tokens that it is a rendering of, and their written
  forms on lines of their own have the same tokens.
-/

namespace Statevector.Source.Token

/-- Whether a token followed by another would be read on into it. -/
def runsInto : Token → Token → Bool
  | word _, word _ | word _, int _ | int _, int _ => true
  | _, _ => false

/-- The gap between a token and the tokens `ts` after it. A comment ends only with its line, and
words and numbers have to be kept apart. -/
structure Separates (t : Token) (ts : List Token) (gap : List Char) : Prop where
  isGap : ∀ c ∈ gap, isGap c = true
  comment : t = comment → gap = [] ∧ ts = [] ∨ gap.head? = some '\n'
  apart : ∀ u, ts.head? = some u → t.runsInto u = true → gap ≠ []

/-- Tokens spelled one after the other, a gap after each. -/
inductive Renders : List Token → List Char → Prop
  | nil : Renders [] []
  | cons {t : Token} {ts : List Token} {s gap rest : List Char} (hs : t.IsSpelling s)
      (hgap : t.Separates ts gap) (hrest : Renders ts rest) : Renders (t :: ts) (s ++ (gap ++ rest))

/-- Tokens spelled one after the other, a gap before the first and after each. -/
def IsRendering (ts : List Token) (cs : List Char) : Prop :=
  ∃ gap rest, (∀ c ∈ gap, isGap c = true) ∧ Renders ts rest ∧ cs = gap ++ rest

/-! ## Gaps -/

theorem not_continuesWord_of_isGap {c : Char} (h : isGap c = true) :
    c.isDigit = false ∧ continuesWord c = false := by
  obtain rfl | rfl | rfl | rfl : c = ' ' ∨ c = '\t' ∨ c = '\r' ∨ c = '\n' := by
    simpa [isGap, or_assoc] using h
  all_goals decide

/-- A gap keeps every token from becoming longer but a comment, which goes on to a line feed. -/
theorem endsBefore_cons_of_isGap (t : Token) {c : Char} (h : isGap c = true) (cs : List Char) :
    t.EndsBefore (c :: cs) ↔ (t = comment → c = '\n') := by
  obtain ⟨hdigit, hword⟩ := not_continuesWord_of_isGap h
  cases t <;> simp [EndsBefore, hdigit, hword]

theorem endsBefore_append_of_isGap {t : Token} {gap rest : List Char}
    (hgap : ∀ c ∈ gap, isGap c = true) (hcomment : t ≠ comment)
    (hr : gap = [] → t.EndsBefore rest) : t.EndsBefore (gap ++ rest) := by
  cases gap with
  | nil => exact hr rfl
  | cons c cs =>
    exact (endsBefore_cons_of_isGap t (hgap c List.mem_cons_self) _).mpr (absurd · hcomment)

/-- What the first character of a spelling tells. -/
theorem IsSpelling.exists_cons {u : Token} {s : List Char} (h : u.IsSpelling s) :
    ∃ c cs, s = c :: cs ∧ c ≠ '\n' ∧ (∀ ds, (int ds).runsInto u = c.isDigit) ∧
      ∀ ds, (word ds).runsInto u = continuesWord c := by
  cases h with
  | remark => exact ⟨'/', _, rfl, by decide, fun _ => rfl, fun _ => rfl⟩
  | written hu =>
    cases u with
    | int ds =>
      obtain ⟨hne, hds⟩ := hu
      cases ds with
      | nil => exact absurd rfl hne
      | cons d ds =>
        have hd : d.isDigit = true := hds d List.mem_cons_self
        refine ⟨d, ds, rfl, ?_, fun _ => hd.symm, fun _ => ?_⟩
        · rintro rfl
          revert hd
          decide
        · simp [runsInto, continuesWord, Char.isAlphanum, hd]
    | word cs =>
      obtain ⟨c, ds, rfl, hc, -⟩ := hu
      refine ⟨c, ds, rfl, ?_, fun _ => (isDigit_of_startsWord hc).symm, fun _ => ?_⟩
      · rintro rfl
        revert hc
        decide
      · obtain h | rfl : c.isAlpha = true ∨ c = '_' := by simpa [startsWord] using hc
        · simp [runsInto, continuesWord, Char.isAlphanum, h]
        · rfl
    | quoted cs => exact ⟨'"', _, rfl, by decide, fun _ => rfl, fun _ => rfl⟩
    | leftParen => exact ⟨'(', _, rfl, by decide, fun _ => rfl, fun _ => rfl⟩
    | rightParen => exact ⟨')', _, rfl, by decide, fun _ => rfl, fun _ => rfl⟩
    | comma => exact ⟨',', _, rfl, by decide, fun _ => rfl, fun _ => rfl⟩
    | comment => exact ⟨'/', _, rfl, by decide, fun _ => rfl, fun _ => rfl⟩

/-- The next token keeps a token from becoming longer, unless that would be read on into it. -/
theorem endsBefore_append_of_isSpelling (t : Token) {u : Token} {s : List Char}
    (h : u.IsSpelling s) (rest : List Char) :
    t.EndsBefore (s ++ rest) ↔ t ≠ comment ∧ t.runsInto u = false := by
  obtain ⟨c, cs, rfl, hc, hdigit, hword⟩ := h.exists_cons
  cases t with
  | int ds => simp [EndsBefore, hdigit]
  | word ds => simp [EndsBefore, hword]
  | comment => simp [EndsBefore, hc]
  | quoted _ | leftParen | rightParen | comma => simp [EndsBefore, runsInto]

/-- **Gaps separate a token from those after it exactly if they do not make it longer.** -/
theorem endsBefore_append_iff (t : Token) {ts : List Token} {gap rest : List Char}
    (hgap : ∀ c ∈ gap, isGap c = true) (hrest : Renders ts rest) :
    t.EndsBefore (gap ++ rest) ↔ t.Separates ts gap := by
  cases gap with
  | cons c cs =>
    rw [List.cons_append, endsBefore_cons_of_isGap t (hgap c List.mem_cons_self)]
    refine ⟨fun h => ⟨hgap, fun ht => .inr (by rw [h ht]; rfl), fun _ _ _ => by simp⟩,
      fun h ht => ?_⟩
    simpa using h.comment ht
  | nil =>
    cases hrest with
    | nil => exact ⟨fun _ => ⟨hgap, fun _ => .inl ⟨rfl, rfl⟩, by simp⟩, fun _ => endsBefore_nil t⟩
    | @cons u us s _ _ hs _ _ =>
      rw [List.nil_append, endsBefore_append_of_isSpelling t hs]
      constructor
      · rintro ⟨hcomment, hrun⟩
        refine ⟨hgap, fun ht => absurd ht hcomment, ?_⟩
        rintro v ⟨⟩ hv
        rw [hrun] at hv
        cases hv
      · intro h
        refine ⟨fun ht => by simpa using h.comment ht, ?_⟩
        rw [Bool.eq_false_iff]
        exact fun hv => h.apart u rfl hv rfl

/-! ## Scanning -/

theorem scan?_of_renders {ts : List Token} {cs : List Char} (h : Renders ts cs) :
    scan? cs = some ts := by
  induction h with
  | nil => exact scan?_nil
  | @cons t ts s gap rest hs hgap hrest ih =>
    have hends : t.EndsBefore (gap ++ rest) := (endsBefore_append_iff t hgap.isGap hrest).mpr hgap
    obtain ⟨c, cs, hsplit, hc, hfirst⟩ := first?_of_isSpelling hs hends
    have hstart : (s ++ (gap ++ rest)).dropWhile isGap = c :: cs := by
      rw [hsplit, List.dropWhile_cons_of_neg (by simp [hc])]
    rw [scan?_eq_map hstart hfirst, scan?_append_of_gap hgap.isGap, ih, Option.map_some]

theorem isRendering_of_scan? {ts : List Token} {cs : List Char} (h : scan? cs = some ts) :
    IsRendering ts cs := by
  fun_induction scan? cs generalizing ts with
  | case1 cs hcs =>
    cases h
    refine ⟨cs, [], ?_, .nil, (List.append_nil cs).symm⟩
    exact List.dropWhile_eq_nil_iff.mp hcs
  | case2 => cases h
  | case3 cs c rest hcs t rest' ht ih =>
    obtain ⟨us, hus, rfl⟩ := Option.map_eq_some_iff.mp h
    obtain ⟨hends, s, hs, hsplit⟩ := isSpelling_of_first? ht
    obtain ⟨gap, tail, hgap, htail, rfl⟩ := ih hus
    refine ⟨cs.takeWhile isGap, s ++ (gap ++ tail), fun d hd => of_mem_takeWhile hd,
      .cons hs ((endsBefore_append_iff t hgap htail).mp hends) htail, ?_⟩
    rw [← hsplit, ← hcs, List.takeWhile_append_dropWhile]

/-- Tokens written on lines of their own are read back. -/
theorem scan?_intercalate_lf {ts : List Token} (h : ∀ t ∈ ts, t.IsSpelled) :
    scan? (['\n'].intercalate (ts.map text)) = some ts := by
  induction ts with
  | nil => exact scan?_nil
  | cons t ts ih =>
    rw [List.forall_mem_cons] at h
    cases ts with
    | nil => simpa using scan?_text h.1
    | cons u us =>
      have hends (rest : List Char) : t.EndsBefore ('\n' :: rest) :=
        (endsBefore_cons_of_isGap t rfl rest).mpr fun _ => rfl
      rw [List.map_cons, List.map_cons, List.intercalate_cons_cons, ← List.map_cons,
        List.append_assoc, List.singleton_append, scan?_text_append h.1 (hends _),
        ← List.singleton_append, scan?_append_of_gap (List.forall_mem_singleton.mpr rfl), ih h.2,
        Option.map_some]

/-- **A text has exactly the tokens that it is a rendering of.** Written on lines of their own these
give the same tokens again, with nothing left of the text of comments. -/
theorem scan?_rendering :
    (∀ (cs : List Char) (ts : List Token), scan? cs = some ts ↔ IsRendering ts cs) ∧
      ∀ (cs : List Char) (ts : List Token), scan? cs = some ts →
        scan? (['\n'].intercalate (ts.map text)) = some ts := by
  refine ⟨fun cs ts => ⟨isRendering_of_scan?, ?_⟩, fun cs ts h => ?_⟩
  · rintro ⟨gap, rest, hgap, hrest, rfl⟩
    rw [scan?_append_of_gap hgap, scan?_of_renders hrest]
  · exact scan?_intercalate_lf fun t ht => (isSpelled_of_scan? h t ht).1

/-- A number runs into the word after it, a quoted text holds slashes, and a comment holds a
quote. -/
theorem scan?_rendering_remark :
    scan? "\tCNOT(12a_1 ,\"// b\")// \"c\r\n34".toList = some [.word "CNOT".toList, .leftParen,
      .int "12".toList, .word "a_1".toList, .comma, .quoted "// b".toList, .rightParen, .comment,
      .int "34".toList] ∧
    scan? "CNOT\n(\n12\na_1\n,\n\"// b\"\n)\n//\n34".toList = some [.word "CNOT".toList, .leftParen,
      .int "12".toList, .word "a_1".toList, .comma, .quoted "// b".toList, .rightParen, .comment,
      .int "34".toList] := by
  have h : scan? "\tCNOT(12a_1 ,\"// b\")// \"c\r\n34".toList = some [.word "CNOT".toList,
      .leftParen, .int "12".toList, .word "a_1".toList, .comma, .quoted "// b".toList, .rightParen,
      .comment, .int "34".toList] := by decide +kernel
  exact ⟨h, scan?_rendering.2 _ _ h⟩

end Statevector.Source.Token
