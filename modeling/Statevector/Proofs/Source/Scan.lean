import Statevector.Source.Token

/-!
# Scanning spelled tokens

* `Token.IsSpelled`: the tokens that have a written form; `Token.IsSpelling`: the texts that are
  read as a token; `Token.EndsBefore`: what may follow them without becoming part of them;
* `Token.scan?_append_of_gap`: gaps at the start of a text are skipped;
* **`Token.scan?_text_append`**: the written form of a token, followed by what does not make it
  longer, is scanned as that token;
* `Token.scan?_word_cons`, `Token.scan?_int_cons`, `Token.scan?_leftParen`, …: the same for the
  kinds of tokens;
* `Token.first?_of_isSpelling`, `Token.isSpelling_of_first?`: a token is read from its spellings and
  from nothing else; `Token.isSpelled_of_scan?`: the tokens of a text are spelled in it.
-/

namespace Statevector.Source.Token

/-- The tokens whose written form is read as one token. -/
def IsSpelled : Token → Prop
  | int ds => ds ≠ [] ∧ ∀ c ∈ ds, c.isDigit = true
  | word cs => ∃ c ds, cs = c :: ds ∧ startsWord c = true ∧ ∀ d ∈ ds, continuesWord d = true
  | quoted cs => '"' ∉ cs
  | leftParen | rightParen | comma | comment => True

theorem isSpelled_word (c : Char) (ds : List Char) (hc : startsWord c = true)
    (hd : ds.all continuesWord = true) : (word (c :: ds)).IsSpelled :=
  ⟨c, ds, rfl, hc, List.all_eq_true.mp hd⟩

/-- The texts that are read as a token: its written form and, for a comment, any text after the
slashes that holds no line feed. -/
inductive IsSpelling : Token → List Char → Prop
  | written {t : Token} (ht : t.IsSpelled) : IsSpelling t t.text
  | remark {cs : List Char} (hcs : '\n' ∉ cs) : IsSpelling comment ('/' :: '/' :: cs)

/-- The spelling of a token is not made longer by what follows it. -/
def EndsBefore (t : Token) (rest : List Char) : Prop :=
  ∀ c, rest.head? = some c → match t with
    | int _ => c.isDigit = false
    | word _ => continuesWord c = false
    | comment => c = '\n'
    | quoted _ | leftParen | rightParen | comma => True

theorem endsBefore_nil (t : Token) : t.EndsBefore [] := fun _ h => by cases h

/-! ## The scanner, one token at a time -/

theorem scan?_eq_nil {cs : List Char} (h : cs.dropWhile isGap = []) : scan? cs = some [] := by
  rw [scan?]
  split
  · rfl
  · next hcs => rw [h] at hcs; cases hcs

theorem scan?_eq_map {cs rest rest' : List Char} {c : Char} {t : Token}
    (hcs : cs.dropWhile isGap = c :: rest) (ht : first? c rest = some (t, rest')) :
    scan? cs = (scan? rest').map (t :: ·) := by
  rw [scan?]
  split
  · next h => rw [hcs] at h; cases h
  · next c' r' h =>
    rw [hcs] at h
    cases h
    split
    · next h => rw [ht] at h; cases h
    · next h => rw [ht] at h; cases h; rfl

theorem scan?_congr {cs ds : List Char} (h : cs.dropWhile isGap = ds.dropWhile isGap) :
    scan? cs = scan? ds := by
  rw [scan?, scan?, h]

@[simp] theorem scan?_nil : scan? [] = some [] := scan?_eq_nil rfl

/-- Gaps at the start of a text are skipped. -/
theorem scan?_append_of_gap {g : List Char} (hg : ∀ c ∈ g, isGap c = true) (cs : List Char) :
    scan? (g ++ cs) = scan? cs := scan?_congr (List.dropWhile_append_of_pos hg)

/-! ## Character classes -/

theorem isGap_eq_false {c : Char} (h₁ : c ≠ ' ') (h₂ : c ≠ '\t') (h₃ : c ≠ '\r') (h₄ : c ≠ '\n') :
    isGap c = false := by
  simp [isGap, h₁, h₂, h₃, h₄]

theorem isGap_of_isDigit {c : Char} (h : c.isDigit = true) : isGap c = false := by
  refine isGap_eq_false ?_ ?_ ?_ ?_ <;> rintro rfl <;> revert h <;> decide

theorem isGap_of_startsWord {c : Char} (h : startsWord c = true) : isGap c = false := by
  refine isGap_eq_false ?_ ?_ ?_ ?_ <;> rintro rfl <;> revert h <;> decide

theorem toNat_of_startsWord {c : Char} (h : startsWord c = true) :
    0x41 ≤ c.toNat ∧ c.toNat ≤ 0x7a := by
  obtain h | rfl : c.isAlpha = true ∨ c = '_' := by simpa [startsWord] using h
  · obtain h | h : c.isUpper = true ∨ c.isLower = true := (Bool.or_eq_true _ _).mp h
    · obtain ⟨hl, hr⟩ : 'A'.val ≤ c.val ∧ c.val ≤ 'Z'.val := of_decide_eq_true h
      exact ⟨hl, Nat.le_trans hr (by decide)⟩
    · have h := (Bool.and_eq_true _ _).mp h
      have hl : 'a'.val ≤ c.val := of_decide_eq_true h.1
      have hr : c.val ≤ 'z'.val := of_decide_eq_true h.2
      exact ⟨Nat.le_trans (by decide) hl, hr⟩
  · decide

theorem toNat_of_isDigit {c : Char} (h : c.isDigit = true) : 0x30 ≤ c.toNat ∧ c.toNat ≤ 0x39 := by
  have h := (Bool.and_eq_true _ _).mp h
  have hl : '0'.val ≤ c.val := of_decide_eq_true h.1
  have hr : c.val ≤ '9'.val := of_decide_eq_true h.2
  exact ⟨hl, hr⟩

theorem isDigit_of_startsWord {c : Char} (h : startsWord c = true) : c.isDigit = false := by
  have hc := toNat_of_startsWord h
  rw [Bool.eq_false_iff]
  intro hd
  have hd := toNat_of_isDigit hd
  omega

/-! ## Spelled tokens -/

theorem first?_remark {cs rest : List Char} (hcs : '\n' ∉ cs) (hr : comment.EndsBefore rest) :
    first? '/' ('/' :: (cs ++ rest)) = some (comment, rest) := by
  have hline : ∀ c ∈ '/' :: cs, decide (c ≠ '\n') = true := by
    intro c hc
    refine decide_eq_true ?_
    rintro rfl
    exact hcs ((List.mem_cons.mp hc).resolve_left (by decide))
  have hl : ('/' :: (cs ++ rest)).dropWhile (· ≠ '\n') = rest :=
    Text.dropWhile_append_stop (l := '/' :: cs) hline fun c hc => by simp [hr c hc]
  rw [first?, hl]
  rfl

/-- The written form of a token is read as that token, if what follows does not make it longer. -/
theorem first?_text {t : Token} {rest : List Char} (ht : t.IsSpelled) (hr : t.EndsBefore rest) :
    ∃ c cs, t.text ++ rest = c :: cs ∧ isGap c = false ∧ first? c cs = some (t, rest) := by
  cases t with
  | int ds =>
    obtain ⟨hne, hds⟩ := ht
    cases ds with
    | nil => exact absurd rfl hne
    | cons d ds =>
      have hd : d.isDigit = true := hds d List.mem_cons_self
      have hds : ∀ c ∈ ds, c.isDigit = true := fun c hc => hds c (List.mem_cons_of_mem _ hc)
      refine ⟨d, ds ++ rest, rfl, isGap_of_isDigit hd, ?_⟩
      rw [first?, if_pos hd, Text.takeWhile_append_stop hds hr, Text.dropWhile_append_stop hds hr]
  | word cs =>
    obtain ⟨c, ds, rfl, hc, hds⟩ := ht
    refine ⟨c, ds ++ rest, rfl, isGap_of_startsWord hc, ?_⟩
    rw [first?, if_neg (by simp [isDigit_of_startsWord hc]), if_pos hc,
      Text.takeWhile_append_stop hds hr, Text.dropWhile_append_stop hds hr]
  | quoted cs =>
    have hcs : ∀ c ∈ cs, decide (c ≠ '"') = true := fun c hc =>
      decide_eq_true fun h => ht (h ▸ hc)
    have hq : ∀ c, ('"' :: rest).head? = some c → decide (c ≠ '"') = false := by
      rintro c ⟨⟩
      decide
    refine ⟨'"', cs ++ '"' :: rest, by simp [text], by decide, ?_⟩
    rw [first?, if_neg (by decide), if_neg (by decide), if_pos rfl,
      Text.dropWhile_append_stop hcs hq, Text.takeWhile_append_stop hcs hq]
  | leftParen => exact ⟨'(', rest, rfl, by decide, rfl⟩
  | rightParen => exact ⟨')', rest, rfl, by decide, rfl⟩
  | comma => exact ⟨',', rest, rfl, by decide, rfl⟩
  | comment =>
    exact ⟨'/', '/' :: rest, rfl, by decide, first?_remark (List.not_mem_nil (a := '\n')) hr⟩

/-- A spelling of a token is read as that token, if what follows does not make it longer. -/
theorem first?_of_isSpelling {t : Token} {s rest : List Char} (hs : t.IsSpelling s)
    (hr : t.EndsBefore rest) :
    ∃ c cs, s ++ rest = c :: cs ∧ isGap c = false ∧ first? c cs = some (t, rest) := by
  cases hs with
  | written ht => exact first?_text ht hr
  | remark hcs => exact ⟨'/', _, rfl, by decide, first?_remark hcs hr⟩

/-- **The written form of a token is scanned as that token.** -/
theorem scan?_text_append {t : Token} {rest : List Char} (ht : t.IsSpelled)
    (hr : t.EndsBefore rest) : scan? (t.text ++ rest) = (scan? rest).map (t :: ·) := by
  obtain ⟨c, cs, htext, hgap, hfirst⟩ := first?_text ht hr
  refine scan?_eq_map ?_ hfirst
  rw [htext, List.dropWhile_cons_of_neg (by simp [hgap])]

theorem scan?_text {t : Token} (ht : t.IsSpelled) : scan? t.text = some [t] := by
  have h := scan?_text_append ht (endsBefore_nil t)
  rwa [List.append_nil, scan?_nil] at h

theorem scan?_word_cons {w : List Char} (hw : (word w).IsSpelled) {c : Char}
    (hc : continuesWord c = false) (cs : List Char) :
    scan? (w ++ c :: cs) = (scan? (c :: cs)).map (word w :: ·) :=
  scan?_text_append hw (by rintro d ⟨⟩; exact hc)

theorem scan?_int_cons {ds : List Char} (hds : (int ds).IsSpelled) {c : Char}
    (hc : c.isDigit = false) (cs : List Char) :
    scan? (ds ++ c :: cs) = (scan? (c :: cs)).map (int ds :: ·) :=
  scan?_text_append hds (by rintro d ⟨⟩; exact hc)

theorem scan?_leftParen (cs : List Char) : scan? ('(' :: cs) = (scan? cs).map (leftParen :: ·) :=
  scan?_text_append (t := leftParen) trivial fun _ _ => trivial

theorem scan?_rightParen (cs : List Char) : scan? (')' :: cs) = (scan? cs).map (rightParen :: ·) :=
  scan?_text_append (t := rightParen) trivial fun _ _ => trivial

theorem scan?_comma (cs : List Char) : scan? (',' :: cs) = (scan? cs).map (comma :: ·) :=
  scan?_text_append (t := comma) trivial fun _ _ => trivial

theorem scan?_blank (cs : List Char) : scan? (' ' :: cs) = scan? cs :=
  scan?_append_of_gap (g := [' ']) (List.forall_mem_singleton.mpr rfl) cs

/-! ## Scanned tokens -/

theorem of_mem_takeWhile {p : Char → Bool} {cs : List Char} {c : Char} (h : c ∈ cs.takeWhile p) :
    p c = true := List.all_eq_true.mp List.all_takeWhile c h

/-- What is read as a token starts with a spelling of it, and what follows could not make it
longer. -/
theorem isSpelling_of_first? {c : Char} {cs rest : List Char} {t : Token}
    (h : first? c cs = some (t, rest)) :
    t.EndsBefore rest ∧ ∃ s, t.IsSpelling s ∧ c :: cs = s ++ rest := by
  unfold first? at h
  split at h
  · next hc =>
    cases h
    refine ⟨fun d hd => Text.eq_false_of_head?_dropWhile hd, _, .written ⟨by simp, ?_⟩,
      by simp [text]⟩
    intro d hd
    rcases List.mem_cons.mp hd with rfl | hd
    · exact hc
    · exact of_mem_takeWhile hd
  split at h
  · next hc =>
    cases h
    exact ⟨fun d hd => Text.eq_false_of_head?_dropWhile hd, _,
      .written ⟨c, _, rfl, hc, fun d hd => of_mem_takeWhile hd⟩, by simp [text]⟩
  split at h
  · next hc =>
    split at h
    · cases h
    · next q rest' hq =>
      cases h
      have hsplit := List.takeWhile_append_dropWhile (p := (· ≠ '"')) (l := cs)
      rw [hq] at hsplit
      have hhead : (cs.dropWhile (· ≠ '"')).head? = some q := by
        rw [hq]
        rfl
      obtain rfl : q = '"' :=
        Decidable.not_not.mp (of_decide_eq_false (Text.eq_false_of_head?_dropWhile hhead))
      refine ⟨fun _ _ => trivial, _, .written fun hmem => by simpa using of_mem_takeWhile hmem, ?_⟩
      calc c :: cs = '"' :: (cs.takeWhile (· ≠ '"') ++ '"' :: rest) := by rw [hsplit, hc]
        _ = (quoted (cs.takeWhile (· ≠ '"'))).text ++ rest := by simp [text]
  split at h
  · next hc =>
    cases h
    exact ⟨fun _ _ => trivial, _, .written trivial, by simp [text, hc]⟩
  split at h
  · next hc =>
    cases h
    exact ⟨fun _ _ => trivial, _, .written trivial, by simp [text, hc]⟩
  split at h
  · next hc =>
    cases h
    exact ⟨fun _ _ => trivial, _, .written trivial, by simp [text, hc]⟩
  split at h
  · next hc =>
    cases h
    obtain ⟨rfl, hhead⟩ := hc
    refine ⟨fun d hd => by simpa using Text.eq_false_of_head?_dropWhile hd, ?_⟩
    cases cs with
    | nil => cases hhead
    | cons d ds =>
      cases hhead
      refine ⟨'/' :: '/' :: ds.takeWhile (· ≠ '\n'), .remark ?_, ?_⟩
      · exact fun hmem => by simpa using of_mem_takeWhile hmem
      · rw [List.dropWhile_cons_of_pos (by decide), List.cons_append, List.cons_append,
          List.takeWhile_append_dropWhile]
  · cases h

theorem IsSpelling.isSpelled {t : Token} {s : List Char} (h : t.IsSpelling s) : t.IsSpelled := by
  cases h with
  | written ht => exact ht
  | remark _ => exact trivial

theorem IsSpelling.text_subset {t : Token} {s : List Char} (h : t.IsSpelling s) : t.text ⊆ s := by
  cases h with
  | written ht => exact List.Subset.refl _
  | remark _ => exact fun c hc => by simpa [text] using Or.inl hc

/-- Every token of a text has a written form, and that stands in the text. -/
theorem isSpelled_of_scan? {cs : List Char} {ts : List Token} (h : scan? cs = some ts) :
    ∀ t ∈ ts, t.IsSpelled ∧ t.text ⊆ cs := by
  fun_induction scan? cs generalizing ts with
  | case1 cs hcs =>
    cases h
    exact fun t ht => by cases ht
  | case2 => cases h
  | case3 cs c rest hcs t rest' ht ih =>
    obtain ⟨us, hus, rfl⟩ := Option.map_eq_some_iff.mp h
    obtain ⟨-, s, hs, hsplit⟩ := isSpelling_of_first? ht
    have hsub : s ++ rest' ⊆ cs := by
      rw [← hsplit, ← hcs]
      exact (List.dropWhile_sublist isGap).subset
    have htext : t.text ⊆ cs := fun d hd => hsub (List.mem_append_left _ (hs.text_subset hd))
    have hrest : rest' ⊆ cs := fun d hd => hsub (List.mem_append_right _ hd)
    intro u hu
    rcases List.mem_cons.mp hu with rfl | hu
    · exact ⟨hs.isSpelled, htext⟩
    · obtain ⟨hs, ht⟩ := ih hus u hu
      exact ⟨hs, fun d hd => hrest (ht hd)⟩

end Statevector.Source.Token
