import Statevector.Proofs.Source.Classify
import Statevector.Proofs.Source.Rendering

/-!
# The grammar of a line

* `Form`: a line that means something, its literals still in digits; **`Form.IsWritten`**: the texts
  that it is written as, character by character;
* `Form.line`, `Form.meaning`: what it means, unless one of its literals is too large;
* `Form.IsCut`: the tokens of a form; `Form.IsWritten.exists_scan?`, `Form.isWritten_trim_of_scan?`:
  texts without outer blanks are cut into them exactly if they are written as the form;
* `Line.classify_cases`: a line is blank, a comment, of some form or of none;
* **`Line.classify_grammar`**: what every line is read as.
-/

namespace Statevector.Source

open Text

/-- Any number of spaces, tabs, carriage returns and line feeds. -/
def IsGap (w : List Char) : Prop := ∀ c ∈ w, Token.isGap c = true

/-- A run of ASCII digits, at least one. -/
def IsLiteral (d : List Char) : Prop := d ≠ [] ∧ ∀ c ∈ d, c.isDigit = true

/-- Whether a literal exceeds every qubit index. -/
def tooLarge (d : List Char) : Bool := 4294967295 < numeralValue d

/-- A line that means something, with its literals in digits. -/
inductive Form
  | qubits (digits : List Char)
  | name (text : List Char)
  | description (text : List Char)
  | one (kind : OneQubit) (digits : List Char)
  | two (kind : TwoQubit) (first second : List Char)

namespace Form

/-- The literals of a form, in the order in which they are written. -/
def literals : Form → List (List Char)
  | qubits d | one _ d => [d]
  | two _ d e => [d, e]
  | name _ | description _ => []

/-- The texts, without outer blanks, that a form is written as. -/
inductive IsWritten : Form → List Char → Prop
  | qubits {kw w d : List Char} (hkw : isKeyword "qubits" kw = true) (hw : IsGap w) (hne : w ≠ [])
      (hd : IsLiteral d) : IsWritten (.qubits d) (kw ++ (w ++ d))
  | name {kw w s : List Char} (hkw : isKeyword "name" kw = true) (hw : IsGap w) (hne : s ≠ [])
      (hs : '"' ∉ s) : IsWritten (.name s) (kw ++ (w ++ ('"' :: s ++ ['"'])))
  | description {kw w s : List Char} (hkw : isKeyword "description" kw = true) (hw : IsGap w)
      (hne : s ≠ []) (hs : '"' ∉ s) : IsWritten (.description s) (kw ++ (w ++ ('"' :: s ++ ['"'])))
  | one {k : OneQubit} {d w₁ w₂ w₃ : List Char} (hd : IsLiteral d) (h₁ : IsGap w₁) (h₂ : IsGap w₂)
      (h₃ : IsGap w₃) : IsWritten (.one k d)
        ((GateKind.one k).name.toList ++ (w₁ ++ '(' :: (w₂ ++ (d ++ (w₃ ++ [')'])))))
  | two {k : TwoQubit} {d e w₁ w₂ w₃ w₄ w₅ : List Char} (hd : IsLiteral d) (he : IsLiteral e)
      (h₁ : IsGap w₁) (h₂ : IsGap w₂) (h₃ : IsGap w₃) (h₄ : IsGap w₄) (h₅ : IsGap w₅) :
      IsWritten (.two k d e) ((GateKind.two k).name.toList ++
        (w₁ ++ '(' :: (w₂ ++ (d ++ (w₃ ++ ',' :: (w₄ ++ (e ++ (w₅ ++ [')']))))))))

/-- What a form means if its literals fit. -/
def line : Form → Line
  | qubits d => .directive (.qubits (.ofNat (numeralValue d)))
  | name s => .directive (.name (String.ofList s))
  | description s => .directive (.description (String.ofList s))
  | one k d => .gate (.one k ⟨.ofNat (numeralValue d)⟩)
  | two k d e => .gate (.two k ⟨.ofNat (numeralValue d)⟩ (some ⟨.ofNat (numeralValue e)⟩))

/-- What a form on line `number` means: its first literal that is too large is a fault. -/
def meaning (number : Nat) (f : Form) : Except Fault Line :=
  match f.literals.find? tooLarge with
  | some d => .error (.literalTooLarge number (String.ofList d))
  | none => .ok f.line

end Form

/-! ## Meanings -/

theorem literal_eq (number : Nat) (d : List Char) : literal number d =
    if tooLarge d then .error (.literalTooLarge number (String.ofList d))
    else .ok (.ofNat (numeralValue d)) := by
  have hsize : UInt32.size = 4294967296 := rfl
  by_cases h : numeralValue d < UInt32.size
  · have hlarge : tooLarge d = false := decide_eq_false (by omega)
    rw [literal, word32?, if_pos h, hlarge, if_neg Bool.false_ne_true]
  · have hlarge : tooLarge d = true := decide_eq_true (by omega)
    rw [literal, word32?_eq_none.mpr (Nat.not_lt.mp h), hlarge, if_pos rfl]

theorem ofNat_eq_iff {d : List Char} {w : UInt32} :
    tooLarge d = false ∧ UInt32.ofNat (numeralValue d) = w ↔ numeralValue d = w.toNat := by
  have hsize : UInt32.size = 4294967296 := rfl
  constructor
  · rintro ⟨hlarge, rfl⟩
    have hlt : ¬ 4294967295 < numeralValue d := of_decide_eq_false hlarge
    exact (UInt32.toNat_ofNat_of_lt' (by omega)).symm
  · intro h
    have hlt := w.toNat_lt_size
    exact ⟨decide_eq_false (by omega), by rw [h, UInt32.ofNat_toNat]⟩

namespace Form

variable {number : Nat} {f : Form}

theorem meaning_eq_ok_iff {l : Line} :
    f.meaning number = .ok l ↔ (∀ d ∈ f.literals, tooLarge d = false) ∧ f.line = l := by
  unfold meaning
  cases h : f.literals.find? tooLarge with
  | none => simpa using fun _ => h
  | some d =>
    have hd := List.find?_some h
    have hmem := List.mem_of_find?_eq_some h
    refine ⟨nofun, fun hl => ?_⟩
    rw [hl.1 d hmem] at hd
    cases hd

theorem meaning_eq_error_iff {fault : Fault} : f.meaning number = .error fault ↔
    ∃ d, f.literals.find? tooLarge = some d ∧
      fault = .literalTooLarge number (String.ofList d) := by
  unfold meaning
  cases f.literals.find? tooLarge with
  | none => simp
  | some d => simp [eq_comm]

/-! ## Tokens -/

/-- The tokens that a form is cut into. -/
inductive IsCut : Form → List Token → Prop
  | qubits {kw d : List Char} (hkw : isKeyword "qubits" kw = true) :
      IsCut (.qubits d) [.word kw, .int d]
  | name {kw s : List Char} (hkw : isKeyword "name" kw = true) (hs : s ≠ []) :
      IsCut (.name s) [.word kw, .quoted s]
  | description {kw s : List Char} (hkw : isKeyword "description" kw = true) (hs : s ≠ []) :
      IsCut (.description s) [.word kw, .quoted s]
  | one (k : OneQubit) (d : List Char) :
      IsCut (.one k d) [.word (GateKind.one k).name.toList, .leftParen, .int d, .rightParen]
  | two (k : TwoQubit) (d e : List Char) : IsCut (.two k d e)
      [.word (GateKind.two k).name.toList, .leftParen, .int d, .comma, .int e, .rightParen]

theorem not_isKeyword_name {kw : List Char} (h : isKeyword "description" kw = true) :
    isKeyword "name" kw = false := by
  rw [isKeyword, beq_iff_eq] at h
  rw [isKeyword, h]
  rfl

theorem ofTokens_of_isCut {ts : List Token} (h : f.IsCut ts) (number : Nat) :
    Line.ofTokens number ts = f.meaning number := by
  cases h with
  | @qubits kw d hkw =>
    simp only [Line.ofTokens, hkw, if_true, literal_eq, meaning, literals, List.find?_singleton]
    cases tooLarge d <;> rfl
  | name hkw hs => simp [Line.ofTokens, hkw, hs, meaning, literals, line, pure, Except.pure]
  | description hkw hs =>
    simp [Line.ofTokens, not_isKeyword_name hkw, hkw, hs, meaning, literals, line, pure,
      Except.pure]
  | one k d =>
    simp only [Line.ofTokens, String.ofList_toList, GateKind.ofName?_name, literal_eq, meaning,
      literals, List.find?_singleton]
    cases tooLarge d <;> rfl
  | two k d e =>
    simp only [Line.ofTokens, String.ofList_toList, GateKind.ofName?_name, literal_eq, meaning,
      literals, List.find?_cons, List.find?_nil]
    cases tooLarge d <;> cases tooLarge e <;> rfl

theorem ofTokens_of_not_isCut {ts : List Token} (h : ∀ f : Form, ¬ f.IsCut ts) (number : Nat) :
    Line.ofTokens number ts = .ok .unrecognized := by
  unfold Line.ofTokens
  split
  · split
    · next hkw => exact absurd (.qubits hkw) (h _)
    · rfl
  · split
    · next hkw => exact absurd (.name hkw.1 hkw.2) (h _)
    · split
      · next hkw => exact absurd (.description hkw.1 hkw.2) (h _)
      · rfl
  · next w d =>
    split
    · next k hk =>
      have hw : w = (GateKind.one k).name.toList := by
        rw [GateKind.name_of_ofName? hk, String.toList_ofList]
      subst hw
      exact absurd (.one k d) (h _)
    · rfl
  · next w d e =>
    split
    · next k hk =>
      have hw : w = (GateKind.two k).name.toList := by
        rw [GateKind.name_of_ofName? hk, String.toList_ofList]
      subst hw
      exact absurd (.two k d e) (h _)
    · rfl
  · rfl

end Form

/-! ## Texts -/

namespace Token

theorem isAlpha_of_isLower_toLower {c : Char} (h : c.toLower.isLower = true) :
    c.isAlpha = true := by
  by_cases hu : c.isUpper = true
  · exact (Bool.or_eq_true _ _).mpr (.inl hu)
  · have hc : c.toLower = c := dif_neg fun hle => hu (decide_eq_true hle)
    rw [hc] at h
    exact (Bool.or_eq_true _ _).mpr (.inr h)

/-- A keyword in any ASCII case is a word. -/
theorem isSpelled_of_isKeyword {keyword : String} {kw : List Char} (hne : keyword.toList ≠ [])
    (hlower : keyword.toList.all Char.isLower = true) (h : isKeyword keyword kw = true) :
    (word kw).IsSpelled := by
  rw [isKeyword, beq_iff_eq] at h
  have halpha : ∀ c ∈ kw, c.isAlpha = true := by
    intro c hc
    refine isAlpha_of_isLower_toLower (List.all_eq_true.mp hlower _ ?_)
    rw [← h]
    exact List.mem_map_of_mem hc
  cases kw with
  | nil => exact absurd h.symm hne
  | cons c cs =>
    refine ⟨c, cs, rfl, by simp [startsWord, halpha c List.mem_cons_self], fun d hd => ?_⟩
    simp [continuesWord, Char.isAlphanum, halpha d (List.mem_cons_of_mem _ hd)]

/-- A word is scanned if a gap or something that does not go on with it follows. -/
theorem scan?_word_append {w gap rest : List Char} (hw : (word w).IsSpelled) (hgap : IsGap gap)
    (hr : gap = [] → (word w).EndsBefore rest) :
    scan? (w ++ (gap ++ rest)) = (scan? rest).map (word w :: ·) := by
  rw [← scan?_append_of_gap hgap rest]
  exact scan?_text_append hw (endsBefore_append_of_isGap hgap nofun hr)

theorem scan?_int_append {d gap rest : List Char} (hd : (int d).IsSpelled) (hgap : IsGap gap)
    (hr : gap = [] → (int d).EndsBefore rest) :
    scan? (d ++ (gap ++ rest)) = (scan? rest).map (int d :: ·) := by
  rw [← scan?_append_of_gap hgap rest]
  exact scan?_text_append hd (endsBefore_append_of_isGap hgap nofun hr)

end Token

/-- A text that does not end in a gap. -/
def EndsTight (cs : List Char) : Prop := ∀ l g, cs = l ++ g → IsGap g → g = []

theorem EndsTight.of_append {l cs : List Char} (h : EndsTight (l ++ cs)) : EndsTight cs :=
  fun l' g hcs hg => h (l ++ l') g (by rw [hcs, List.append_assoc]) hg

theorem isBlank_of_isGap {c : Char} (h : Token.isGap c = true) : isBlank c = true := by
  obtain rfl | rfl | rfl | rfl : c = ' ' ∨ c = '\t' ∨ c = '\r' ∨ c = '\n' := by
    simpa [Token.isGap, or_assoc] using h
  all_goals decide

theorem endsTight_trim (cs : List Char) : EndsTight (trim cs) := by
  intro l g hcs hg
  cases hlast : g.getLast? with
  | none => exact List.getLast?_eq_none_iff.mp hlast
  | some c =>
    have hblank : isBlank c = false := by
      refine isBlank_of_getLast?_trim (?_ : (trim cs).getLast? = some c)
      rw [hcs, List.getLast?_append, hlast]
      rfl
    rw [isBlank_of_isGap (hg c (List.mem_of_getLast? hlast))] at hblank
    cases hblank

namespace Token

/-- A token with others after it stands at the start of their text, a gap after it. -/
theorem Renders.exists_of_cons {t u : Token} {us : List Token} {cs : List Char}
    (h : Renders (t :: u :: us) cs) (hcomment : t ≠ comment) (hend : EndsTight cs) :
    ∃ gap rest, t.IsSpelled ∧ IsGap gap ∧ (t.runsInto u = true → gap ≠ []) ∧
      Renders (u :: us) rest ∧ EndsTight rest ∧ cs = t.text ++ (gap ++ rest) := by
  cases h with
  | @cons _ _ s gap rest hs hgap hrest =>
    cases hs with
    | remark => exact absurd rfl hcomment
    | written ht =>
      exact ⟨gap, rest, ht, hgap.isGap, hgap.apart u rfl, hrest, hend.of_append.of_append, rfl⟩

/-- The last token of a text that does not end in a gap is all that is left of it. -/
theorem Renders.eq_text {t : Token} {cs : List Char} (h : Renders [t] cs) (hcomment : t ≠ comment)
    (hend : EndsTight cs) : t.IsSpelled ∧ cs = t.text := by
  cases h with
  | @cons _ _ s gap rest hs hgap hrest =>
    cases hrest
    obtain rfl : gap = [] := hend s gap (by rw [List.append_nil]) hgap.isGap
    cases hs with
    | remark => exact absurd rfl hcomment
    | written ht => exact ⟨ht, by simp⟩

end Token

namespace Form

variable {number : Nat} {f : Form}

/-- What is written as a form is cut into its tokens. -/
theorem IsWritten.exists_scan? {cs : List Char} (h : f.IsWritten cs) :
    ∃ ts, Token.scan? cs = some ts ∧ f.IsCut ts := by
  have hkeyword {keyword : String} {kw : List Char} (hne : keyword.toList ≠ [])
      (hlower : keyword.toList.all Char.isLower = true) (hkw : isKeyword keyword kw = true) :=
    Token.isSpelled_of_isKeyword hne hlower hkw
  -- What stands after a gap that may be empty starts with a character of no word and no number.
  have hquoted {kw w s : List Char} (hword : (Token.word kw).IsSpelled) (hw : IsGap w)
      (hs : '"' ∉ s) : Token.scan? (kw ++ (w ++ ('"' :: s ++ ['"']))) =
        some [.word kw, .quoted s] := by
    rw [Token.scan?_word_append hword hw fun _ => by rintro c ⟨⟩; rfl]
    exact congrArg _ (Token.scan?_text (t := .quoted s) hs)
  have hcall {k : GateKind} {w w' tail : List Char} {ts : List Token} (hw : IsGap w)
      (hw' : IsGap w') (htail : Token.scan? tail = some ts) :
      Token.scan? (k.name.toList ++ (w ++ '(' :: (w' ++ tail))) =
        some (.word k.name.toList :: .leftParen :: ts) := by
    rw [Token.scan?_word_append (Token.isSpelled_name k) hw fun _ => by rintro c ⟨⟩; rfl,
      Token.scan?_leftParen, Token.scan?_append_of_gap hw', htail]
    rfl
  have hlast {d w : List Char} (hd : IsLiteral d) (hw : IsGap w) :
      Token.scan? (d ++ (w ++ [')'])) = some [.int d, .rightParen] := by
    rw [Token.scan?_int_append hd hw fun _ => by rintro c ⟨⟩; rfl, Token.scan?_rightParen,
      Token.scan?_nil]
    rfl
  cases h with
  | @qubits kw w d hkw hw hne hd =>
    refine ⟨_, ?_, .qubits hkw⟩
    rw [Token.scan?_word_append (hkeyword (by decide) rfl hkw) hw fun h => absurd h hne]
    exact congrArg _ (Token.scan?_text (t := .int d) hd)
  | name hkw hw hne hs => exact ⟨_, hquoted (hkeyword (by decide) rfl hkw) hw hs, .name hkw hne⟩
  | description hkw hw hne hs =>
    exact ⟨_, hquoted (hkeyword (by decide) rfl hkw) hw hs, .description hkw hne⟩
  | one hd h₁ h₂ h₃ => exact ⟨_, hcall h₁ h₂ (hlast hd h₃), .one _ _⟩
  | two hd he h₁ h₂ h₃ h₄ h₅ =>
    refine ⟨_, hcall h₁ h₂ ?_, .two _ _ _⟩
    rw [Token.scan?_int_append hd h₃ fun _ => by rintro c ⟨⟩; rfl, Token.scan?_comma,
      Token.scan?_append_of_gap h₄, hlast he h₅]
    rfl

/-- What is cut into the tokens of a form, and neither starts nor ends with a gap, is written as
it. -/
theorem isWritten_of_renders {cs : List Char} {ts : List Token} (hcut : f.IsCut ts)
    (h : Token.Renders ts cs) (hend : EndsTight cs) : f.IsWritten cs := by
  cases hcut with
  | qubits hkw =>
    obtain ⟨w, _, -, hw, hne, h₁, end₁, rfl⟩ := h.exists_of_cons nofun hend
    obtain ⟨hd, rfl⟩ := h₁.eq_text nofun end₁
    exact .qubits hkw hw (hne rfl) hd
  | name hkw hs =>
    obtain ⟨w, _, -, hw, -, h₁, end₁, rfl⟩ := h.exists_of_cons nofun hend
    obtain ⟨hquote, rfl⟩ := h₁.eq_text nofun end₁
    exact .name hkw hw hs hquote
  | description hkw hs =>
    obtain ⟨w, _, -, hw, -, h₁, end₁, rfl⟩ := h.exists_of_cons nofun hend
    obtain ⟨hquote, rfl⟩ := h₁.eq_text nofun end₁
    exact .description hkw hw hs hquote
  | one k d =>
    obtain ⟨w₁, _, -, hw₁, -, h₁, end₁, rfl⟩ := h.exists_of_cons nofun hend
    obtain ⟨w₂, _, -, hw₂, -, h₂, end₂, rfl⟩ := h₁.exists_of_cons nofun end₁
    obtain ⟨w₃, _, hd, hw₃, -, h₃, end₃, rfl⟩ := h₂.exists_of_cons nofun end₂
    obtain ⟨-, rfl⟩ := h₃.eq_text nofun end₃
    exact .one hd hw₁ hw₂ hw₃
  | two k d e =>
    obtain ⟨w₁, _, -, hw₁, -, h₁, end₁, rfl⟩ := h.exists_of_cons nofun hend
    obtain ⟨w₂, _, -, hw₂, -, h₂, end₂, rfl⟩ := h₁.exists_of_cons nofun end₁
    obtain ⟨w₃, _, hd, hw₃, -, h₃, end₃, rfl⟩ := h₂.exists_of_cons nofun end₂
    obtain ⟨w₄, _, -, hw₄, -, h₄, end₄, rfl⟩ := h₃.exists_of_cons nofun end₃
    obtain ⟨w₅, _, he, hw₅, -, h₅, end₅, rfl⟩ := h₄.exists_of_cons nofun end₄
    obtain ⟨-, rfl⟩ := h₅.eq_text nofun end₅
    exact .two hd he hw₁ hw₂ hw₃ hw₄ hw₅

theorem isWritten_trim_of_scan? {cs : List Char} {ts : List Token} (hcut : f.IsCut ts)
    (h : Token.scan? (trim cs) = some ts) : f.IsWritten (trim cs) := by
  obtain ⟨gap, rest, hgap, hrest, hsplit⟩ := Token.isRendering_of_scan? h
  cases gap with
  | nil =>
    rw [List.nil_append] at hsplit
    rw [← hsplit] at hrest
    exact isWritten_of_renders hcut hrest (endsTight_trim cs)
  | cons c gap =>
    have hblank : isBlank c = false := by
      refine isBlank_of_head?_trim (?_ : (trim cs).head? = some c)
      rw [hsplit]
      rfl
    rw [isBlank_of_isGap (hgap c List.mem_cons_self)] at hblank
    cases hblank

theorem IsWritten.exists_cons {cs : List Char} (h : f.IsWritten cs) :
    ∃ c ds, cs = c :: ds ∧ Token.startsWord c = true := by
  have hword {w tail : List Char} (hw : (Token.word w).IsSpelled) :
      ∃ c ds, w ++ tail = c :: ds ∧ Token.startsWord c = true := by
    obtain ⟨c, ds, rfl, hc, -⟩ := hw
    exact ⟨c, ds ++ tail, rfl, hc⟩
  cases h with
  | qubits hkw => exact hword (Token.isSpelled_of_isKeyword (by decide) rfl hkw)
  | name hkw => exact hword (Token.isSpelled_of_isKeyword (by decide) rfl hkw)
  | description hkw => exact hword (Token.isSpelled_of_isKeyword (by decide) rfl hkw)
  | one => exact hword (Token.isSpelled_name _)
  | two => exact hword (Token.isSpelled_name _)

end Form

/-! ## Lines -/

namespace Line

variable {number : Nat} {cs : List Char}

theorem classify_of_blank (number : Nat) (h : trim cs = []) : classify number cs = .ok .blank := by
  simp only [classify, if_pos h]
  rfl

theorem classify_of_slashes (number : Nat) (h : ['/', '/'] <+: trim cs) :
    classify number cs = .ok .comment := by
  have hne : trim cs ≠ [] := fun hnil => by simp [hnil] at h
  simp only [classify, if_neg hne, if_pos h]
  rfl

/-- A line that is written as a form means what the form means. -/
theorem classify_of_isWritten {f : Form} (number : Nat) (h : f.IsWritten (trim cs)) :
    classify number cs = f.meaning number := by
  obtain ⟨ts, hscan, hcut⟩ := h.exists_scan?
  obtain ⟨c, ds, hsplit, hc⟩ := h.exists_cons
  rw [hsplit] at hscan
  rw [classify_of_trim number hc hsplit hscan, Form.ofTokens_of_isCut hcut]

theorem classify_of_not_isWritten (number : Nat) (hblank : trim cs ≠ [])
    (hslashes : ¬ ['/', '/'] <+: trim cs) (hform : ∀ f : Form, ¬ f.IsWritten (trim cs)) :
    classify number cs = .ok .unrecognized := by
  simp only [classify, if_neg hblank, if_neg hslashes]
  split
  · rfl
  · next ts hscan =>
    exact Form.ofTokens_of_not_isCut
      (fun f hcut => hform f (Form.isWritten_trim_of_scan? hcut hscan)) number

/-- A line is blank, a comment, written as a form, or means nothing. -/
theorem classify_cases (number : Nat) (cs : List Char) :
    trim cs = [] ∧ classify number cs = .ok .blank ∨
      ['/', '/'] <+: trim cs ∧ classify number cs = .ok .comment ∨
      (∃ f : Form, f.IsWritten (trim cs) ∧ classify number cs = f.meaning number) ∨
      (trim cs ≠ [] ∧ ¬ ['/', '/'] <+: trim cs ∧ ∀ f : Form, ¬ f.IsWritten (trim cs)) ∧
        classify number cs = .ok .unrecognized := by
  by_cases hblank : trim cs = []
  · exact .inl ⟨hblank, classify_of_blank number hblank⟩
  by_cases hslashes : ['/', '/'] <+: trim cs
  · exact .inr (.inl ⟨hslashes, classify_of_slashes number hslashes⟩)
  by_cases hform : ∃ f : Form, f.IsWritten (trim cs)
  · obtain ⟨f, hf⟩ := hform
    exact .inr (.inr (.inl ⟨f, hf, classify_of_isWritten number hf⟩))
  · rw [not_exists] at hform
    exact .inr (.inr (.inr ⟨⟨hblank, hslashes, hform⟩,
      classify_of_not_isWritten number hblank hslashes hform⟩))

/-- The lines that mean something are those written as a form whose literals all fit. -/
theorem classify_eq_ok_iff {l : Line} (hblank : l ≠ .blank) (hcomment : l ≠ .comment)
    (hunrecognized : l ≠ .unrecognized) : classify number cs = .ok l ↔
      ∃ f : Form, f.IsWritten (trim cs) ∧ (∀ d ∈ f.literals, tooLarge d = false) ∧ f.line = l := by
  constructor
  · intro h
    rcases classify_cases number cs with ⟨-, hc⟩ | ⟨-, hc⟩ | ⟨f, hf, hc⟩ | ⟨-, hc⟩
    · exact absurd (Except.ok.inj (h.symm.trans hc)) hblank
    · exact absurd (Except.ok.inj (h.symm.trans hc)) hcomment
    · exact ⟨f, hf, Form.meaning_eq_ok_iff.mp (hc.symm.trans h)⟩
    · exact absurd (Except.ok.inj (h.symm.trans hc)) hunrecognized
  · rintro ⟨f, hf, hmeaning⟩
    exact (classify_of_isWritten number hf).trans (Form.meaning_eq_ok_iff.mpr hmeaning)

theorem classify_eq_directive_iff {d : Directive} : classify number cs = .ok (.directive d) ↔
    ∃ f : Form, f.IsWritten (trim cs) ∧ (∀ d ∈ f.literals, tooLarge d = false) ∧
      f.line = .directive d :=
  classify_eq_ok_iff nofun nofun nofun

theorem classify_eq_gate_iff {g : Gate} : classify number cs = .ok (.gate g) ↔
    ∃ f : Form, f.IsWritten (trim cs) ∧ (∀ d ∈ f.literals, tooLarge d = false) ∧
      f.line = .gate g :=
  classify_eq_ok_iff nofun nofun nofun

/-- The lines at fault are those written as a form with a literal that does not fit. -/
theorem classify_eq_error_iff {fault : Fault} : classify number cs = .error fault ↔
    ∃ (f : Form) (d : List Char), f.IsWritten (trim cs) ∧ f.literals.find? tooLarge = some d ∧
      fault = .literalTooLarge number (String.ofList d) := by
  constructor
  · intro h
    rcases classify_cases number cs with ⟨-, hc⟩ | ⟨-, hc⟩ | ⟨f, hf, hc⟩ | ⟨-, hc⟩
    · cases h.symm.trans hc
    · cases h.symm.trans hc
    · obtain ⟨d, hd⟩ := Form.meaning_eq_error_iff.mp (hc.symm.trans h)
      exact ⟨f, d, hf, hd⟩
    · cases h.symm.trans hc
  · rintro ⟨f, d, hf, hd⟩
    exact (classify_of_isWritten number hf).trans (Form.meaning_eq_error_iff.mpr ⟨d, hd⟩)

/-- The lines that mean nothing are blank, comments, or written in none of the ways. -/
theorem classify_eq_other_iff (number : Nat) (cs : List Char) :
    (classify number cs = .ok .blank ↔ trim cs = []) ∧
      (classify number cs = .ok .comment ↔ ['/', '/'] <+: trim cs) ∧
      (classify number cs = .ok .unrecognized ↔
        trim cs ≠ [] ∧ ¬ ['/', '/'] <+: trim cs ∧ ∀ f : Form, ¬ f.IsWritten (trim cs)) := by
  have hmeaning {f : Form} {l : Line} (h : f.meaning number = .ok l) :
      l ≠ .blank ∧ l ≠ .comment ∧ l ≠ .unrecognized := by
    obtain ⟨-, rfl⟩ := Form.meaning_eq_ok_iff.mp h
    cases f <;> exact ⟨nofun, nofun, nofun⟩
  refine ⟨⟨?blank, classify_of_blank number⟩, ⟨?comment, classify_of_slashes number⟩,
    ⟨?unrecognized, fun h => classify_of_not_isWritten number h.1 h.2.1 h.2.2⟩⟩
  all_goals
    intro h
    rcases classify_cases number cs with ⟨hcs, hc⟩ | ⟨hcs, hc⟩ | ⟨f, hf, hc⟩ | ⟨hcs, hc⟩
  case blank.inl | comment.inr.inl | unrecognized.inr.inr.inr => exact hcs
  case blank.inr.inr.inl => exact absurd rfl (hmeaning (hc.symm.trans h)).1
  case comment.inr.inr.inl => exact absurd rfl (hmeaning (hc.symm.trans h)).2.1
  case unrecognized.inr.inr.inl => exact absurd rfl (hmeaning (hc.symm.trans h)).2.2
  all_goals cases h.symm.trans hc

/-- **What every line is read as.** Its outer blanks are taken off, and what is left is written in
one of the ways of the grammar, or blank, or a comment, or it means nothing. A literal stands for
its value; the first one that exceeds every qubit index is the fault of the line. -/
theorem classify_grammar (number : Nat) (cs : List Char) :
    (classify number cs = .ok .blank ↔ trim cs = []) ∧
    (classify number cs = .ok .comment ↔ ['/', '/'] <+: trim cs) ∧
    (∀ n, classify number cs = .ok (.directive (.qubits n)) ↔
      ∃ d, (Form.qubits d).IsWritten (trim cs) ∧ numeralValue d = n.toNat) ∧
    (∀ s, classify number cs = .ok (.directive (.name s)) ↔
      (Form.name s.toList).IsWritten (trim cs)) ∧
    (∀ s, classify number cs = .ok (.directive (.description s)) ↔
      (Form.description s.toList).IsWritten (trim cs)) ∧
    (∀ k q, classify number cs = .ok (.gate (.one k q)) ↔
      ∃ d, (Form.one k d).IsWritten (trim cs) ∧ numeralValue d = q.index.toNat) ∧
    (∀ k a b, classify number cs = .ok (.gate (.two k a (some b))) ↔
      ∃ d e, (Form.two k d e).IsWritten (trim cs) ∧ numeralValue d = a.index.toNat ∧
        numeralValue e = b.index.toNat) ∧
    (∀ k a, classify number cs ≠ .ok (.gate (.two k a none))) ∧
    (∀ fault, classify number cs = .error fault ↔ ∃ (f : Form) (d : List Char),
      f.IsWritten (trim cs) ∧ f.literals.find? tooLarge = some d ∧
        fault = .literalTooLarge number (String.ofList d)) ∧
    (classify number cs = .ok .unrecognized ↔
      trim cs ≠ [] ∧ ¬ ['/', '/'] <+: trim cs ∧ ∀ f : Form, ¬ f.IsWritten (trim cs)) := by
  obtain ⟨hblank, hcomment, hunrecognized⟩ := classify_eq_other_iff number cs
  refine ⟨hblank, hcomment, ?qubits, ?name, ?description, ?one, ?two, ?lacking,
    fun _ => classify_eq_error_iff, hunrecognized⟩
  case qubits =>
    intro n
    rw [classify_eq_directive_iff]
    constructor
    · rintro ⟨f, hf, hfits, hl⟩
      cases f <;> cases hl
      exact ⟨_, hf, ofNat_eq_iff.mp ⟨hfits _ (by simp [Form.literals]), rfl⟩⟩
    · rintro ⟨d, hf, hd⟩
      obtain ⟨hfits, rfl⟩ := ofNat_eq_iff.mpr hd
      exact ⟨_, hf, by simpa [Form.literals] using hfits, rfl⟩
  case name =>
    intro s
    rw [classify_eq_directive_iff]
    constructor
    · rintro ⟨f, hf, -, hl⟩
      cases f <;> cases hl
      rwa [String.toList_ofList]
    · exact fun hf => ⟨_, hf, by simp [Form.literals], by simp [Form.line]⟩
  case description =>
    intro s
    rw [classify_eq_directive_iff]
    constructor
    · rintro ⟨f, hf, -, hl⟩
      cases f <;> cases hl
      rwa [String.toList_ofList]
    · exact fun hf => ⟨_, hf, by simp [Form.literals], by simp [Form.line]⟩
  case one =>
    intro k q
    rw [classify_eq_gate_iff]
    constructor
    · rintro ⟨f, hf, hfits, hl⟩
      cases f <;> cases hl
      exact ⟨_, hf, ofNat_eq_iff.mp ⟨hfits _ (by simp [Form.literals]), rfl⟩⟩
    · rintro ⟨d, hf, hd⟩
      obtain ⟨hfits, hq⟩ := ofNat_eq_iff.mpr hd
      exact ⟨_, hf, by simpa [Form.literals] using hfits, by rw [Form.line, hq]⟩
  case two =>
    intro k a b
    rw [classify_eq_gate_iff]
    constructor
    · rintro ⟨f, hf, hfits, hl⟩
      cases f <;> cases hl
      exact ⟨_, _, hf, ofNat_eq_iff.mp ⟨hfits _ (by simp [Form.literals]), rfl⟩,
        ofNat_eq_iff.mp ⟨hfits _ (by simp [Form.literals]), rfl⟩⟩
    · rintro ⟨d, e, hf, hd, he⟩
      obtain ⟨hfits, ha⟩ := ofNat_eq_iff.mpr hd
      obtain ⟨hfits', hb⟩ := ofNat_eq_iff.mpr he
      exact ⟨_, hf, by simp [Form.literals, hfits, hfits'], by rw [Form.line, ha, hb]⟩
  case lacking =>
    intro k a h
    obtain ⟨f, -, -, hl⟩ := classify_eq_gate_iff.mp h
    cases f <;> cases hl

/-- Outer blanks may be any, gaps may stand anywhere in a call, and zeros may lead. -/
example : classify 7 "\u00a0SWAP ( 007\t,4294967296 )\u3000".toList =
    .error (.literalTooLarge 7 "4294967296") := by decide +kernel

end Line

end Statevector.Source
