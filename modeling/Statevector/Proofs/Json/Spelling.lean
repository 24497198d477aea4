import Mathlib.Data.List.Chain
import Mathlib.Data.List.TakeWhile
import Mathlib.Data.Nat.Init
import Statevector.Json.Token

/-!
# Spellings of JSON tokens

* `IsSpelling`: the ways to spell a character in a string; `scanString?_of_isSpelling`: all of them
  are read as that character;
* `EndsNumber`: what may follow a number; `scanNumber?_numeral`: a number in decimal;
* `Token.IsSpelling`: the ways to spell a token; **`Token.first?_of_isSpelling`**: it is read as
  that token;
* `IsSpaced`: tokens spelled one after the other, with blanks between them; **`IsSpaced.scan?_eq`**:
  they are scanned, if no number follows another.
-/

namespace Statevector.Json

open Text

/-! ## Characters of strings -/

/-- The ways to spell a character in a string: as it is, after a backslash, by its code, or by the
codes of the surrogate pair that stands for it. -/
inductive IsSpelling : Char → List Char → Prop
  | plain {c : Char} (hc : ' ' ≤ c) (hquote : c ≠ '"') (hbackslash : c ≠ '\\') : IsSpelling c [c]
  | short {c e : Char} (h : escaped? e = some c) : IsSpelling c ['\\', e]
  | unit {c p q r s : Char} (h : hexUnit? p q r s = some c.toNat) :
      IsSpelling c ['\\', 'u', p, q, r, s]
  | pair {c p q r s p' q' r' s' : Char} {u v : Nat} (hu : hexUnit? p q r s = some u)
      (hv : hexUnit? p' q' r' s' = some v) (hlow : 0xD800 ≤ u ∧ u < 0xDC00)
      (hhigh : 0xDC00 ≤ v ∧ v < 0xE000)
      (hc : c.toNat = 0x10000 + (u - 0xD800) * 0x400 + (v - 0xDC00)) :
      IsSpelling c ['\\', 'u', p, q, r, s, '\\', 'u', p', q', r', s']

/-- No character is half of a surrogate pair. -/
theorem unitSymbol_toNat (c : Char) : unitSymbol c.toNat = .char c := by
  have hvalid : c.toNat < 0xD800 ∨ 0xDFFF < c.toNat ∧ c.toNat < 0x110000 := c.valid
  have hhalf : isHalf c.toNat = false := by
    simp only [isHalf, Bool.and_eq_false_iff, decide_eq_false_iff_not]
    omega
  rw [unitSymbol, hhalf, if_neg Bool.false_ne_true, Char.ofNat_toNat]

theorem unitSymbol_half {u : Nat} (h : 0xD800 ≤ u ∧ u < 0xE000) : unitSymbol u = .half u :=
  if_pos (by simpa [isHalf] using h)

section

variable {rest after : List Char} {ss : List Symbol} (hrest : scanSymbols? rest = some (ss, after))

include hrest

theorem scanSymbols?_plain {c : Char} (hc : ' ' ≤ c) (hquote : c ≠ '"') (hbackslash : c ≠ '\\') :
    scanSymbols? (c :: rest) = some (.char c :: ss, after) := by
  have hlt : ¬ c < ' ' := Char.not_lt.mpr hc
  rw [scanSymbols?, if_neg (by simp [hlt, hbackslash]), hrest]
  · rfl
  all_goals grind

theorem scanSymbols?_short {c e : Char} (h : escaped? e = some c) :
    scanSymbols? ('\\' :: e :: rest) = some (.char c :: ss, after) := by
  have he : e ≠ 'u' := by
    rintro rfl
    cases h
  rw [scanSymbols?, h, hrest]
  · rfl
  · grind

theorem scanSymbols?_unit {p q r s : Char} {u : Nat} (h : hexUnit? p q r s = some u) :
    scanSymbols? ('\\' :: 'u' :: p :: q :: r :: s :: rest) = some (unitSymbol u :: ss, after) := by
  rw [scanSymbols?, h, hrest]
  rfl

/-- A spelled character is read as one symbol, or as two that are joined into it. -/
theorem exists_scanSymbols? {c : Char} {cs : List Char} (h : IsSpelling c cs) :
    ∃ raw, scanSymbols? (cs ++ rest) = some (raw, after) ∧
      joinHalves raw = .char c :: joinHalves ss := by
  cases h with
  | plain hc hquote hbackslash => exact ⟨_, scanSymbols?_plain hrest hc hquote hbackslash, rfl⟩
  | short h => exact ⟨_, scanSymbols?_short hrest h, rfl⟩
  | unit h =>
    refine ⟨_, scanSymbols?_unit hrest h, ?_⟩
    rw [unitSymbol_toNat]
    rfl
  | pair hu hv hlow hhigh hc =>
    -- The two halves are scanned each on its own, and joined only then.
    refine ⟨_, scanSymbols?_unit (scanSymbols?_unit hrest hv) hu, ?_⟩
    rw [unitSymbol_half ⟨hlow.1, by omega⟩, unitSymbol_half ⟨by omega, hhigh.2⟩, joinHalves,
      if_pos ⟨hlow.2, hhigh.1⟩, ← hc, Char.ofNat_toNat]

end

/-- A string is read as the characters that it spells. -/
theorem scanString?_of_isSpelling {s : List Char} {parts : List (List Char)}
    (h : List.Forall₂ IsSpelling s parts) (rest : List Char) :
    scanString? (parts.flatten ++ '"' :: rest) = some (s.map .char, rest) := by
  obtain ⟨raw, hraw, hjoin⟩ : ∃ raw, scanSymbols? (parts.flatten ++ '"' :: rest) =
      some (raw, rest) ∧ joinHalves raw = s.map .char := by
    induction h with
    | nil => exact ⟨[], by rw [List.flatten_nil, List.nil_append, scanSymbols?], rfl⟩
    | cons hc _ ih =>
      obtain ⟨raw, hraw, hjoin⟩ := ih
      obtain ⟨raw', hraw', hjoin'⟩ := exists_scanSymbols? hraw hc
      refine ⟨raw', ?_, ?_⟩
      · rw [List.flatten_cons, List.append_assoc, hraw']
      · rw [hjoin', hjoin, List.map_cons]
  simp only [scanString?, hraw, Option.map_some, hjoin]

/-! ## Numbers -/

theorem eq_of_isBlank {c : Char} (h : isBlank c = true) :
    c = ' ' ∨ c = '\t' ∨ c = '\n' ∨ c = '\r' := by
  simpa [isBlank, or_assoc] using h

theorem isBlank_of_isDigit {c : Char} (h : c.isDigit = true) : isBlank c = false := by
  rw [← Bool.not_eq_true]
  intro hblank
  obtain rfl | rfl | rfl | rfl := eq_of_isBlank hblank <;> exact absurd h (by decide)

/-- What may follow a number without becoming part of it. -/
def EndsNumber (rest : List Char) : Prop :=
  ∀ c, rest.head? = some c → c.isDigit = false ∧ c ≠ '.' ∧ c ≠ 'e' ∧ c ≠ 'E'

theorem eq_zero_of_head?_numeral {n : Nat} (h : (numeral n).head? = some '0') : n = 0 := by
  induction n using Nat.strong_induction_on with
  | _ n ih =>
    by_cases hn : n < 10
    · have hdigit : numeral n = [Nat.digitChar n] := Nat.toDigits_of_lt_base hn
      have hdecide : ∀ d < 10, Nat.digitChar d = '0' → d = 0 := by decide
      rw [hdigit, List.head?_cons, Option.some_inj] at h
      exact hdecide n hn h
    · have hsplit : numeral n = numeral (n / 10) ++ [Nat.digitChar (n % 10)] :=
        Nat.toDigits_of_base_le (by decide) (by omega)
      rw [hsplit, List.head?_append_of_ne_nil _ (numeral_ne_nil _)] at h
      have hzero := ih (n / 10) (by omega) h
      omega

theorem scanDigits?_numeral (n : Nat) {rest : List Char} (h : EndsNumber rest) :
    scanDigits? (numeral n ++ rest) = some (numeral n, rest) := by
  have hdigits : ∀ c ∈ numeral n, c.isDigit = true := fun _ => isDigit_of_mem_numeral
  rw [scanDigits?, takeWhile_append_stop hdigits fun c hc => (h c hc).1,
    dropWhile_append_stop hdigits fun c hc => (h c hc).1]
  cases hn : numeral n with
  | nil => exact absurd hn (numeral_ne_nil n)
  | cons d ds => rfl

/-- A number in decimal is read as it is. -/
theorem scanNumber?_numeral (negative : Bool) (n : Nat) {rest : List Char} (h : EndsNumber rest) :
    scanNumber? negative (numeral n ++ rest) = some ({ negative, whole := numeral n }, rest) := by
  have hzero : ¬ ((numeral n).head? = some '0' ∧ (numeral n).length ≠ 1) := by
    rintro ⟨hhead, hlen⟩
    rw [eq_zero_of_head?_numeral hhead] at hlen
    exact hlen rfl
  have hfraction : scanFraction? rest = some (none, rest) := by
    rw [scanFraction?]
    rintro cs rfl
    exact (h '.' rfl).2.1 rfl
  have hexponent : scanExponent? rest = some (none, rest) := by
    cases rest with
    | nil => rfl
    | cons c rest =>
      obtain ⟨-, -, he, hE⟩ := h c rfl
      exact if_neg (by simp [he, hE])
  rw [scanNumber?, scanDigits?_numeral n h]
  simp only [Option.bind_eq_bind, Option.bind_some, if_neg hzero, hfraction, hexponent]
  rfl

/-! ## Tokens -/

namespace Token

/-- The ways to spell a token. Of all numbers only integers in decimal are taken up. -/
inductive IsSpelling : Token → List Char → Prop
  | null : IsSpelling .null "null".toList
  | bool (b : Bool) : IsSpelling (.bool b) (if b then "true".toList else "false".toList)
  | integer (negative : Bool) (n : Nat) : IsSpelling (.number { negative, whole := numeral n })
      ((if negative then ['-'] else []) ++ numeral n)
  | string {s : String} {parts : List (List Char)}
      (h : List.Forall₂ Json.IsSpelling s.toList parts) :
      IsSpelling (.string (textSymbols s)) ('"' :: (parts.flatten ++ ['"']))
  | leftBrace : IsSpelling .leftBrace ['{']
  | rightBrace : IsSpelling .rightBrace ['}']
  | leftBracket : IsSpelling .leftBracket ['[']
  | rightBracket : IsSpelling .rightBracket [']']
  | colon : IsSpelling .colon [':']
  | comma : IsSpelling .comma [',']

/-- Whether a token is a number. -/
def isNumber : Token → Bool
  | number _ => true
  | _ => false

theorem first?_of_isDigit {c : Char} (h : c.isDigit = true) (rest : List Char) :
    first? (c :: rest) = (scanNumber? false (c :: rest)).map fun r => (.number r.1, r.2) := by
  unfold first?
  split
  case h_12 => rfl
  all_goals
    next heq =>
      cases heq
      exact absurd h (by decide)

/-- **A spelled token is read as that token**, if what follows does not make it longer. -/
theorem first?_of_isSpelling {t : Token} {cs rest : List Char} (h : t.IsSpelling cs)
    (hrest : t.isNumber = true → EndsNumber rest) :
    ∃ c cs', cs = c :: cs' ∧ isBlank c = false ∧ first? (cs ++ rest) = some (t, rest) := by
  cases h with
  | bool b => cases b <;> exact ⟨_, _, rfl, by decide, rfl⟩
  | integer negative n =>
    have hscan := scanNumber?_numeral negative n (hrest rfl)
    cases negative with
    | true =>
      refine ⟨'-', numeral n, rfl, by decide, ?_⟩
      change (scanNumber? true (numeral n ++ rest)).map _ = _
      rw [hscan]
      rfl
    | false =>
      cases hn : numeral n with
      | nil => exact absurd hn (numeral_ne_nil n)
      | cons d ds =>
        have hd : d.isDigit = true := isDigit_of_mem_numeral (hn ▸ List.mem_cons_self)
        have hfirst := first?_of_isDigit hd (ds ++ rest)
        rw [← List.cons_append, ← hn, hscan] at hfirst
        exact ⟨d, ds, rfl, isBlank_of_isDigit hd, by rw [← hn]; exact hfirst⟩
  | @string s parts h =>
    have hscan := scanString?_of_isSpelling h rest
    have hfirst : first? ('"' :: (parts.flatten ++ '"' :: rest)) =
        (scanString? (parts.flatten ++ '"' :: rest)).map fun r => (.string r.1, r.2) := rfl
    refine ⟨'"', _, rfl, by decide, ?_⟩
    rw [List.cons_append, List.append_assoc, List.singleton_append, hfirst, hscan]
    rfl
  | _ => exact ⟨_, _, rfl, by decide, rfl⟩

/-! ### The scanner, one token at a time -/

theorem scan?_eq_nil {cs : List Char} (h : cs.dropWhile isBlank = []) : scan? cs = some [] := by
  rw [scan?]
  split
  · rfl
  · next hcs =>
    rw [h] at hcs
    cases hcs

theorem scan?_eq_map {cs rest rest' : List Char} {c : Char} {t : Token}
    (hcs : cs.dropWhile isBlank = c :: rest) (ht : first? (c :: rest) = some (t, rest')) :
    scan? cs = (scan? rest').map (t :: ·) := by
  rw [scan?]
  split
  · next h =>
    rw [hcs] at h
    cases h
  · next c' r' h =>
    rw [hcs] at h
    cases h
    split
    · next h =>
      rw [ht] at h
      cases h
    · next h =>
      rw [ht] at h
      cases h
      rfl

end Token

/-! ## Token after token -/

/-- The spellings of some tokens, one after the other, with blanks before each of them and at the
end. -/
inductive IsSpaced : List Token → List Char → Prop
  | nil {blanks : List Char} (hblanks : ∀ c ∈ blanks, isBlank c = true) : IsSpaced [] blanks
  | cons {blanks cs rest : List Char} {t : Token} {ts : List Token}
      (hblanks : ∀ c ∈ blanks, isBlank c = true) (ht : t.IsSpelling cs) (hrest : IsSpaced ts rest) :
      IsSpaced (t :: ts) (blanks ++ (cs ++ rest))

namespace IsSpaced

variable {t : Token} {ts ts' : List Token} {cs cs' blanks : List Char}

theorem append_blanks (hblanks : ∀ c ∈ blanks, isBlank c = true) (h : IsSpaced ts cs) :
    IsSpaced ts (blanks ++ cs) := by
  have hboth {blanks' : List Char} (h' : ∀ c ∈ blanks', isBlank c = true) :
      ∀ c ∈ blanks ++ blanks', isBlank c = true :=
    fun c hc => (List.mem_append.mp hc).elim (hblanks c) (h' c)
  cases h with
  | nil h' => exact .nil (hboth h')
  | cons h' ht hrest =>
    rw [← List.append_assoc]
    exact .cons (hboth h') ht hrest

theorem append (h : IsSpaced ts cs) (h' : IsSpaced ts' cs') : IsSpaced (ts ++ ts') (cs ++ cs') := by
  induction h with
  | nil hblanks => exact append_blanks hblanks h'
  | cons hblanks ht _ ih =>
    rw [List.cons_append, List.append_assoc, List.append_assoc]
    exact .cons hblanks ht ih

theorem singleton (ht : t.IsSpelling cs) : IsSpaced [t] cs := by
  have hnone : ∀ c ∈ ([] : List Char), isBlank c = true := by simp
  have h := IsSpaced.cons hnone ht (.nil hnone)
  rwa [List.nil_append, List.append_nil] at h

/-- Whatever comes after a number but another number does not make it longer. -/
theorem endsNumber (h : IsSpaced ts cs) (hhead : ∀ t, ts.head? = some t → t.isNumber = false) :
    EndsNumber cs := by
  have hblank (c : Char) (hc : isBlank c = true) :
      c.isDigit = false ∧ c ≠ '.' ∧ c ≠ 'e' ∧ c ≠ 'E' := by
    obtain rfl | rfl | rfl | rfl := eq_of_isBlank hc <;> decide
  cases h with
  | nil hblanks => exact fun c hc => hblank c (hblanks c (List.mem_of_mem_head? hc))
  | @cons blanks cs rest t _ hblanks ht hrest =>
    cases blanks with
    | cons b blanks =>
      rintro c ⟨⟩
      exact hblank _ (hblanks _ List.mem_cons_self)
    | nil =>
      have ht' := hhead t rfl
      cases ht with
      | bool b => cases b <;> (rintro c ⟨⟩; decide)
      | integer negative n => cases ht'
      | _ => rintro c ⟨⟩; decide

/-- **Spelled tokens are scanned**, if no number follows another. -/
theorem scan?_eq (h : IsSpaced ts cs)
    (hnumbers : ts.IsChain fun t t' => t.isNumber = true → t'.isNumber = false) :
    Token.scan? cs = some ts := by
  induction h with
  | nil hblanks => exact Token.scan?_eq_nil (List.dropWhile_eq_nil_iff.mpr hblanks)
  | @cons blanks cs rest t ts hblanks ht hrest ih =>
    have hends : t.isNumber = true → EndsNumber rest := fun hnumber =>
      hrest.endsNumber fun t' ht' => (List.isChain_cons.mp hnumbers).1 t' ht' hnumber
    obtain ⟨c, cs', hcs, hblank, hfirst⟩ := Token.first?_of_isSpelling ht hends
    have hdrop : (blanks ++ (cs ++ rest)).dropWhile isBlank = c :: (cs' ++ rest) := by
      rw [List.dropWhile_append_of_pos hblanks, hcs, List.cons_append,
        List.dropWhile_cons_of_neg (by simp [hblank])]
    rw [hcs, List.cons_append] at hfirst
    rw [Token.scan?_eq_map hdrop hfirst, ih (List.isChain_cons.mp hnumbers).2, Option.map_some]

end IsSpaced

end Statevector.Json
