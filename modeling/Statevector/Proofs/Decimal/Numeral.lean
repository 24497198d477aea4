import Statevector.Decimal.Fixed
import Statevector.Proofs.Decimal.Value
import Statevector.Text.Blank

/-!
# Numbers with a fixed number of places

A finite binary64 number that is written with a fixed number of places is a numeral, and the numeral
stands for the exact value rounded to these places, ties going to the even neighbour.

* `Numeral`, `Numeral.text`, `Numeral.value`: decimal numerals, and what they stand for;
  `Numeral.HasPlaces.text_append_inj`: with a known number of places, a numeral at the start of a
  text is found again;
* `IsNearestEven`, `IsRounded`: what rounding means; `isNearestEven_roundEven`,
  `isNearestEven_scaledDigits`: the digits that are written are rounded;
* **`Binary64.exists_fixed`**: what is written of a finite number.
-/

namespace Statevector

open Text

/-! ## Numerals -/

/-- A decimal numeral: a sign or nothing, the digits before the point, and those after it. -/
@[ext] structure Numeral where
  sign : List Char
  whole : List Char
  fraction : List Char
deriving DecidableEq

namespace Numeral

/-- The characters of a numeral. -/
def text (n : Numeral) : List Char := n.sign ++ (n.whole ++ '.' :: n.fraction)

/-- The number that a numeral stands for. -/
def value (n : Numeral) : ℚ :=
  (if n.sign = ['-'] then -1 else 1) *
    (numeralValue (n.whole ++ n.fraction) / 10 ^ n.fraction.length)

/-- A numeral has the characters of one, and a given number of digits after its point. -/
structure HasPlaces (places : Nat) (n : Numeral) : Prop where
  sign_mem : n.sign ∈ [[], ['+'], ['-']]
  whole_ne_nil : n.whole ≠ []
  isDigit_whole : ∀ c ∈ n.whole, c.isDigit = true
  isDigit_fraction : ∀ c ∈ n.fraction, c.isDigit = true
  length_fraction : n.fraction.length = places

variable {places : Nat} {n k : Numeral}

theorem text_ne_nil (n : Numeral) : n.text ≠ [] := by simp [text]

theorem HasPlaces.isDigit_of_mem_sign (h : n.HasPlaces places) {c : Char} (hc : c ∈ n.sign) :
    c.isDigit = false := by
  have hsign := h.sign_mem
  simp only [List.mem_cons, List.not_mem_nil, or_false] at hsign
  rcases hsign with hsign | hsign | hsign <;> rw [hsign] at hc
  · cases hc
  · rw [List.mem_singleton.mp hc]
    rfl
  · rw [List.mem_singleton.mp hc]
    rfl

/-- The sign ends before the first digit. -/
theorem HasPlaces.takeWhile_text_append (h : n.HasPlaces places) (rest : List Char) :
    (n.text ++ rest).takeWhile (fun c => !c.isDigit) = n.sign ∧
      (n.text ++ rest).dropWhile (fun c => !c.isDigit) =
        n.whole ++ '.' :: (n.fraction ++ rest) := by
  have htext : n.text ++ rest = n.sign ++ (n.whole ++ '.' :: (n.fraction ++ rest)) := by
    simp [text]
  have hsign : ∀ c ∈ n.sign, (!c.isDigit) = true := fun c hc => by
    rw [h.isDigit_of_mem_sign hc]
    rfl
  have hwhole : ∀ c, (n.whole ++ '.' :: (n.fraction ++ rest)).head? = some c →
      (!c.isDigit) = false := by
    obtain ⟨d, ds, hds⟩ := List.exists_cons_of_ne_nil h.whole_ne_nil
    intro c hc
    rw [hds, List.cons_append, List.head?_cons, Option.some.injEq] at hc
    rw [← hc, h.isDigit_whole d (by simp [hds])]
    rfl
  rw [htext]
  exact ⟨takeWhile_append_stop hsign hwhole, dropWhile_append_stop hsign hwhole⟩

/-- A numeral is found again at the start of a text, and so is what follows it. -/
theorem HasPlaces.text_append_inj (h : n.HasPlaces places) (h' : k.HasPlaces places)
    {rest rest' : List Char} (heq : n.text ++ rest = k.text ++ rest') : n = k ∧ rest = rest' := by
  obtain ⟨hsign, hdigits⟩ := h.takeWhile_text_append rest
  obtain ⟨hsign', hdigits'⟩ := h'.takeWhile_text_append rest'
  rw [heq, hsign'] at hsign
  rw [heq, hdigits'] at hdigits
  -- the point ends the digits before it
  have hpoint (l : List Char) : ∀ c, ('.' :: l).head? = some c → c.isDigit = false := by
    rintro c hc
    cases hc
    rfl
  have hwhole := congrArg (List.takeWhile Char.isDigit) hdigits
  have hrest := congrArg (List.dropWhile Char.isDigit) hdigits
  rw [takeWhile_append_stop h'.isDigit_whole (hpoint _),
    takeWhile_append_stop h.isDigit_whole (hpoint _)] at hwhole
  rw [dropWhile_append_stop h'.isDigit_whole (hpoint _),
    dropWhile_append_stop h.isDigit_whole (hpoint _)] at hrest
  obtain ⟨hfraction, hrest⟩ := List.append_inj (List.cons.inj hrest).2
    (h'.length_fraction.trans h.length_fraction.symm)
  exact ⟨Numeral.ext hsign.symm hwhole.symm hfraction.symm, hrest.symm⟩

/-- A number of units in the last place as a numeral. -/
def ofUnits (sign : List Char) (places units : Nat) : Numeral where
  sign := sign
  whole := numeral (units / 10 ^ places)
  fraction :=
    let part := numeral (units % 10 ^ places)
    List.replicate (places - part.length) '0' ++ part

theorem text_ofUnits (sign : List Char) (places units : Nat) :
    (ofUnits sign places units).text = sign ++ placePoint places units := by
  simp [text, ofUnits, placePoint]

theorem hasPlaces_ofUnits {sign : List Char} (hsign : sign ∈ [[], ['+'], ['-']])
    (hplaces : 0 < places) (units : Nat) : (ofUnits sign places units).HasPlaces places where
  sign_mem := hsign
  whole_ne_nil := numeral_ne_nil _
  isDigit_whole _ hc := isDigit_of_mem_numeral hc
  isDigit_fraction c hc := by
    rcases List.mem_append.mp hc with hc | hc
    · rw [List.eq_of_mem_replicate hc]
      rfl
    · exact isDigit_of_mem_numeral hc
  length_fraction := by
    have hlt : units % 10 ^ places < 10 ^ places := Nat.mod_lt _ (by positivity)
    have hlen : (numeral (units % 10 ^ places)).length ≤ places :=
      (Nat.length_toDigits_le_iff (by decide) hplaces).mpr hlt
    simp only [ofUnits, List.length_append, List.length_replicate]
    omega

/-- The zeros that fill up the fraction do not count. -/
theorem numeralValue_ofUnits (sign : List Char) (hplaces : 0 < places) (units : Nat) :
    numeralValue ((ofUnits sign places units).whole ++ (ofUnits sign places units).fraction) =
      units := by
  have hlen : (ofUnits [] places units).fraction.length = places :=
    (hasPlaces_ofUnits (by simp) hplaces units).length_fraction
  have hpart : numeralValue (ofUnits [] places units).fraction = units % 10 ^ places := by
    rw [numeralValue, ofUnits, Nat.ofDigitChars_append, Nat.ofDigitChars_replicate_zero,
      Nat.mul_zero]
    exact numeralValue_numeral _
  calc numeralValue ((ofUnits sign places units).whole ++ (ofUnits sign places units).fraction)
      = 10 ^ places * numeralValue (numeral (units / 10 ^ places)) +
          numeralValue (ofUnits [] places units).fraction := by
        rw [numeralValue, Nat.ofDigitChars_append, Nat.ofDigitChars_eq_ofDigitChars_zero]
        exact congrArg (10 ^ · * _ + _) hlen
    _ = units := by rw [hpart, numeralValue_numeral, Nat.div_add_mod]

theorem value_ofUnits {sign : List Char} (hsign : sign ∈ [[], ['+'], ['-']]) (hplaces : 0 < places)
    (units : Nat) : (ofUnits sign places units).value =
      (if sign = ['-'] then -1 else 1) * (units / 10 ^ places) := by
  rw [value, numeralValue_ofUnits sign hplaces,
    (hasPlaces_ofUnits hsign hplaces units).length_fraction]
  rfl

end Numeral

/-! ## Rounding -/

/-- A whole number is the one nearest to a number, and the even one of two equally near ones. -/
def IsNearestEven (v : ℚ) (k : ℤ) : Prop := |k - v| ≤ 1 / 2 ∧ (|k - v| = 1 / 2 → Even k)

/-- A number is another one rounded to some places. -/
def IsRounded (places : Nat) (v r : ℚ) : Prop :=
  ∃ k : ℤ, r = k / 10 ^ places ∧ IsNearestEven (v * 10 ^ places) k

theorem IsNearestEven.neg {v : ℚ} {k : ℤ} (h : IsNearestEven v k) : IsNearestEven (-v) (-k) := by
  have habs : |((-k : ℤ) : ℚ) - -v| = |k - v| := by
    rw [← abs_neg]
    congr 1
    push_cast
    ring
  rw [IsNearestEven, habs, even_neg]
  exact h

/-- Rounding moves a number by half a unit in the last place at most. -/
theorem IsRounded.near {places : Nat} {v r : ℚ} (h : IsRounded places v r) :
    |r - v| ≤ 1 / 2 / 10 ^ places := by
  obtain ⟨k, rfl, hk, -⟩ := h
  have hpow : (0 : ℚ) < 10 ^ places := by positivity
  have hsub : (k : ℚ) / 10 ^ places - v = (k - v * 10 ^ places) / 10 ^ places := by field_simp
  rw [hsub, abs_div, abs_of_pos hpow]
  gcongr

/-- Half way between two whole numbers the even one is taken. -/
theorem roundEven_even {num den : Nat} (h : 0 < den)
    (htie : 2 * (roundEven num den * den) = 2 * num + den ∨
      2 * num = 2 * (roundEven num den * den) + den) : roundEven num den % 2 = 0 := by
  have hd : den * (num / den) + num % den = num := Nat.div_add_mod num den
  have hr : num % den < den := Nat.mod_lt _ h
  unfold roundEven at htie ⊢
  simp only at htie ⊢
  split at htie
  · next hdown =>
    rw [if_pos hdown]
    rw [Nat.mul_comm (num / den) den] at htie
    omega
  · next hup =>
    rw [if_neg hup]
    rw [Nat.add_mul, Nat.one_mul, Nat.mul_comm (num / den) den] at htie
    omega

theorem isNearestEven_roundEven (num : Nat) {den : Nat} (h : 0 < den) :
    IsNearestEven (num / den) (roundEven num den) := by
  have hden : (0 : ℚ) < den := by exact_mod_cast h
  have hsub : ((roundEven num den : ℤ) : ℚ) - num / den =
      (roundEven num den * den - num) / den := by
    push_cast
    field_simp
  obtain ⟨hle, hge⟩ := roundEven_near num h
  have hle : (2 * (roundEven num den * den) : ℚ) ≤ 2 * num + den := by exact_mod_cast hle
  have hge : (2 * num : ℚ) ≤ 2 * (roundEven num den * den) + den := by exact_mod_cast hge
  rw [IsNearestEven, hsub, abs_div, abs_of_pos hden]
  constructor
  · rw [div_le_iff₀ hden, abs_le]
    constructor <;> linarith
  · intro htie
    rw [div_eq_iff hden.ne', abs_eq (by positivity)] at htie
    have heven : roundEven num den % 2 = 0 := by
      apply roundEven_even h
      rcases htie with htie | htie
      · left
        have heq : (2 * (roundEven num den * den) : ℚ) = 2 * num + den := by linarith
        exact_mod_cast heq
      · right
        have heq : (2 * num : ℚ) = 2 * (roundEven num den * den) + den := by linarith
        exact_mod_cast heq
    exact_mod_cast Nat.even_iff.mpr heven

theorem shiftLeft_div_shiftLeft (m : Nat) (e : Int) :
    ((m <<< e.toNat : Nat) : ℚ) / ((1 <<< (-e).toNat : Nat) : ℚ) = m * 2 ^ e := by
  rw [Nat.shiftLeft_eq, Nat.shiftLeft_eq]
  obtain ⟨k, rfl | rfl⟩ := e.eq_nat_or_neg
  · simp
  · simp [div_eq_mul_inv]

theorem isNearestEven_scaledDigits (places m : Nat) (e : Int) :
    IsNearestEven (m * 2 ^ e * 10 ^ places) (scaledDigits places m e) := by
  have h : 0 < 1 <<< (-e).toNat := by simp [Nat.shiftLeft_eq]
  have hquotient : (((m <<< e.toNat) * 10 ^ places : Nat) : ℚ) / ((1 <<< (-e).toNat : Nat) : ℚ) =
      m * 2 ^ e * 10 ^ places := by
    rw [Nat.cast_mul, mul_div_right_comm, shiftLeft_div_shiftLeft, Nat.cast_pow, Nat.cast_ofNat]
  rw [← hquotient]
  exact isNearestEven_roundEven _ h

/-- **A finite number with a fixed number of places is a numeral of its rounded value.** A sign is
written only if it is negative. -/
theorem Binary64.exists_fixed {places : Nat} (hplaces : 0 < places) (negative : Bool) (m : Nat)
    (e : Int) : ∃ n : Numeral, n.HasPlaces places ∧
      (finite negative m e).fixed places = n.text ∧
      n.sign = (if negative then ['-'] else []) ∧
      IsRounded places (finite negative m e).toRat n.value := by
  have hsign : (if negative then ['-'] else []) ∈ [[], ['+'], ['-']] := by
    cases negative <;> simp
  refine ⟨.ofUnits _ places (scaledDigits places m e), Numeral.hasPlaces_ofUnits hsign hplaces _,
    (Numeral.text_ofUnits _ _ _).symm, rfl, ?_⟩
  have hrounded := isNearestEven_scaledDigits places m e
  rw [Numeral.value_ofUnits hsign hplaces]
  cases negative with
  | false => exact ⟨scaledDigits places m e, by simp, by simpa [toRat] using hrounded⟩
  | true =>
    exact ⟨-scaledDigits places m e, by simp [neg_div], by simpa [toRat] using hrounded.neg⟩

end Statevector
