import Statevector.Decimal.Binary64
import Statevector.Text.Numeral

/-!
# Numbers with a fixed number of places

A number is written with a given number of decimal places. The exact value is rounded, and a tie
goes to the even neighbour.

* `roundEven`: the whole number nearest to a quotient (`roundEven_near`: within one half);
* `scaledDigits`: the whole number nearest to `m * 2 ^ e * 10 ^ places`;
* `placePoint`: digits with a decimal point before the last `places` of them;
* `Binary64.fixed`, `fixed`: a value, a float, with a fixed number of places.
-/

namespace Statevector

open Text

/-- The whole number nearest to `num / den`; of two equally near ones, the even one. -/
def roundEven (num den : Nat) : Nat :=
  let q := num / den
  let r := num % den
  if 2 * r < den ∨ (2 * r = den ∧ q % 2 = 0) then q else q + 1

theorem roundEven_near (num : Nat) {den : Nat} (h : 0 < den) :
    2 * (roundEven num den * den) ≤ 2 * num + den ∧
      2 * num ≤ 2 * (roundEven num den * den) + den := by
  have hd : den * (num / den) + num % den = num := Nat.div_add_mod num den
  have hr : num % den < den := Nat.mod_lt _ h
  unfold roundEven
  simp only
  split
  · rw [Nat.mul_comm (num / den) den]
    omega
  · rw [Nat.add_mul, Nat.one_mul, Nat.mul_comm (num / den) den]
    omega

/-- The whole number nearest to `m * 2 ^ e * 10 ^ places`. -/
def scaledDigits (places m : Nat) (e : Int) : Nat :=
  roundEven ((m <<< e.toNat) * Nat.pow 10 places) (1 <<< (-e).toNat)

/-- The digits of a number with a point before the last `places` of them, and at least one digit
before the point. -/
def placePoint (places n : Nat) : List Char :=
  let whole := numeral (n / Nat.pow 10 places)
  let part := numeral (n % Nat.pow 10 places)
  whole ++ '.' :: List.replicate (places - part.length) '0' ++ part

/-- A value with `places` decimal places, at least one. -/
def Binary64.fixed (places : Nat) : Binary64 → List Char
  | nan => "NaN".toList
  | infinite negative => if negative then "-inf".toList else "inf".toList
  | finite negative m e =>
    (if negative then ['-'] else []) ++ placePoint places (scaledDigits places m e)

/-- A float with `places` decimal places, at least one. -/
def fixed (places : Nat) (x : Float) : String :=
  String.ofList ((Binary64.ofFloat x).fixed places)

end Statevector
