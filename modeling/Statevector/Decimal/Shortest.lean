import Statevector.Decimal.Binary64
import Statevector.Text.Numeral

/-!
# The shortest decimals that read back

Of all decimals that read back as a given binary64 number, the ones with the fewest digits are
taken, and of those the nearest. The decimals that read back are those between the points half way
to the two neighbours of the number, these points included if its mantissa is even.

* `Quotient`, `Quotient.place`: positive fractions, and the place of their first digit;
* `shortest`: the digits and the power of ten of the shortest decimal.
-/

namespace Statevector

open Text

/-- A fraction of natural numbers. -/
structure Quotient where
  num : Nat
  den : Nat
deriving DecidableEq, Repr, Inhabited

namespace Quotient

/-- `m * 2 ^ e`. -/
def ofBinary (m : Nat) (e : Int) : Quotient := ⟨m <<< e.toNat, 1 <<< (-e).toNat⟩

/-- `d * 10 ^ k`. -/
def ofDecimal (d : Nat) (k : Int) : Quotient := ⟨d * Nat.pow 10 k.toNat, Nat.pow 10 (-k).toNat⟩

/-- Whether a fraction is below another. -/
def lt (a b : Quotient) : Bool := a.num * b.den < b.num * a.den

/-- Whether a fraction is at most another. -/
def le (a b : Quotient) : Bool := a.num * b.den ≤ b.num * a.den

/-- The largest whole number of times that `10 ^ k` goes into a fraction. -/
def floorAt (a : Quotient) (k : Int) : Nat :=
  a.num * Nat.pow 10 (-k).toNat / (a.den * Nat.pow 10 k.toNat)

/-- The number `p` with `10 ^ (p - 1) ≤ a < 10 ^ p`, for a positive fraction. -/
def place (a : Quotient) : Int :=
  if a.den ≤ a.num then (numeral (a.num / a.den)).length
  else
    let p : Int := 1 - (numeral (a.den / a.num)).length
    if (ofDecimal 1 p).le a then p + 1 else p

end Quotient

/-- The decimals that read back as `m * 2 ^ e`: between `low` and `high`, these included if
`closed`. -/
structure ReadBack where
  low : Quotient
  high : Quotient
  closed : Bool

namespace ReadBack

/-- Below a power of two the next number is only half as far away as above it. -/
def ofBinary (m : Nat) (e : Int) : ReadBack where
  low := .ofBinary (4 * m - if m = Binary64.leadingBit ∧ e ≠ -1074 then 1 else 2) (e - 2)
  high := .ofBinary (4 * m + 2) (e - 2)
  closed := m % 2 = 0

/-- Whether a decimal reads back. -/
def contains (r : ReadBack) (a : Quotient) : Bool :=
  if r.closed then r.low.le a && a.le r.high else r.low.lt a && a.lt r.high

end ReadBack

/-- Of the multiples of `10 ^ k` next to a fraction, the nearest one that reads back. -/
def nearestAt? (a : Quotient) (r : ReadBack) (k : Int) : Option Nat :=
  let d := a.floorAt k
  let below := r.contains (.ofDecimal d k)
  let above := r.contains (.ofDecimal (d + 1) k)
  let half : Quotient := .ofDecimal (10 * d + 5) (k - 1)
  if below && (!above || a.lt half || (a.le half && half.le a && d % 2 == 0)) then some d
  else if above then some (d + 1)
  else none

/-- A number of digits with the factors of ten taken into the exponent. -/
def stripZeros : Nat → Nat → Int → Nat × Int
  | 0, d, k => (d, k)
  | fuel + 1, d, k => if d ≠ 0 ∧ d % 10 = 0 then stripZeros fuel (d / 10) (k + 1) else (d, k)

/-- The digits `d` and the exponent `k` of the shortest decimal `d * 10 ^ k` that reads back as
`m * 2 ^ e`; seventeen digits are always enough. -/
def shortest (m : Nat) (e : Int) : Nat × Int :=
  if m = 0 then (0, 0)
  else
    let a := Quotient.ofBinary m e
    let r := ReadBack.ofBinary m e
    let p := a.place
    let tries := (List.range 17).findSome? fun n : Nat =>
      (nearestAt? a r (p - 1 - n)).map fun d => (d, p - 1 - (n : Int))
    match tries with
    | some (d, k) => stripZeros 17 d k
    | none => (0, 0)

end Statevector
