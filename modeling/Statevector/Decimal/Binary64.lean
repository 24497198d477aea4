/-!
# The value of a binary64 number

* `Binary64`: not a number, an infinity, or a sign with a whole number times a power of two;
* `Binary64.ofFloat`: the value of a float.
-/

namespace Statevector

/-- The value of a binary64 number. A finite one is `mantissa * 2 ^ exponent` with a sign, which
zero has too. -/
inductive Binary64
  | nan
  | infinite (negative : Bool)
  | finite (negative : Bool) (mantissa : Nat) (exponent : Int)
deriving DecidableEq, Repr, Inhabited

namespace Binary64

/-- The value of the leading bit of a mantissa, which is not stored: two to the number of fraction
bits. -/
def leadingBit : Nat := 1 <<< 52

/-- The value with the given bits: a sign bit, eleven exponent bits, fifty-two fraction bits. -/
def ofBits (bits : Nat) : Binary64 :=
  let negative := (bits >>> 63) % 2 == 1
  let exponent : Nat := (bits >>> 52) % 2048
  let fraction := bits % leadingBit
  if exponent = 2047 then
    if fraction = 0 then infinite negative else nan
  else if exponent = 0 then finite negative fraction (-1074)
  else finite negative (leadingBit + fraction) ((exponent : Int) - 1075)

/-- The value of a float. -/
def ofFloat (x : Float) : Binary64 := ofBits x.toBits.toNat

end Binary64

end Statevector
