import Statevector.State.Basic

/-!
# Nearness of states

The distance of two amplitudes is the length of their difference. It is computed from the larger
and the smaller part: the root of the sum of the squares, less a correction. Where the squares could
leave the range of the numbers the parts are scaled first, and where the smaller part is too small
to matter the length is their sum.

* `lengthOf`: the length of a pair of numbers in range; `length`: of any pair;
* `Amplitude.near`, `State.near`: whether the distance is at most a tolerance, for two amplitudes
  and for all that two states of one width share.
-/

namespace Statevector

/-- The length of `(a, b)` for `0 ≤ b ≤ a` whose squares are in range. The root of the sum of the
squares is `h` with an error, and `(h * h - a * a - b * b) / (2 * h)`, found without rounding where
it matters, takes it off. -/
def lengthOf (a b : Float) : Float :=
  let h := (a * a + b * b).sqrt
  let excess :=
    if h ≤ 2 * b then
      let d := h - b
      a * (2 * d - a) + (d - 2 * (a - b)) * d
    else
      let d := h - a
      2 * d * (a - 2 * b) + ((4 * d - b) * b + d * d)
  h - excess / (2 * h)

/-- The power of two with the given exponent, for exponents of normal numbers. -/
def powerOfTwo (exponent : Int) : Float :=
  Float.ofBits (UInt64.ofNat ((exponent + 1023).toNat <<< 52))

/-- The length of `(a, b)` for finite `0 ≤ b ≤ a`. -/
def scaledLength (a b : Float) : Float :=
  let negligible := powerOfTwo (-54)
  let scale := powerOfTwo (-600)
  if powerOfTwo 511 < a then
    if b ≤ a * negligible then a + b else lengthOf (a * scale) (b * scale) / scale
  else if b < powerOfTwo (-459) then
    if b / negligible ≤ a then a + b else lengthOf (a / scale) (b / scale) * scale
  else if b ≤ a * negligible then a + b
  else lengthOf a b

/-- The length of the vector `(x, y)`. An infinite part makes it infinite, whatever the other is. -/
def length (x y : Float) : Float :=
  let x := x.abs
  let y := y.abs
  if x.isInf then x
  else if y.isInf then y
  else if x.isNaN then x
  else if y.isNaN then y
  else if x < y then scaledLength y x
  else scaledLength x y

/-- Whether the distance of two amplitudes is at most a tolerance. -/
def Amplitude.near (a b : Amplitude Float) (tolerance : Float) : Bool :=
  length (a.re - b.re) (a.im - b.im) ≤ tolerance

/-- Whether two states have one width and the amplitudes at the indices they share are near. -/
def State.near (s t : State Float) (tolerance : Float) : Bool :=
  s.width == t.width &&
    (s.amplitudes.toList.zip t.amplitudes.toList).all fun (a, b) => a.near b tolerance

end Statevector
