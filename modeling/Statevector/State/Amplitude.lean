/-!
# Amplitudes

An amplitude is a pair of a real and an imaginary part. Nothing is assumed of the numbers it is
made of but their operations, so that the kernels can be read over binary64 and over any ring.

* `HalfRoot`: the number by which a Hadamard gate scales;
* `Amplitude`, with its parts added, subtracted, negated and scaled one by one;
* `Amplitude.weight`: the squared magnitude;
* `total`: a sum from the left, which starts at minus zero as sums of binary64 numbers do.
-/

namespace Statevector

/-- The number by which a Hadamard gate scales sums and differences. -/
class HalfRoot (α : Type) where
  /-- In exact arithmetic, a number whose square is one half. -/
  halfRoot : α

export HalfRoot (halfRoot)

/-- The binary64 number nearest to the square root of one half. -/
instance : HalfRoot Float := ⟨Float.ofBits 0x3fe6a09e667f3bcd⟩

/-- A complex number by its parts. -/
structure Amplitude (α : Type) where
  re : α
  im : α
deriving DecidableEq, Repr, Inhabited

namespace Amplitude

variable {α : Type}

instance [Add α] : Add (Amplitude α) := ⟨fun a b => ⟨a.re + b.re, a.im + b.im⟩⟩

instance [Sub α] : Sub (Amplitude α) := ⟨fun a b => ⟨a.re - b.re, a.im - b.im⟩⟩

instance [Neg α] : Neg (Amplitude α) := ⟨fun a => ⟨-a.re, -a.im⟩⟩

instance [Zero α] : Zero (Amplitude α) := ⟨⟨0, 0⟩⟩

instance [Zero α] [One α] : One (Amplitude α) := ⟨⟨1, 0⟩⟩

/-- Both parts multiplied by a number. -/
def scale [Mul α] (s : α) (a : Amplitude α) : Amplitude α := ⟨s * a.re, s * a.im⟩

@[ext] theorem ext {a b : Amplitude α} (hre : a.re = b.re) (him : a.im = b.im) : a = b :=
  congr (congrArg mk hre) him

@[simp] theorem add_re [Add α] (a b : Amplitude α) : (a + b).re = a.re + b.re := rfl

@[simp] theorem add_im [Add α] (a b : Amplitude α) : (a + b).im = a.im + b.im := rfl

@[simp] theorem sub_re [Sub α] (a b : Amplitude α) : (a - b).re = a.re - b.re := rfl

@[simp] theorem sub_im [Sub α] (a b : Amplitude α) : (a - b).im = a.im - b.im := rfl

@[simp] theorem neg_re [Neg α] (a : Amplitude α) : (-a).re = -a.re := rfl

@[simp] theorem neg_im [Neg α] (a : Amplitude α) : (-a).im = -a.im := rfl

@[simp] theorem scale_re [Mul α] (s : α) (a : Amplitude α) : (a.scale s).re = s * a.re := rfl

@[simp] theorem scale_im [Mul α] (s : α) (a : Amplitude α) : (a.scale s).im = s * a.im := rfl

/-- The squared magnitude. -/
def weight [Add α] [Mul α] (a : Amplitude α) : α := a.re * a.re + a.im * a.im

/-- Whether the parts of two amplitudes compare equal. -/
def same [BEq α] (a b : Amplitude α) : Bool := a.re == b.re && a.im == b.im

end Amplitude

/-- The sum of a list from the left, starting at minus zero. -/
def total {α : Type} [Zero α] [Neg α] [Add α] (xs : List α) : α := xs.foldl (· + ·) (-0)

end Statevector
