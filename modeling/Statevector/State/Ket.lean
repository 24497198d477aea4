import Statevector.Decimal.Fixed
import Statevector.State.Measure

/-!
# States as kets

A state is shown by a line for every basis index whose weight is above a threshold: its label, its
amplitude with three decimal places, and its weight in percent.

* `isSignificant`: the indices that are shown;
* `Amplitude.text`: an amplitude, parts near zero left out;
* `State.kets`: the lines, and `State.text`: what is shown of a state.
-/

namespace Statevector

/-- Basis indices at or below this weight are not shown. -/
def weightThreshold : Float := 0.001

/-- Parts of an amplitude below this magnitude are taken as zero. -/
def partTolerance : Float := 0.001

/-- What is shown of a state without a significant index. -/
def noSignificant : String := "No significant amplitudes"

/-- Whether a basis index with this weight is shown. -/
def isSignificant (weight : Float) : Bool := weightThreshold < weight

/-- Whether a part of an amplitude is taken as zero. -/
def isNegligible (part : Float) : Bool := part.abs < partTolerance

/-- An amplitude with three decimal places. Parts near zero are left out. -/
def Amplitude.text (a : Amplitude Float) : String :=
  if isNegligible a.im then
    if isNegligible a.re then "0" else fixed 3 a.re
  else if isNegligible a.re then fixed 3 a.im ++ "i"
  else fixed 3 a.re ++ (if 0 ≤ a.im then "+" else "") ++ fixed 3 a.im ++ "i"

namespace State

/-- The line of a basis index. -/
def ket (s : State Float) (index : Nat) (a : Amplitude Float) : String :=
  "|" ++ String.ofList (s.label index) ++ "⟩: " ++ a.text ++ " (" ++ fixed 1 (a.weight * 100) ++
    "%)"

/-- The lines of the significant basis indices, in their order. -/
def kets (s : State Float) : List String :=
  let shown := s.amplitudes.toList.zipIdx.filter fun (a, _) => isSignificant a.weight
  shown.map fun (a, i) => s.ket i a

/-- What is shown of a state. -/
def text (s : State Float) : String :=
  if s.kets.isEmpty then noSignificant else String.join (s.kets.map (· ++ "\n"))

end State

end Statevector
