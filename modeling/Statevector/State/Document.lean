import Statevector.Decimal.Shortest
import Statevector.Json.Writer
import Statevector.Run.History

/-!
# States as JSON documents

Numbers are written with the fewest digits that read back, positionally while their point is at
most five places left of the first digit or sixteen right of it, and always with a fraction or an
exponent. What is not finite is null.

* `Json.Number.ofDecimal`, `Json.Value.ofFloat`: numbers;
* `State.toJson`, `History.toJson`: states and the result of a run.
-/

namespace Statevector

open Text Json

/-- The number `d * 10 ^ k`, as numbers are written in documents. -/
def Json.Number.ofDecimal (negative : Bool) (d : Nat) (k : Int) : Number :=
  let digits := numeral d
  let point := digits.length + k
  if d = 0 then { negative, whole := ['0'], fraction := some ['0'] }
  else if 0 ≤ k ∧ point ≤ 16 then
    { negative, whole := digits ++ List.replicate k.toNat '0', fraction := some ['0'] }
  else if 0 < point ∧ point ≤ 16 then
    { negative, whole := digits.take point.toNat, fraction := some (digits.drop point.toNat) }
  else if -5 < point ∧ point ≤ 0 then
    { negative, whole := ['0'], fraction := some (List.replicate (-point).toNat '0' ++ digits) }
  else
    { negative
      whole := digits.take 1
      fraction := if digits.length = 1 then none else some (digits.drop 1)
      exponent := some (decide (point - 1 < 0), numeral (point - 1).natAbs) }

/-- The value of a float; null if it is not finite. -/
def Json.Value.ofFloat (x : Float) : Value :=
  match Binary64.ofFloat x with
  | .finite negative m e =>
    let (d, k) := shortest m e
    .number (.ofDecimal negative d k)
  | _ => .null

/-- The record of a state. -/
def State.toJson (s : State Float) : Value :=
  .ofMembers [
    ("amplitudes", .array (s.amplitudes.toList.map fun a => .array [.ofFloat a.re, .ofFloat a.im])),
    ("num_qubits", .ofNat s.width)]

/-- The record of the result of a run, with the run's identifier and its time in milliseconds. -/
def History.toJson (h : History Float) (run : String) (time : Float) : Value :=
  .ofMembers [
    ("run_id", .ofString run),
    ("initial_state", h.initial.toJson),
    ("final_state", h.final.toJson),
    ("intermediate_states", .array (h.states.toList.map State.toJson)),
    ("execution_time_ms", .ofFloat time)]

end Statevector
