/-!
# Identifiers of runs

* `identifier`: the text of a random version 4 identifier of sixteen bytes.
-/

namespace Statevector.Command

/-- Two hexadecimal digits. -/
def hexByte (b : Nat) : String := String.ofList [Nat.digitChar (b / 16 % 16), Nat.digitChar (b % 16)]

/-- Sixteen bytes with the version, four, and the variant written into them, in groups of four,
two, two, two and six. -/
def identifier (bytes : List Nat) : String :=
  let marked := bytes.zipIdx.map fun (b, i) =>
    if i = 6 then 0x40 + b % 16 else if i = 8 then 0x80 + b % 64 else b
  String.join (marked.zipIdx.map fun (b, i) =>
    (if i = 4 ∨ i = 6 ∨ i = 8 ∨ i = 10 then "-" else "") ++ hexByte b)

end Statevector.Command
