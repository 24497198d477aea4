import Statevector.Circuit.Basic

/-!
# Circuits as source

The canonical source of a circuit: its width, its name and description, an empty line and its
gates, one a line. A name or description that cannot stand between quotes on one line is left out,
and a gate that lacks an operand becomes a comment.

* `quotable`: the texts that can be quoted on a line;
* `Circuit.listing`: the lines of the canonical source;
* `Circuit.toSource`: the canonical source, every line ended by a line feed.
-/

namespace Statevector

open Text

/-- Whether a text can stand between quotes on one line. -/
def Source.quotable (s : String) : Bool :=
  s ≠ "" && s.toList.all fun c => c ≠ '"' && c ≠ '\n' && c ≠ '\r'

/-- The line that gives a circuit a name or description, if that can be quoted. -/
def Source.setting (keyword text : String) : List String :=
  if quotable text then [keyword ++ " \"" ++ text ++ "\""] else []

/-- The line of a gate. -/
def Gate.line (g : Gate) : String :=
  if g.lacksOperand then "// " ++ g.text ++ " skipped: missing target" else g.text

namespace Circuit

/-- The lines of the canonical source of a circuit. -/
def listing (c : Circuit) : List String :=
  ["qubits " ++ decimal c.width.toNat] ++ Source.setting "name" c.name ++
    Source.setting "description" c.description ++
    (if c.gates.isEmpty then [] else [""]) ++ c.gateList.map Gate.line

/-- The canonical source of a circuit. -/
def toSource (c : Circuit) : String := String.join (c.listing.map (· ++ "\n"))

end Circuit

end Statevector
