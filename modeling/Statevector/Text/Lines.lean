/-!
# Lines

A text is a sequence of pieces between line feeds. Every piece but the last is ended by its line
feed, and one carriage return before a line feed belongs to the line end. The last piece is a line
of its own only if it is not empty, and it keeps a carriage return at its end.

* `pieces`: what stands between the line feeds;
* `lines`: the lines, without their ends;
* `pieces_append_lf`: a text without line feed, a line feed and a rest are that text as a piece and
  the pieces of the rest.
-/

namespace Statevector.Text

/-- What stands between the line feeds of a text; there is one piece more than line feeds. -/
def pieces : List Char → List (List Char)
  | [] => [[]]
  | c :: cs =>
    if c = '\n' then [] :: pieces cs
    else match pieces cs with
      | [] => [[c]]
      | p :: ps => (c :: p) :: ps

/-- A line without the one carriage return that belongs to its end. -/
def dropReturn (cs : List Char) : List Char :=
  if cs.getLast? = some '\r' then cs.dropLast else cs

/-- The lines among the pieces: all but the last are ended by a line feed. -/
def linesOfPieces : List (List Char) → List (List Char)
  | [] => []
  | [p] => if p = [] then [] else [p]
  | p :: ps => dropReturn p :: linesOfPieces ps

/-- The lines of a text, without their ends. -/
def lines (cs : List Char) : List (List Char) := linesOfPieces (pieces cs)

theorem pieces_ne_nil (cs : List Char) : pieces cs ≠ [] := by
  cases cs with
  | nil => simp [pieces]
  | cons c cs => by_cases h : c = '\n' <;> cases hp : pieces cs <;> simp [pieces, h, hp]

theorem pieces_eq_singleton {p : List Char} (h : '\n' ∉ p) : pieces p = [p] := by
  induction p with
  | nil => rfl
  | cons c p ih =>
    simp only [List.mem_cons, not_or] at h
    simp [pieces, Ne.symm h.1, ih h.2]

theorem pieces_append_lf {p : List Char} (h : '\n' ∉ p) (cs : List Char) :
    pieces (p ++ '\n' :: cs) = p :: pieces cs := by
  induction p with
  | nil => simp [pieces]
  | cons c p ih =>
    simp only [List.mem_cons, not_or] at h
    simp [pieces, Ne.symm h.1, ih h.2]

end Statevector.Text
