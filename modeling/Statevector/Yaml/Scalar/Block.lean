import Statevector.Yaml.Spot

/-!
# Block scalars

A block scalar is a header and the lines after it that are indented far enough. Literal ones keep
their line ends, folded ones join lines that start with no blank.

* `Header`, `Header.read?`: how far the lines are indented, and which line ends are kept at the end;
* `indentation?`: the indentation of the lines, told by the first of them if the header does not
  give it;
* `Tail`, `Tail.joint`, `Tail.kept`: the line ends in the text and at its end; `blockFrom?`: the
  text;
* `block?`: a block scalar, with what follows it.
-/

namespace Statevector.Yaml

/-! ## Headers -/

/-- The header of a block scalar: whether the line ends at the end are all kept or all dropped, and
the indentation beyond that of the block around it. -/
structure Header where
  keepsEnds : Option Bool := none
  increment : Option Nat := none
deriving DecidableEq, Repr, Inhabited

namespace Header

/-- Take in a character of the header. Each part is given at most once. -/
def add? (h : Header) (c : Char) : Option Header :=
  if c = '+' ∨ c = '-' then
    if h.keepsEnds = none then some { h with keepsEnds := some (c == '+') } else none
  else if '1' ≤ c ∧ c ≤ '9' ∧ h.increment = none then
    some { h with increment := some (c.toNat - '0'.toNat) }
  else none

/-- Take in the next character if it belongs to the header. -/
def addNext : Header × List Spot → Header × List Spot
  | (h, []) => (h, [])
  | (h, s :: rest) => match h.add? s.char with
    | some h => (h, rest)
    | none => (h, s :: rest)

/-- The header at the start of a text, and the lines after it. -/
def read? (ss : List Spot) : Option (Header × List Spot) :=
  let (h, rest) := addNext (addNext ({}, ss))
  (skipLine? rest).map fun rest => (h, rest)

end Header

/-! ## Lines -/

/-- The lines of a text, each with its end. -/
def spotLines : List Spot → List (List Spot)
  | [] => []
  | s :: rest =>
    if s.isBreak then [s] :: spotLines rest
    else match spotLines rest with
      | [] => [[s]]
      | line :: lines => (s :: line) :: lines

/-- The indentation of the lines of a block scalar inside a block that is indented by `outer`. If
the header does not give it, it is that of the first line that is not blank, or that of a deeper
blank line before it, and at least one more than `outer`. No tab stands for indentation. -/
def indentation? (outer : Option Nat) (h : Header) (ss : List Spot) : Option Nat :=
  match h.increment with
  | some n => some (outer.getD 0 + n)
  | none =>
    let isLead (s : Spot) : Bool := s.char == ' ' || s.isBreak
    if (ss.dropWhile isLead).head?.any (·.char == '\t') then none
    else
      let reach (s : Spot) : Nat := if s.isBreak then s.column else s.column + 1
      some ((ss.takeWhile isLead).foldl (fun n s => max n (reach s)) (max 1 (outer.elim 0 (· + 1))))

/-! ## Texts -/

/-- The end of the text read so far: the end of its last line that is not blank, the ends of the
blank lines after that, and whether that line starts with a blank. -/
structure Tail where
  ending : List Char := []
  blankEnds : List Char := []
  startsBlank : Bool := false
deriving DecidableEq, Repr, Inhabited

namespace Tail

/-- What joins the text so far to a line that is not blank. Two lines of a folded scalar are joined
by a space, or by the ends of the blank lines between them, unless one starts with a blank. -/
def joint (folded : Bool) (t : Tail) (startsBlank : Bool) : List Char :=
  if folded ∧ t.ending = ['\n'] ∧ !t.startsBlank ∧ !startsBlank then
    if t.blankEnds = [] then [' '] else t.blankEnds
  else t.ending ++ t.blankEnds

/-- The line ends at the end of the text that the header keeps: all, none, or the first. -/
def kept (t : Tail) (h : Header) : List Char :=
  match h.keepsEnds with
  | some true => t.ending ++ t.blankEnds
  | some false => []
  | none => t.ending

end Tail

/-- The text of the lines of a block scalar, which are indented by `indent`, after a text with the
end `t`, and what follows them. -/
def blockFrom? (folded : Bool) (h : Header) (indent : Nat) (t : Tail) :
    List (List Spot) → Option (List Char × List Spot)
  | [] => some (t.kept h, [])
  | line :: lines =>
    match line.dropWhile fun s => s.char == ' ' && s.column < indent with
    | [] => blockFrom? folded h indent t lines
    | s :: rest =>
      if s.isBreak then
        blockFrom? folded h indent { t with blankEnds := t.blankEnds ++ [s.char] } lines
      else if indent ≤ s.column then do
        let (text, ending) := ((s :: rest).map (·.char)).span fun c => !isBreak c
        let startsBlank := s.isGap
        let (more, after) ← blockFrom? folded h indent { ending, startsBlank } lines
        return (t.joint folded startsBlank ++ text ++ more, after)
      else if s.char = '\t' then none
      else some (t.kept h, (line :: lines).flatten)

/-- The text of a block scalar after its mark, inside a block that is indented by `outer`, and what
follows it. -/
def block? (folded : Bool) (outer : Option Nat) (ss : List Spot) :
    Option (List Char × List Spot) := do
  let (h, rest) ← Header.read? ss
  let indent ← indentation? outer h rest
  blockFrom? folded h indent {} (spotLines rest)

end Statevector.Yaml
