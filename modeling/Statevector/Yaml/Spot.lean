/-!
# Characters in their places

A text is read as its characters, each with its line and its place in the line, which is counted in
characters for indentation and in octets of UTF-8 for lengths. All line ends but the two separators
of Unicode are one character, the line feed.

* `isAllowed`: the characters that a text may hold;
* `isBreak`, `isGap`: line ends, and blanks inside a line;
* `Spot`, `spots`: a character with its place, and those of a text;
* `startsGap`, `startsMarker`: whether a gap, or a document marker, comes next;
* `skipGap`, `skipRemark?`: what follows the blanks of a line, and the rest of a line on which
  nothing but a comment is left.
-/

namespace Statevector.Yaml

/-- The characters that end a line. -/
def isBreak (c : Char) : Bool :=
  c == '\n' || c == '\r' || c == '\u0085' || c == '\u2028' || c == '\u2029'

/-- Blanks inside a line. -/
def isGap (c : Char) : Bool := c == ' ' || c == '\t'

/-- The characters that a text may hold. -/
def isAllowed (c : Char) : Bool :=
  isGap c || isBreak c || (' ' ≤ c && c ≤ '~') ||
    ('\u00a0' ≤ c && c ≠ '\ufffe' && c ≠ '\uffff')

/-- The mark of byte order, which may stand at the start of a line. -/
def orderMark : Char := '\ufeff'

/-- A character with its line, and with the number of characters and of octets before it in the
line. -/
structure Spot where
  char : Char
  line : Nat
  column : Nat
  octets : Nat
deriving DecidableEq, Repr, Inhabited

namespace Spot

/-- Whether a line ends here. -/
def isBreak (s : Spot) : Bool := Yaml.isBreak s.char

/-- Whether a blank stands here. -/
def isGap (s : Spot) : Bool := Yaml.isGap s.char

/-- Whether a blank or a line end stands here. -/
def isSpace (s : Spot) : Bool := s.isGap || s.isBreak

end Spot

/-- A line end as it is read: the separators of Unicode stay what they are. -/
def breakChar (c : Char) : Char := if c = '\u2028' ∨ c = '\u2029' then c else '\n'

/-- The characters of a text that starts at a place, each with its own. -/
def spotsFrom (line column octets : Nat) : List Char → List Spot
  | [] => []
  | '\r' :: '\n' :: cs => ⟨'\n', line, column, octets⟩ :: spotsFrom (line + 1) 0 0 cs
  | c :: cs =>
    if isBreak c then ⟨breakChar c, line, column, octets⟩ :: spotsFrom (line + 1) 0 0 cs
    else ⟨c, line, column, octets⟩ :: spotsFrom line (column + 1) (octets + c.utf8Size) cs

/-- The characters of a text with their places. -/
def spots (cs : List Char) : List Spot := spotsFrom 0 0 0 cs

/-- Whether what follows starts with a blank, a line end or nothing. -/
def startsGap : List Spot → Bool
  | [] => true
  | s :: _ => s.isSpace

/-- Whether what follows is a document marker: three dashes or dots at the start of a line, with a
gap after them. -/
def startsMarker : List Spot → Bool
  | a :: b :: c :: rest =>
    a.column == 0 && (a.char == '-' || a.char == '.') && b.char == a.char && c.char == a.char &&
      startsGap rest
  | _ => false

/-- What follows the blanks of a line. -/
def skipGap (ss : List Spot) : List Spot := ss.dropWhile Spot.isGap

/-- The end of a line on which there is nothing but blanks and a comment. -/
def skipRemark? (ss : List Spot) : Option (List Spot) :=
  match skipGap ss with
  | [] => some []
  | s :: rest =>
    if s.isBreak then some (s :: rest)
    else if s.char = '#' then some (rest.dropWhile fun s => !s.isBreak)
    else none

/-- What follows a line on which there is nothing but blanks and a comment. -/
def skipLine? (ss : List Spot) : Option (List Spot) := (skipRemark? ss).map List.tail

end Statevector.Yaml
