import Statevector.Yaml.Spot

/-!
# Plain scalars

A plain scalar stands without quotes and may go on over several lines. The gaps in it are folded.

* `foldGap`: what a gap inside a scalar stands for;
* `isFlowMark`, `isIndicator`, `startsPlain`: the characters with a meaning of their own, and the
  start of a plain scalar;
* `Plain`, `plain?`: a plain scalar, with what follows it.
-/

namespace Statevector.Yaml

/-- What a gap inside a scalar stands for: blanks in a line are kept, one line end becomes a space,
and of several line ends the first is dropped. A first line end that is a separator of Unicode is
kept. -/
def foldGap (gap : List Char) : List Char :=
  match gap.filter isBreak with
  | [] => gap
  | ['\n'] => [' ']
  | '\n' :: breaks => breaks
  | breaks => breaks

/-- The characters that open, close or part flow collections. -/
def isFlowMark (c : Char) : Bool := ",[]\x7b\x7d".toList.contains c

/-- The characters with which no plain scalar starts, whatever follows. -/
def isIndicator (c : Char) : Bool := isFlowMark c || "#&*!|>'\"%@\x60".toList.contains c

/-- Whether a plain scalar starts with `s`, with `rest` to follow. -/
def startsPlain (flow : Bool) (s : Spot) (rest : List Spot) : Bool :=
  if s.char = '-' then !startsGap rest
  else if s.char = '?' ∨ s.char = ':' then !flow && !startsGap rest
  else !s.isSpace && !isIndicator s.char

/-- Whether a plain scalar ends before `s`, with `rest` to follow. -/
def endsPlain (flow : Bool) (s : Spot) (rest : List Spot) : Bool :=
  (s.char == ':' && startsGap rest) || (flow && isFlowMark s.char)

/-- Whether the colon of a flow collection touches what follows it, so that it neither belongs to a
plain scalar nor ends one. -/
def touchesMark (s : Spot) (rest : List Spot) : Bool :=
  s.char == ':' && rest.head?.any fun next => isFlowMark next.char || next.char == '?'

/-- A plain scalar: its text, whether a line ends in the gap after it, and what follows that
gap. -/
structure Plain where
  text : List Char
  endsLine : Bool
  rest : List Spot
deriving Repr, Inhabited

/-- What is left of a plain scalar, after a gap, whose lines are indented by `least` or more. -/
def plainFrom? (flow : Bool) (least : Nat) (gap : List Char) : List Spot → Option Plain
  | [] => some ⟨[], gap.any isBreak, []⟩
  | s :: rest =>
    let ended := some ⟨[], gap.any isBreak, s :: rest⟩
    if s.isSpace then
      if s.char = '\t' ∧ gap.any isBreak ∧ s.column < least then none
      else plainFrom? flow least (gap ++ [s.char]) rest
    else if gap ≠ [] ∧ ((!flow ∧ s.column < least) ∨ startsMarker (s :: rest) ∨ s.char = '#') then
      ended
    else if flow ∧ touchesMark s rest then none
    else if endsPlain flow s rest then ended
    else do
      let p ← plainFrom? flow least [] rest
      return { p with text := foldGap gap ++ s.char :: p.text }

/-- The plain scalar at the start of a text. -/
def plain? (flow : Bool) (least : Nat) (ss : List Spot) : Option Plain :=
  plainFrom? flow least [] ss

end Statevector.Yaml
