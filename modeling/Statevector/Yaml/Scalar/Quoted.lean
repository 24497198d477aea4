import Statevector.Text.Numeral
import Statevector.Yaml.Scalar.Plain

/-!
# Quoted scalars

A quoted scalar may go on over several lines. The gaps in it are folded, also those next to a
quote. Between single quotes two quotes stand for one; between double quotes a backslash starts an
escape.

* `escape?`: the character that an escape stands for;
* `quoted?`: a quoted scalar, with what follows it.
-/

namespace Statevector.Yaml

open Text

/-- The character with a code of `n` hexadecimal digits, and the length of its escape. -/
def codeEscape? (n : Nat) (cs : List Char) : Option (Char × Nat) := do
  if cs.length < n then none
  let code ← digitsValue? 16 (cs.take n)
  if code.isValidChar then return (Char.ofNat code, n + 1) else none

/-- The character that an escape stands for, given what follows the backslash, and the length of
the escape. -/
def escape? : List Char → Option (Char × Nat)
  | '0' :: _ => some ('\x00', 1)
  | 'a' :: _ => some ('\x07', 1)
  | 'b' :: _ => some ('\x08', 1)
  | 't' :: _ => some ('\t', 1)
  | '\t' :: _ => some ('\t', 1)
  | 'n' :: _ => some ('\n', 1)
  | 'v' :: _ => some ('\x0b', 1)
  | 'f' :: _ => some ('\x0c', 1)
  | 'r' :: _ => some ('\r', 1)
  | 'e' :: _ => some ('\x1b', 1)
  | ' ' :: _ => some (' ', 1)
  | '"' :: _ => some ('"', 1)
  | '/' :: _ => some ('/', 1)
  | '\\' :: _ => some ('\\', 1)
  | 'N' :: _ => some ('\u0085', 1)
  | '_' :: _ => some ('\u00a0', 1)
  | 'L' :: _ => some ('\u2028', 1)
  | 'P' :: _ => some ('\u2029', 1)
  | 'x' :: cs => codeEscape? 2 cs
  | 'u' :: cs => codeEscape? 4 cs
  | 'U' :: cs => codeEscape? 8 cs
  | _ => none

/-- No escape is longer, the backslash left out. -/
def longestEscape : Nat := 9

/-- What a gap stands for. After an escaped line end all line ends are kept. -/
def gapText (escaped : Bool) (gap : List Char) : List Char :=
  if escaped then gap.filter isBreak else foldGap gap

/-- What is left of a quoted scalar after a gap, which an escaped line end may have started. The
next `skip` characters belong to what has been read. -/
def quotedFrom? (double : Bool) (skip : Nat) (escaped : Bool) (gap : List Char) :
    List Spot → Option (List Char × List Spot)
  | [] => none
  | s :: rest =>
    let before := gapText escaped gap
    let goOn (skip : Nat) (escaped : Bool) (text : List Char) : Option (List Char × List Spot) := do
      let (more, rest) ← quotedFrom? double skip escaped [] rest
      return (before ++ text ++ more, rest)
    if 0 < skip then quotedFrom? double (skip - 1) escaped gap rest
    else if s.isSpace then quotedFrom? double 0 escaped (gap ++ [s.char]) rest
    else if startsMarker (s :: rest) then none
    else if double then
      if s.char = '"' then some (before, rest)
      else if s.char ≠ '\\' then goOn 0 false [s.char]
      else if rest.head?.any Spot.isBreak then goOn 1 true []
      else match escape? ((rest.take longestEscape).map (·.char)) with
        | some (c, length) => goOn length false [c]
        | none => none
    else if s.char ≠ '\'' then goOn 0 false [s.char]
    else if rest.head?.any (·.char == '\'') then goOn 1 false ['\'']
    else some (before, rest)

/-- The text of a quoted scalar after its opening quote, and what follows its closing quote. -/
def quoted? (double : Bool) (ss : List Spot) : Option (List Char × List Spot) :=
  quotedFrom? double 0 false [] ss

end Statevector.Yaml
