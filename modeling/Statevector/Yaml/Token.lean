import Statevector.Yaml.Property
import Statevector.Yaml.Scalar.Block
import Statevector.Yaml.Scalar.Quoted

/-!
# Tokens

The tokens of a text. Indentation opens and closes block collections, so tokens stand also where no
character does. A key is told by the colon after it: what may start a key is remembered until its
line ends, or a colon shows that it was one.

* `Token`;
* `Candidate`: where a key may have started; `Layout`: what has been read, and the blocks and flow
  collections around what follows;
* `Layout.openBlock`, `Layout.closeBlocks`, `Layout.startKey?`, `Layout.endKey?`: indentation and
  keys;
* `Layout.skip`, `Layout.token?`: a gap between tokens, and one token;
* `Token.scan?`: the tokens of a text.
-/

namespace Statevector.Yaml

/-- How a scalar is written. -/
inductive Style
  | plain
  | quoted
  | literal
  | folded
deriving DecidableEq, Repr, Inhabited

/-- The tokens of a text. -/
inductive Token
  | directive (directive : Directive)
  | documentStart
  | documentEnd
  | openSequence
  | openMapping
  | closeBlock
  | leftBracket
  | rightBracket
  | leftBrace
  | rightBrace
  | dash
  | comma
  | key
  | value
  | anchor (name : List Char)
  | reference (name : List Char)
  | tag (tag : Tag)
  | scalar (style : Style) (text : List Char)
deriving DecidableEq, Repr, Inhabited

/-! ## Keys and indentation -/

/-- A place where a key may have started, with the number of tokens before it. A required key
stands where the block around it needs one. -/
structure Candidate where
  start : Spot
  position : Nat
  required : Bool
deriving DecidableEq, Repr, Inhabited

/-- A key ends in the line it starts in, and no more octets than this from its start. -/
def longestKey : Nat := 1024

/-- Whether a key that started at a candidate would have ended before `s`. -/
def Candidate.lapsed (c : Candidate) (s : Spot) : Bool :=
  c.start.line < s.line || c.start.octets + longestKey < s.octets

/-- What has been read of a text: the tokens, the indentations of the open blocks with the innermost
first, the candidate in the innermost collection and those in the ones around it, one for each open
flow collection, and whether a key may start in a block. -/
structure Layout where
  tokens : Array Token := #[]
  indents : List Nat := []
  candidate : Option Candidate := none
  outer : List (Option Candidate) := []
  keyAllowed : Bool := true
deriving Repr, Inhabited

namespace Layout

/-- Whether a flow collection is open. -/
def inFlow (l : Layout) : Bool := !l.outer.isEmpty

/-- One more token. -/
def push (l : Layout) (t : Token) : Layout := { l with tokens := l.tokens.push t }

/-- Open a block at a column that is deeper than the blocks around it, before the token with a given
number. Inside flow collections indentation opens nothing. -/
def openBlock (l : Layout) (column position : Nat) (t : Token) : Layout :=
  if l.inFlow ∨ l.indents.head?.any (column ≤ ·) then l
  else
    { l with
      indents := column :: l.indents
      tokens := l.tokens.insertIdxIfInBounds position t }

/-- Close the blocks for which `p` holds of the indentation, from the innermost on. -/
def closeBlocks (l : Layout) (p : Nat → Bool) : Layout :=
  if l.inFlow then l
  else
    let closed := l.indents.takeWhile p
    { l with
      indents := l.indents.drop closed.length
      tokens := l.tokens ++ Array.replicate closed.length .closeBlock }

/-- A candidate that is not yet lapsed before `s`; a required one must not lapse. -/
def renew? (s : Spot) : Option Candidate → Option (Option Candidate)
  | none => some none
  | some c => if !c.lapsed s then some (some c) else if c.required then none else some none

/-- Drop the candidates that are lapsed before `s`. -/
def renewAll? (l : Layout) (s : Spot) : Option Layout := do
  return { l with candidate := ← renew? s l.candidate, outer := ← l.outer.mapM (renew? s) }

/-- Drop the candidate in the innermost collection, unless it is required. -/
def dropKey? (l : Layout) : Option Layout :=
  if l.candidate.any (·.required) then none else some { l with candidate := none }

/-- Take in that a key may start at `s`. -/
def startKey? (l : Layout) (s : Spot) : Option Layout :=
  if l.keyAllowed then do
    let l ← l.dropKey?
    let required := !l.inFlow && l.indents.head? == some s.column
    return { l with candidate := some ⟨s, l.tokens.size, required⟩ }
  else some l

/-- Take in a token that stands in a block where an entry may start, and opens a block there. -/
def startEntry? (l : Layout) (s : Spot) (opens : Token) : Option Layout :=
  if l.inFlow then some l
  else if l.keyAllowed then some (l.openBlock s.column l.tokens.size opens)
  else none

/-- Take in the colon at `s`, which makes a key of the candidate if there is one. -/
def endKey? (l : Layout) (s : Spot) : Option Layout :=
  match l.candidate with
  | some c =>
    let l := { l with candidate := none, tokens := l.tokens.insertIdxIfInBounds c.position .key }
    some { l.openBlock c.start.column c.position .openMapping with keyAllowed := false }
  | none => do
    let l ← l.startEntry? s .openMapping
    return { l with keyAllowed := !l.inFlow }

/-- Open a flow collection at `s`. -/
def openFlow? (l : Layout) (s : Spot) (t : Token) : Option Layout := do
  let l ← l.startKey? s
  return { l.push t with candidate := none, outer := l.candidate :: l.outer, keyAllowed := true }

/-- Close a flow collection. -/
def closeFlow? (l : Layout) (t : Token) : Option Layout := do
  let l ← l.dropKey?
  return { l.push t with
    candidate := l.outer.head?.join, outer := l.outer.tail, keyAllowed := false }

/-- Take in a token that starts at `s` and may start a key. -/
def pushKey? (l : Layout) (s : Spot) (t : Token) : Option Layout := do
  let l ← l.startKey? s
  return { l.push t with keyAllowed := false }

/-- End all blocks before a token that stands outside of documents. -/
def pushOutside? (l : Layout) (t : Token) : Option Layout := do
  let l ← (l.closeBlocks fun _ => true).dropKey?
  return { l.push t with keyAllowed := false }

/-! ## Steps -/

/-- Skip what stands between tokens: blanks, comments and line ends. After a line end in a block a
key may start. Where one may start, no tab is skipped. -/
def skip (l : Layout) (remark : Bool) : List Spot → Layout × List Spot
  | [] => (l, [])
  | s :: rest =>
    if s.isBreak then skip (if l.inFlow then l else { l with keyAllowed := true }) false rest
    else if remark ∨ s.char = ' ' ∨ (s.char = '\t' ∧ (l.inFlow ∨ !l.keyAllowed)) ∨
        (s.char = orderMark ∧ s.column = 0) then skip l remark rest
    else if s.char = '#' then skip l true rest
    else (l, s :: rest)

/-- Take in the scalar that starts at `s`. -/
def scalar? (l : Layout) (s : Spot) (rest : List Spot) : Option (Layout × List Spot) :=
  let quoted (double : Bool) : Option (Layout × List Spot) := do
    let (text, rest) ← quoted? double rest
    return (← l.pushKey? s (.scalar .quoted text), rest)
  let block (folded : Bool) : Option (Layout × List Spot) := do
    let l ← l.dropKey?
    let (text, rest) ← block? folded l.indents.head? rest
    let l := l.push (.scalar (if folded then .folded else .literal) text)
    return ({ l with keyAllowed := true }, rest)
  if s.char = '\'' then quoted false
  else if s.char = '"' then quoted true
  else if s.char = '|' ∧ !l.inFlow then block false
  else if s.char = '>' ∧ !l.inFlow then block true
  else if startsPlain l.inFlow s rest then do
    let p ← plain? l.inFlow (l.indents.head?.elim 0 (· + 1)) (s :: rest)
    return ({ ← l.pushKey? s (.scalar .plain p.text) with keyAllowed := p.endsLine }, p.rest)
  else none

/-- Take in the token that starts at `s`. -/
def token? (l : Layout) (s : Spot) (rest : List Spot) : Option (Layout × List Spot) := do
  let parted := startsGap rest
  if s.char = '%' ∧ s.column = 0 then
    let (d, rest) ← directive? rest
    return (← l.pushOutside? (.directive d), rest)
  if startsMarker (s :: rest) then
    return (← l.pushOutside? (if s.char = '-' then .documentStart else .documentEnd), rest.drop 2)
  match s.char with
  | '[' => return (← l.openFlow? s .leftBracket, rest)
  | '{' => return (← l.openFlow? s .leftBrace, rest)
  | ']' => return (← l.closeFlow? .rightBracket, rest)
  | '}' => return (← l.closeFlow? .rightBrace, rest)
  | ',' => return ({ (← l.dropKey?).push .comma with keyAllowed := true }, rest)
  | '*' =>
    let (name, rest) ← name? rest
    return (← l.pushKey? s (.reference name), rest)
  | '&' =>
    let (name, rest) ← name? rest
    return (← l.pushKey? s (.anchor name), rest)
  | '!' =>
    let (tag, rest) ← tag? l.inFlow rest
    return (← l.pushKey? s (.tag tag), rest)
  | c =>
    if c = '-' ∧ parted then
      let l ← (← l.startEntry? s .openSequence).dropKey?
      return ({ l.push .dash with keyAllowed := true }, rest)
    else if c = '?' ∧ (l.inFlow ∨ parted) then
      let l ← (← l.startEntry? s .openMapping).dropKey?
      return ({ l.push .key with keyAllowed := !l.inFlow }, rest)
    else if c = ':' ∧ (l.inFlow ∨ parted) then return ((← l.endKey? s).push .value, rest)
    else l.scalar? s rest

/-- Take in the rest of a text; `fuel` is more than its length. At the end all blocks are closed,
and no required key is missing. -/
def read? : Nat → Layout → List Spot → Option Layout
  | 0, _, _ => none
  | fuel + 1, l, ss =>
    match l.skip false ss with
    | (l, []) => (l.closeBlocks fun _ => true).dropKey?
    | (l, s :: rest) => do
      let l := (← l.renewAll? s).closeBlocks (s.column < ·)
      let (l, rest) ← l.token? s rest
      read? fuel l rest

end Layout

/-- The tokens of a text. -/
def Token.scan? (cs : List Char) : Option (List Token) := do
  if !cs.all isAllowed then none
  return (← Layout.read? (cs.length + 1) {} (spots cs)).tokens.toList

end Statevector.Yaml
