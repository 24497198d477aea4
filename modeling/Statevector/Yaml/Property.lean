import Statevector.Text.Numeral
import Statevector.Yaml.Spot

/-!
# Names, tags and directives

A node may carry an anchor, by whose name aliases mean it, and a tag. A tag is a handle with a
suffix; directives before a document give handles their meaning.

* `name?`: the name of an anchor or alias;
* `Tag`, `tag?`: a tag as it is written;
* `Directive`, `directive?`: a version, or the meaning of a handle.
-/

namespace Statevector.Yaml

open Text

/-- The characters of names. -/
def isNameChar (c : Char) : Bool := c.isAlphanum || c == '_' || c == '-'

/-- The name at the start of a text, and what follows it. -/
def spanName (ss : List Spot) : List Char × List Spot :=
  let (name, rest) := ss.span fun s => isNameChar s.char
  (name.map (·.char), rest)

/-- The name of an anchor or alias, and what follows it: a gap, or one of some marks. -/
def name? (ss : List Spot) : Option (List Char × List Spot) :=
  let (name, rest) := spanName ss
  let ends := startsGap rest || rest.head?.any fun s => "?:,]\x7d%@\x60".toList.contains s.char
  if name ≠ [] ∧ ends then some (name, rest) else none

/-! ## Addresses -/

/-- The characters of addresses. Those that are marks of flow collections stand only in addresses
with an end of their own. -/
def isAddressChar (bounded : Bool) (c : Char) : Bool :=
  isNameChar c || ";/?:@&=+$.%!~*'()".toList.contains c || (bounded && ",[]".toList.contains c)

/-- The number of octets that follow the first one of a character, which tells it. -/
def followers? (octet : Nat) : Option Nat :=
  if octet < 0x80 then some 0
  else if 0xC0 ≤ octet ∧ octet < 0xE0 then some 1
  else if 0xE0 ≤ octet ∧ octet < 0xF0 then some 2
  else if 0xF0 ≤ octet ∧ octet < 0xF8 then some 3
  else none

/-- An octet that is not the first of its character. -/
def isFollower (octet : Nat) : Bool := 0x80 ≤ octet && octet < 0xC0

/-- The octet that a percent sign and two digits stand for. -/
def octet? : List Char → Option Nat
  | '%' :: a :: b :: _ => digitsValue? 16 [a, b]
  | _ => none

/-- An address with its escapes undone, one character for each octet, where `awaited` octets of an
escaped character are still to come. The next `skip` characters belong to what has been read. -/
def unescape? (skip awaited : Nat) : List Char → Option (List Char)
  | [] => if awaited = 0 then some [] else none
  | c :: cs =>
    if 0 < skip then unescape? (skip - 1) awaited cs
    else if c = '%' then do
      let octet ← octet? (c :: cs)
      let awaited ←
        if awaited = 0 then followers? octet
        else if isFollower octet then some (awaited - 1) else none
      return Char.ofNat octet :: (← unescape? 2 awaited cs)
    else if awaited = 0 then (unescape? 0 0 cs).map (c :: ·)
    else none

/-- The address at the start of a text, its escapes undone, and what follows it. An address ends at
a zero octet. -/
def address? (bounded : Bool) (ss : List Spot) : Option (List Char × List Spot) := do
  let (address, rest) := ss.span fun s => isAddressChar bounded s.char
  let cs ← unescape? 0 0 (address.map (·.char))
  return (cs.takeWhile (· ≠ '\x00'), rest)

/-! ## Tags -/

/-- A tag as it is written. Without a handle the suffix is the whole tag. -/
structure Tag where
  handle : List Char
  suffix : List Char
deriving DecidableEq, Repr, Inhabited

/-- The tag after an exclamation mark, and what follows it. A second mark ends a handle; without it
the handle is the first mark alone. -/
def readTag? : List Spot → Option (Tag × List Spot)
  | [] => some (⟨[], ['!']⟩, [])
  | s :: rest =>
    if s.char = '<' then do
      let (suffix, after) ← address? true rest
      if after.head?.any (·.char == '>') ∧ rest.head?.any (·.char ≠ '>') then
        return (⟨[], suffix⟩, after.tail)
      else none
    else
      let (name, after) := spanName (s :: rest)
      if after.head?.any (·.char == '!') then do
        let (suffix, rest) ← address? false after.tail
        if after.tail.head?.any (isAddressChar false ·.char) then
          return (⟨'!' :: name ++ ['!'], suffix⟩, rest)
        else none
      else do
        let (suffix, rest) ← address? false (s :: rest)
        return (if suffix = [] then ⟨[], ['!']⟩ else ⟨['!'], suffix⟩, rest)

/-- The tag after an exclamation mark, and what follows it: a gap, or the comma of a flow
collection. -/
def tag? (flow : Bool) (ss : List Spot) : Option (Tag × List Spot) := do
  let (tag, rest) ← readTag? ss
  if startsGap rest ∨ (flow ∧ rest.head?.any (·.char == ',')) then return (tag, rest) else none

/-! ## Directives -/

/-- What stands before a document: a version of the language, or the meaning of a handle, which is
what a tag with that handle starts with. -/
inductive Directive
  | version (major minor : Nat)
  | handle (handle meaning : List Char)
deriving DecidableEq, Repr, Inhabited

/-- A part of a version, and what follows it. -/
def versionPart? (ss : List Spot) : Option (Nat × List Spot) :=
  let (digits, rest) := ss.span (·.char.isDigit)
  if digits ≠ [] ∧ digits.length ≤ 9 then some (numeralValue (digits.map (·.char)), rest) else none

/-- A version, and what follows it. -/
def version? (ss : List Spot) : Option (Directive × List Spot) := do
  let (major, rest) ← versionPart? ss
  if rest.head?.any (·.char == '.') then
    let (minor, rest) ← versionPart? rest.tail
    return (.version major minor, rest)
  else none

/-- A handle with its meaning, and what follows them. -/
def handle? (ss : List Spot) : Option (Directive × List Spot) := do
  match ss with
  | [] => none
  | s :: rest =>
    if s.char ≠ '!' then none
    let (name, after) := spanName rest
    let closed := after.head?.any (·.char == '!')
    if !closed ∧ name ≠ [] then none
    let after := if closed then after.tail else after
    if !after.head?.any Spot.isGap then none
    let address := skipGap after
    let (meaning, rest) ← address? true address
    if startsGap address ∨ !startsGap rest then none
    return (.handle ('!' :: name ++ if closed then ['!'] else []) meaning, rest)

/-- The directive after a percent sign, and what follows its line. -/
def directive? (ss : List Spot) : Option (Directive × List Spot) := do
  let (name, rest) := spanName ss
  if !startsGap rest then none
  let (directive, rest) ←
    if name = "YAML".toList then version? (skipGap rest)
    else if name = "TAG".toList then handle? (skipGap rest)
    else none
  return (directive, ← skipLine? rest)

end Statevector.Yaml
