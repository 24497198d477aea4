import Statevector.Yaml.Node

/-!
# Documents

A text holds at most one document, a node. Directives and markers may stand around it.

* `Reading`, `Grammar`: the tokens that are left, and what reads nodes from them;
* `Place`, `Grammar.node`: a node, told by where it stands;
* `Document.handles?`: the meanings of handles under the directives of a document;
* `Document.parse?`: the node of a text, if it holds one.
-/

namespace Statevector.Yaml

/-- What is left of the tokens, the meanings of handles, and the names of anchors so far with their
numbers. -/
structure Reading where
  tokens : List Token
  handles : List (List Char × List Char)
  names : List (List Char × Nat) := []
deriving Repr, Inhabited

/-- What reads from the tokens, or finds that they spell nothing. -/
abbrev Grammar := StateT Reading Option

namespace Grammar

/-- Whether one of some tokens comes next. -/
def isNext (ts : List Token) : Grammar Bool := do
  return (← get).tokens.head?.any ts.contains

/-- Drop the next token. -/
def drop : Grammar Unit := modify fun r => { r with tokens := r.tokens.tail }

/-- Take the given token if it comes next, and tell whether it did. -/
def accept (t : Token) : Grammar Bool := do
  let found ← isNext [t]
  if found then drop
  return found

/-- Take the given token, which has to come next. -/
def expect (t : Token) : Grammar Unit := do
  if !(← accept t) then failure

/-- What `read` reads, or the empty node if one of some tokens comes next. -/
def orEmpty (ends : List Token) (read : Grammar Node) : Grammar Node := do
  if ← isNext ends then return .empty else read

/-! ## Properties -/

/-- A tag with its handle replaced by what the handle means. -/
def expand (t : Tag) : Grammar (List Char) := do
  if t.handle = [] then return t.suffix
  match (← get).handles.lookup t.handle with
  | some meaning => return meaning ++ t.suffix
  | none => failure

/-- The number of a new anchor: that of the names so far. A name that is used again is counted
once, and means its last anchor. -/
def number (name : List Char) : Grammar Nat := do
  let names := (← get).names
  modify fun r => { r with names := (name, names.length) :: names.filter fun p => p.1 ≠ name }
  return names.length

/-- The number of the anchor that an alias means, which has to stand before it. -/
def resolve (name : List Char) : Grammar Nat := do
  match (← get).names.lookup name with
  | some k => return k
  | none => failure

/-- The anchor and the tag at the start of a node, in any order. -/
def properties : Grammar (Option (List Char) × Option Tag) := do
  let (name, tag, rest) := match (← get).tokens with
    | .anchor name :: .tag tag :: rest => (some name, some tag, rest)
    | .tag tag :: .anchor name :: rest => (some name, some tag, rest)
    | .anchor name :: rest => (some name, none, rest)
    | .tag tag :: rest => (none, some tag, rest)
    | rest => (none, none, rest)
  modify fun r => { r with tokens := rest }
  return (name, tag)

/-! ## Nodes -/

/-- Where a node stands: in a flow collection, in a block, or in an entry of a block mapping, where
a sequence may stand without indentation. -/
inductive Place
  | flow
  | block
  | entry
deriving DecidableEq, Repr, Inhabited

mutual

/-- A node; `fuel` is at least twice the number of tokens. -/
def node : Nat → Place → Grammar Node
  | 0, _ => failure
  | fuel + 1, place => do
    if let .reference name :: _ := (← get).tokens then
      drop
      return .reference (← resolve name)
    let (name, tag) ← properties
    let tag ← tag.mapM expand
    let number ← name.mapM number
    let n ← content fuel place tag (number.isSome || tag.isSome)
    return match number with
      | some k => .anchored k n
      | none => n

/-- A node without its properties. If it has some, it may be empty. -/
def content : Nat → Place → Option (List Char) → Bool → Grammar Node
  | 0, _, _, _ => failure
  | fuel + 1, place, tag, mayBeEmpty => do
    match (← get).tokens, place with
    | .scalar style text :: _, _ =>
      drop
      return .scalar style tag text
    | .leftBracket :: _, _ =>
      drop
      return .sequence (← flowItems fuel false)
    | .leftBrace :: _, _ =>
      drop
      return .mapping (← flowEntries fuel false)
    | .openSequence :: _, .block | .openSequence :: _, .entry =>
      drop
      return .sequence (← items fuel)
    | .openMapping :: _, .block | .openMapping :: _, .entry =>
      drop
      return .mapping (← entries fuel)
    | .dash :: _, .entry => return .sequence (← looseItems fuel)
    | _, _ => if mayBeEmpty then return .scalar .plain tag [] else failure

/-- The items of a block sequence. -/
def items : Nat → Grammar (List Node)
  | 0 => failure
  | fuel + 1 => do
    if ← accept .closeBlock then return []
    expect .dash
    let item ← orEmpty [.dash, .closeBlock] (node fuel .block)
    return item :: (← items fuel)

/-- The items of a block sequence without indentation. -/
def looseItems : Nat → Grammar (List Node)
  | 0 => failure
  | fuel + 1 => do
    if !(← accept .dash) then return []
    let item ← orEmpty [.dash, .key, .value, .closeBlock] (node fuel .block)
    return item :: (← looseItems fuel)

/-- The entries of a block mapping. -/
def entries : Nat → Grammar (List (Node × Node))
  | 0 => failure
  | fuel + 1 => do
    if ← accept .closeBlock then return []
    expect .key
    let part := orEmpty [.key, .value, .closeBlock] (node fuel .entry)
    let key ← part
    let value ← if ← accept .value then part else pure .empty
    return (key, value) :: (← entries fuel)

/-- The items of a flow sequence. If others came before them, a comma comes first. -/
def flowItems : Nat → Bool → Grammar (List Node)
  | 0, _ => failure
  | fuel + 1, more => do
    if ← accept .rightBracket then return []
    if more then expect .comma
    if ← accept .rightBracket then return []
    let item ← if ← accept .key then pair fuel else node fuel .flow
    return item :: (← flowItems fuel true)

/-- A mapping of one entry inside a flow sequence. A token that shows the key to be missing is
passed over, so that no value follows a missing key. -/
def pair : Nat → Grammar Node
  | 0 => failure
  | fuel + 1 => do
    let missing ← isNext [.value, .comma, .rightBracket]
    let key ← if missing then do drop; pure .empty else node fuel .flow
    let value ←
      if ← accept .value then orEmpty [.comma, .rightBracket] (node fuel .flow) else pure .empty
    return .mapping [(key, value)]

/-- The entries of a flow mapping. If others came before them, a comma comes first. -/
def flowEntries : Nat → Bool → Grammar (List (Node × Node))
  | 0, _ => failure
  | fuel + 1, more => do
    if ← accept .rightBrace then return []
    if more then expect .comma
    if ← accept .rightBrace then return []
    let entry ←
      if ← accept .key then do
        let key ← orEmpty [.value, .comma, .rightBrace] (node fuel .flow)
        let value ←
          if ← accept .value then orEmpty [.comma, .rightBrace] (node fuel .flow) else pure .empty
        pure (key, value)
      else do pure (← node fuel .flow, .empty)
    return entry :: (← flowEntries fuel true)

end

end Grammar

/-! ## Documents -/

namespace Document

/-- The meanings that handles have unless a directive gives them another. -/
def standardHandles : List (List Char × List Char) :=
  [("!".toList, "!".toList), ("!!".toList, "tag:yaml.org,2002:".toList)]

/-- The directives at the start of some tokens, and the tokens after them. -/
def spanDirectives : List Token → List Directive × List Token
  | .directive d :: rest =>
    let (ds, rest) := spanDirectives rest
    (d :: ds, rest)
  | rest => ([], rest)

/-- The meanings of handles under some directives. There is at most one version, one of the two that
are known, and no handle is given two meanings. -/
def handles? (ds : List Directive) : Option (List (List Char × List Char)) :=
  let versions := ds.filterMap fun
    | .version major minor => some (major, minor)
    | .handle .. => none
  let handles := ds.filterMap fun
    | .version .. => none
    | .handle handle meaning => some (handle, meaning)
  let known := versions = [] ∨ versions = [(1, 1)] ∨ versions = [(1, 2)]
  if known ∧ (handles.map (·.1)).Nodup then some (handles ++ standardHandles) else none

/-- Whether a document ends, or another one starts, before these tokens. -/
def isOver : List Token → Bool
  | [] | .directive _ :: _ | .documentStart :: _ | .documentEnd :: _ => true
  | _ => false

/-- The node that the tokens of one document spell, after which nothing but ends of documents may
follow. -/
def ofBody? (handles : List (List Char × List Char)) (tokens : List Token) : Option Node := do
  let (n, r) ← (Grammar.node (2 * tokens.length + 2) .block).run { tokens, handles }
  if r.tokens.all (· == .documentEnd) then return n else none

/-- The node that tokens spell. `some none` are tokens without a document. A document after a marker
may be empty. -/
def ofTokens? (tokens : List Token) : Option (Option Node) := do
  let (ds, rest) := spanDirectives tokens
  match ds, rest with
  | [], [] => return none
  | _, .documentStart :: rest =>
    let handles ← handles? ds
    if isOver rest then
      if rest.all (· == .documentEnd) then return some .empty else none
    else return some (← ofBody? handles rest)
  | [], rest => return some (← ofBody? standardHandles rest)
  | _, _ => none

/-- The node of a text. `some none` is a text without a document. -/
def parse? (text : String) : Option (Option Node) := do ofTokens? (← Token.scan? text.toList)

end Document

end Statevector.Yaml
