import Statevector.Json.Reader

/-!
# Records in JSON

A record is a JSON object with the fields of the record as members, in any order, other members
being ignored; or a JSON array of the values of all its fields, in the order of the fields.

* `Value.member?`: the value of a member that must not be repeated;
* `Value.fields?`: the values of the fields of a record;
* `Value.text?`, `Value.word32?`, `Value.items?`: what a value is read as.
-/

namespace Statevector.Json.Value

/-- The text that a value is. -/
def text? : Value → Option String
  | string s => symbolsText? s
  | _ => none

/-- The 32-bit word that a value is. -/
def word32? : Value → Option UInt32
  | number n => n.natural? >>= Text.word32?
  | _ => none

/-- The items of an array. -/
def items? : Value → Option (List Value)
  | array items => some items
  | _ => none

/-- Whether a member has the key `name`. -/
def hasName (name : String) (m : List Symbol × Value) : Bool := m.1 == textSymbols name

/-- The values of the members with the key `name`: `some none` if there is none, and nothing if it
is repeated. -/
def member? (members : List (List Symbol × Value)) (name : String) : Option (Option Value) :=
  match members.filter (hasName name) with
  | [] => some none
  | [m] => some (some m.2)
  | _ => none

/-- The values of the fields with the given names, each with whether it may be missing from an
object. A missing one is null. -/
def fields? (names : List (String × Bool)) : Value → Option (List Value)
  | object members =>
    if members.all fun m => (symbolsText? m.1).isSome then
      names.mapM fun (name, optional) => do
        match ← member? members name with
        | some v => some v
        | none => if optional then some null else none
    else none
  | array items => if items.length = names.length then some items else none
  | _ => none

end Statevector.Json.Value
