import Statevector.Text.Numeral

/-!
# JSON values

* `Json.Symbol`: what a JSON string is made of, characters and halves of surrogate pairs;
* `Json.Number`: a number as it is written;
* `Json.Value`, and its measures `depth` (how deep containers are nested) and `isSound` (no half
  of a surrogate pair stands alone, no number is out of the range of binary64).
-/

namespace Statevector.Json

open Text

/-- What a JSON string is made of: a character, or one half of a surrogate pair that stands
alone. -/
inductive Symbol
  | char (c : Char)
  | half (unit : Nat)
deriving DecidableEq, Repr, Inhabited

/-- The character that a symbol is. -/
def Symbol.char? : Symbol → Option Char
  | char c => some c
  | half _ => none

/-- The text that a JSON string holds, if it has no lone surrogate. -/
def symbolsText? (ss : List Symbol) : Option String :=
  (ss.mapM Symbol.char?).map String.ofList

/-- The symbols of a text. -/
def textSymbols (s : String) : List Symbol := s.toList.map Symbol.char

/-- A number as it is written. -/
structure Number where
  negative : Bool := false
  whole : List Char
  fraction : Option (List Char) := none
  exponent : Option (Bool × List Char) := none
deriving DecidableEq, Repr, Inhabited

namespace Number

/-- The number that stands for a natural number. -/
def ofNat (n : Nat) : Number := { whole := numeral n }

/-- The natural number that a number stands for, if it is written as one. -/
def natural? (n : Number) : Option Nat :=
  if n.negative = false ∧ n.fraction = none ∧ n.exponent = none then some (numeralValue n.whole)
  else none

/-- The power of ten that the digits of a number are multiplied by. -/
def scale (n : Number) : Int :=
  let written : Int := match n.exponent with
    | none => 0
    | some (negative, ds) => if negative then -(numeralValue ds : Int) else numeralValue ds
  written - (n.fraction.getD []).length

/-- Whether the nearest binary64 to a number is finite. A number with more than 310 places before
its point is out of range, whatever its digits are, and one without a place is in range. -/
def isFinite (n : Number) : Bool :=
  let digits := (n.whole ++ n.fraction.getD []).dropWhile (· == '0')
  let places := digits.length + n.scale
  if digits = [] ∨ places ≤ 0 then true
  else if places > 310 then false
  else
    let bound := (1 <<< 1024) - (1 <<< 970)
    if n.scale ≥ 0 then numeralValue digits * Nat.pow 10 n.scale.toNat < bound
    else numeralValue digits < bound * Nat.pow 10 (-n.scale).toNat

end Number

/-- A JSON value; members of an object are kept in order, repeated ones too. -/
inductive Value
  | null
  | bool (b : Bool)
  | number (n : Number)
  | string (s : List Symbol)
  | array (items : List Value)
  | object (members : List (List Symbol × Value))
deriving Repr, Inhabited

namespace Value

/-- The value of a text. -/
def ofString (s : String) : Value := string (textSymbols s)

/-- The value of a natural number. -/
def ofNat (n : Nat) : Value := number (.ofNat n)

/-- The value of a list of named members. -/
def ofMembers (ms : List (String × Value)) : Value :=
  object (ms.map fun m => (textSymbols m.1, m.2))

mutual

/-- How deep containers are nested in a value. -/
def depth : Value → Nat
  | array items => depthItems items + 1
  | object members => depthMembers members + 1
  | _ => 0

/-- How deep containers are nested in the items of an array. -/
def depthItems : List Value → Nat
  | [] => 0
  | v :: vs => max v.depth (depthItems vs)

/-- How deep containers are nested in the members of an object. -/
def depthMembers : List (List Symbol × Value) → Nat
  | [] => 0
  | (_, v) :: ms => max v.depth (depthMembers ms)

end

mutual

/-- Whether all strings of a value are texts and all its numbers in range. -/
def isSound : Value → Bool
  | string s => (symbolsText? s).isSome
  | number n => n.isFinite
  | array items => areSoundItems items
  | object members => areSoundMembers members
  | _ => true

/-- Whether all items of an array are sound. -/
def areSoundItems : List Value → Bool
  | [] => true
  | v :: vs => v.isSound && areSoundItems vs

/-- Whether all members of an object are sound. -/
def areSoundMembers : List (List Symbol × Value) → Bool
  | [] => true
  | (k, v) :: ms => (symbolsText? k).isSome && v.isSound && areSoundMembers ms

end

end Value

end Statevector.Json
