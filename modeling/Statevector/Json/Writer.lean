import Statevector.Json.Value

/-!
# Writing JSON

* `writeSymbols`, `Number.text`: strings and numbers; quotes, backslashes and control characters
  are escaped, all else is written as it is;
* `Value.compact`: a value without blanks;
* `Value.pretty`: a value over several lines, two blanks for every open container.
-/

namespace Statevector.Json

open Text

/-- The lower-case hexadecimal digit of a value below 16. -/
def hexDigit (n : Nat) : Char := Nat.digitChar n

/-- The escape of a code unit by four hexadecimal digits. -/
def unitEscape (u : Nat) : List Char :=
  ['\\', 'u', hexDigit (u / 0x1000 % 16), hexDigit (u / 0x100 % 16), hexDigit (u / 0x10 % 16),
    hexDigit (u % 16)]

/-- A character inside a string. -/
def writeChar (c : Char) : List Char :=
  match c with
  | '"' => ['\\', '"']
  | '\\' => ['\\', '\\']
  | '\x08' => ['\\', 'b']
  | '\x0c' => ['\\', 'f']
  | '\n' => ['\\', 'n']
  | '\r' => ['\\', 'r']
  | '\t' => ['\\', 't']
  | c => if c < ' ' then unitEscape c.toNat else [c]

/-- A symbol inside a string. -/
def writeSymbol : Symbol → List Char
  | .char c => writeChar c
  | .half u => unitEscape u

/-- A string between quotes. -/
def writeSymbols (ss : List Symbol) : List Char := '"' :: ss.flatMap writeSymbol ++ ['"']

/-- A number as it is written. -/
def Number.text (n : Number) : List Char :=
  (if n.negative then ['-'] else []) ++ n.whole ++
    (match n.fraction with
      | none => []
      | some ds => '.' :: ds) ++
    match n.exponent with
      | none => []
      | some (negative, ds) => 'e' :: (if negative then ['-'] else []) ++ ds

/-- The texts, with `sep` between them. -/
def separated (sep : List Char) (texts : List (List Char)) : List Char := sep.intercalate texts

namespace Value

mutual

/-- A value without blanks. -/
def compact : Value → List Char
  | null => "null".toList
  | bool b => if b then "true".toList else "false".toList
  | number n => n.text
  | string s => writeSymbols s
  | array items => '[' :: separated [','] (compactItems items) ++ [']']
  | object members => '{' :: separated [','] (compactMembers members) ++ ['}']

/-- The items of an array without blanks. -/
def compactItems : List Value → List (List Char)
  | [] => []
  | v :: vs => v.compact :: compactItems vs

/-- The members of an object without blanks. -/
def compactMembers : List (List Symbol × Value) → List (List Char)
  | [] => []
  | (k, v) :: ms => (writeSymbols k ++ ':' :: v.compact) :: compactMembers ms

end

/-- The start of a line inside `level` open containers. -/
def newLine (level : Nat) : List Char := '\n' :: List.replicate (2 * level) ' '

/-- The texts of a container inside `level` others, each on a line of its own. -/
def block (level : Nat) (texts : List (List Char)) : List Char :=
  if texts = [] then []
  else newLine (level + 1) ++ separated (',' :: newLine (level + 1)) texts ++ newLine level

mutual

/-- A value over several lines, inside `level` open containers. -/
def prettyAt (level : Nat) : Value → List Char
  | array items => '[' :: block level (prettyItems level items) ++ [']']
  | object members => '{' :: block level (prettyMembers level members) ++ ['}']
  | null => "null".toList
  | bool b => if b then "true".toList else "false".toList
  | number n => n.text
  | string s => writeSymbols s

/-- The items of an array inside `level` open containers. -/
def prettyItems (level : Nat) : List Value → List (List Char)
  | [] => []
  | v :: vs => v.prettyAt (level + 1) :: prettyItems level vs

/-- The members of an object inside `level` open containers. -/
def prettyMembers (level : Nat) : List (List Symbol × Value) → List (List Char)
  | [] => []
  | (k, v) :: ms =>
    (writeSymbols k ++ ": ".toList ++ v.prettyAt (level + 1)) :: prettyMembers level ms

end

/-- A value over several lines. -/
def pretty (v : Value) : String := String.ofList (v.prettyAt 0)

end Value

end Statevector.Json
