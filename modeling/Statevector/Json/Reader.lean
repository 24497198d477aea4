import Statevector.Json.Token

/-!
# Reading JSON

Tokens are taken one by one by a machine whose stack holds the containers that are still open, so
that reading is a fold over the tokens and needs no recursion on the nesting.

* `Frame`, `Phase`: the open containers, and what may come next;
* `Phase.step`: take one token; `Phase.run`: take a list of tokens;
* `Value.ofTokens?`, `Value.parse?`: the value that a list of tokens, a text, spells.
-/

namespace Statevector.Json

/-- A container that is still open, with what it holds so far, the last first. An object also
knows the key whose value is being read. -/
inductive Frame
  | array (items : List Value)
  | object (members : List (List Symbol × Value)) (key : List Symbol)
deriving Inhabited

/-- What may come next. -/
inductive Phase
  /-- A value; or, if nothing has come since its opening bracket, the end of an array. -/
  | value (mayClose : Bool) (stack : List Frame)
  /-- A key; or, if nothing has come since its opening brace, the end of an object. -/
  | key (mayClose : Bool) (members : List (List Symbol × Value)) (stack : List Frame)
  /-- The colon after a key. -/
  | colon (key : List Symbol) (members : List (List Symbol × Value)) (stack : List Frame)
  /-- What follows a complete value: a comma, the end of its container, or the end of the text. -/
  | complete (value : Value) (stack : List Frame)
deriving Inhabited

namespace Phase

/-- Take one token, if it may come next. -/
def step : Phase → Token → Option Phase
  | value _ st, .null => some (complete .null st)
  | value _ st, .bool b => some (complete (.bool b) st)
  | value _ st, .number n => some (complete (.number n) st)
  | value _ st, .string s => some (complete (.string s) st)
  | value _ st, .leftBracket => some (value true (.array [] :: st))
  | value _ st, .leftBrace => some (key true [] st)
  | value true (.array [] :: st), .rightBracket => some (complete (.array []) st)
  | key _ ms st, .string k => some (colon k ms st)
  | key true [] st, .rightBrace => some (complete (.object []) st)
  | colon k ms st, .colon => some (value false (.object ms k :: st))
  | complete v (.array vs :: st), .comma => some (value false (.array (v :: vs) :: st))
  | complete v (.array vs :: st), .rightBracket => some (complete (.array (v :: vs).reverse) st)
  | complete v (.object ms k :: st), .comma => some (key false ((k, v) :: ms) st)
  | complete v (.object ms k :: st), .rightBrace =>
    some (complete (.object ((k, v) :: ms).reverse) st)
  | _, _ => none

/-- Take a list of tokens. -/
def run (p : Phase) (ts : List Token) : Option Phase := ts.foldlM step p

end Phase

namespace Value

/-- The value that a list of tokens spells. -/
def ofTokens? (ts : List Token) : Option Value :=
  match (Phase.value false []).run ts with
  | some (.complete v []) => some v
  | _ => none

/-- The value that a text spells. -/
def parse? (text : String) : Option Value := do
  ofTokens? (← Token.scan? text.toList)

end Value

end Statevector.Json
