import Statevector.Circuit.Gate
import Statevector.Source.Fault
import Statevector.Source.Token
import Statevector.Text.Blank

/-!
# Lines of circuit source

Every line stands on its own: a setting of the whole circuit, a gate call, or nothing. Keywords of
settings are compared without regard to ASCII case, mnemonics of gates exactly. Only a literal that
exceeds a qubit index is a fault.

* `Directive`, `Line`;
* `Line.ofTokens`: the meaning of a line cut into tokens;
* `Line.classify`: the meaning of a line of text, its outer blanks taken off.
-/

namespace Statevector.Source

open Text

/-- A setting of the whole circuit. -/
inductive Directive
  | qubits (width : UInt32)
  | name (text : String)
  | description (text : String)
deriving DecidableEq, Repr, Inhabited

/-- What a line of source means. -/
inductive Line
  | blank
  | comment
  | directive (setting : Directive)
  | gate (gate : Gate)
  | unrecognized
deriving DecidableEq, Repr, Inhabited

/-- The qubit index that a literal on line `number` stands for. -/
def literal (number : Nat) (digits : List Char) : Except Fault UInt32 :=
  match word32? (numeralValue digits) with
  | some w => .ok w
  | none => .error (.literalTooLarge number (String.ofList digits))

/-- Whether a word is a keyword, in any ASCII case. -/
def isKeyword (keyword : String) (word : List Char) : Bool :=
  word.map Char.toLower == keyword.toList

namespace Line

/-- The meaning of line `number`, cut into tokens. -/
def ofTokens (number : Nat) : List Token → Except Fault Line
  | [.word w, .int n] =>
    if isKeyword "qubits" w then return .directive (.qubits (← literal number n))
    else return .unrecognized
  | [.word w, .quoted s] =>
    if isKeyword "name" w ∧ s ≠ [] then return .directive (.name (String.ofList s))
    else if isKeyword "description" w ∧ s ≠ [] then
      return .directive (.description (String.ofList s))
    else return .unrecognized
  | [.word w, .leftParen, .int q, .rightParen] =>
    match GateKind.ofName? (String.ofList w) with
    | some (.one k) => return .gate (.one k ⟨← literal number q⟩)
    | _ => return .unrecognized
  | [.word w, .leftParen, .int a, .comma, .int b, .rightParen] =>
    match GateKind.ofName? (String.ofList w) with
    | some (.two k) => return .gate (.two k ⟨← literal number a⟩ (some ⟨← literal number b⟩))
    | _ => return .unrecognized
  | _ => return .unrecognized

/-- The meaning of line `number`. -/
def classify (number : Nat) (cs : List Char) : Except Fault Line :=
  let cs := trim cs
  if cs = [] then return .blank
  else if ['/', '/'] <+: cs then return .comment
  else match Token.scan? cs with
    | none => return .unrecognized
    | some ts => ofTokens number ts

end Line

end Statevector.Source
