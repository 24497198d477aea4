import Statevector.Settings.Basic
import Statevector.Yaml.Document

/-!
# Settings files

A settings file is a YAML mapping from the names of settings to whole numbers. A setting that is
not named keeps its standard value; other names are ignored. A file without a document, or with an
empty one, sets nothing.

* `Settings.readUnsigned?`: a number as settings files write it;
* `Settings.Values.ofText?`: the values that a file's text gives.
-/

namespace Statevector.Settings

open Text Yaml

/-- A whole number after at most one plus sign: hexadecimal, octal or binary behind its mark, or
decimal without leading zeros. -/
def readUnsigned? (cs : List Char) : Option Nat :=
  match if cs.head? = some '+' then cs.tail else cs with
  | '0' :: 'x' :: ds => digitsValue? 16 ds
  | '0' :: 'o' :: ds => digitsValue? 8 ds
  | '0' :: 'b' :: ds => digitsValue? 2 ds
  | ['0'] => some 0
  | '0' :: _ => none
  | ds => digitsValue? 10 ds

/-- The tag of whole numbers. -/
def wholeTag : List Char := "tag:yaml.org,2002:int".toList

/-- The number that a node is. Only a plain scalar is one, or a literal one with the tag of whole
numbers. -/
def number? : Node → Option Nat
  | .scalar style tag text =>
    if style = .plain ∨ (style = .literal ∧ tag = some wholeTag) then readUnsigned? text else none
  | _ => none

/-- The entries of a mapping in the document `root` by their keys, which are scalars. -/
def entries? (root : Node) (es : List (Node × Node)) : Option (List (List Char × Node)) :=
  es.mapM fun (k, v) => match root.target k with
    | .scalar _ _ text => some (text, root.target v)
    | _ => none

/-- The value of a setting that is given at most once, read as a word of the right size. -/
def setting? {β : Type} (read : Nat → Option β) (name : String) (es : List (List Char × Node)) :
    Option (Option β) :=
  match es.filter fun e => e.1 == name.toList with
  | [] => some none
  | [(_, n)] => (number? n >>= read).map some
  | _ => none

/-- The values that a document gives. -/
def Values.ofNode? (root : Node) : Option Values :=
  match root.target root with
  | .scalar .plain _ [] => some {}
  | .mapping es => do
    let es ← entries? root es
    return {
      stepDelay := ← setting? word64? "step_delay_ms" es
      maxQubits := ← setting? word32? "max_qubits" es }
  | _ => none

/-- The values that the text of a file gives. -/
def Values.ofText? : Reader := fun text =>
  Document.parse? text >>= fun root => root.elim (some {}) Values.ofNode?

end Statevector.Settings
