/-!
# Files

* `Entry`: what stands at a path, and `Entry.text`: the text of a file;
* `Files`, `Location`, `Files.walk?`: trees of files, and the places in them to which names lead;
* `Files.entry`: what stands at a path.
-/

namespace Statevector.Command

/-- What stands at a path: nothing, a file, a directory, or something else that cannot be read, with
the reason. -/
inductive Entry
  | missing
  | file (content : ByteArray)
  | directory
  | unreadable (reason : String)
deriving Inhabited

namespace Entry

/-- Whether there is a directory at a path. -/
def isDirectory : Entry → Bool
  | directory => true
  | _ => false

/-- Whether there is anything at a path. -/
def exist : Entry → Bool
  | missing => false
  | _ => true

/-- The text of a file, or why it has none. -/
def text : Entry → Except String String
  | missing => .error "No such file or directory (os error 2)"
  | directory => .error "Is a directory (os error 21)"
  | unreadable reason => .error reason
  | file content => match String.fromUTF8? content with
    | some text => .ok text
    | none => .error "stream did not contain valid UTF-8"

end Entry

/-- The names in a path. An empty one stands before a slash at the start and after one at the
end. -/
def namesOf (path : String) : List String := path.splitOn "/"

/-- The files that are known, by the names that lead to them from the working directory and from the
root. A path with a slash at its end stands for a directory. -/
structure Files where
  here : List (List String × ByteArray) := []
  root : List (List String × ByteArray) := []
deriving Inhabited

/-- A place in a tree of files. Of the directories above the working directory nothing more is
known. -/
inductive Location
  | here (names : List String)
  | root (names : List String)
  | above
deriving DecidableEq, Repr, Inhabited

/-- Where a name leads from a directory. -/
def Location.follow? (l : Location) (name : String) : Option Location :=
  if name = "" ∨ name = "." then some l
  else if name = ".." then
    some (match l with
      | here [] => above
      | here names => here names.dropLast
      | root names => root names.dropLast
      | above => above)
  else match l with
    | here names => some (here (names ++ [name]))
    | root names => some (root (names ++ [name]))
    | above => none

namespace Files

/-- What stands where names lead among some files. -/
def find (files : List (List String × ByteArray)) (names : List String) : Entry :=
  if names = [] ∨ files.any (fun f => names.isPrefixOf f.1 && names ≠ f.1) then .directory
  else ((files.lookup names).map Entry.file).getD .missing

/-- What stands at a place. -/
def entryAt (files : Files) : Location → Entry
  | .here names => find files.here names
  | .root names => find files.root names
  | .above => .directory

/-- The place to which names lead one after the other. Each is followed from a directory. -/
def walk? (files : Files) : Location → List String → Option Location
  | l, [] => some l
  | l, name :: rest => do
    if (files.entryAt l).isDirectory then files.walk? (← l.follow? name) rest else none

/-- What stands at a path. An empty one leads nowhere. -/
def entry (files : Files) (path : String) : Entry :=
  let start := if path.toList.head? = some '/' then Location.root [] else .here []
  if path = "" then .missing
  else ((files.walk? start (namesOf path)).map files.entryAt).getD .missing

end Files

end Statevector.Command
