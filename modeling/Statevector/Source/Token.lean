import Statevector.Text.Blank

/-!
# Tokens of a line of circuit source

A line of source is cut into tokens from the left, each as long as possible, with blanks between
them skipped.

* `Token`, and its written form `Token.text`;
* `Token.first?`: the token at the start of a text, with what follows it;
* `Token.scan?`: all tokens of a text, or nothing if some character starts no token;
* `Token.length_first?_lt`: a token takes at least one character, so that scanning ends.
-/

namespace Statevector.Source

/-- A token of circuit source. -/
inductive Token
  | int (digits : List Char)
  | quoted (content : List Char)
  | word (letters : List Char)
  | leftParen
  | rightParen
  | comma
  | comment
deriving DecidableEq, Repr, Inhabited

namespace Token

/-- The written form of a token; of a comment only the two slashes. -/
def text : Token → List Char
  | int ds => ds
  | quoted cs => '"' :: cs ++ ['"']
  | word cs => cs
  | leftParen => ['(']
  | rightParen => [')']
  | comma => [',']
  | comment => ['/', '/']

/-! ## Character classes -/

/-- The characters skipped between tokens. -/
def isGap (c : Char) : Bool := c == ' ' || c == '\t' || c == '\r' || c == '\n'

/-- The characters that start a word: ASCII letters and the underscore. -/
def startsWord (c : Char) : Bool := c.isAlpha || c == '_'

/-- The characters that continue a word: ASCII letters, ASCII digits and the underscore. -/
def continuesWord (c : Char) : Bool := c.isAlphanum || c == '_'

/-! ## Scanning -/

/-- The token that starts with `c` and goes on in `cs`, and what follows it. -/
def first? (c : Char) (cs : List Char) : Option (Token × List Char) :=
  if c.isDigit then some (int (c :: cs.takeWhile Char.isDigit), cs.dropWhile Char.isDigit)
  else if startsWord c then
    some (word (c :: cs.takeWhile continuesWord), cs.dropWhile continuesWord)
  else if c = '"' then
    match cs.dropWhile (· ≠ '"') with
    | [] => none
    | _ :: rest => some (quoted (cs.takeWhile (· ≠ '"')), rest)
  else if c = '(' then some (leftParen, cs)
  else if c = ')' then some (rightParen, cs)
  else if c = ',' then some (comma, cs)
  else if c = '/' ∧ cs.head? = some '/' then some (comment, cs.dropWhile (· ≠ '\n'))
  else none

/-- What follows a token is shorter than the text that starts with it. -/
theorem length_first?_lt {c : Char} {cs rest : List Char} {t : Token}
    (h : first? c cs = some (t, rest)) : rest.length < (c :: cs).length := by
  have le := fun p => Text.length_dropWhile_le p cs
  unfold first? at h
  split at h; · cases h; exact Nat.lt_succ_of_le (le _)
  split at h; · cases h; exact Nat.lt_succ_of_le (le _)
  split at h
  · split at h
    · cases h
    · next d r hd =>
      cases h
      have := le (· ≠ '"')
      rw [hd] at this
      exact Nat.lt_of_lt_of_le (Nat.lt_succ_self _) (Nat.le_succ_of_le this)
  split at h; · cases h; exact Nat.lt_succ_self _
  split at h; · cases h; exact Nat.lt_succ_self _
  split at h; · cases h; exact Nat.lt_succ_self _
  split at h
  · cases h; exact Nat.lt_succ_of_le (le _)
  · cases h

/-- The tokens of a text, or nothing if some character starts no token. -/
def scan? (cs : List Char) : Option (List Token) :=
  match _hcs : cs.dropWhile isGap with
  | [] => some []
  | c :: rest =>
    match _ht : first? c rest with
    | none => none
    | some (t, rest') => (scan? rest').map (t :: ·)
termination_by cs.length
decreasing_by
  have h := Text.length_dropWhile_le isGap cs
  rw [_hcs] at h
  exact Nat.lt_of_lt_of_le (length_first?_lt _ht) h

end Token

end Statevector.Source
