import Statevector.Json.Value
import Statevector.Text.Blank

/-!
# Tokens of JSON text

* `Json.Token`;
* `scanNumber?`, `scanString?`: the rest of a number or string after its first character;
* `joinHalves`: escapes that spell a surrogate pair are joined into the character they stand for;
* `Token.scan?`: the tokens of a text, blanks between them skipped.
-/

namespace Statevector.Json

/-- A token of JSON text. -/
inductive Token
  | null
  | bool (b : Bool)
  | number (n : Number)
  | string (s : List Symbol)
  | leftBrace
  | rightBrace
  | leftBracket
  | rightBracket
  | colon
  | comma
deriving DecidableEq, Repr, Inhabited

/-- The characters between tokens. -/
def isBlank (c : Char) : Bool := c == ' ' || c == '\t' || c == '\n' || c == '\r'

/-! ## Numbers -/

/-- A non-empty run of digits, and what follows it. -/
def scanDigits? (cs : List Char) : Option (List Char × List Char) :=
  match cs.takeWhile Char.isDigit with
  | [] => none
  | ds => some (ds, cs.dropWhile Char.isDigit)

/-- The fraction of a number, if there is one, and what follows it. -/
def scanFraction? : List Char → Option (Option (List Char) × List Char)
  | '.' :: cs => (scanDigits? cs).map fun (ds, rest) => (some ds, rest)
  | cs => some (none, cs)

/-- The exponent of a number, if there is one, and what follows it. -/
def scanExponent? (cs : List Char) : Option (Option (Bool × List Char) × List Char) :=
  match cs with
  | c :: rest =>
    if c = 'e' ∨ c = 'E' then
      let (negative, rest) := match rest with
        | '+' :: rest => (false, rest)
        | '-' :: rest => (true, rest)
        | rest => (false, rest)
      (scanDigits? rest).map fun (ds, rest) => (some (negative, ds), rest)
    else some (none, cs)
  | [] => some (none, [])

/-- A number after its sign, and what follows it. A whole part of several digits does not start
with a zero. -/
def scanNumber? (negative : Bool) (cs : List Char) : Option (Number × List Char) := do
  let (whole, cs) ← scanDigits? cs
  if whole.head? = some '0' ∧ whole.length ≠ 1 then none
  let (fraction, cs) ← scanFraction? cs
  let (exponent, cs) ← scanExponent? cs
  return ({ negative, whole, fraction, exponent }, cs)

/-! ## Strings -/

/-- The value of four hexadecimal digits. -/
def hexUnit? (a b c d : Char) : Option Nat := Text.digitsValue? 16 [a, b, c, d]

/-- Whether a code unit is one half of a surrogate pair. -/
def isHalf (unit : Nat) : Bool := 0xD800 ≤ unit && unit < 0xE000

/-- The symbol of a code unit. -/
def unitSymbol (unit : Nat) : Symbol :=
  if isHalf unit then .half unit else .char (Char.ofNat unit)

/-- The character after a backslash that stands for another one. -/
def escaped? : Char → Option Char
  | '"' => some '"'
  | '\\' => some '\\'
  | '/' => some '/'
  | 'b' => some '\x08'
  | 'f' => some '\x0c'
  | 'n' => some '\n'
  | 'r' => some '\r'
  | 't' => some '\t'
  | _ => none

/-- The symbols of a string after its opening quote, every escape on its own, and what follows the
closing quote. -/
def scanSymbols? : List Char → Option (List Symbol × List Char)
  | [] => none
  | '"' :: rest => some ([], rest)
  | '\\' :: 'u' :: a :: b :: c :: d :: rest => do
    let unit ← hexUnit? a b c d
    let (ss, rest) ← scanSymbols? rest
    return (unitSymbol unit :: ss, rest)
  | '\\' :: c :: rest => do
    let c ← escaped? c
    let (ss, rest) ← scanSymbols? rest
    return (.char c :: ss, rest)
  | c :: rest =>
    if c < ' ' ∨ c = '\\' then none
    else do
      let (ss, rest) ← scanSymbols? rest
      return (.char c :: ss, rest)

/-- Two halves of a surrogate pair in order are the character they stand for. -/
def joinHalves : List Symbol → List Symbol
  | .half u :: .half v :: rest =>
    if u < 0xDC00 ∧ 0xDC00 ≤ v then
      .char (Char.ofNat (0x10000 + (u - 0xD800) * 0x400 + (v - 0xDC00))) :: joinHalves rest
    else .half u :: joinHalves (.half v :: rest)
  | s :: rest => s :: joinHalves rest
  | [] => []

/-- A string after its opening quote, and what follows it. -/
def scanString? (cs : List Char) : Option (List Symbol × List Char) :=
  (scanSymbols? cs).map fun (ss, rest) => (joinHalves ss, rest)

/-! ## Tokens -/

/-- The token at the start of a text, and what follows it. -/
def Token.first? : List Char → Option (Token × List Char)
  | '{' :: rest => some (.leftBrace, rest)
  | '}' :: rest => some (.rightBrace, rest)
  | '[' :: rest => some (.leftBracket, rest)
  | ']' :: rest => some (.rightBracket, rest)
  | ':' :: rest => some (.colon, rest)
  | ',' :: rest => some (.comma, rest)
  | 'n' :: 'u' :: 'l' :: 'l' :: rest => some (.null, rest)
  | 't' :: 'r' :: 'u' :: 'e' :: rest => some (.bool true, rest)
  | 'f' :: 'a' :: 'l' :: 's' :: 'e' :: rest => some (.bool false, rest)
  | '"' :: rest => (scanString? rest).map fun (ss, rest) => (.string ss, rest)
  | '-' :: rest => (scanNumber? true rest).map fun (n, rest) => (.number n, rest)
  | cs => (scanNumber? false cs).map fun (n, rest) => (.number n, rest)

/-! ### What follows a token is shorter -/

theorem length_scanDigits?_lt {cs rest ds : List Char} (h : scanDigits? cs = some (ds, rest)) :
    rest.length < cs.length := by
  unfold scanDigits? at h
  split at h
  · cases h
  · next hne =>
    cases h
    cases cs with
    | nil => exact absurd rfl hne
    | cons c cs =>
      by_cases hc : c.isDigit
      · simpa [List.dropWhile_cons, hc] using Nat.lt_succ_of_le (Text.length_dropWhile_le _ cs)
      · simp [hc] at hne

theorem length_scanFraction?_le {cs rest : List Char} {f : Option (List Char)}
    (h : scanFraction? cs = some (f, rest)) : rest.length ≤ cs.length := by
  unfold scanFraction? at h
  split at h
  · simp only [Option.map_eq_some_iff] at h
    obtain ⟨⟨ds, r⟩, hd, he⟩ := h
    cases he
    exact Nat.le_succ_of_le (Nat.le_of_lt (length_scanDigits?_lt hd))
  · cases h; exact Nat.le_refl _

theorem length_scanExponent?_le {cs rest : List Char} {e : Option (Bool × List Char)}
    (h : scanExponent? cs = some (e, rest)) : rest.length ≤ cs.length := by
  unfold scanExponent? at h
  split at h
  · split at h
    · simp only [Option.map_eq_some_iff] at h
      obtain ⟨⟨ds, r⟩, hd, he⟩ := h
      cases he
      have := length_scanDigits?_lt hd
      revert this
      split <;> simp only [List.length_cons] <;> omega
    · cases h; exact Nat.le_refl _
  · cases h; exact Nat.le_refl _

theorem length_scanNumber?_lt {negative : Bool} {cs rest : List Char} {n : Number}
    (h : scanNumber? negative cs = some (n, rest)) : rest.length < cs.length := by
  simp only [scanNumber?, bind, Option.bind_eq_some_iff, Prod.exists] at h
  obtain ⟨ds, r, hd, h⟩ := h
  split at h
  · cases h
  · simp only [Option.bind_eq_some_iff, Prod.exists, pure] at h
    obtain ⟨f, r', hf, e, r'', he, h⟩ := h
    cases h
    have := length_scanDigits?_lt hd
    have := length_scanFraction?_le hf
    have := length_scanExponent?_le he
    omega

theorem length_scanSymbols?_lt {cs rest : List Char} {ss : List Symbol}
    (h : scanSymbols? cs = some (ss, rest)) : rest.length < cs.length := by
  fun_induction scanSymbols? cs generalizing ss rest with
  | case1 => cases h
  | case2 => cases h; simp
  | case3 a b c d r ih =>
    simp only [bind, Option.bind_eq_some_iff, Prod.exists, pure] at h
    obtain ⟨u, -, ss', r', hs, he⟩ := h
    cases he
    have := ih hs
    simp only [List.length_cons]
    omega
  | case4 c r _ ih =>
    simp only [bind, Option.bind_eq_some_iff, Prod.exists, pure] at h
    obtain ⟨c', -, ss', r', hs, he⟩ := h
    cases he
    have := ih hs
    simp only [List.length_cons]
    omega
  | case5 => cases h
  | case6 c r _ _ _ _ ih =>
    simp only [bind, Option.bind_eq_some_iff, Prod.exists, pure] at h
    obtain ⟨ss', r', hs, he⟩ := h
    cases he
    exact Nat.lt_succ_of_lt (ih hs)

theorem Token.length_first?_lt {cs rest : List Char} {t : Token}
    (h : first? cs = some (t, rest)) : rest.length < cs.length := by
  unfold first? at h
  split at h
  case h_10 =>
    simp only [scanString?, Option.map_map, Option.map_eq_some_iff] at h
    obtain ⟨⟨ss, r⟩, hs, he⟩ := h
    cases he
    exact Nat.lt_succ_of_lt (length_scanSymbols?_lt hs)
  case h_11 =>
    simp only [Option.map_eq_some_iff] at h
    obtain ⟨⟨n, r⟩, hn, he⟩ := h
    cases he
    exact Nat.lt_succ_of_lt (length_scanNumber?_lt hn)
  case h_12 =>
    simp only [Option.map_eq_some_iff] at h
    obtain ⟨⟨n, r⟩, hn, he⟩ := h
    cases he
    exact length_scanNumber?_lt hn
  all_goals cases h; simp only [List.length_cons]; omega

/-- The tokens of a text, or nothing if some character starts no token. -/
def Token.scan? (cs : List Char) : Option (List Token) :=
  match _hcs : cs.dropWhile isBlank with
  | [] => some []
  | c :: rest =>
    match _ht : first? (c :: rest) with
    | none => none
    | some (t, rest') => (scan? rest').map (t :: ·)
termination_by cs.length
decreasing_by
  have h := Text.length_dropWhile_le isBlank cs
  rw [_hcs] at h
  exact Nat.lt_of_lt_of_le (length_first?_lt _ht) h

end Statevector.Json
