/-!
# Decimal numerals

Natural numbers written in decimal, and words read from decimal text.

* `numeral`: the decimal digits of a number, `decimal` the same as a string; `numeralValue`: the
  number that digits stand for (`numeralValue_numeral`);
* `word32?`, `word64?`: the word with a given value, if it fits;
* `unsigned?`: digits with an optional plus sign, as settings given from outside are written;
* `digitValue?`, `digitsValue?`: the values of a digit and of a run of digits in a base up to
  sixteen.
-/

namespace Statevector.Text

/-- The decimal digits of a number, without leading zeros. -/
def numeral (n : Nat) : List Char := Nat.toDigits 10 n

/-- A number in decimal. -/
def decimal (n : Nat) : String := String.ofList (numeral n)

/-- The number that a run of decimal digits stands for. -/
def numeralValue (ds : List Char) : Nat := Nat.ofDigitChars 10 ds 0

/-- The 32-bit word with a given value. -/
def word32? (n : Nat) : Option UInt32 :=
  if n < UInt32.size then some (UInt32.ofNat n) else none

/-- The 64-bit word with a given value. -/
def word64? (n : Nat) : Option UInt64 :=
  if n < UInt64.size then some (UInt64.ofNat n) else none

/-- A non-empty run of ASCII digits after at most one plus sign. -/
def unsigned? (cs : List Char) : Option Nat :=
  let ds := if cs.head? = some '+' then cs.tail else cs
  if ds ≠ [] ∧ ds.all Char.isDigit then some (numeralValue ds) else none

/-- The value of a digit in a base up to sixteen. -/
def digitValue? (base : Nat) (c : Char) : Option Nat :=
  let v :=
    if c.isDigit then c.toNat - '0'.toNat
    else if 'a' ≤ c ∧ c ≤ 'f' then c.toNat - 'a'.toNat + 10
    else if 'A' ≤ c ∧ c ≤ 'F' then c.toNat - 'A'.toNat + 10
    else base
  if v < base then some v else none

/-- The value of a non-empty run of digits. -/
def digitsValue? (base : Nat) (cs : List Char) : Option Nat :=
  if cs = [] then none
  else (cs.mapM (digitValue? base)).map fun ds => ds.foldl (fun n d => n * base + d) 0

@[simp] theorem toList_decimal (n : Nat) : (decimal n).toList = numeral n := String.toList_ofList

theorem numeral_ne_nil (n : Nat) : numeral n ≠ [] := Nat.toDigits_ne_nil

theorem isDigit_of_mem_numeral {n : Nat} {c : Char} (h : c ∈ numeral n) : c.isDigit = true :=
  Nat.isDigit_of_mem_toDigits (by decide) (by decide) h

theorem numeralValue_numeral (n : Nat) : numeralValue (numeral n) = n :=
  Nat.ofDigitChars_ten_toDigits

theorem word32?_toNat (w : UInt32) : word32? w.toNat = some w := by
  simp [word32?, UInt32.toNat_lt_size]

theorem word32?_eq_none {n : Nat} : word32? n = none ↔ UInt32.size ≤ n := by
  simp [word32?]

theorem toNat_of_word32? {n : Nat} {w : UInt32} (h : word32? n = some w) : w.toNat = n := by
  unfold word32? at h
  split at h
  · next hn => cases h; exact UInt32.toNat_ofNat_of_lt' hn
  · cases h

end Statevector.Text
