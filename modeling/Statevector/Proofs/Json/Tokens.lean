import Mathlib.Data.List.Forall2
import Statevector.Json.Reader
import Statevector.Json.Writer
import Statevector.Proofs.Json.Spelling

/-!
# The tokens of a JSON value

* `Value.tokens`: the tokens of a value; `Phase.run_tokens`: the reader takes them as that value;
* `Value.numbersApart_tokens`: no number among them follows another;
  **`Value.parse?_of_isSpaced`**: a text that spells them is read as that value;
* `Value.IsWritten`: the values whose compact text spells their tokens; `Value.isWritten_ofString`,
  `Value.isWritten_ofNat`, `Value.isWritten_array`, `Value.isWritten_ofMembers`: values that are
  made of texts and natural numbers are.
-/

namespace Statevector.Json

open Text

namespace Value

mutual

/-- The tokens of a value. -/
def tokens : Value → List Token
  | null => [.null]
  | bool b => [.bool b]
  | number n => [.number n]
  | string s => [.string s]
  | array items => .leftBracket :: itemTokens true items
  | object members => .leftBrace :: memberTokens true members

/-- The tokens of the items of an array, with the comma before each of them but the first, and of
its end. -/
def itemTokens (first : Bool) : List Value → List Token
  | [] => [.rightBracket]
  | v :: vs => (if first then [] else [.comma]) ++ v.tokens ++ itemTokens false vs

/-- The tokens of the members of an object, with the comma before each of them but the first, and of
its end. -/
def memberTokens (first : Bool) : List (List Symbol × Value) → List Token
  | [] => [.rightBrace]
  | (k, v) :: ms =>
    (if first then [] else [.comma]) ++ .string k :: .colon :: v.tokens ++ memberTokens false ms

end

end Value

/-! ## Reading -/

namespace Phase

theorem run_cons (p : Phase) (t : Token) (ts : List Token) :
    p.run (t :: ts) = (p.step t).bind fun p => p.run ts := rfl

mutual

/-- The reader takes the tokens of a value as that value. -/
theorem run_tokens (mayClose : Bool) (st : List Frame) (rest : List Token) (v : Value) :
    (value mayClose st).run (v.tokens ++ rest) = (complete v st).run rest := by
  cases v with
  | array items =>
    have hopen : (value mayClose st).step .leftBracket = some (value true (.array [] :: st)) := by
      simp only [step]
    simp only [Value.tokens, List.cons_append, run_cons, hopen, Option.bind_some]
    cases items with
    | nil => rfl
    | cons v vs =>
      -- The first item comes where the array may still be closed, the others after a comma.
      simp only [Value.itemTokens, if_true, List.nil_append, List.append_assoc]
      rw [run_tokens true _ _ v, run_itemTokens st rest v [] vs]
      rfl
  | object members =>
    have hopen : (value mayClose st).step .leftBrace = some (key true [] st) := by
      simp only [step]
    simp only [Value.tokens, List.cons_append, run_cons, hopen, Option.bind_some]
    cases members with
    | nil => rfl
    | cons m ms =>
      simp only [Value.memberTokens, if_true, List.nil_append, List.append_assoc, List.cons_append,
        run_cons, step, Option.bind_some]
      rw [run_tokens false _ _ m.2, run_memberTokens st rest m.2 [] m.1 ms]
      rfl
  | _ => simp only [Value.tokens, List.singleton_append, run_cons, step, Option.bind_some]

/-- It takes those of the other items of an array after the items before them. -/
theorem run_itemTokens (st : List Frame) (rest : List Token) (u : Value) (us : List Value)
    (vs : List Value) : (complete u (.array us :: st)).run (Value.itemTokens false vs ++ rest) =
      (complete (.array (us.reverse ++ u :: vs)) st).run rest := by
  cases vs with
  | nil => simp [Value.itemTokens, run_cons, step]
  | cons v vs =>
    simp only [Value.itemTokens, Bool.false_eq_true, if_false, List.nil_append,
      List.append_assoc, List.cons_append, run_cons, step, Option.bind_some]
    rw [run_tokens false _ _ v, run_itemTokens st rest v (u :: us) vs, List.reverse_cons,
      List.append_assoc, List.singleton_append]

/-- It takes those of the other members of an object after the members before them. -/
theorem run_memberTokens (st : List Frame) (rest : List Token) (u : Value)
    (us : List (List Symbol × Value)) (k : List Symbol) (ms : List (List Symbol × Value)) :
    (complete u (.object us k :: st)).run (Value.memberTokens false ms ++ rest) =
      (complete (.object (us.reverse ++ (k, u) :: ms)) st).run rest := by
  cases ms with
  | nil => simp [Value.memberTokens, run_cons, step]
  | cons m ms =>
    simp only [Value.memberTokens, Bool.false_eq_true, if_false, List.nil_append,
      List.append_assoc, List.cons_append, run_cons, step, Option.bind_some]
    rw [run_tokens false _ _ m.2, run_memberTokens st rest m.2 ((k, u) :: us) m.1 ms,
      List.reverse_cons, List.append_assoc, List.singleton_append]

end

end Phase

namespace Value

theorem ofTokens?_tokens (v : Value) : ofTokens? v.tokens = some v := by
  have hrun := Phase.run_tokens false [] [] v
  rw [List.append_nil] at hrun
  rw [ofTokens?, hrun]
  rfl

/-! ## Numbers among the tokens -/

/-- No number follows another. Two numbers without a blank between them would be scanned as one. -/
abbrev NumbersApart (ts : List Token) : Prop :=
  ts.IsChain fun t t' => t.isNumber = true → t'.isNumber = false

theorem NumbersApart.cons {t : Token} {ts : List Token} (ht : t.isNumber = false)
    (h : NumbersApart ts) : NumbersApart (t :: ts) := by
  refine List.isChain_cons.mpr ⟨fun t' _ hnumber => ?_, h⟩
  rw [ht] at hnumber
  cases hnumber

theorem NumbersApart.append {ts ts' : List Token} (h : NumbersApart ts) (h' : NumbersApart ts')
    (hhead : ∀ t, ts'.head? = some t → t.isNumber = false) : NumbersApart (ts ++ ts') :=
  List.isChain_append.mpr ⟨h, h', fun _ _ t ht _ => hhead t ht⟩

theorem isNumber_head?_itemTokens (vs : List Value) :
    ∀ t, (itemTokens false vs).head? = some t → t.isNumber = false := by
  cases vs <;> (rintro t ⟨⟩; rfl)

theorem isNumber_head?_memberTokens (ms : List (List Symbol × Value)) :
    ∀ t, (memberTokens false ms).head? = some t → t.isNumber = false := by
  cases ms <;> (rintro t ⟨⟩; rfl)

mutual

/-- Between two numbers of a value there is a bracket, a brace or a comma. -/
theorem numbersApart_tokens (v : Value) : NumbersApart v.tokens := by
  cases v with
  | array items => exact .cons rfl (numbersApart_itemTokens true items)
  | object members => exact .cons rfl (numbersApart_memberTokens true members)
  | _ => exact List.isChain_singleton _

theorem numbersApart_itemTokens (first : Bool) (vs : List Value) :
    NumbersApart (itemTokens first vs) := by
  cases vs with
  | nil => exact List.isChain_singleton _
  | cons v vs =>
    -- An item may end in a number, but a comma or a bracket comes next.
    have hvs : NumbersApart (v.tokens ++ itemTokens false vs) :=
      (numbersApart_tokens v).append (numbersApart_itemTokens false vs)
        (isNumber_head?_itemTokens vs)
    cases first with
    | true => exact hvs
    | false => exact .cons rfl hvs

theorem numbersApart_memberTokens (first : Bool) (ms : List (List Symbol × Value)) :
    NumbersApart (memberTokens first ms) := by
  cases ms with
  | nil => exact List.isChain_singleton _
  | cons m ms =>
    have hms : NumbersApart (.string m.1 :: .colon :: (m.2.tokens ++ memberTokens false ms)) :=
      .cons rfl (.cons rfl ((numbersApart_tokens m.2).append (numbersApart_memberTokens false ms)
        (isNumber_head?_memberTokens ms)))
    cases first with
    | true => exact hms
    | false => exact .cons rfl hms

end

/-- **A text that spells the tokens of a value is read as that value.** -/
theorem parse?_of_isSpaced {v : Value} {text : String} (h : IsSpaced v.tokens text.toList) :
    parse? text = some v := by
  rw [parse?, h.scan?_eq (numbersApart_tokens v)]
  exact ofTokens?_tokens v

/-! ## Writing -/

/-- The compact text of a value spells its tokens. -/
def IsWritten (v : Value) : Prop := IsSpaced v.tokens v.compact

theorem hexUnit?_unitEscape {n : Nat} (h : n < 0x20) :
    hexUnit? (hexDigit (n / 0x1000 % 16)) (hexDigit (n / 0x100 % 16)) (hexDigit (n / 0x10 % 16))
      (hexDigit (n % 16)) = some n := by
  revert h
  revert n
  decide

theorem isSpelling_writeChar (c : Char) : IsSpelling c (writeChar c) := by
  unfold writeChar
  split
  -- All cases but the last are short escapes; in the last, control characters have their code.
  case h_8 hquote hbackslash _ _ _ _ _ =>
    split
    · next hc =>
      have hlt : c.toNat < 0x20 := hc
      exact .unit (hexUnit?_unitEscape hlt)
    · next hc => exact .plain (Char.not_lt.mp hc) hquote hbackslash
  all_goals exact .short rfl

theorem isSpelling_writeSymbols (s : String) :
    (Token.string (textSymbols s)).IsSpelling (writeSymbols (textSymbols s)) := by
  have hparts : List.Forall₂ IsSpelling s.toList (s.toList.map writeChar) := by
    rw [List.forall₂_map_right_iff, List.forall₂_same]
    exact fun c _ => isSpelling_writeChar c
  have hbody : (textSymbols s).flatMap writeSymbol = (s.toList.map writeChar).flatten := by
    rw [textSymbols, List.flatMap_map]
    rfl
  rw [writeSymbols, hbody]
  exact .string hparts

theorem isWritten_null : IsWritten null := .singleton .null

theorem isWritten_ofString (s : String) : (ofString s).IsWritten :=
  .singleton (isSpelling_writeSymbols s)

theorem isWritten_ofNat (n : Nat) : (ofNat n).IsWritten := by
  have htext : (Number.ofNat n).text = numeral n := by simp [Number.text, Number.ofNat]
  rw [ofNat, IsWritten, compact, htext]
  exact .singleton (.integer false n)

theorem isSpaced_itemTokens (v : Value) (vs : List Value) (h : ∀ w ∈ v :: vs, w.IsWritten) :
    IsSpaced (itemTokens true (v :: vs)) (separated [','] (compactItems (v :: vs)) ++ [']']) := by
  have hv : v.IsWritten := h v List.mem_cons_self
  induction vs generalizing v with
  | nil => simpa [itemTokens, compactItems, separated] using hv.append (.singleton .rightBracket)
  | cons w ws ih =>
    have hws : ∀ u ∈ w :: ws, u.IsWritten := fun u hu => h u (List.mem_cons_of_mem _ hu)
    have hrest := (IsSpaced.singleton .comma).append (ih w hws (hws w List.mem_cons_self))
    simpa [itemTokens, compactItems, separated] using hv.append hrest

/-- An array of written values is written. -/
theorem isWritten_array {items : List Value} (h : ∀ v ∈ items, v.IsWritten) :
    (array items).IsWritten := by
  cases items with
  | nil => exact (IsSpaced.singleton .leftBracket).append (.singleton .rightBracket)
  | cons v vs => exact (IsSpaced.singleton .leftBracket).append (isSpaced_itemTokens v vs h)

/-- The members of an object, each under the symbols of its name. -/
def named (ms : List (String × Value)) : List (List Symbol × Value) :=
  ms.map fun m => (textSymbols m.1, m.2)

theorem isSpaced_member {m : String × Value} (h : m.2.IsWritten) :
    IsSpaced (.string (textSymbols m.1) :: .colon :: m.2.tokens)
      (writeSymbols (textSymbols m.1) ++ ':' :: m.2.compact) :=
  (IsSpaced.singleton (isSpelling_writeSymbols m.1)).append ((IsSpaced.singleton .colon).append h)

theorem isSpaced_memberTokens (m : String × Value) (ms : List (String × Value))
    (h : ∀ m' ∈ m :: ms, m'.2.IsWritten) : IsSpaced (memberTokens true (named (m :: ms)))
      (separated [','] (compactMembers (named (m :: ms))) ++ ['}']) := by
  have hm := isSpaced_member (h m List.mem_cons_self)
  induction ms generalizing m with
  | nil =>
    simpa [named, memberTokens, compactMembers, separated] using hm.append (.singleton .rightBrace)
  | cons m' ms ih =>
    have hms : ∀ m ∈ m' :: ms, m.2.IsWritten := fun m hm => h m (List.mem_cons_of_mem _ hm)
    have hrest := (IsSpaced.singleton .comma).append
      (ih m' hms (isSpaced_member (hms m' List.mem_cons_self)))
    simpa [named, memberTokens, compactMembers, separated] using hm.append hrest

/-- An object whose members have texts for names and hold written values is written. -/
theorem isWritten_ofMembers {ms : List (String × Value)} (h : ∀ m ∈ ms, m.2.IsWritten) :
    (ofMembers ms).IsWritten := by
  cases ms with
  | nil => exact (IsSpaced.singleton .leftBrace).append (.singleton .rightBrace)
  | cons m ms => exact (IsSpaced.singleton .leftBrace).append (isSpaced_memberTokens m ms h)

end Value

end Statevector.Json
