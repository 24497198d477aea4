import Statevector.Proofs.Source.Scan
import Statevector.Proofs.Text.Lines
import Statevector.Source.Line
import Statevector.Source.Listing

/-!
# The lines of a listing

Every kind of line that the canonical source of a circuit has is classified as what it was written
for, whatever its number.

* `Line.classify_of_trim`, `Line.classify_of_scan?`: a line that starts with a word has the meaning
  of its tokens;
* `Line.classify_qubits`, `Line.classify_name`, `Line.classify_description`: settings;
* `Line.classify_comment`: comments; **`Line.classify_gateLine`**: the lines of gates.
-/

namespace Statevector.Source

open Text

/-- The meaning of a numeral is its number. -/
theorem literal_numeral (number : Nat) (w : UInt32) :
    literal number (numeral w.toNat) = .ok w := by
  rw [literal, numeralValue_numeral, word32?_toNat]

namespace Token

theorem isSpelled_numeral (n : Nat) : (int (numeral n)).IsSpelled :=
  ⟨numeral_ne_nil n, fun _ => isDigit_of_mem_numeral⟩

theorem isSpelled_name (k : GateKind) : (word k.name.toList).IsSpelled := by
  rcases k with (_ | _ | _ | _) | (_ | _)
  · exact isSpelled_word 'H' [] rfl rfl
  · exact isSpelled_word 'X' [] rfl rfl
  · exact isSpelled_word 'Y' [] rfl rfl
  · exact isSpelled_word 'Z' [] rfl rfl
  · exact isSpelled_word 'C' ['N', 'O', 'T'] rfl rfl
  · exact isSpelled_word 'S' ['W', 'A', 'P'] rfl rfl

end Token

namespace Line

/-- A line that starts with a word, its outer blanks taken off, has the meaning of its tokens. -/
theorem classify_of_trim {l cs : List Char} {c : Char} {ts : List Token} (number : Nat)
    (hstart : Token.startsWord c = true) (htrim : trim l = c :: cs)
    (hscan : Token.scan? (c :: cs) = some ts) : classify number l = ofTokens number ts := by
  have hslash : ¬ ['/', '/'] <+: c :: cs := by
    intro h
    obtain rfl : '/' = c := (List.cons_prefix_cons.mp h).1
    revert hstart
    decide
  simp only [classify, htrim, if_neg hslash, hscan, reduceCtorEq, if_false]

/-- A line that starts with a word and does not end in a blank has the meaning of its tokens. -/
theorem classify_of_scan? {c : Char} {cs : List Char} {ts : List Token} (number : Nat)
    (hstart : Token.startsWord c = true)
    (hend : ∀ d, (c :: cs).getLast? = some d → isBlank d = false)
    (hscan : Token.scan? (c :: cs) = some ts) : classify number (c :: cs) = ofTokens number ts := by
  have hc := Token.toNat_of_startsWord hstart
  refine classify_of_trim number hstart (trim_eq_self ?_ hend) hscan
  rintro d ⟨⟩
  exact isBlank_eq_false (by omega) (by omega)

/-- A line that starts with a word has the meaning of its tokens. -/
theorem classify_word {w cs : List Char} {ts : List Token} (number : Nat)
    (hw : (Token.word w).IsSpelled) (hend : ∀ d, (w ++ cs).getLast? = some d → isBlank d = false)
    (hscan : Token.scan? (w ++ cs) = some ts) : classify number (w ++ cs) = ofTokens number ts := by
  obtain ⟨c, ds, rfl, hc, -⟩ := hw
  exact classify_of_scan? number hc hend hscan

/-! ## Settings -/

theorem classify_setting {w : List Char} {t : Token} (number : Nat) (hw : (Token.word w).IsSpelled)
    (ht : t.IsSpelled) (hend : ∀ d, t.text.getLast? = some d → isBlank d = false)
    (hne : t.text ≠ []) :
    classify number (w ++ ' ' :: t.text) = ofTokens number [.word w, t] := by
  refine classify_word number hw ?_ ?_
  · rw [List.getLast?_append, List.getLast?_cons_of_ne_nil hne,
      Option.or_of_isSome (List.getLast?_isSome.mpr hne)]
    exact hend
  · rw [Token.scan?_word_cons hw rfl, Token.scan?_blank, Token.scan?_text ht, Option.map_some]

theorem classify_qubits (number : Nat) (w : UInt32) :
    classify number ("qubits " ++ decimal w.toNat).toList = .ok (.directive (.qubits w)) := by
  have hw : (Token.word "qubits".toList).IsSpelled :=
    Token.isSpelled_word 'q' "ubits".toList rfl rfl
  have hend : ∀ d, (numeral w.toNat).getLast? = some d → isBlank d = false := fun d hd => by
    have hd := Token.toNat_of_isDigit (isDigit_of_mem_numeral (List.mem_of_getLast? hd))
    exact isBlank_eq_false (by omega) (by omega)
  have hline : ("qubits " ++ decimal w.toNat).toList =
      "qubits".toList ++ ' ' :: (Token.int (numeral w.toNat)).text := by
    rw [String.toList_append, toList_decimal]
    rfl
  rw [hline, classify_setting number hw (Token.isSpelled_numeral _) hend (numeral_ne_nil _)]
  have hkey : isKeyword "qubits" "qubits".toList = true := rfl
  simp only [ofTokens, hkey, if_true, literal_numeral]
  rfl

/-- A text without quotes is read back from between quotes. -/
theorem classify_quoted {w : List Char} {s : String} (number : Nat) (hw : (Token.word w).IsSpelled)
    (hq : '"' ∉ s.toList) : classify number (w ++ " \"".toList ++ s.toList ++ "\"".toList) =
      ofTokens number [.word w, .quoted s.toList] := by
  have hend : ∀ d, (Token.quoted s.toList).text.getLast? = some d → isBlank d = false := by
    intro d hd
    rw [Token.text, List.getLast?_concat] at hd
    cases hd
    decide
  have hline : w ++ " \"".toList ++ s.toList ++ "\"".toList =
      w ++ ' ' :: (Token.quoted s.toList).text := by
    simp [Token.text]
  rw [hline]
  exact classify_setting number hw hq hend (by simp [Token.text])

theorem toList_ne_nil {s : String} (h : s ≠ "") : s.toList ≠ [] := fun e =>
  h (String.toList_eq_nil_iff.mp e)

theorem classify_name (number : Nat) {s : String} (hq : '"' ∉ s.toList) (hs : s ≠ "") :
    classify number ("name" ++ " \"" ++ s ++ "\"").toList = .ok (.directive (.name s)) := by
  have hw : (Token.word "name".toList).IsSpelled := Token.isSpelled_word 'n' "ame".toList rfl rfl
  have hkey : isKeyword "name" "name".toList = true := rfl
  simp only [String.toList_append]
  rw [classify_quoted number hw hq]
  simp only [ofTokens, hkey, toList_ne_nil hs, ne_eq, not_false_eq_true, and_self, if_true,
    String.ofList_toList]
  rfl

theorem classify_description (number : Nat) {s : String} (hq : '"' ∉ s.toList) (hs : s ≠ "") :
    classify number ("description" ++ " \"" ++ s ++ "\"").toList =
      .ok (.directive (.description s)) := by
  have hw : (Token.word "description".toList).IsSpelled :=
    Token.isSpelled_word 'd' "escription".toList rfl rfl
  have hname : isKeyword "name" "description".toList = false := rfl
  have hkey : isKeyword "description" "description".toList = true := rfl
  simp only [String.toList_append]
  rw [classify_quoted number hw hq]
  simp only [ofTokens, hname, hkey, toList_ne_nil hs, ne_eq, not_false_eq_true, and_self, if_true,
    String.ofList_toList, Bool.false_eq_true, false_and, if_false]
  rfl

/-! ## Gates and comments -/

theorem classify_call {w cs : List Char} {ts : List Token} (number : Nat)
    (hw : (Token.word w).IsSpelled) (hscan : Token.scan? (cs ++ [')']) = some ts) :
    classify number (w ++ '(' :: (cs ++ [')'])) =
      ofTokens number (.word w :: .leftParen :: ts) := by
  refine classify_word number hw ?_ ?_
  · intro d hd
    rw [← List.cons_append, ← List.append_assoc, List.getLast?_concat] at hd
    cases hd
    decide
  · rw [Token.scan?_word_cons hw rfl, Token.scan?_leftParen, hscan]
    rfl

theorem classify_one (number : Nat) (k : OneQubit) (q : Qubit) :
    classify number (Gate.one k q).text.toList = .ok (.gate (.one k q)) := by
  have hline : (Gate.one k q).text.toList =
      (GateKind.one k).name.toList ++ '(' :: (numeral q.index.toNat ++ [')']) := by
    simp [Gate.text, Gate.kind]
  have hscan : Token.scan? (numeral q.index.toNat ++ [')']) =
      some [.int (numeral q.index.toNat), .rightParen] := by
    rw [Token.scan?_int_cons (Token.isSpelled_numeral _) rfl, Token.scan?_rightParen,
      Token.scan?_nil]
    rfl
  rw [hline, classify_call number (Token.isSpelled_name _) hscan]
  simp only [ofTokens, String.ofList_toList, GateKind.ofName?_name, literal_numeral]
  rfl

theorem classify_two (number : Nat) (k : TwoQubit) (a b : Qubit) :
    classify number (Gate.two k a (some b)).text.toList = .ok (.gate (.two k a (some b))) := by
  have hline : (Gate.two k a (some b)).text.toList = (GateKind.two k).name.toList ++
      '(' :: ((numeral a.index.toNat ++ ',' :: ' ' :: numeral b.index.toNat) ++ [')']) := by
    simp [Gate.text, Gate.kind]
  have hscan : Token.scan? ((numeral a.index.toNat ++ ',' :: ' ' :: numeral b.index.toNat) ++ [')'])
      = some [.int (numeral a.index.toNat), .comma, .int (numeral b.index.toNat), .rightParen] := by
    rw [List.append_assoc, List.cons_append, List.cons_append,
      Token.scan?_int_cons (Token.isSpelled_numeral _) rfl, Token.scan?_comma, Token.scan?_blank,
      Token.scan?_int_cons (Token.isSpelled_numeral _) rfl, Token.scan?_rightParen,
      Token.scan?_nil]
    rfl
  rw [hline, classify_call number (Token.isSpelled_name _) hscan]
  simp only [ofTokens, String.ofList_toList, GateKind.ofName?_name, literal_numeral]
  rfl

theorem classify_comment (number : Nat) (cs : List Char) {e : Char} (he : isBlank e = false) :
    classify number ('/' :: '/' :: (cs ++ [e])) = .ok .comment := by
  have htrim : trim ('/' :: '/' :: (cs ++ [e])) = '/' :: '/' :: (cs ++ [e]) := by
    refine trim_eq_self ?_ fun d hd => ?_
    · rintro d ⟨⟩
      decide
    · rw [← List.cons_append, ← List.cons_append, List.getLast?_concat] at hd
      cases hd
      exact he
  have hslash : ['/', '/'] <+: '/' :: '/' :: (cs ++ [e]) := ⟨cs ++ [e], rfl⟩
  simp only [classify, htrim, if_pos hslash, reduceCtorEq, if_false]
  rfl

/-- **The line of a gate is read as that gate**, or as a comment if the gate lacks an operand. -/
theorem classify_gateLine (number : Nat) (g : Gate) :
    classify number g.line.toList = .ok (if g.lacksOperand then .comment else .gate g) := by
  match g with
  | .one k q => exact classify_one number k q
  | .two k a (some b) => exact classify_two number k a b
  | .two k a none =>
    have hline : (Gate.two k a none).line.toList =
        '/' :: '/' :: ((" ".toList ++ (Gate.two k a none).text.toList ++
          " skipped: missing targe".toList) ++ ['t']) := by
      simp [Gate.line, Gate.lacksOperand]
    rw [hline, classify_comment number _ (by decide)]
    rfl

end Line

end Statevector.Source
