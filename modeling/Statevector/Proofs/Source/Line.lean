import Statevector.Proofs.Source.Scan
import Statevector.Source.Line

/-!
# What a line can be read as

* `IsQuotedIn`: the texts that a line can hold between quotes;
* `Line.Allows`: the meanings and faults that a line can have;
  `Line.allows_bind_literal`: a literal that is too large is a fault;
* **`Line.allows_classify`**: a line has no others.
-/

namespace Statevector.Source

open Text

variable {number : Nat} {l : List Char}

/-- A text that is not empty, holds no quote, and has all its characters from a line. -/
structure IsQuotedIn (l : List Char) (s : String) : Prop where
  ne_empty : s ≠ ""
  quote_not_mem : '"' ∉ s.toList
  subset : s.toList ⊆ l

theorem trim_subset (l : List Char) : trim l ⊆ l := by
  intro c hc
  simp only [trim, trimEnd, List.mem_reverse] at hc
  have hc := List.mem_reverse.mp ((List.dropWhile_sublist _).subset hc)
  exact (List.dropWhile_sublist _).subset hc

theorem isQuotedIn_of_scan? {w cs : List Char}
    (h : Token.scan? (trim l) = some [.word w, .quoted cs]) (hne : cs ≠ []) :
    IsQuotedIn l (String.ofList cs) := by
  obtain ⟨hquote, htext⟩ := Token.isSpelled_of_scan? h (.quoted cs) (by simp)
  refine ⟨by simpa using hne, ?_, ?_⟩
  · rw [String.toList_ofList]
    exact hquote
  · rw [String.toList_ofList]
    intro c hc
    exact trim_subset l (htext (by simp [Token.text, hc]))

namespace Line

/-- The meanings and faults that line `number` can have: a text that it gives stands between quotes
in it, a gate that it calls has all its operands, and only a literal can be at fault. -/
def Allows (number : Nat) (l : List Char) : Except Fault Line → Prop
  | .ok (.directive (.name s)) | .ok (.directive (.description s)) => IsQuotedIn l s
  | .ok (.gate g) => g.lacksOperand = false
  | .ok _ => True
  | .error fault => ∃ text, fault = .literalTooLarge number text

theorem allows_bind_literal {digits : List Char} {f : UInt32 → Except Fault Line}
    (hf : ∀ w, Allows number l (f w)) : Allows number l (literal number digits >>= f) := by
  unfold literal
  split
  · next w _ => exact hf w
  · exact ⟨_, rfl⟩

theorem allows_ofTokens {ts : List Token} (h : Token.scan? (trim l) = some ts) :
    Allows number l (ofTokens number ts) := by
  unfold ofTokens
  split
  · split
    · exact allows_bind_literal fun _ => trivial
    · trivial
  · split
    · next hname => exact isQuotedIn_of_scan? h hname.2
    · split
      · next hdescription => exact isQuotedIn_of_scan? h hdescription.2
      · trivial
  · split
    · exact allows_bind_literal fun _ => rfl
    · trivial
  · split
    · exact allows_bind_literal fun _ => allows_bind_literal fun _ => rfl
    · trivial
  · trivial

/-- **A line is read as what it can mean**, or refused for a literal that is too large. -/
theorem allows_classify (number : Nat) (l : List Char) : Allows number l (classify number l) := by
  simp only [classify]
  split
  · trivial
  split
  · trivial
  split
  · trivial
  · next h => exact allows_ofTokens h

end Line

end Statevector.Source
