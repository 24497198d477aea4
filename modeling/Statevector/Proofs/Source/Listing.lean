import Statevector.Proofs.Source.Classify
import Statevector.Source.Listing
import Statevector.Source.Program

/-!
# The lines of a listing

* `Source.Mean`: lines that have given meanings wherever they stand;
* `Circuit.meanings`: what the lines of the canonical source of a circuit are written for;
* **`Circuit.classifyAll_toSource`**: that is how they are read.
-/

namespace Statevector

open Text

/-! ## Lines with given meanings -/

namespace Source

theorem classifyFrom_append (first : Nat) (ls ls' : List (List Char)) :
    classifyFrom first (ls ++ ls') = (do
      let ms ← classifyFrom first ls
      let ms' ← classifyFrom (first + ls.length) ls'
      return ms ++ ms') := by
  induction ls generalizing first with
  | nil => exact (bind_pure (classifyFrom first ls')).symm
  | cons l ls ih =>
    have hlen : first + (l :: ls).length = first + 1 + ls.length := by
      rw [List.length_cons]; omega
    rw [List.cons_append, classifyFrom, classifyFrom, ih, hlen]
    simp

/-- The lines have the given meanings, wherever they stand. -/
def Mean (ls : List (List Char)) (ms : List Line) : Prop := ∀ first, classifyFrom first ls = .ok ms

theorem mean_nil : Mean [] [] := fun _ => rfl

theorem Mean.cons {l : List Char} {m : Line} {ls : List (List Char)} {ms : List Line}
    (h : ∀ number, Line.classify number l = .ok m) (hs : Mean ls ms) :
    Mean (l :: ls) (m :: ms) := by
  intro first
  rw [classifyFrom, h first, hs (first + 1)]
  rfl

theorem Mean.append {ls ls' : List (List Char)} {ms ms' : List Line} (h : Mean ls ms)
    (h' : Mean ls' ms') : Mean (ls ++ ls') (ms ++ ms') := by
  intro first
  rw [classifyFrom_append, h first, h' (first + ls.length)]
  rfl

theorem mean_map {β : Type} {xs : List β} {f : β → List Char} {m : β → Line}
    (h : ∀ x ∈ xs, ∀ number, Line.classify number (f x) = .ok (m x)) :
    Mean (xs.map f) (xs.map m) := by
  induction xs with
  | nil => exact mean_nil
  | cons x xs ih =>
    exact .cons (h x List.mem_cons_self) (ih fun y hy => h y (List.mem_cons_of_mem _ hy))

theorem mean_single {l : List Char} {m : Line} (h : ∀ number, Line.classify number l = .ok m) :
    Mean [l] [m] := mean_nil.cons h

theorem not_mem_of_quotable {s : String} (h : quotable s = true) :
    s ≠ "" ∧ '"' ∉ s.toList ∧ '\n' ∉ s.toList ∧ '\r' ∉ s.toList := by
  simp only [quotable, Bool.and_eq_true, decide_eq_true_eq, List.all_eq_true] at h
  obtain ⟨hne, hall⟩ := h
  exact ⟨hne, fun hm => by simpa using hall _ hm, fun hm => by simpa using hall _ hm,
    fun hm => by simpa using hall _ hm⟩

end Source

/-! ## The lines of a listing -/

/-- The meaning of the line of a gate. -/
def Gate.meaning (g : Gate) : Source.Line := if g.lacksOperand then .comment else .gate g

/-- The meaning of the line that gives a circuit a name or description. -/
def Source.settingMeaning (directive : String → Directive) (text : String) : List Line :=
  if quotable text then [.directive (directive text)] else []

namespace Circuit

/-- The meanings of the lines of the canonical source of a circuit. -/
def meanings (c : Circuit) : List Source.Line :=
  [.directive (.qubits c.width)] ++ Source.settingMeaning .name c.name ++
    Source.settingMeaning .description c.description ++
    (if c.gates.isEmpty then [] else [.blank]) ++ c.gateList.map Gate.meaning

end Circuit

namespace Source

theorem mean_setting {keyword text : String} {directive : String → Directive}
    (h : ∀ number, '"' ∉ text.toList → text ≠ "" →
      Line.classify number (keyword ++ " \"" ++ text ++ "\"").toList =
        .ok (.directive (directive text))) :
    Mean ((setting keyword text).map String.toList) (settingMeaning directive text) := by
  unfold setting settingMeaning
  split
  · next hq =>
    obtain ⟨hne, hquote, -, -⟩ := not_mem_of_quotable hq
    exact mean_single fun number => h number hquote hne
  · exact mean_nil

end Source

/-- **The lines of a listing mean what they were written for.** -/
theorem Circuit.mean_listing (c : Circuit) :
    Source.Mean (c.listing.map String.toList) c.meanings := by
  simp only [listing, List.map_append, List.map_map]
  refine Source.Mean.append (.append (.append (.append ?_ ?_) ?_) ?_) ?_
  · exact Source.mean_single fun number => Source.Line.classify_qubits number c.width
  · exact Source.mean_setting fun number => Source.Line.classify_name number
  · exact Source.mean_setting fun number => Source.Line.classify_description number
  · split
    · exact Source.mean_nil
    · exact Source.mean_single fun _ => rfl
  · exact Source.mean_map fun g _ number => Source.Line.classify_gateLine number g

/-! ## A listing as text -/

namespace Source

/-- A text without line ends. -/
def OnOneLine (s : String) : Prop := '\n' ∉ s.toList ∧ '\r' ∉ s.toList

instance (s : String) : Decidable (OnOneLine s) := inferInstanceAs (Decidable (_ ∧ _))

theorem OnOneLine.append {s t : String} (hs : OnOneLine s) (ht : OnOneLine t) :
    OnOneLine (s ++ t) := by
  simp only [OnOneLine, String.toList_append, List.mem_append, not_or]
  exact ⟨⟨hs.1, ht.1⟩, hs.2, ht.2⟩

theorem onOneLine_decimal (n : Nat) : OnOneLine (decimal n) := by
  rw [OnOneLine, toList_decimal]
  constructor
  · intro h
    exact absurd (isDigit_of_mem_numeral h) (by decide)
  · intro h
    exact absurd (isDigit_of_mem_numeral h) (by decide)

theorem onOneLine_name (k : GateKind) : OnOneLine k.name := by
  rcases k with (_ | _ | _ | _) | (_ | _) <;> decide

theorem onOneLine_text (g : Gate) : OnOneLine g.text := by
  have hname := (onOneLine_name g.kind).append (show OnOneLine "(" by decide)
  match g with
  | .one _ q => exact hname.append ((onOneLine_decimal _).append (by decide))
  | .two _ a (some b) =>
    exact hname.append ((((onOneLine_decimal _).append (by decide)).append
      (onOneLine_decimal _)).append (by decide))
  | .two _ a none => exact hname.append ((onOneLine_decimal _).append (by decide))

theorem onOneLine_line (g : Gate) : OnOneLine g.line := by
  unfold Gate.line
  split
  · exact ((show OnOneLine "// " by decide).append (onOneLine_text g)).append (by decide)
  · exact onOneLine_text g

theorem onOneLine_setting {keyword text : String} (hk : OnOneLine keyword) :
    ∀ l ∈ setting keyword text, OnOneLine l := by
  unfold setting
  split
  · next hq =>
    obtain ⟨-, -, hlf, hcr⟩ := not_mem_of_quotable hq
    have htext : OnOneLine text := ⟨hlf, hcr⟩
    rintro l hl
    rw [List.mem_singleton.mp hl]
    exact ((hk.append (by decide)).append htext).append (by decide)
  · simp

end Source

namespace Circuit

theorem onOneLine_listing (c : Circuit) : ∀ l ∈ c.listing, Source.OnOneLine l := by
  intro l hl
  simp only [listing, List.mem_append, List.mem_singleton, List.mem_map] at hl
  rcases hl with (((rfl | hl) | hl) | hl) | ⟨g, -, rfl⟩
  · exact .append (by decide) (Source.onOneLine_decimal _)
  · exact Source.onOneLine_setting (by decide) l hl
  · exact Source.onOneLine_setting (by decide) l hl
  · split at hl
    · cases hl
    · rw [List.mem_singleton.mp hl]
      decide
  · exact Source.onOneLine_line g

theorem toList_toSource (c : Circuit) :
    c.toSource.toList = (c.listing.map String.toList).flatMap (· ++ ['\n']) := by
  simp [toSource, String.toList_join, List.flatMap_map]

theorem lines_toSource (c : Circuit) : lines c.toSource.toList = c.listing.map String.toList := by
  rw [toList_toSource]
  refine lines_flatMap_lf ?_ ?_
  · rw [List.forall_mem_map]
    exact fun l hl => (c.onOneLine_listing l hl).1
  · rw [List.forall_mem_map]
    exact fun l hl h => (c.onOneLine_listing l hl).2 (List.mem_of_getLast? h)

theorem classifyAll_toSource (c : Circuit) :
    Source.classifyAll c.toSource.toList = .ok c.meanings := by
  rw [Source.classifyAll, lines_toSource]
  exact c.mean_listing 1

end Circuit

end Statevector
