import Statevector.Proofs.Source.Blanks
import Statevector.Proofs.Source.Grammar
import Statevector.Proofs.Source.Program

/-!
# Edited sources

* `Fault.renumber`: a fault after its line has moved; `Line.classify_renumber`,
  `classifyFrom_renumber`: the number of a line appears in its fault only;
* `Line.Reads`: what a line means, whatever its number; `exists_mean`: what lines mean that are all
  read;
* `Directive.sameKind`, `Line.resets`: the settings that take back one another;
  `Program.foldl_add_comm`: a setting commutes with the lines that do not set the same;
  `Program.foldl_add_of_resets`: a setting that is made again later counts for nothing;
* `numberAfterInsert`, `numberAfterDelete`: the numbers of the lines around an edit; `AreSound`:
  lines without a fault;
* `Circuit.ofSource_insert_idle`, `Circuit.ofSource_delete_idle`,
  `Circuit.ofSource_delete_directive`, `Circuit.ofSource_move_directive`: edits that change nothing;
* **`Circuit.ofSource_edits`**: what is made of a source depends on its gates and on the last
  setting of each kind.
-/

namespace Statevector

open Text

namespace Source

/-! ## Line numbers -/

/-- A fault after the line with each number `n` has become line `f n`. -/
def Fault.renumber (f : Nat → Nat) : Fault → Fault
  | literalTooLarge line text => literalTooLarge (f line) text
  | widthTooLarge index => widthTooLarge index
  | unknownSample key => unknownSample key

/-- A line that moves back gives back the fault. -/
theorem mapError_renumber_cancel {α : Type} {f g : Nat → Nat} (h : ∀ n, g (f n) = n)
    (r : Except Fault α) : (r.mapError (.renumber f)).mapError (.renumber g) = r := by
  cases r with
  | ok a => rfl
  | error fault =>
    cases fault with
    | literalTooLarge line text =>
      show Except.error (Fault.literalTooLarge (g (f line)) text) = _
      rw [h]
    | widthTooLarge | unknownSample => rfl

theorem Form.meaning_renumber (f : Nat → Nat) (number : Nat) (form : Form) :
    form.meaning (f number) = (form.meaning number).mapError (.renumber f) := by
  unfold meaning
  split <;> rfl

/-- The number of a line appears in its fault only. -/
theorem Line.classify_renumber (f : Nat → Nat) (number : Nat) (l : List Char) :
    classify (f number) l = (classify number l).mapError (.renumber f) := by
  rcases classify_cases number l with ⟨hl, hc⟩ | ⟨hl, hc⟩ | ⟨form, hl, hc⟩ | ⟨hl, hc⟩ <;> rw [hc]
  · exact classify_of_blank (f number) hl
  · exact classify_of_slashes (f number) hl
  · rw [classify_of_isWritten (f number) hl, Form.meaning_renumber]
  · exact classify_of_not_isWritten (f number) hl.1 hl.2.1 hl.2.2

/-- Lines that have moved together are read as before, but for the line of a fault. -/
theorem classifyFrom_renumber {f : Nat → Nat} {first first' : Nat} {ls : List (List Char)}
    (h : ∀ i < ls.length, f (first + i) = first' + i) :
    classifyFrom first' ls = (classifyFrom first ls).mapError (.renumber f) := by
  induction ls generalizing first first' with
  | nil => rfl
  | cons l ls ih =>
    have hfirst : f first = first' := h 0 (by simp)
    have hrest : ∀ i < ls.length, f (first + 1 + i) = first' + 1 + i := fun i hi => by
      have := h (i + 1) (Nat.succ_lt_succ hi)
      rwa [show first + (i + 1) = first + 1 + i by omega,
        show first' + (i + 1) = first' + 1 + i by omega] at this
    rw [classifyFrom, classifyFrom, ih hrest, ← hfirst, Line.classify_renumber]
    cases Line.classify first l with
    | error fault => rfl
    | ok m => cases classifyFrom (first + 1) ls <;> rfl

/-! ## Meanings of lines -/

/-- A line is read as `m`. -/
def Line.Reads (l : List Char) (m : Line) : Prop := ∃ number, classify number l = .ok m

theorem Line.Reads.classify_eq {l : List Char} {m : Line} (h : Reads l m) (number : Nat) :
    classify number l = .ok m := by
  obtain ⟨k, hk⟩ := h
  rw [classify_renumber (fun _ => number) k l, hk]
  rfl

theorem Line.Reads.unique {l : List Char} {m m' : Line} (h : Reads l m) (h' : Reads l m') :
    m = m' := Except.ok.inj ((h.classify_eq 0).symm.trans (h'.classify_eq 0))

/-- A line that is blank, a comment or not recognized. -/
def Line.IsIdle (l : List Char) : Prop :=
  ∃ m, Reads l m ∧ (m = blank ∨ m = comment ∨ m = unrecognized)

/-- Lines that are all read mean what each of them means. -/
theorem exists_mean {ls : List (List Char)} (h : ∀ l ∈ ls, ∃ m, Line.Reads l m) :
    ∃ ms, Mean ls ms ∧ ∀ m, m ∈ ms ↔ ∃ l ∈ ls, Line.Reads l m := by
  induction ls with
  | nil => exact ⟨[], mean_nil, by simp⟩
  | cons l ls ih =>
    rw [List.forall_mem_cons] at h
    obtain ⟨⟨m, hm⟩, hs⟩ := h
    obtain ⟨ms, hms, hmem⟩ := ih hs
    refine ⟨m :: ms, hms.cons hm.classify_eq, fun m' => ?_⟩
    have hfirst : m' = m ↔ Line.Reads l m' := ⟨fun h => h ▸ hm, fun h => h.unique hm⟩
    simp only [List.mem_cons, exists_eq_or_imp, hfirst, hmem]

theorem mean_of_classifyFrom {first : Nat} {ls : List (List Char)} {ms : List Line}
    (h : classifyFrom first ls = .ok ms) : Mean ls ms := by
  intro first'
  have hmove : classifyFrom first' ls =
      (classifyFrom first ls).mapError (.renumber (· - first + first')) :=
    classifyFrom_renumber fun i _ => by omega
  rw [hmove, h]
  rfl

/-! ## Settings -/

/-- Whether two settings are of one kind, so that the later one counts. -/
def Directive.sameKind : Directive → Directive → Bool
  | qubits _, qubits _ | name _, name _ | description _, description _ => true
  | _, _ => false

/-- Whether a line makes a setting of the same kind as `d`. -/
def Line.resets (d : Directive) : Line → Bool
  | directive d' => d.sameKind d'
  | blank | comment | gate _ | unrecognized => false

namespace Program

/-- A setting commutes with a line that does not set the same. -/
theorem add_comm {d : Directive} {m : Line} (h : m.resets d = false) (p : Program) :
    (p.add (.directive d)).add m = (p.add m).add (.directive d) := by
  cases m with
  | blank | comment | unrecognized => rfl
  | gate g => cases d <;> rfl
  | directive d' => cases d <;> cases d' <;> first | rfl | cases h

theorem add_of_resets {d : Directive} {m : Line} (h : m.resets d = true) (p : Program) :
    (p.add (.directive d)).add m = p.add m := by
  cases m with
  | blank | comment | unrecognized | gate => cases h
  | directive d' => cases d <;> cases d' <;> first | rfl | cases h

theorem foldl_add_comm {d : Directive} {ms : List Line} (h : ∀ m ∈ ms, m.resets d = false)
    (p : Program) : ms.foldl add (p.add (.directive d)) = (ms.foldl add p).add (.directive d) := by
  induction ms generalizing p with
  | nil => rfl
  | cons m ms ih =>
    rw [List.forall_mem_cons] at h
    rw [List.foldl_cons, List.foldl_cons, add_comm h.1, ih h.2]

theorem foldl_add_of_resets {d : Directive} {ms : List Line} (h : ∃ m ∈ ms, m.resets d = true)
    (p : Program) : ms.foldl add (p.add (.directive d)) = ms.foldl add p := by
  induction ms generalizing p with
  | nil => simp at h
  | cons m ms ih =>
    rw [List.foldl_cons, List.foldl_cons]
    cases hm : m.resets d with
    | true => rw [add_of_resets hm]
    | false =>
      have hms : ∃ m ∈ ms, m.resets d = true := by simpa [hm] using h
      rw [add_comm hm, ih hms]

/-- A line that neither sets nor does anything can be left out. -/
theorem ofLines_idle {m : Line} (h : m = .blank ∨ m = .comment ∨ m = .unrecognized)
    (ms ms' : List Line) : ofLines (ms ++ m :: ms') = ofLines (ms ++ ms') := by
  rw [ofLines, ofLines, List.foldl_append, List.foldl_append, List.foldl_cons]
  rcases h with rfl | rfl | rfl <;> rfl

/-- A setting can be left out if it is made again later. -/
theorem ofLines_of_resets {d : Directive} {ms' : List Line} (h : ∃ m ∈ ms', m.resets d = true)
    (ms : List Line) : ofLines (ms ++ .directive d :: ms') = ofLines (ms ++ ms') := by
  rw [ofLines, ofLines, List.foldl_append, List.foldl_append, List.foldl_cons,
    foldl_add_of_resets h]

/-- A setting can be made later if it is not made in between. -/
theorem ofLines_comm {d : Directive} {ms' : List Line} (h : ∀ m ∈ ms', m.resets d = false)
    (ms ms'' : List Line) : ofLines (ms ++ .directive d :: (ms' ++ ms'')) =
      ofLines (ms ++ (ms' ++ .directive d :: ms'')) := by
  simp only [ofLines, List.foldl_append, List.foldl_cons, foldl_add_comm h]

/-- A program depends on its gates and on the last setting of each kind. -/
theorem ofLines_congr {ms ms' : List Line} (hgates : Line.gates ms = Line.gates ms')
    (hwidth : Line.last? Line.width? ms = Line.last? Line.width? ms')
    (hname : Line.last? Line.name? ms = Line.last? Line.name? ms')
    (hdescription : Line.last? Line.description? ms = Line.last? Line.description? ms') :
    ofLines ms = ofLines ms' := by
  rw [ofLines_eq, ofLines_eq, hgates, hwidth, hname, hdescription]

/-- What keeps a program from having a width is not on one of its lines. -/
theorem mapError_circuit (f : Nat → Nat) (p : Program) :
    p.circuit.mapError (.renumber f) = p.circuit := by
  rw [circuit_eq]
  obtain ⟨w, hw, -⟩ | hw := p.circuitWidth_cases <;> rw [hw] <;> rfl

end Program

/-! ## Edits -/

/-- The number that line `n` gets if a line is put in behind line `k`. -/
def numberAfterInsert (k n : Nat) : Nat := if k < n then n + 1 else n

/-- The number that line `n` gets if the line behind line `k` is taken out. -/
def numberAfterDelete (k n : Nat) : Nat := if k < n then n - 1 else n

theorem numberAfterDelete_numberAfterInsert (k n : Nat) :
    numberAfterDelete k (numberAfterInsert k n) = n := by
  by_cases h : k < n
  · rw [numberAfterInsert, if_pos h, numberAfterDelete, if_pos (Nat.lt_succ_of_lt h),
      Nat.add_sub_cancel]
  · rw [numberAfterInsert, if_neg h, numberAfterDelete, if_neg h]

/-- Lines before the new one are read as before. -/
theorem mapError_classifyFrom_before (ls : List (List Char)) :
    (classifyFrom 1 ls).mapError (.renumber (numberAfterInsert ls.length)) = classifyFrom 1 ls := by
  refine (classifyFrom_renumber fun i hi => ?_).symm
  rw [numberAfterInsert, if_neg (by omega)]

/-- Lines behind the new one have moved by one. -/
theorem classifyFrom_behind (k : Nat) (ls : List (List Char)) :
    classifyFrom (1 + k + 1) ls =
      (classifyFrom (1 + k) ls).mapError (.renumber (numberAfterInsert k)) := by
  refine classifyFrom_renumber fun i _ => ?_
  rw [numberAfterInsert, if_pos (by omega)]
  omega

/-- Lines that hold no line feed and have no fault. -/
def AreSound (ls : List (List Char)) : Prop := ∀ l ∈ ls, '\n' ∉ l ∧ ∃ m, Line.Reads l m

namespace AreSound

variable {ls ls' : List (List Char)}

theorem lf_not_mem (h : AreSound ls) : ∀ l ∈ ls, '\n' ∉ l := fun l hl => (h l hl).1

theorem exists_mean (h : AreSound ls) :
    ∃ ms, Mean ls ms ∧ ∀ m, m ∈ ms ↔ ∃ l ∈ ls, Line.Reads l m :=
  Source.exists_mean fun l hl => (h l hl).2

theorem append_iff : AreSound (ls ++ ls') ↔ AreSound ls ∧ AreSound ls' := List.forall_mem_append

theorem cons_iff {l : List Char} :
    AreSound (l :: ls) ↔ ('\n' ∉ l ∧ ∃ m, Line.Reads l m) ∧ AreSound ls := List.forall_mem_cons

end AreSound

end Source

namespace Circuit

open Source

variable {pre mid post ls : List (List Char)} {l : List Char} {ms : List Line} {d : Directive}

theorem ofSource_of_mean (hlf : ∀ x ∈ ls, '\n' ∉ x) (h : Mean ls ms) :
    ofSource (joined ls) = (Program.ofLines ms).circuit := by
  rw [ofSource_joined hlf, h 1]
  rfl

theorem exists_mean_of_ofSource {c : Circuit} (hlf : ∀ x ∈ ls, '\n' ∉ x)
    (h : ofSource (joined ls) = .ok c) : ∃ ms, Mean ls ms := by
  rw [ofSource_joined hlf] at h
  cases hls : classifyFrom 1 ls with
  | error fault =>
    rw [hls] at h
    cases h
  | ok ms => exact ⟨ms, mean_of_classifyFrom hls⟩

/-- A line that means nothing only moves the lines behind it. -/
theorem ofSource_insert_idle (hlf : ∀ x ∈ pre ++ l :: post, '\n' ∉ x)
    (hl : Line.IsIdle l) : ofSource (joined (pre ++ l :: post)) =
      (ofSource (joined (pre ++ post))).mapError (.renumber (numberAfterInsert pre.length)) := by
  obtain ⟨m, hm, hidle⟩ := hl
  have hsub : pre ++ post ⊆ pre ++ l :: post :=
    ((List.Sublist.refl pre).append (List.sublist_cons_self l post)).subset
  rw [ofSource_joined hlf, ofSource_joined fun x hx => hlf x (hsub hx), classifyFrom_append,
    classifyFrom_append, classifyFrom, hm.classify_eq, classifyFrom_behind]
  cases hx : classifyFrom 1 pre with
  | error fault =>
    have hbefore := mapError_classifyFrom_before pre
    rw [hx] at hbefore
    exact congrArg Except.error (Except.error.inj hbefore).symm
  | ok ms =>
    cases classifyFrom (1 + pre.length) post with
    | error fault => rfl
    | ok ms' =>
      show (Program.ofLines (ms ++ m :: ms')).circuit =
        (Program.ofLines (ms ++ ms')).circuit.mapError _
      rw [Program.mapError_circuit, Program.ofLines_idle hidle]

theorem ofSource_delete_idle (hlf : ∀ x ∈ pre ++ l :: post, '\n' ∉ x)
    (hl : Line.IsIdle l) : ofSource (joined (pre ++ post)) =
      (ofSource (joined (pre ++ l :: post))).mapError (.renumber (numberAfterDelete pre.length)) := by
  rw [ofSource_insert_idle hlf hl,
    mapError_renumber_cancel (numberAfterDelete_numberAfterInsert pre.length)]

/-- A setting counts for nothing if a later line sets the same. -/
theorem ofSource_delete_directive {l' : List Char} {d' : Directive}
    (h : AreSound (pre ++ l :: post)) (hl : Line.Reads l (.directive d)) (hmem : l' ∈ post)
    (hl' : Line.Reads l' (.directive d')) (hkind : d.sameKind d' = true) :
    ofSource (joined (pre ++ post)) = ofSource (joined (pre ++ l :: post)) := by
  obtain ⟨hpre, hrest⟩ := AreSound.append_iff.mp h
  obtain ⟨-, hpost⟩ := AreSound.cons_iff.mp hrest
  obtain ⟨ms, hms, -⟩ := hpre.exists_mean
  obtain ⟨ns, hns, hread⟩ := hpost.exists_mean
  have hset : ∃ m ∈ ns, m.resets d = true := ⟨_, (hread _).mpr ⟨l', hmem, hl'⟩, hkind⟩
  have hshort : AreSound (pre ++ post) := AreSound.append_iff.mpr ⟨hpre, hpost⟩
  rw [ofSource_of_mean hshort.lf_not_mem (hms.append hns),
    ofSource_of_mean h.lf_not_mem (hms.append (hns.cons hl.classify_eq)),
    Program.ofLines_of_resets hset]

/-- A setting can be made later, behind lines that do not set the same. -/
theorem ofSource_move_directive (h : AreSound (pre ++ l :: (mid ++ post)))
    (hl : Line.Reads l (.directive d))
    (hmid : ∀ x ∈ mid, ∀ d', Line.Reads x (.directive d') → d.sameKind d' = false) :
    ofSource (joined (pre ++ (mid ++ l :: post))) =
      ofSource (joined (pre ++ l :: (mid ++ post))) := by
  obtain ⟨hpre, hrest⟩ := AreSound.append_iff.mp h
  obtain ⟨hfirst, hrest⟩ := AreSound.cons_iff.mp hrest
  obtain ⟨hmids, hpost⟩ := AreSound.append_iff.mp hrest
  obtain ⟨ms, hms, -⟩ := hpre.exists_mean
  obtain ⟨ns, hns, hread⟩ := hmids.exists_mean
  obtain ⟨ks, hks, -⟩ := hpost.exists_mean
  have hset : ∀ m ∈ ns, m.resets d = false := fun m hm => by
    obtain ⟨x, hx, hm⟩ := (hread m).mp hm
    cases m with
    | blank | comment | unrecognized | gate => rfl
    | directive d' => exact hmid x hx d' hm
  have hmoved : AreSound (pre ++ (mid ++ l :: post)) :=
    AreSound.append_iff.mpr ⟨hpre, AreSound.append_iff.mpr
      ⟨hmids, AreSound.cons_iff.mpr ⟨hfirst, hpost⟩⟩⟩
  rw [ofSource_of_mean hmoved.lf_not_mem (hms.append (hns.append (hks.cons hl.classify_eq))),
    ofSource_of_mean h.lf_not_mem (hms.append ((hns.append hks).cons hl.classify_eq)),
    Program.ofLines_comm hset]

/-- **Lines that mean nothing change nothing.** Take a source as its lines, with line feeds between
them. A blank line, a comment or a line that is not recognized can be put in anywhere and taken out
again: the outcome is the same, but for the line of a fault further down. In a source without faulty
lines a setting that is made again later can be taken out, and a setting can move past any lines
that do not set the same, in both directions. So what is made of a source without faulty lines, and
every source that gives a circuit is one, depends on its gates in their order and on the last
setting of each kind. -/
theorem ofSource_edits :
    (∀ pre l post, (∀ x ∈ pre ++ l :: post, '\n' ∉ x) →
      Line.IsIdle l → ofSource (joined (pre ++ l :: post)) =
        (ofSource (joined (pre ++ post))).mapError (.renumber (numberAfterInsert pre.length)) ∧
      ofSource (joined (pre ++ post)) =
        (ofSource (joined (pre ++ l :: post))).mapError
          (.renumber (numberAfterDelete pre.length))) ∧
    (∀ pre l post l' d d', AreSound (pre ++ l :: post) → Line.Reads l (.directive d) → l' ∈ post →
      Line.Reads l' (.directive d') → d.sameKind d' = true →
      ofSource (joined (pre ++ post)) = ofSource (joined (pre ++ l :: post))) ∧
    (∀ pre l mid post d, AreSound (pre ++ l :: (mid ++ post)) → Line.Reads l (.directive d) →
      (∀ x ∈ mid, ∀ d', Line.Reads x (.directive d') → d.sameKind d' = false) →
      ofSource (joined (pre ++ (mid ++ l :: post))) =
        ofSource (joined (pre ++ l :: (mid ++ post)))) ∧
    (∀ ls ls' ms ms', (∀ x ∈ ls, '\n' ∉ x) → (∀ x ∈ ls', '\n' ∉ x) → Mean ls ms → Mean ls' ms' →
      Line.gates ms = Line.gates ms' → Line.last? Line.width? ms = Line.last? Line.width? ms' →
      Line.last? Line.name? ms = Line.last? Line.name? ms' →
      Line.last? Line.description? ms = Line.last? Line.description? ms' →
      ofSource (joined ls) = ofSource (joined ls')) ∧
    (∀ ls c, (∀ x ∈ ls, '\n' ∉ x) → ofSource (joined ls) = .ok c → ∃ ms, Mean ls ms) := by
  refine ⟨fun pre l post hlf hl => ⟨ofSource_insert_idle hlf hl, ofSource_delete_idle hlf hl⟩,
    fun _ _ _ _ _ _ => ofSource_delete_directive, fun _ _ _ _ _ => ofSource_move_directive,
    fun ls ls' ms ms' hlf hlf' hms hms' hgates hwidth hname hdescription => ?_,
    fun _ _ => exists_mean_of_ofSource⟩
  rw [ofSource_of_mean hlf hms, ofSource_of_mean hlf' hms',
    Program.ofLines_congr hgates hwidth hname hdescription]

/-- A comment moves a fault from the third line to the fourth; a name that is given again later, and
the place of a name among gates and widths, make no difference. -/
theorem ofSource_edits_named_pair :
    ofSource "qubits 2\r\n// pair\nH(0)\nX(4294967296)" =
      .error (.literalTooLarge 4 "4294967296") ∧
    ofSource "NAME \"b\"\nH(0)\nname \"a\"" = ofSource "H(0)\nname \"a\"" ∧
    ofSource "H(0)\nname \"a\"" = ofSource "name \"a\"\nH(0)" := by
  have hpair : Line.IsIdle "// pair".toList := ⟨.comment, ⟨1, by decide +kernel⟩, .inr (.inl rfl)⟩
  have hb : Line.Reads "NAME \"b\"".toList (.directive (.name "b")) := ⟨1, by decide +kernel⟩
  have ha : Line.Reads "name \"a\"".toList (.directive (.name "a")) := ⟨1, by decide +kernel⟩
  have hgate : Line.Reads "H(0)".toList (.gate (.one .h ⟨0⟩)) := ⟨1, by decide +kernel⟩
  have hsound : AreSound ["NAME \"b\"".toList, "H(0)".toList, "name \"a\"".toList] := by
    simp only [AreSound, List.forall_mem_cons]
    exact ⟨⟨by decide, _, hb⟩, ⟨by decide, _, hgate⟩, ⟨by decide, _, ha⟩, by simp⟩
  have hsound' : AreSound ["name \"a\"".toList, "H(0)".toList] := by
    simp only [AreSound, List.forall_mem_cons]
    exact ⟨⟨by decide, _, ha⟩, ⟨by decide, _, hgate⟩, by simp⟩
  have hgateFirst : joined ["H(0)".toList, "name \"a\"".toList] = "H(0)\nname \"a\"" := rfl
  refine ⟨?insert, ?delete, ?move⟩
  case insert =>
    have hfault : ofSource "qubits 2\r\nH(0)\nX(4294967296)" =
        .error (.literalTooLarge 3 "4294967296") := by decide +kernel
    have hinsert := (ofSource_edits.1 ["qubits 2\r".toList] "// pair".toList
      ["H(0)".toList, "X(4294967296)".toList] (by decide) hpair).1
    refine hinsert.trans ?_
    show (ofSource "qubits 2\r\nH(0)\nX(4294967296)").mapError _ = _
    rw [hfault]
    rfl
  case delete =>
    have hlong : joined ["NAME \"b\"".toList, "H(0)".toList, "name \"a\"".toList] =
      "NAME \"b\"\nH(0)\nname \"a\"" := rfl
    rw [← hlong, ← hgateFirst]
    exact (ofSource_edits.2.1 [] _ _ _ _ _ hsound hb (by simp) ha rfl).symm
  case move =>
    have hnameFirst : joined ["name \"a\"".toList, "H(0)".toList] = "name \"a\"\nH(0)" := rfl
    rw [← hgateFirst, ← hnameFirst]
    refine ofSource_edits.2.2.1 [] _ ["H(0)".toList] [] _ hsound' ha fun x hx d' hread => ?_
    obtain rfl : x = "H(0)".toList := by simpa using hx
    cases hread.unique hgate

end Circuit

end Statevector
