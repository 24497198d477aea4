import Statevector.Circuit.Document
import Statevector.Proofs.Json.Tokens

/-!
# Circuits and their documents

* `Value.IsPlain`, `Value.IsRecord`: objects that hold some fields, in any order, and plain values
  under names that are not known; `Value.IsRecord.fields?_eq`, `Value.IsRecord.exists_tagged?`: what
  is read from them;
* `Gate.IsLayout`, `Placed.IsLayout`, `Circuit.IsLayout`: the records of a gate and of a circuit;
  `Gate.ofJson?_of_isLayout`, `Placed.ofJson?_of_isLayout`, `Circuit.ofJson?_of_isLayout`: all of
  them are read as that gate and that circuit;
* `Circuit.IsDocument`: the texts that spell such a record; **`Circuit.ofDocument?_of_isDocument`**:
  the circuit of a document is read back from all of them.
-/

namespace Statevector

open Json Text

namespace Json

theorem symbolsText?_textSymbols (s : String) : symbolsText? (textSymbols s) = some s := by
  have hchars (cs : List Char) : (cs.map Symbol.char).mapM Symbol.char? = some cs := by
    induction cs with
    | nil => rfl
    | cons c cs ih => simp [ih, Symbol.char?]
  rw [symbolsText?, textSymbols, hchars, Option.map_some, String.ofList_toList]

theorem textSymbols_inj {s t : String} : textSymbols s = textSymbols t ↔ s = t := by
  constructor
  · intro h
    have htext := congrArg symbolsText? h
    rwa [symbolsText?_textSymbols, symbolsText?_textSymbols, Option.some_inj] at htext
  · exact congrArg textSymbols

namespace Value

@[simp] theorem text?_ofString (s : String) : (ofString s).text? = some s :=
  symbolsText?_textSymbols s

@[simp] theorem choice?_ofString (s : String) : (ofString s).choice? = some s :=
  symbolsText?_textSymbols s

@[simp] theorem word32?_ofWord (w : UInt32) : (ofWord w).word32? = some w := by
  simp [ofWord, ofNat, word32?, Number.ofNat, Number.natural?, numeralValue_numeral, word32?_toNat]

/-! ## Plain values -/

/-- The values that may stand under a name that is not known: null, truth values, texts, and
integers whose absolute value fits 64 bits. -/
inductive IsPlain : Value → Prop
  | null : IsPlain null
  | bool (b : Bool) : IsPlain (bool b)
  | text (s : String) : IsPlain (ofString s)
  | integer (negative : Bool) {n : Nat} (h : n < UInt64.size) :
      IsPlain (number { negative, whole := numeral n })

theorem isPlain_ofWord (w : UInt32) : (ofWord w).IsPlain :=
  .integer false (w.toNat_lt.trans (by decide))

theorem dropWhile_numeral {n : Nat} (hn : n ≠ 0) :
    (numeral n).dropWhile (· == '0') = numeral n := by
  cases hds : numeral n with
  | nil => rfl
  | cons d ds =>
    refine List.dropWhile_cons_of_neg fun hd => hn (eq_zero_of_head?_numeral ?_)
    rw [hds, eq_of_beq hd, List.head?_cons]

theorem isFinite_integer (negative : Bool) {n : Nat} (h : n < UInt64.size) :
    ({ negative, whole := numeral n } : Number).isFinite = true := by
  have hscale : ({ negative, whole := numeral n } : Number).scale = 0 := rfl
  by_cases hn : n = 0
  · subst hn
    rfl
  · have hlen : (numeral n).length ≤ 20 :=
      (Nat.length_toDigits_le_iff (by decide) (by decide)).mpr (h.trans (by decide))
    have hbound : UInt64.size ≤ (1 <<< 1024) - (1 <<< 970) := by decide
    simp only [Number.isFinite, hscale, Option.getD_none, List.append_nil, dropWhile_numeral hn,
      numeralValue_numeral]
    split
    · rfl
    · rw [if_neg (by omega), if_pos (Int.le_refl 0)]
      simp only [Int.toNat_zero, Nat.pow_eq, Nat.pow_zero, Nat.mul_one, decide_eq_true_eq]
      exact h.trans_le hbound

namespace IsPlain

variable {v : Value}

theorem isSound (h : v.IsPlain) : v.isSound = true := by
  cases h with
  | null => rfl
  | bool b => rfl
  | text s => rw [ofString, Value.isSound, symbolsText?_textSymbols, Option.isSome_some]
  | integer negative hn => exact isFinite_integer negative hn

theorem depth_eq (h : v.IsPlain) : v.depth = 0 := by
  cases h <;> rfl

end IsPlain

/-! ## Records -/

/-- The object holds the given fields, in any order, and besides them only plain values under names
that are not known. -/
def IsRecord (known : List String) (fields : List (String × Value)) (v : Value) : Prop :=
  ∃ ms extra, v = ofMembers ms ∧ ms.Perm (fields ++ extra) ∧ ∀ m ∈ extra, m.1 ∉ known ∧ m.2.IsPlain

theorem hasName_named (name : String) (m : String × Value) :
    hasName name (textSymbols m.1, m.2) = (m.1 == name) := by
  rw [hasName, Bool.eq_iff_iff, beq_iff_eq, beq_iff_eq, textSymbols_inj]

theorem filter_hasName_named (name : String) (ms : List (String × Value)) :
    (named ms).filter (hasName name) = named (ms.filter (·.1 == name)) := by
  rw [named, List.filter_map]
  exact congrArg named (List.filter_congr fun m _ => hasName_named name m)

theorem filter_eq_lookup {fields : List (String × Value)} (h : (fields.map Prod.fst).Nodup)
    (name : String) :
    fields.filter (·.1 == name) = (fields.lookup name).toList.map fun v => (name, v) := by
  induction fields with
  | nil => rfl
  | cons m fields ih =>
    obtain ⟨key, v⟩ := m
    obtain ⟨hkey, hfields⟩ := List.nodup_cons.mp h
    rw [List.lookup_cons]
    by_cases hname : name = key
    · subst hname
      have hnone : fields.filter (·.1 == name) = [] := by
        refine List.filter_eq_nil_iff.mpr fun m hm hbeq => hkey ?_
        exact List.mem_map.mpr ⟨m, hm, eq_of_beq hbeq⟩
      simp [hnone]
    · have hne : (name == key) = false := beq_false_of_ne hname
      rw [List.filter_cons_of_neg (by simpa using Ne.symm hname), hne, ih hfields]

theorem tagged?_of_member? {members : List (List Symbol × Value)} {tag text : String} {v : Value}
    (h : member? members tag = some (some v)) (htext : v.text? = some text) :
    (object members).tagged? tag =
      some (text, object (members.filter fun m => !hasName tag m)) := by
  simp [tagged?, h, htext]

namespace IsRecord

variable {known : List String} {fields : List (String × Value)} {v : Value}

/-- The fields themselves make a record, in the order in which they are given. -/
theorem ofMembers_self (known : List String) (fields : List (String × Value)) :
    (ofMembers fields).IsRecord known fields :=
  ⟨fields, [], rfl, by rw [List.append_nil], fun _ hm => (List.not_mem_nil hm).elim⟩

/-- Under a known name there is what the fields have there, and nothing else. -/
theorem member?_eq {ms extra : List (String × Value)} (hperm : ms.Perm (fields ++ extra))
    (hextra : ∀ m ∈ extra, m.1 ∉ known ∧ m.2.IsPlain) (hnodup : (fields.map Prod.fst).Nodup)
    {name : String} (hname : name ∈ known) :
    member? (named ms) name = some (fields.lookup name) := by
  have hnone : extra.filter (·.1 == name) = [] := by
    refine List.filter_eq_nil_iff.mpr fun m hm hbeq => (hextra m hm).1 ?_
    rwa [eq_of_beq hbeq]
  have hfilter := hperm.filter (·.1 == name)
  rw [List.filter_append, hnone, List.append_nil, filter_eq_lookup hnodup] at hfilter
  rw [member?, filter_hasName_named]
  cases hlookup : fields.lookup name with
  | none =>
    rw [hlookup] at hfilter
    rw [List.perm_nil.mp hfilter]
    rfl
  | some v =>
    rw [hlookup] at hfilter
    rw [List.perm_singleton.mp hfilter]
    rfl

/-- The value of a field, if it may be read or is optional. -/
def field? (fields : List (String × Value)) (name : String × Bool) : Option Value :=
  match fields.lookup name.1 with
  | some v => some v
  | none => if name.2 then some null else none

/-- What is read from a record is what its fields are, whatever stands around them. -/
theorem fields?_eq (h : v.IsRecord known fields) (hnodup : (fields.map Prod.fst).Nodup)
    {names : List (String × Bool)} (hnames : ∀ n ∈ names, n.1 ∈ known) :
    v.fields? names = names.mapM (field? fields) := by
  obtain ⟨ms, extra, rfl, hperm, hextra⟩ := h
  have htexts : (named ms).all (fun m => (symbolsText? m.1).isSome) = true := by
    simp [named, symbolsText?_textSymbols]
  change (if (named ms).all (fun m => (symbolsText? m.1).isSome) then _ else none) = _
  rw [if_pos htexts]
  induction names with
  | nil => rfl
  | cons n names ih =>
    obtain ⟨name, optional⟩ := n
    have hmember : member? (ms.map fun m => (textSymbols m.1, m.2)) name = _ :=
      member?_eq hperm hextra hnodup (hnames (name, optional) List.mem_cons_self)
    have hnames' : ∀ n ∈ names, n.1 ∈ known := fun n hn => hnames n (List.mem_cons_of_mem _ hn)
    rw [List.mapM_cons, List.mapM_cons, ih hnames']
    simp only [hmember, Option.bind_eq_bind, Option.bind_some]
    rfl

/-- The tag of a record, and a record of the other fields. -/
theorem exists_tagged? {tag text : String}
    (h : v.IsRecord known ((tag, ofString text) :: fields))
    (hnodup : (tag :: fields.map Prod.fst).Nodup) (hknown : tag ∈ known) :
    ∃ v', v.tagged? tag = some (text, v') ∧ v'.IsRecord known fields := by
  obtain ⟨ms, extra, rfl, hperm, hextra⟩ := h
  have hmember : member? (named ms) tag = some (some (ofString text)) := by
    rw [member?_eq hperm hextra hnodup hknown, List.lookup_cons_self]
  have hothers : (named ms).filter (fun m => !hasName tag m) =
      named (ms.filter fun m => !(m.1 == tag)) := by
    rw [named, List.filter_map]
    exact congrArg named (List.filter_congr fun m _ => congrArg (!·) (hasName_named tag m))
  have hfields : fields.filter (fun m => !(m.1 == tag)) = fields := by
    refine List.filter_eq_self.mpr fun m hm => ?_
    have hne : m.1 ≠ tag := fun heq =>
      (List.nodup_cons.mp hnodup).1 (heq ▸ List.mem_map_of_mem hm)
    simpa using hne
  have hperm' := hperm.filter fun m => !(m.1 == tag)
  rw [List.filter_append, List.filter_cons_of_neg (by simp), hfields] at hperm'
  refine ⟨ofMembers (ms.filter fun m => !(m.1 == tag)), ?_, _, _, rfl, hperm',
    fun m hm => hextra m (List.mem_filter.mp hm).1⟩
  exact (tagged?_of_member? hmember (text?_ofString text)).trans (by rw [hothers]; rfl)

/-- A record of plain values is sound and holds no containers. -/
theorem isSound_and_depth_eq (h : v.IsRecord known fields) (hfields : ∀ m ∈ fields, m.2.IsPlain) :
    v.isSound = true ∧ v.depth = 1 := by
  obtain ⟨ms, extra, rfl, hperm, hextra⟩ := h
  have hplain : ∀ m ∈ ms, m.2.IsPlain := fun m hm => by
    rcases List.mem_append.mp (hperm.mem_iff.mp hm) with hm | hm
    · exact hfields m hm
    · exact (hextra m hm).2
  have hmembers : areSoundMembers (named ms) = true ∧ depthMembers (named ms) = 0 := by
    clear hperm
    induction ms with
    | nil => exact ⟨rfl, rfl⟩
    | cons m ms ih =>
      obtain ⟨hsound, hdepth⟩ := ih fun m hm => hplain m (List.mem_cons_of_mem _ hm)
      have hm := hplain m List.mem_cons_self
      constructor
      · change ((symbolsText? (textSymbols m.1)).isSome && m.2.isSound && _) = true
        rw [symbolsText?_textSymbols, hm.isSound]
        exact hsound
      · change max m.2.depth _ = 0
        rw [hm.depth_eq]
        exact (Nat.zero_max _).trans hdepth
  exact ⟨hmembers.1, congrArg (· + 1) hmembers.2⟩

end IsRecord

end Value

end Json

/-! ## Gates -/

/-- The records of a gate. A missing second operand is null or left out, and `target` is a known
name all the same. -/
def Gate.IsLayout : Gate → Value → Prop
  | one k q, v => v.IsRecord ["arity", "kind", "qubit"]
      [("arity", .ofString "single"), ("kind", .ofString k.documentName),
        ("qubit", .ofWord q.index)]
  | two k a (some b), v => v.IsRecord ["arity", "kind", "control", "target"]
      [("arity", .ofString "two"), ("kind", .ofString k.documentName),
        ("control", .ofWord a.index), ("target", .ofWord b.index)]
  | two k a none, v =>
    v.IsRecord ["arity", "kind", "control", "target"]
      [("arity", .ofString "two"), ("kind", .ofString k.documentName),
        ("control", .ofWord a.index), ("target", .null)] ∨
    v.IsRecord ["arity", "kind", "control", "target"]
      [("arity", .ofString "two"), ("kind", .ofString k.documentName),
        ("control", .ofWord a.index)]

/-- The records of a gate at its position. -/
def Placed.IsLayout (p : Placed) (v : Value) : Prop :=
  ∃ op, p.gate.IsLayout op ∧
    v.IsRecord ["position", "op"] [("position", .ofWord p.position), ("op", op)]

/-- The records of a circuit. -/
def Circuit.IsLayout (c : Circuit) (v : Value) : Prop :=
  ∃ gates, List.Forall₂ Placed.IsLayout c.gates.toList gates ∧
    v.IsRecord ["name", "description", "num_qubits", "gates"]
      [("name", .ofString c.name), ("description", .ofString c.description),
        ("num_qubits", .ofWord c.width), ("gates", .array gates)]

theorem OneQubit.ofDocumentName?_documentName (k : OneQubit) :
    ofDocumentName? k.documentName = some k := by
  cases k <;> rfl

theorem TwoQubit.ofDocumentName?_documentName (k : TwoQubit) :
    ofDocumentName? k.documentName = some k := by
  cases k <;> rfl

theorem Qubit.ofOptionalJson?_ofWord (w : UInt32) :
    ofOptionalJson? (.ofWord w) = some (some ⟨w⟩) := by
  change (Value.ofWord w).word32?.map _ = _
  rw [Value.word32?_ofWord]
  rfl

/-- A tagged record of plain values is read as what its tag makes of its other fields. -/
theorem Gate.exists_ofJson?_eq {known : List String} {fields : List (String × Value)} {v : Value}
    {tag : String} (h : v.IsRecord known (("arity", .ofString tag) :: fields))
    (hnodup : ("arity" :: fields.map Prod.fst).Nodup) (hplain : ∀ m ∈ fields, m.2.IsPlain)
    (hknown : "arity" ∈ known) :
    ∃ v', v'.IsRecord known fields ∧ (tag = "single" → Gate.ofJson? v = Gate.oneOfJson? v') ∧
      (tag = "two" → Gate.ofJson? v = Gate.twoOfJson? v') := by
  obtain ⟨v', htagged, hv'⟩ := h.exists_tagged? hnodup hknown
  have hall : ∀ m ∈ ("arity", Value.ofString tag) :: fields, m.2.IsPlain :=
    List.forall_mem_cons.mpr ⟨.text tag, hplain⟩
  obtain ⟨hsound, hdepth⟩ := h.isSound_and_depth_eq hall
  refine ⟨v', hv', ?_, ?_⟩
  all_goals
    rintro rfl
    rw [ofJson?, hsound, hdepth, if_neg (by decide), htagged]
    rfl

theorem Gate.oneOfJson?_eq {v : Value} {k : OneQubit} {q : Qubit}
    (h : v.fields? [("kind", false), ("qubit", false)] =
      some [.ofString k.documentName, .ofWord q.index]) : Gate.oneOfJson? v = some (.one k q) := by
  simp [oneOfJson?, h, OneQubit.ofDocumentName?_documentName]

theorem Gate.twoOfJson?_eq {v target : Value} {k : TwoQubit} {a : Qubit} {b : Option Qubit}
    (h : v.fields? [("kind", false), ("control", false), ("target", true)] =
      some [.ofString k.documentName, .ofWord a.index, target])
    (htarget : Qubit.ofOptionalJson? target = some b) :
    Gate.twoOfJson? v = some (.two k a b) := by
  simp [twoOfJson?, h, htarget, TwoQubit.ofDocumentName?_documentName]

/-- **Every record of a gate is read as that gate.** -/
theorem Gate.ofJson?_of_isLayout {g : Gate} {v : Value} (h : g.IsLayout v) :
    Gate.ofJson? v = some g := by
  -- A second operand that is written is read the same way, whether it is null or not.
  have htwo {k : TwoQubit} {a : Qubit} {b : Option Qubit} {target : Value}
      (h : v.IsRecord ["arity", "kind", "control", "target"]
        [("arity", .ofString "two"), ("kind", .ofString k.documentName),
          ("control", .ofWord a.index), ("target", target)])
      (hplain : target.IsPlain) (htarget : Qubit.ofOptionalJson? target = some b) :
      Gate.ofJson? v = some (.two k a b) := by
    obtain ⟨v', hv', -, hread⟩ := Gate.exists_ofJson?_eq h (by simp)
      (by simp [Value.isPlain_ofWord, Value.IsPlain.text, hplain]) (by decide)
    rw [hread rfl]
    exact Gate.twoOfJson?_eq (hv'.fields?_eq (by simp) (by decide)) htarget
  cases g with
  | one k q =>
    obtain ⟨v', hv', hread, -⟩ := Gate.exists_ofJson?_eq h (by simp)
      (by simp [Value.isPlain_ofWord, Value.IsPlain.text]) (by decide)
    rw [hread rfl]
    exact Gate.oneOfJson?_eq (hv'.fields?_eq (by simp) (by decide))
  | two k a b =>
    cases b with
    | some b => exact htwo h (Value.isPlain_ofWord _) (Qubit.ofOptionalJson?_ofWord _)
    | none =>
      obtain h | h := h
      · exact htwo h .null rfl
      · obtain ⟨v', hv', -, hread⟩ := Gate.exists_ofJson?_eq h (by simp)
          (by simp [Value.isPlain_ofWord, Value.IsPlain.text]) (by decide)
        rw [hread rfl]
        have hnull : Qubit.ofOptionalJson? .null = some none := rfl
        exact Gate.twoOfJson?_eq (hv'.fields?_eq (by simp) (by decide)) hnull

/-! ## Circuits -/

theorem Placed.ofJson?_of_isLayout {p : Placed} {v : Value} (h : p.IsLayout v) :
    Placed.ofJson? v = some p := by
  obtain ⟨op, hop, hv⟩ := h
  have hfields : v.fields? [("position", false), ("op", false)] =
      some [.ofWord p.position, op] := hv.fields?_eq (by simp) (by decide)
  simp [ofJson?, hfields, Gate.ofJson?_of_isLayout hop]

theorem Placed.mapM_ofJson?_of_isLayout {ps : List Placed} {vs : List Value}
    (h : List.Forall₂ Placed.IsLayout ps vs) : vs.mapM Placed.ofJson? = some ps := by
  induction h with
  | nil => rfl
  | cons hp _ ih => simp [ofJson?_of_isLayout hp, ih]

namespace Circuit

/-- **Every record of a circuit is read as that circuit.** -/
theorem ofJson?_of_isLayout {c : Circuit} {v : Value} (h : c.IsLayout v) :
    Circuit.ofJson? v = some c := by
  obtain ⟨gates, hgates, hv⟩ := h
  have hfields : v.fields? [("name", false), ("description", false), ("num_qubits", false),
      ("gates", false)] = some [.ofString c.name, .ofString c.description, .ofWord c.width,
        .array gates] := hv.fields?_eq (by simp) (by decide)
  simp [ofJson?, hfields, Value.items?, Placed.mapM_ofJson?_of_isLayout hgates]

/-- The texts that spell a record of a circuit, with blanks around their tokens. -/
def IsDocument (c : Circuit) (text : String) : Prop :=
  ∃ v, c.IsLayout v ∧ IsSpaced v.tokens text.toList

end Circuit

/-! ## Written documents -/

theorem Gate.isLayout_toJson (g : Gate) : g.IsLayout g.toJson := by
  rcases g with ⟨k, q⟩ | ⟨k, a, _ | b⟩
  · exact Value.IsRecord.ofMembers_self _ _
  · exact .inl (Value.IsRecord.ofMembers_self _ _)
  · exact Value.IsRecord.ofMembers_self _ _

theorem Placed.isLayout_toJson (p : Placed) : p.IsLayout p.toJson :=
  ⟨_, p.gate.isLayout_toJson, Value.IsRecord.ofMembers_self _ _⟩

theorem Circuit.isLayout_toJson (c : Circuit) : c.IsLayout c.toJson := by
  refine ⟨_, ?_, Value.IsRecord.ofMembers_self _ _⟩
  rw [List.forall₂_map_right_iff, List.forall₂_same]
  exact fun p _ => p.isLayout_toJson

theorem Gate.isWritten_toJson (g : Gate) : g.toJson.IsWritten := by
  rcases g with ⟨k, q⟩ | ⟨k, a, _ | b⟩ <;> apply Value.isWritten_ofMembers <;>
    simp [Value.isWritten_ofString, Value.ofWord, Value.isWritten_ofNat, Value.isWritten_null]

theorem Placed.isWritten_toJson (p : Placed) : p.toJson.IsWritten := by
  apply Value.isWritten_ofMembers
  simp [Value.ofWord, Value.isWritten_ofNat, p.gate.isWritten_toJson]

theorem Circuit.isWritten_toJson (c : Circuit) : c.toJson.IsWritten := by
  have hgates : (Value.array (c.gates.toList.map Placed.toJson)).IsWritten := by
    apply Value.isWritten_array
    rw [List.forall_mem_map]
    exact fun p _ => p.isWritten_toJson
  apply Value.isWritten_ofMembers
  simp [Value.isWritten_ofString, Value.ofWord, Value.isWritten_ofNat, hgates]

namespace Circuit

theorem isDocument_of_isWritten {c : Circuit} {v : Value} (h : c.IsLayout v) (hv : v.IsWritten)
    {blanks : List Char} (hblanks : ∀ b ∈ blanks, Json.isBlank b = true) :
    c.IsDocument (String.ofList (blanks ++ v.compact)) := by
  refine ⟨v, h, ?_⟩
  rw [String.toList_ofList]
  exact hv.append_blanks hblanks

theorem isDocument_toDocument (c : Circuit) : c.IsDocument c.toDocument := by
  have hnone : ∀ b ∈ ([] : List Char), Json.isBlank b = true := by simp
  have h := isDocument_of_isWritten c.isLayout_toJson c.isWritten_toJson hnone
  rwa [List.nil_append] at h

/-- **A circuit is read back from its document**, and from every other text that spells one of its
records: the members of the circuit, of its gates and of their operations may stand in any order,
the tag of an operation anywhere among them; plain values may stand under unknown names; there may
be blanks between the tokens; and a second operand that is missing may be left out. -/
theorem ofDocument?_of_isDocument (c : Circuit) :
    ofDocument? c.toDocument = some c ∧ c.IsDocument c.toDocument ∧
      ∀ text, c.IsDocument text → ofDocument? text = some c := by
  have hread : ∀ text, c.IsDocument text → ofDocument? text = some c := by
    rintro text ⟨v, hv, htext⟩
    rw [ofDocument?, Value.parse?_of_isSpaced htext]
    exact ofJson?_of_isLayout hv
  exact ⟨hread _ c.isDocument_toDocument, c.isDocument_toDocument, hread⟩

/-- The members of all objects stand in the reverse of their usual order, there is one more in the
operation, which lacks its second operand, and the text starts on a new line. -/
theorem ofDocument?_of_isDocument_reversed : ∃ (c : Circuit) (v : Value),
    c = ⟨"a\"b", "", 1, #[⟨7, .two .swap ⟨2⟩ none⟩]⟩ ∧
    v = .ofMembers
      [("gates", .array
        [.ofMembers
          [("op", .ofMembers [("note", .null), ("control", .ofWord 2), ("kind", .ofString "Swap"),
            ("arity", .ofString "two")]),
          ("position", .ofWord 7)]]),
      ("num_qubits", .ofWord 1), ("description", .ofString ""), ("name", .ofString "a\"b")] ∧
    c.IsDocument (String.ofList ('\n' :: v.compact)) ∧
    ofDocument? (String.ofList ('\n' :: v.compact)) = some c := by
  have hrecord (known : List String) (fields extra : List (String × Value))
      (h : ∀ m ∈ extra, m.1 ∉ known ∧ m.2.IsPlain) :
      (Value.ofMembers (fields ++ extra).reverse).IsRecord known fields :=
    ⟨_, extra, rfl, List.reverse_perm _, h⟩
  have hdocument {c : Circuit} {v : Value} (h : c.IsLayout v) (hv : v.IsWritten) :
      c.IsDocument (String.ofList ('\n' :: v.compact)) ∧
        ofDocument? (String.ofList ('\n' :: v.compact)) = some c := by
    have htext := isDocument_of_isWritten h hv
      (List.forall_mem_singleton.mpr (rfl : Json.isBlank '\n' = true))
    exact ⟨htext, (ofDocument?_of_isDocument c).2.2 _ htext⟩
  have hop : (Gate.two .swap ⟨2⟩ none).IsLayout _ :=
    .inr (hrecord _ _ [("note", .null)] (by simp [Value.IsPlain.null]))
  have hgate : (⟨7, .two .swap ⟨2⟩ none⟩ : Placed).IsLayout _ :=
    ⟨_, hop, hrecord _ _ [] (by simp)⟩
  refine ⟨_, _, rfl, rfl, hdocument ⟨_, .cons hgate .nil, hrecord _ _ [] (by simp)⟩ ?written⟩
  case written =>
    refine Value.isWritten_ofMembers (List.forall_mem_cons.mpr ⟨Value.isWritten_array
      (List.forall_mem_singleton.mpr (Value.isWritten_ofMembers (List.forall_mem_cons.mpr
        ⟨Value.isWritten_ofMembers ?_, ?_⟩))), ?_⟩)
    all_goals simp [Value.isWritten_ofString, Value.ofWord, Value.isWritten_ofNat,
      Value.isWritten_null]

end Circuit

end Statevector
