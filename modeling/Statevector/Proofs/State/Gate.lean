import Statevector.Circuit.Validity
import Statevector.Proofs.State.Kernel

/-!
# What a gate does to the amplitudes

* `Gate.Fits`: the gates whose operands a state has, none of them twice;
* `Gate.act`: the amplitude that a gate leaves at an index, in terms of those it finds;
  `Gate.acts`: that which a list of gates leaves;
* **`Gate.act_map`**: a gate sees no more of an index than the bits of its operands;
* `State.ofFn`: the state with the amplitudes that a function gives; full states are of this form
  (`State.IsFull.exists_ofFn`);
* **`State.apply_ofFn`**, `State.foldlM_ofFn`: a gate that fits acts on every amplitude, and so do
  gates one after the other;
* `State.apply_ofFn_eq_error`: a gate that does not fit fails, unless it lacks an operand.
-/

namespace Statevector

variable {α : Type} {n : Nat}

/-! ## Gates that fit -/

/-- A gate fits `width` qubits if it names no others, and none of them twice. -/
structure Gate.Fits (g : Gate) (width : Nat) : Prop where
  lt : ∀ q ∈ g.qubits, q.index.toNat < width
  repeated : g.repeated? = none

instance (g : Gate) (width : Nat) : Decidable (g.Fits width) :=
  decidable_of_iff ((∀ q ∈ g.qubits, q.index.toNat < width) ∧ g.repeated? = none)
    ⟨fun h => ⟨h.1, h.2⟩, fun h => ⟨h.1, h.2⟩⟩

namespace Gate

theorem fits_one_iff {k : OneQubit} {q : Qubit} :
    (one k q).Fits n ↔ q.index.toNat < n :=
  ⟨fun h => h.lt q (by simp [qubits]), fun h => ⟨by simpa [qubits] using h, rfl⟩⟩

theorem repeated?_two_eq_none_iff {k : TwoQubit} {a b : Qubit} :
    (two k a (some b)).repeated? = none ↔ a ≠ b := by
  simp [repeated?]

theorem fits_two_iff {k : TwoQubit} {a b : Qubit} :
    (two k a (some b)).Fits n ↔ a ≠ b ∧ a.index.toNat < n ∧ b.index.toNat < n := by
  constructor
  · rintro ⟨hlt, hrep⟩
    exact ⟨repeated?_two_eq_none_iff.mp hrep, hlt a (by simp [qubits]), hlt b (by simp [qubits])⟩
  · rintro ⟨hne, ha, hb⟩
    exact ⟨by simp [qubits, ha, hb], repeated?_two_eq_none_iff.mpr hne⟩

theorem mem_qubits_of_repeated? {g : Gate} {q : Qubit} (h : g.repeated? = some q) :
    q ∈ g.qubits := by
  match g with
  | two _ a (some b) =>
    obtain ⟨-, ⟨⟩⟩ := Option.ite_none_right_eq_some.mp h
    exact List.mem_cons_self

theorem index_ne {a b : Qubit} (h : a ≠ b) : a.index.toNat ≠ b.index.toNat := fun e => by
  obtain ⟨i⟩ := a
  obtain ⟨j⟩ := b
  exact h (congrArg Qubit.mk (UInt32.toNat_inj.mp e))

/-! ## Actions -/

variable [Add α] [Sub α] [Mul α] [Neg α] [HalfRoot α]

/-- The amplitude that a gate leaves at an index. -/
def act (g : Gate) (f : Nat → Amplitude α) : Nat → Amplitude α :=
  match g with
  | one .h q => Kernel.onPairs Kernel.hadamardPair q.index.toNat f
  | one .x q => fun i => f (flipBit q.index.toNat i)
  | one .y q => Kernel.onPairs Kernel.pauliYPair q.index.toNat f
  | one .z q => fun i => if i.testBit q.index.toNat then -f i else f i
  | two .cnot a (some b) => fun i =>
    f (if i.testBit a.index.toNat then flipBit b.index.toNat i else i)
  | two .swap a (some b) => fun i =>
    f (if i.testBit a.index.toNat = i.testBit b.index.toNat then i
      else flipBit b.index.toNat (flipBit a.index.toNat i))
  | two _ _ none => f

/-- The amplitude that gates leave at an index, one after the other. -/
def acts (gs : List Gate) (f : Nat → Amplitude α) : Nat → Amplitude α :=
  gs.foldl (fun f g => g.act f) f

theorem acts_append (gs hs : List Gate) (f : Nat → Amplitude α) :
    acts (gs ++ hs) f = acts hs (acts gs f) := List.foldl_append

/-- A gate on other qubits. -/
def map (ρ : Qubit → Qubit) : Gate → Gate
  | one k q => one k (ρ q)
  | two k a b => two k (ρ a) (b.map ρ)

@[simp] theorem map_id (g : Gate) : g.map id = g := by
  cases g <;> simp [map]

/-- **A gate sees no more of an index than the bits of its operands.** Let `π` be a map of indices
that turns these bits into bits of other qubits. Then the gate on those qubits does to the amplitudes
read through `π` what the gate does to the amplitudes: each kernel only looks at bits of its operands
and flips them, and a pair keeps its order, since it is the bit that tells the two apart. -/
theorem act_map {g : Gate} {ρ : Qubit → Qubit} {π : Nat → Nat}
    (hbit : ∀ q ∈ g.qubits, ∀ i, i.testBit (ρ q).index.toNat = (π i).testBit q.index.toNat)
    (hflip : ∀ q ∈ g.qubits, ∀ i,
      π (flipBit (ρ q).index.toNat i) = flipBit q.index.toNat (π i)) (f : Nat → Amplitude α) :
    (g.map ρ).act (f ∘ π) = g.act f ∘ π := by
  funext i
  match g with
  | one k q =>
    have hq : q ∈ (one k q).qubits := List.mem_cons_self
    cases k <;> simp only [map, act, Kernel.onPairs, Function.comp, hbit q hq, hflip q hq]
  | two .cnot _ none | two .swap _ none => rfl
  | two k a (some b) =>
    have ha : a ∈ (two k a (some b)).qubits := List.mem_cons_self
    have hb : b ∈ (two k a (some b)).qubits := List.mem_cons_of_mem _ List.mem_cons_self
    cases k <;> simp only [map, act, Option.map_some, Function.comp, hbit a ha, hbit b hb] <;>
      split <;> simp only [hflip a ha, hflip b hb]

end Gate

/-! ## Gates on states -/

namespace State

/-- The state of `n` qubits with the amplitudes that a function gives. -/
def ofFn (n : Nat) (f : Nat → Amplitude α) : State α := ⟨n, Kernel.tabulate n f⟩

@[simp] theorem width_ofFn (n : Nat) (f : Nat → Amplitude α) : (ofFn n f).width = n := rfl

@[simp] theorem size_ofFn (n : Nat) (f : Nat → Amplitude α) :
    (ofFn n f).amplitudes.size = 2 ^ n := Kernel.size_tabulate n f

theorem isFull_ofFn (h : n < indexBits) (f : Nat → Amplitude α) : (ofFn n f).IsFull :=
  ⟨h, by rw [size_ofFn, width_ofFn, dimension_eq]⟩

theorem IsFull.size_eq {s : State α} (h : s.IsFull) : s.amplitudes.size = 2 ^ s.width :=
  h.2.trans (dimension_eq s.width)

theorem IsFull.exists_ofFn {s : State α} (h : s.IsFull) : ∃ f, s = ofFn s.width f := by
  obtain ⟨f, hf⟩ := Kernel.exists_tabulate h.size_eq
  exact ⟨f, by rw [ofFn, ← hf]⟩

theorem IsFull.exists_ofFn_of_width {s : State α} (hs : s.IsFull) (hn : s.width = n) :
    ∃ f, s = ofFn n f := by
  subst hn
  exact hs.exists_ofFn

theorem ofAmplitudes?_tabulate (h : n < indexBits) (f : Nat → Amplitude α) :
    ofAmplitudes? n (Kernel.tabulate n f) = .ok (ofFn n f) := by
  rw [ofAmplitudes?, Kernel.size_tabulate, Kernel.checkSize_two_pow h]
  rfl

variable [Add α] [Sub α] [Mul α] [Neg α] [HalfRoot α]

theorem apply_of_lacksOperand (s : State α) {g : Gate} (h : g.lacksOperand = true) :
    s.apply g = .ok s := by
  match g, h with
  | .two .cnot _ none, _ => rfl
  | .two .swap _ none, _ => rfl

/-- Every one-qubit kernel asks for the mask of its operand first. -/
theorem apply_one_eq_error {s : State α} {k : OneQubit} {q : Qubit} {e : Fault}
    (h : Kernel.operandMask s.amplitudes.size s.width (.one k) q = .error e) :
    s.apply (.one k q) = .error e := by
  cases k <;>
    simp [apply, amplitudesAfter?, Kernel.hadamard, Kernel.pauliX, Kernel.pauliY, Kernel.pauliZ,
      h] <;>
    rfl

/-- Both two-qubit kernels ask for the masks of their operands first. -/
theorem apply_two_eq_error {s : State α} {k : TwoQubit} {a b : Qubit} {e : Fault}
    (h : Kernel.operandMasks s.amplitudes.size s.width (.two k) a b = .error e) :
    s.apply (.two k a (some b)) = .error e := by
  cases k <;> simp [apply, amplitudesAfter?, Kernel.cnot, Kernel.swap, h] <;> rfl

/-- A gate that names one qubit twice fails on every state: this is checked first. -/
theorem apply_of_repeated? (s : State α) {g : Gate} {q : Qubit} (h : g.repeated? = some q) :
    s.apply g = .error (.repeatedQubit g.kind q) := by
  match g with
  | .two k a (some b) =>
    obtain ⟨hab, ⟨⟩⟩ := Option.ite_none_right_eq_some.mp h
    exact apply_two_eq_error (if_pos hab)

theorem amplitudesAfter?_ofFn (hn : n < indexBits) (f : Nat → Amplitude α) {g : Gate}
    (hg : g.Fits n) (hop : g.lacksOperand = false) :
    (ofFn n f).amplitudesAfter? g = some (.ok (Kernel.tabulate n (g.act f))) := by
  match g with
  | .one .h q => exact congrArg some (Kernel.hadamard_tabulate hn (Gate.fits_one_iff.mp hg) f)
  | .one .x q => exact congrArg some (Kernel.pauliX_tabulate hn (Gate.fits_one_iff.mp hg) f)
  | .one .y q => exact congrArg some (Kernel.pauliY_tabulate hn (Gate.fits_one_iff.mp hg) f)
  | .one .z q => exact congrArg some (Kernel.pauliZ_tabulate hn (Gate.fits_one_iff.mp hg) f)
  | .two .cnot a (some b) =>
    obtain ⟨hne, ha, hb⟩ := Gate.fits_two_iff.mp hg
    exact congrArg some (Kernel.cnot_tabulate hn hne ha hb f)
  | .two .swap a (some b) =>
    obtain ⟨hne, ha, hb⟩ := Gate.fits_two_iff.mp hg
    exact congrArg some (Kernel.swap_tabulate hn hne ha hb f)

/-- **A gate that fits acts on every amplitude.** -/
theorem apply_ofFn (hn : n < indexBits) (f : Nat → Amplitude α) {g : Gate} (hg : g.Fits n) :
    (ofFn n f).apply g = .ok (ofFn n (g.act f)) := by
  cases hop : g.lacksOperand with
  | true =>
    rw [apply_of_lacksOperand _ hop]
    match g, hop with
    | .two .cnot _ none, _ => rfl
    | .two .swap _ none, _ => rfl
  | false =>
    rw [apply, amplitudesAfter?_ofFn hn f hg hop]
    exact ofAmplitudes?_tabulate hn _

theorem foldlM_ofFn (hn : n < indexBits) (f : Nat → Amplitude α) {gs : List Gate}
    (hg : ∀ g ∈ gs, g.Fits n) : gs.foldlM apply (ofFn n f) = .ok (ofFn n (Gate.acts gs f)) := by
  induction gs generalizing f with
  | nil => rfl
  | cons g gs ih =>
    rw [List.forall_mem_cons] at hg
    rw [List.foldlM_cons, apply_ofFn hn f hg.1]
    exact ih (g.act f) hg.2

theorem foldlM_singleton (s : State α) (g : Gate) : [g].foldlM apply s = s.apply g := by
  rw [List.foldlM_cons]
  exact bind_pure _

/-- Two lists of gates that leave the same amplitudes lead to the same state. -/
theorem IsFull.exists_foldlM {s : State α} (hs : s.IsFull) {gs gs' : List Gate}
    (hg : ∀ g ∈ gs, g.Fits s.width) (hg' : ∀ g ∈ gs', g.Fits s.width)
    (h : ∀ f : Nat → Amplitude α, Gate.acts gs f = Gate.acts gs' f) :
    ∃ t, gs.foldlM apply s = .ok t ∧ gs'.foldlM apply s = .ok t := by
  obtain ⟨f, hf⟩ := hs.exists_ofFn
  rw [hf]
  exact ⟨_, foldlM_ofFn hs.1 f hg, by rw [foldlM_ofFn hs.1 f hg', h]⟩

/-- A gate that does not fit fails, unless it lacks an operand. -/
theorem apply_ofFn_eq_error (hn : n < indexBits) (f : Nat → Amplitude α) {g : Gate}
    (hg : ¬ g.Fits n) (hop : g.lacksOperand = false) : ∃ e, (ofFn n f).apply g = .error e := by
  match g with
  | .one k q =>
    have hq : n ≤ q.index.toNat := by rwa [Gate.fits_one_iff, Nat.not_lt] at hg
    refine ⟨.qubitOutOfRange q n (some (.one k)), apply_one_eq_error ?_⟩
    rw [size_ofFn]
    exact Kernel.operandMask_eq_error hn (.one k) hq
  | .two k a (some b) =>
    rw [Gate.fits_two_iff] at hg
    obtain ⟨e, he⟩ := Kernel.operandMasks_eq_error hn (.two k) hg
    refine ⟨e, apply_two_eq_error ?_⟩
    rw [size_ofFn]
    exact he

end State

end Statevector
