import Mathlib.Logic.Equiv.Basic
import Statevector.Proofs.State.Trail

/-!
# Renaming qubits

A permutation `p` of the qubits below `n` renames the operands of gates, and moves bit `q` of a
basis index to bit `p q`.

* `permuteBits`: a basis index with its bits moved; `State.permute`, `Qubit.permute`,
  `Gate.permute`: a state with its amplitudes moved along, a qubit and a gate renamed;
* `State.IsFull.getElem?_permute`: where a renamed state has its amplitudes;
* `Gate.act_permute`: a renamed gate does to moved amplitudes what the gate does to the amplitudes;
* **`State.IsFull.apply_permute`**, **`State.Trail.permute`**: one gate, and a list of gates;
  `State.IsFull.apply_permute_cases`: the gates that do not fit.
-/

namespace Statevector

variable {α : Type} {n : Nat} (p : Equiv.Perm (Fin n))

/-! ## Basis indices -/

/-- Where a permutation of `n` qubits takes a basis index: bit `q` goes to bit `p q`. -/
def permuteBits (i : Nat) : Nat := Nat.ofBits fun j : Fin n => i.testBit (p.symm j)

theorem permuteBits_lt (i : Nat) : permuteBits p i < 2 ^ n := Nat.ofBits_lt_two_pow _

theorem testBit_permuteBits (i : Nat) (q : Fin n) :
    (permuteBits p i).testBit (p q) = i.testBit q := by
  rw [permuteBits, Nat.testBit_ofBits_lt _ _ (p q).isLt, Fin.eta, p.symm_apply_apply]

theorem testBit_permuteBits_symm (i : Nat) (q : Fin n) :
    (permuteBits p.symm i).testBit q = i.testBit (p q) := by
  simpa using testBit_permuteBits p.symm i (p q)

/-- Two indices are equal if they have the same bits below `n`, and no others. -/
theorem eq_of_testBit_lt {i j : Nat} (hi : i < 2 ^ n) (hj : j < 2 ^ n)
    (h : ∀ q : Fin n, i.testBit q = j.testBit q) : i = j := by
  apply Nat.eq_of_testBit_eq
  intro q
  by_cases hq : q < n
  · exact h ⟨q, hq⟩
  · have hle : 2 ^ n ≤ 2 ^ q := Nat.pow_le_pow_right (by decide) (Nat.not_lt.mp hq)
    rw [Nat.testBit_lt_two_pow (hi.trans_le hle), Nat.testBit_lt_two_pow (hj.trans_le hle)]

theorem permuteBits_symm_permuteBits {i : Nat} (hi : i < 2 ^ n) :
    permuteBits p.symm (permuteBits p i) = i := by
  refine eq_of_testBit_lt (permuteBits_lt _ _) hi fun q => ?_
  rw [testBit_permuteBits_symm, testBit_permuteBits]

theorem permuteBits_flipBit (i : Nat) (q : Fin n) :
    permuteBits p.symm (flipBit (p q) i) = flipBit q (permuteBits p.symm i) := by
  refine eq_of_testBit_lt (permuteBits_lt _ _) (flipBit_lt q.isLt (permuteBits_lt _ _)) fun r => ?_
  rw [testBit_permuteBits_symm, testBit_flipBit, testBit_flipBit, testBit_permuteBits_symm]
  have hiff : ((p q : Fin n) : Nat) = p r ↔ (q : Nat) = r := by
    rw [Fin.val_inj, p.injective.eq_iff, Fin.val_inj]
  simp only [hiff]

theorem permuteBits_eq_zero_iff {i : Nat} (hi : i < 2 ^ n) : permuteBits p i = 0 ↔ i = 0 := by
  have hzero : permuteBits p 0 = 0 :=
    eq_of_testBit_lt (permuteBits_lt _ _) (Nat.two_pow_pos n) fun q => by
      simpa using testBit_permuteBits p 0 (p.symm q)
  constructor
  · intro h
    have hback := permuteBits_symm_permuteBits p hi
    rw [h, ← hzero, permuteBits_symm_permuteBits p (Nat.two_pow_pos n)] at hback
    exact hback.symm
  · rintro rfl
    exact hzero

/-! ## Qubits, gates and states -/

/-- A qubit renamed; those that the permutation does not know keep their names. -/
def Qubit.permute (q : Qubit) : Qubit :=
  if h : q.index.toNat < n then ⟨UInt32.ofNat (p ⟨q.index.toNat, h⟩)⟩ else q

/-- A gate with its operands renamed. -/
def Gate.permute : Gate → Gate
  | .one k q => .one k (q.permute p)
  | .two k a b => .two k (a.permute p) (b.map (Qubit.permute p))

/-- A state with the amplitude at every index moved to where the permutation takes the index. -/
def State.permute (s : State α) : State α :=
  ⟨s.width, s.amplitudes.mapIdx fun i a => s.amplitudes.getD (permuteBits p.symm i) a⟩

variable {p}

/-- The qubits of a state have 32-bit names. -/
theorem le_size_of_lt_indexBits (h : n < indexBits) : n ≤ UInt32.size := h.le.trans (by decide)

theorem Qubit.index_permute (hn : n ≤ UInt32.size) {q : Qubit} (hq : q.index.toNat < n) :
    (q.permute p).index.toNat = p ⟨q.index.toNat, hq⟩ := by
  rw [permute, dif_pos hq]
  exact UInt32.toNat_ofNat_of_lt' ((p _).isLt.trans_le hn)

theorem Qubit.permute_inj (hn : n ≤ UInt32.size) {a b : Qubit} (ha : a.index.toNat < n)
    (hb : b.index.toNat < n) : a.permute p = b.permute p ↔ a = b := by
  refine ⟨fun h => ?_, fun h => by rw [h]⟩
  have hindex := congrArg (fun q : Qubit => q.index.toNat) h
  simp only [index_permute hn ha, index_permute hn hb, Fin.val_inj, p.injective.eq_iff,
    Fin.mk.injEq, UInt32.toNat_inj] at hindex
  exact congrArg Qubit.mk hindex

/-! ## Gates that fit -/

namespace Gate

@[simp] theorem kind_permute (g : Gate) : (g.permute p).kind = g.kind := by
  cases g <;> rfl

theorem qubits_permute (g : Gate) : (g.permute p).qubits = g.qubits.map (Qubit.permute p) := by
  match g with
  | one _ _ | two _ _ none | two _ _ (some _) => rfl

theorem repeated?_permute (hn : n ≤ UInt32.size) {g : Gate}
    (hg : ∀ q ∈ g.qubits, q.index.toNat < n) :
    (g.permute p).repeated? = g.repeated?.map (Qubit.permute p) := by
  match g with
  | one _ _ | two _ _ none => rfl
  | two _ a (some b) =>
    have hiff : a.permute p = b.permute p ↔ a = b :=
      Qubit.permute_inj hn (hg a (by simp [qubits])) (hg b (by simp [qubits]))
    simp only [permute, repeated?, Option.map_some, hiff]
    split <;> rfl

theorem Fits.permute (hn : n ≤ UInt32.size) {g : Gate} (hg : g.Fits n) : (g.permute p).Fits n := by
  refine ⟨?_, by rw [repeated?_permute hn hg.lt, hg.repeated, Option.map_none]⟩
  rw [qubits_permute, List.forall_mem_map]
  intro q hq
  rw [Qubit.index_permute hn (hg.lt q hq)]
  exact (p _).isLt

variable [Add α] [Sub α] [Mul α] [Neg α] [HalfRoot α]

theorem permute_eq_map (g : Gate) : g.permute p = g.map (Qubit.permute p) := by
  cases g <;> rfl

/-- **A renamed gate does to the moved amplitudes what the gate does to the amplitudes.** -/
theorem act_permute (hn : n ≤ UInt32.size) {g : Gate} (hg : ∀ q ∈ g.qubits, q.index.toNat < n)
    (f : Nat → Amplitude α) :
    (g.permute p).act (f ∘ permuteBits p.symm) = g.act f ∘ permuteBits p.symm := by
  rw [permute_eq_map]
  refine act_map (fun q hq i => ?_) (fun q hq i => ?_) f
  · rw [Qubit.index_permute hn (hg q hq), ← testBit_permuteBits_symm]
  · rw [Qubit.index_permute hn (hg q hq), permuteBits_flipBit]

end Gate

/-! ## States -/

namespace State

theorem permute_ofFn (f : Nat → Amplitude α) :
    (ofFn n f).permute p = ofFn n (f ∘ permuteBits p.symm) := by
  refine congrArg (State.mk n) ?_
  apply Array.ext
  · simp
  · intro i hi hi'
    have hlt : permuteBits p.symm i < 2 ^ n := permuteBits_lt p.symm i
    simp [ofFn, Kernel.tabulate, hlt]

/-- The amplitude at an index is moved to where the permutation takes the index. -/
theorem IsFull.getElem?_permute {s : State α} (hs : s.IsFull) (hn : s.width = n) {k : Nat}
    (hk : k < 2 ^ n) : (s.permute p).amplitudes[permuteBits p k]? = s.amplitudes[k]? := by
  obtain ⟨f, rfl⟩ := hs.exists_ofFn_of_width hn
  calc ((ofFn n f).permute p).amplitudes[permuteBits p k]?
      = (ofFn n (f ∘ permuteBits p.symm)).amplitudes[permuteBits p k]? := by rw [permute_ofFn]
    _ = some (f (permuteBits p.symm (permuteBits p k))) :=
      Kernel.getElem?_tabulate _ (permuteBits_lt p k)
    _ = some (f k) := by rw [permuteBits_symm_permuteBits p hk]
    _ = (ofFn n f).amplitudes[k]? := (Kernel.getElem?_tabulate f hk).symm

/-- Renaming qubits changes nothing while all of them read zero. -/
theorem permute_ground [Zero α] [One α] : (ground n : State α).permute p = ground n := by
  rw [ground_eq_ofFn, permute_ofFn]
  refine congrArg (State.mk n) (Kernel.tabulate_congr fun i hi => ?_)
  simp only [Function.comp, permuteBits_eq_zero_iff p.symm hi]

variable [Add α] [Sub α] [Mul α] [Neg α] [HalfRoot α]

/-- **A gate that fits leads from the renamed state to the renamed next state.** -/
theorem IsFull.apply_permute {s t : State α} (hs : s.IsFull) (hn : s.width = n) {g : Gate}
    (hg : g.Fits n) (h : s.apply g = .ok t) :
    (s.permute p).apply (g.permute p) = .ok (t.permute p) := by
  have hlt : n < indexBits := hn ▸ hs.1
  have hsize : n ≤ UInt32.size := le_size_of_lt_indexBits hlt
  obtain ⟨f, rfl⟩ := hs.exists_ofFn_of_width hn
  rw [apply_ofFn hlt f hg] at h
  cases h
  rw [permute_ofFn, permute_ofFn, apply_ofFn hlt _ (hg.permute hsize),
    Gate.act_permute hsize hg.lt]

/-- **Renamed gates lead through the renamed states.** -/
theorem Trail.permute {s : State α} {gs : List Gate} {ts : List (State α)} (h : Trail s gs ts)
    (hs : s.IsFull) (hn : s.width = n) (hg : ∀ g ∈ gs, g.Fits n) :
    Trail (s.permute p) (gs.map (Gate.permute p)) (ts.map (State.permute p)) := by
  induction h with
  | nil s => exact .nil _
  | cons happly _ ih =>
    rw [List.forall_mem_cons] at hg
    obtain ⟨hfull, hwidth⟩ := hs.of_apply happly
    exact .cons (hs.apply_permute hn hg.1 happly) (ih hfull (hwidth.trans hn) hg.2)

/-- A gate with operands that a state has fits it, lacks its second operand, or names one qubit
twice; the same is true of the renamed gate. -/
theorem IsFull.apply_permute_cases {s : State α} (hs : s.IsFull) (hn : s.width = n) {g : Gate}
    (hg : ∀ q ∈ g.qubits, q.index.toNat < n) :
    (∃ t, s.apply g = .ok t ∧ (s.permute p).apply (g.permute p) = .ok (t.permute p)) ∨
    (∃ q ∈ g.qubits, s.apply g = .error (.repeatedQubit g.kind q) ∧
      (s.permute p).apply (g.permute p) = .error (.repeatedQubit g.kind (q.permute p))) := by
  have hsize : n ≤ UInt32.size := le_size_of_lt_indexBits (hn ▸ hs.1)
  cases hrep : g.repeated? with
  | none =>
    obtain ⟨t, ht⟩ := hs.exists_apply (g := g) (hn ▸ ⟨hg, hrep⟩)
    exact .inl ⟨t, ht, hs.apply_permute hn ⟨hg, hrep⟩ ht⟩
  | some q =>
    have hrep' : (g.permute p).repeated? = some (q.permute p) := by
      rw [Gate.repeated?_permute hsize hg, hrep, Option.map_some]
    refine .inr ⟨q, g.mem_qubits_of_repeated? hrep, apply_of_repeated? s hrep, ?_⟩
    rw [apply_of_repeated? _ hrep', Gate.kind_permute]

end State

end Statevector
