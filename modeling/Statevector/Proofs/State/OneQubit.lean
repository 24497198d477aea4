import Mathlib.Tactic.Ring
import Statevector.Proofs.State.Gate

/-!
# One-qubit gates as maps of pairs

Every one-qubit gate is a map of pairs of amplitudes, on all pairs of indices that differ in its
qubit.

* `OneQubit.onPair`: this map; **`Gate.act_one`**: it is all that the gate does;
  `OneQubit.pairAfter`, `Gate.acts_map_one`: the map of several gates on one qubit;
* `Kernel.onPairs_comp`: two maps on the same qubit are one map after the other on every pair;
* `Kernel.Interchange`: maps that act alike on the rows and then the columns of a square, or the
  other way round; **`Kernel.onPairs_comm`**: on different qubits they may change places;
* `OneQubit.interchange_of_neg_neg`, `OneQubit.interchange`: the maps of one-qubit gates are such.
-/

namespace Statevector

variable {α : Type}

namespace Kernel

/-! ## One qubit -/

/-- The map of an index depends on the amplitudes of its pair only. -/
theorem onPairs_congr (F : Amplitude α → Amplitude α → Amplitude α × Amplitude α)
    {a b : Nat → Amplitude α} {q i : Nat} (hself : a i = b i)
    (hpartner : a (flipBit q i) = b (flipBit q i)) : onPairs F q a i = onPairs F q b i := by
  simp only [onPairs, hself, hpartner]

/-- Two maps on the same qubit are one after the other on every pair. -/
theorem onPairs_comp (F G : Amplitude α → Amplitude α → Amplitude α × Amplitude α) (q : Nat)
    (a : Nat → Amplitude α) :
    onPairs G q (onPairs F q a) = onPairs (fun x y => G (F x y).1 (F x y).2) q a := by
  refine funext (forall_of_pairs q fun i hi => ⟨?_, ?_⟩)
  · rw [onPairs_of_clear G _ hi, onPairs_of_clear _ a hi, onPairs_flipBit F a hi,
      onPairs_of_clear _ a hi]
  · rw [onPairs_flipBit G _ hi, onPairs_of_clear F a hi, onPairs_flipBit F a hi,
      onPairs_flipBit _ a hi]

theorem onPairs_mk (q : Nat) (a : Nat → Amplitude α) : onPairs Prod.mk q a = a := by
  funext i
  unfold onPairs
  split <;> rfl

/-! ## Two qubits -/

/-- The half of a pair that belongs to the value of a bit. -/
def half (v : Bool) (p : Amplitude α × Amplitude α) : Amplitude α := if v then p.2 else p.1

/-- The pair of an index in terms of its lower and its upper index. -/
theorem onPairs_eq_half (F : Amplitude α → Amplitude α → Amplitude α × Amplitude α) (q : Nat)
    (a : Nat → Amplitude α) (i : Nat) : onPairs F q a i =
      half (i.testBit q) (F (a (writeBit q false i)) (a (writeBit q true i))) := by
  cases hi : i.testBit q with
  | false => rw [onPairs_of_clear F a hi, writeBit, writeBit, hi]; rfl
  | true => rw [onPairs_of_set F a hi, writeBit, writeBit, hi]; rfl

/-- Two maps of pairs interchange if in a square of amplitudes the rows may be mapped by the one
before the columns are mapped by the other, or after. -/
def Interchange (F G : Amplitude α → Amplitude α → Amplitude α × Amplitude α) : Prop :=
  ∀ (v w : Bool) (a b c d : Amplitude α),
    half v (F (half w (G a b)) (half w (G c d))) = half w (G (half v (F a c)) (half v (F b d)))

theorem Interchange.symm {F G : Amplitude α → Amplitude α → Amplitude α × Amplitude α}
    (h : Interchange F G) : Interchange G F := fun v w a b c d => (h w v a c b d).symm

/-- **Maps of pairs that interchange may change places on different qubits.** -/
theorem onPairs_comm {F G : Amplitude α → Amplitude α → Amplitude α × Amplitude α}
    (h : Interchange F G) {q r : Nat} (hqr : q ≠ r) (a : Nat → Amplitude α) :
    onPairs F q (onPairs G r a) = onPairs G r (onPairs F q a) := by
  funext i
  simp only [onPairs_eq_half, testBit_writeBit, if_neg hqr, if_neg hqr.symm,
    writeBit_comm hqr]
  exact h _ _ _ _ _ _

/-- A Hadamard gate sums and scales, so that it interchanges with every map that keeps sums and
scales. -/
theorem interchange_hadamardPair [Add α] [Sub α] [Mul α] [HalfRoot α]
    {G : Amplitude α → Amplitude α → Amplitude α × Amplitude α}
    (hadd : ∀ a b c d, G (a + c) (b + d) = ((G a b).1 + (G c d).1, (G a b).2 + (G c d).2))
    (hsub : ∀ a b c d, G (a - c) (b - d) = ((G a b).1 - (G c d).1, (G a b).2 - (G c d).2))
    (hscale : ∀ s a b, G (.scale s a) (.scale s b) = (.scale s (G a b).1, .scale s (G a b).2)) :
    Interchange hadamardPair G := by
  intro v w a b c d
  cases v <;> cases w <;> simp [half, hadamardPair, hadd, hsub, hscale]

end Kernel

/-! ## The maps of the gates -/

namespace OneQubit

open Kernel (Interchange)

/-- What a one-qubit gate makes of a pair of amplitudes. -/
def onPair [Add α] [Sub α] [Mul α] [Neg α] [HalfRoot α] :
    OneQubit → Amplitude α → Amplitude α → Amplitude α × Amplitude α
  | h => Kernel.hadamardPair
  | x => fun a b => (b, a)
  | y => Kernel.pauliYPair
  | z => fun a b => (a, -b)

section

variable [Add α] [Sub α] [Mul α] [Neg α] [HalfRoot α]

/-- What one-qubit gates make of a pair of amplitudes, one after the other. -/
def pairAfter (ks : List OneQubit) (a b : Amplitude α) : Amplitude α × Amplitude α :=
  ks.foldl (fun p k => k.onPair p.1 p.2) (a, b)

/-- An exchange of the two amplitudes of a pair interchanges with every map. -/
theorem interchange_x (G : Amplitude α → Amplitude α → Amplitude α × Amplitude α) :
    Interchange x.onPair G := by
  intro v w a b c d
  cases v <;> rfl

/-- Pauli gates interchange if negating a number twice changes nothing. -/
theorem interchange_of_neg_neg (hneg : ∀ x : α, - -x = x) {k l : OneQubit} (hk : k ≠ h)
    (hl : l ≠ h) : Interchange (k.onPair (α := α)) l.onPair := by
  match k, l with
  | h, _ => exact absurd rfl hk
  | _, h => exact absurd rfl hl
  | x, _ => exact interchange_x _
  | y, x | z, x => exact (interchange_x _).symm
  | y, y | y, z | z, y | z, z =>
    intro v w a b c d
    cases v <;> cases w <;>
      simp [Kernel.half, onPair, Kernel.pauliYPair, Amplitude.ext_iff, hneg]

end

section

variable [CommRing α] [HalfRoot α]

theorem interchange_h (k : OneQubit) : Interchange (h.onPair (α := α)) k.onPair := by
  refine Kernel.interchange_hadamardPair ?add ?sub ?scale
  case add =>
    intro a b c d
    cases k <;> ext <;> simp [onPair, Kernel.hadamardPair, Kernel.pauliYPair] <;> ring
  case sub =>
    intro a b c d
    cases k <;> ext <;> simp [onPair, Kernel.hadamardPair, Kernel.pauliYPair] <;> ring
  case scale =>
    intro s a b
    cases k <;> ext <;> simp [onPair, Kernel.hadamardPair, Kernel.pauliYPair] <;> ring

/-- In exact arithmetic all one-qubit gates interchange. -/
theorem interchange (k l : OneQubit) : Interchange (k.onPair (α := α)) l.onPair := by
  by_cases hk : k = h
  · subst hk
    exact interchange_h l
  by_cases hl : l = h
  · subst hl
    exact (interchange_h k).symm
  exact interchange_of_neg_neg neg_neg hk hl

end

end OneQubit

/-! ## The gates -/

namespace Gate

variable [Add α] [Sub α] [Mul α] [Neg α] [HalfRoot α]

theorem act_one (k : OneQubit) (q : Qubit)
    (f : Nat → Amplitude α) : (one k q).act f = Kernel.onPairs k.onPair q.index.toNat f := by
  cases k with
  | h | y | z => rfl
  | x =>
    funext i
    exact (ite_self _).symm

theorem acts_map_one (ks : List OneQubit) (q : Qubit)
    (f : Nat → Amplitude α) : acts (ks.map (one · q)) f =
      Kernel.onPairs (OneQubit.pairAfter ks) q.index.toNat f := by
  induction ks generalizing f with
  | nil => exact (Kernel.onPairs_mk _ f).symm
  | cons k ks ih =>
    calc acts ((k :: ks).map (one · q)) f
        = acts (ks.map (one · q)) (Kernel.onPairs k.onPair q.index.toNat f) :=
          congrArg (acts _) (act_one k q f)
      _ = Kernel.onPairs (OneQubit.pairAfter ks) q.index.toNat
            (Kernel.onPairs k.onPair q.index.toNat f) := ih _
      _ = Kernel.onPairs (OneQubit.pairAfter (k :: ks)) q.index.toNat f :=
        Kernel.onPairs_comp k.onPair (OneQubit.pairAfter ks) _ f

/-- Gates on one qubit are compared on one pair. -/
theorem acts_map_one_eq_map {ks ls : List OneQubit}
    {m : Amplitude α → Amplitude α}
    (h : ∀ a b, OneQubit.pairAfter ks a b = (OneQubit.pairAfter ls a b).map m m) (q : Qubit)
    (f : Nat → Amplitude α) : acts (ks.map (one · q)) f = m ∘ acts (ls.map (one · q)) f := by
  funext i
  rw [acts_map_one, acts_map_one, Function.comp, Kernel.onPairs, Kernel.onPairs]
  split <;> rw [h] <;> rfl

end Gate

end Statevector
