import Mathlib.Data.List.Nodup
import Mathlib.Data.List.Perm.Basic
import Mathlib.Data.Option.NAry
import Statevector.Proofs.State.Kernel

/-!
# The pairs of a butterfly

* `Kernel.visited`: the pairs of indices that a butterfly comes to, in its order;
  `Kernel.butterfly_eq_foldlM`: it reads both amplitudes of a pair from those it was given, writes
  both, and does nothing else;
* `Kernel.IsPairing`: every index below `2 ^ n` is in one pair, with its partner;
  `Kernel.isPairing_visited`;
* `Kernel.getElem?_of_butterfly`: an entry of the result in terms of two entries, from which
  `Kernel.butterfly_local` follows: no pair depends on another;
* **`Kernel.hadamard_pauliY_entries`**: the entries that Hadamard and Pauli Y leave.
-/

namespace Statevector

open scoped List

variable {α : Type} {n : Nat}

namespace Kernel

/-! ## The order of the loop -/

/-- The pairs of indices that a butterfly on `size` amplitudes comes to, in its order. -/
def visited (mask size : Nat) : List (Nat × Nat) :=
  ((List.range size).filter fun i => i &&& mask = 0).map fun i => (i, i ||| mask)

/-- What a butterfly does at a pair: both amplitudes are read before either place is written. -/
def writePair (f : Amplitude α → Amplitude α → Amplitude α × Amplitude α)
    (amps out : Array (Amplitude α)) (p : Nat × Nat) : Except State.Fault (Array (Amplitude α)) := do
  let a ← read amps p.1
  let b ← read amps p.2
  write (← write out p.1 (f a b).1) p.2 (f a b).2

theorem butterfly_eq_foldlM (f : Amplitude α → Amplitude α → Amplitude α × Amplitude α) (mask : Nat)
    (amps : Array (Amplitude α)) :
    butterfly f mask amps = (visited mask amps.size).foldlM (writePair f amps) amps := by
  rw [butterfly, visited, List.foldlM_map, List.foldlM_filter]
  simp only [decide_eq_true_eq]
  rfl

/-- Pairs of indices that differ in bit `q`, one pair for every two indices below `2 ^ n`. -/
structure IsPairing (n q : Nat) (pairs : List (Nat × Nat)) : Prop where
  partner : ∀ p ∈ pairs, p.1.testBit q = false ∧ p.2 = p.1 ^^^ 2 ^ q
  length_eq : pairs.length = 2 ^ (n - 1)
  perm : (pairs.flatMap fun p => [p.1, p.2]).Perm (List.range (2 ^ n))

/-- The indices with a bit set are the partners of those with the bit clear. -/
theorem perm_map_flipBit {q : Nat} (hq : q < n) :
    (((List.range (2 ^ n)).filter fun i => !i.testBit q).map (flipBit q)).Perm
      ((List.range (2 ^ n)).filter fun i => i.testBit q) := by
  have hinj : Function.Injective (flipBit q) := Function.LeftInverse.injective (flipBit_flipBit q)
  rw [List.perm_ext_iff_of_nodup ((List.nodup_range.filter _).map hinj) (List.nodup_range.filter _)]
  intro i
  simp only [List.mem_map, List.mem_filter, List.mem_range]
  constructor
  · rintro ⟨j, ⟨hj, hbit⟩, rfl⟩
    exact ⟨flipBit_lt hq hj, by rwa [testBit_flipBit_self]⟩
  · rintro ⟨hi, hbit⟩
    exact ⟨flipBit q i, ⟨flipBit_lt hq hi, by simp [testBit_flipBit_self, hbit]⟩,
      flipBit_flipBit q i⟩

theorem visited_two_pow (n q : Nat) : visited (2 ^ q) (2 ^ n) =
    ((List.range (2 ^ n)).filter fun i => !i.testBit q).map fun i => (i, flipBit q i) := by
  have hfilter : ((List.range (2 ^ n)).filter fun i => decide (i &&& 2 ^ q = 0)) =
      (List.range (2 ^ n)).filter fun i => !i.testBit q :=
    List.filter_congr fun i _ => by simp [and_mask_eq_zero_iff]
  rw [visited, hfilter]
  refine List.map_congr_left fun i hi => ?_
  rw [or_mask_eq_flipBit (by simpa using (List.mem_filter.mp hi).2)]

/-- **A butterfly comes to every pair once.** -/
theorem isPairing_visited {q : Nat} (hq : q < n) : IsPairing n q (visited (2 ^ q) (2 ^ n)) := by
  have hperm : ((visited (2 ^ q) (2 ^ n)).flatMap fun p => [p.1, p.2]).Perm
      (List.range (2 ^ n)) := by
    rw [visited_two_pow, List.flatMap_map]
    set clear := (List.range (2 ^ n)).filter fun i => !i.testBit q
    calc clear.flatMap (fun i => [i, flipBit q i])
        ~ (clear.flatMap fun i => [i]) ++ clear.flatMap fun i => [flipBit q i] :=
          (List.flatMap_append_perm clear (fun i => [i]) fun i => [flipBit q i]).symm
      _ = clear ++ clear.map (flipBit q) := by rw [List.flatMap_singleton', List.map_eq_flatMap]
      _ ~ clear ++ (List.range (2 ^ n)).filter fun i => i.testBit q :=
          (perm_map_flipBit hq).append_left clear
      _ ~ ((List.range (2 ^ n)).filter fun i => i.testBit q) ++ clear := List.perm_append_comm
      _ ~ List.range (2 ^ n) := List.filter_append_perm _ _
  refine ⟨?partner, ?length, hperm⟩
  case partner =>
    intro p hp
    rw [visited_two_pow] at hp
    obtain ⟨i, hi, rfl⟩ := List.mem_map.mp hp
    exact ⟨by simpa using (List.mem_filter.mp hi).2, rfl⟩
  case length =>
    have hlength := hperm.length_eq
    have hpow : 2 ^ n = 2 * 2 ^ (n - 1) := by
      rw [← Nat.pow_succ', Nat.succ_eq_add_one, Nat.sub_add_cancel (by omega)]
    simp only [List.length_flatMap, List.length_cons, List.length_nil, List.map_const',
      List.sum_replicate_nat, List.length_range, Nat.zero_add, Nat.reduceAdd] at hlength
    omega

/-! ## The entries of the result -/

section Entries

variable {f : Amplitude α → Amplitude α → Amplitude α × Amplitude α}
  {amps amps' out out' : Array (Amplitude α)} {q i : Nat}

theorem exists_butterfly (f : Amplitude α → Amplitude α → Amplitude α × Amplitude α)
    (hsize : amps.size = 2 ^ n) (hq : q < n) :
    ∃ out, butterfly f (2 ^ q) amps = .ok out ∧ out.size = 2 ^ n := by
  obtain ⟨a, rfl⟩ := exists_tabulate hsize
  exact ⟨_, butterfly_tabulate f a hq, size_tabulate _ _⟩

/-- An entry of the result is made of the two entries of its pair, the one with the bit clear
first. -/
theorem getElem?_of_butterfly (hsize : amps.size = 2 ^ n) (hq : q < n)
    (h : butterfly f (2 ^ q) amps = .ok out) (hi : i < 2 ^ n) :
    out[i]? = Option.map₂ (fun a b => if i.testBit q then (f b a).2 else (f a b).1)
      amps[i]? amps[flipBit q i]? := by
  obtain ⟨a, rfl⟩ := exists_tabulate hsize
  rw [butterfly_tabulate f a hq] at h
  cases h
  rw [getElem?_tabulate _ hi, getElem?_tabulate _ hi, getElem?_tabulate _ (flipBit_lt hq hi)]
  rfl

/-- **A butterfly treats every pair by itself.** Amplitudes that agree on a pair lead to results
that do. -/
theorem butterfly_local (hsize : amps.size = 2 ^ n) (hsize' : amps'.size = 2 ^ n) (hq : q < n)
    (h : butterfly f (2 ^ q) amps = .ok out) (h' : butterfly f (2 ^ q) amps' = .ok out')
    (hi : i < 2 ^ n) (hself : amps'[i]? = amps[i]?)
    (hpartner : amps'[flipBit q i]? = amps[flipBit q i]?) :
    out'[i]? = out[i]? ∧ out'[flipBit q i]? = out[flipBit q i]? := by
  have hlt := flipBit_lt hq hi
  rw [getElem?_of_butterfly hsize hq h hi, getElem?_of_butterfly hsize hq h hlt,
    getElem?_of_butterfly hsize' hq h' hi, getElem?_of_butterfly hsize' hq h' hlt, flipBit_flipBit,
    hself, hpartner]
  exact ⟨rfl, rfl⟩

end Entries

/-! ## Hadamard and Pauli Y -/

variable {q : Qubit} {amps : Array (Amplitude α)}

theorem hadamard_eq_butterfly [Add α] [Sub α] [Mul α] [HalfRoot α] (h : n < indexBits)
    (hsize : amps.size = 2 ^ n) (hq : q.index.toNat < n) :
    hadamard n q amps = butterfly hadamardPair (2 ^ q.index.toNat) amps := by
  rw [hadamard, hsize, operandMask_eq_ok h _ hq]
  rfl

theorem pauliY_eq_butterfly [Neg α] (h : n < indexBits) (hsize : amps.size = 2 ^ n)
    (hq : q.index.toNat < n) :
    pauliY n q amps = butterfly pauliYPair (2 ^ q.index.toNat) amps := by
  rw [pauliY, hsize, operandMask_eq_ok h _ hq]
  rfl

/-- **What Hadamard and Pauli Y leave at every index.** Both loops run to their end on any vector of
`2 ^ n` amplitudes, and the kernels are these loops wherever indices fit in a word. They come to the
pairs of indices that differ in the bit of `q`, once to each, and write there what they make of the
two amplitudes given; the bit of an index, and not the order of the loop, says which half of the
pair it gets. Outside a pair nothing matters to it. -/
theorem hadamard_pauliY_entries [Add α] [Sub α] [Mul α] [Neg α] [HalfRoot α]
    (hsize : amps.size = 2 ^ n) (hq : q.index.toNat < n) :
    ∃ H Y : Array (Amplitude α),
      butterfly hadamardPair (2 ^ q.index.toNat) amps = .ok H ∧
      butterfly pauliYPair (2 ^ q.index.toNat) amps = .ok Y ∧
      (n < indexBits → hadamard n q amps = .ok H ∧ pauliY n q amps = .ok Y) ∧
      H.size = 2 ^ n ∧ Y.size = 2 ^ n ∧
      (∀ i < 2 ^ n, ∃ a b, amps[i]? = some a ∧ amps[i ^^^ 2 ^ q.index.toNat]? = some b ∧
        if i.testBit q.index.toNat then
          H[i]? = some ⟨halfRoot * (b.re - a.re), halfRoot * (b.im - a.im)⟩ ∧
          Y[i]? = some ⟨-b.im, b.re⟩
        else
          H[i]? = some ⟨halfRoot * (a.re + b.re), halfRoot * (a.im + b.im)⟩ ∧
          Y[i]? = some ⟨b.im, -b.re⟩) ∧
      IsPairing n q.index.toNat (visited (2 ^ q.index.toNat) amps.size) ∧
      (∀ f, butterfly f (2 ^ q.index.toNat) amps =
        (visited (2 ^ q.index.toNat) amps.size).foldlM (writePair f amps) amps) ∧
      ∀ amps' H' Y' : Array (Amplitude α), amps'.size = 2 ^ n →
        butterfly hadamardPair (2 ^ q.index.toNat) amps' = .ok H' →
        butterfly pauliYPair (2 ^ q.index.toNat) amps' = .ok Y' →
        ∀ i < 2 ^ n, amps'[i]? = amps[i]? →
          amps'[i ^^^ 2 ^ q.index.toNat]? = amps[i ^^^ 2 ^ q.index.toNat]? →
          (H'[i]? = H[i]? ∧ H'[i ^^^ 2 ^ q.index.toNat]? = H[i ^^^ 2 ^ q.index.toNat]?) ∧
          (Y'[i]? = Y[i]? ∧ Y'[i ^^^ 2 ^ q.index.toNat]? = Y[i ^^^ 2 ^ q.index.toNat]?) := by
  obtain ⟨H, hH, hsizeH⟩ := exists_butterfly hadamardPair hsize hq
  obtain ⟨Y, hY, hsizeY⟩ := exists_butterfly pauliYPair hsize hq
  refine ⟨H, Y, hH, hY, ?kernels, hsizeH, hsizeY, ?entries, ?pairing, fun f =>
    butterfly_eq_foldlM f _ amps, ?apart⟩
  case kernels =>
    intro hn
    exact ⟨(hadamard_eq_butterfly hn hsize hq).trans hH, (pauliY_eq_butterfly hn hsize hq).trans hY⟩
  case entries =>
    intro i hi
    obtain ⟨a, ha⟩ : ∃ a, amps[i]? = some a := ⟨_, Array.getElem?_eq_getElem (hsize ▸ hi)⟩
    obtain ⟨b, hb⟩ : ∃ b, amps[flipBit q.index.toNat i]? = some b :=
      ⟨_, Array.getElem?_eq_getElem (hsize ▸ flipBit_lt hq hi)⟩
    refine ⟨a, b, ha, hb, ?_⟩
    rw [getElem?_of_butterfly hsize hq hH hi, getElem?_of_butterfly hsize hq hY hi, ha, hb,
      Option.map₂_some_some, Option.map₂_some_some]
    split
    · exact ⟨rfl, rfl⟩
    · exact ⟨rfl, rfl⟩
  case pairing =>
    rw [hsize]
    exact isPairing_visited hq
  case apart =>
    intro amps' H' Y' hsize' hH' hY' i hi hself hpartner
    exact ⟨butterfly_local hsize hsize' hq hH hH' hi hself hpartner,
      butterfly_local hsize hsize' hq hY hY' hi hself hpartner⟩

/-- Qubit one of two: indices zero and two are a pair, so are one and three. -/
theorem hadamard_pauliY_entries_two_qubits :
    (#[⟨0.5, -0.5⟩, ⟨0, 0.5⟩, ⟨-0.0, 0.25⟩, ⟨0, -0.5⟩] : Array (Amplitude Float)).size = 2 ^ 2 ∧
    (⟨1⟩ : Qubit).index.toNat < 2 ∧
    ∃ H Y : Array (Amplitude Float),
      hadamard 2 ⟨1⟩ #[⟨0.5, -0.5⟩, ⟨0, 0.5⟩, ⟨-0.0, 0.25⟩, ⟨0, -0.5⟩] = .ok H ∧
      pauliY 2 ⟨1⟩ #[⟨0.5, -0.5⟩, ⟨0, 0.5⟩, ⟨-0.0, 0.25⟩, ⟨0, -0.5⟩] = .ok Y ∧
      (H[0]? = some ⟨halfRoot * (0.5 + -0.0), halfRoot * (-0.5 + 0.25)⟩ ∧
        Y[0]? = some ⟨0.25, - -0.0⟩) ∧
      (H[3]? = some ⟨halfRoot * (0 - 0), halfRoot * (0.5 - -0.5)⟩ ∧ Y[3]? = some ⟨-0.5, 0⟩) := by
  have hsize : (#[⟨0.5, -0.5⟩, ⟨0, 0.5⟩, ⟨-0.0, 0.25⟩, ⟨0, -0.5⟩] : Array (Amplitude Float)).size =
      2 ^ 2 := rfl
  have hq : (⟨1⟩ : Qubit).index.toNat < 2 := by decide
  refine ⟨hsize, hq, ?_⟩
  obtain ⟨H, Y, -, -, hkernels, -, -, hentries, -⟩ := hadamard_pauliY_entries hsize hq
  obtain ⟨hH, hY⟩ := hkernels (by decide)
  obtain ⟨a, b, ⟨⟩, ⟨⟩, hclear⟩ := hentries 0 (by decide)
  obtain ⟨a, b, ⟨⟩, ⟨⟩, hset⟩ := hentries 3 (by decide)
  exact ⟨H, Y, hH, hY, hclear, hset⟩

end Kernel

end Statevector
