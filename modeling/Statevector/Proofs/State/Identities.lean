import Statevector.Proofs.State.Exchange
import Statevector.Proofs.State.Reversal

/-!
# Identities of gates

* `State.IsFull.foldlM_eq_of_bitMap`: gates that only move amplitudes are compared on indices;
  **`Gate.acts_swap_conj`**: between two swaps a gate has the names of qubits exchanged;
  **`State.IsFull.apply_swap`**: a swap is three controlled-NOTs;
* `State.IsFull.exists_foldlM_one`: gates on one qubit are compared on a pair of amplitudes;
  `OneQubit.pairAfter_h_conj`: what two Hadamard gates make of a gate between them, if one makes it;
* `Gate.controlledZ`: a controlled-NOT between Hadamard gates on its target, in which the two qubits
  have the same part; `Gate.acts_cnot_conj`: between Hadamard gates on both qubits, control and
  target change places;
* **`State.pauli_hadamard_identities`**: the relations between the kernels.
-/

namespace Statevector

variable {α : Type}

/-! ## Maps of indices -/

theorem Qubit.index_injective : Function.Injective fun q : Qubit => q.index.toNat :=
  fun _ _ h => by_contra fun hne => Gate.index_ne hne h

theorem Qubit.index_swap (a b q : Qubit) : (Equiv.swap a b q).index.toNat =
    Equiv.swap a.index.toNat b.index.toNat q.index.toNat :=
  (index_injective.swap_apply a b q).symm

namespace Gate

variable {a b : Qubit}

theorem bitMap_swap_eq_cnots (hab : a ≠ b) (i : Nat) : (two .swap a (some b)).bitMap i =
    [two .cnot a (some b), two .cnot b (some a), two .cnot a (some b)].foldr bitMap i := by
  have hne := index_ne hab
  apply Nat.eq_of_testBit_eq
  intro j
  simp only [List.foldr_cons, List.foldr_nil, testBit_bitMap_cnot, testBit_bitMap_swap]
  by_cases hb : b.index.toNat = j
  · subst hb
    simp [hne, hne.symm]
  · by_cases ha : a.index.toNat = j
    · subst ha
      cases i.testBit a.index.toNat <;> simp [hne.symm]
    · simp [ha, hb, Equiv.swap_apply_of_ne_of_ne (Ne.symm ha) (Ne.symm hb)]

theorem bitMap_swap_comm (a b : Qubit) (i : Nat) :
    (two .swap a (some b)).bitMap i = (two .swap b (some a)).bitMap i := by
  apply Nat.eq_of_testBit_eq
  intro j
  rw [testBit_bitMap_swap, testBit_bitMap_swap, Equiv.swap_comm]

/-- **Between two swaps of two qubits a gate has the names of these qubits exchanged.** -/
theorem acts_swap_conj [Add α] [Sub α] [Mul α] [Neg α] [HalfRoot α] (a b : Qubit) (g : Gate)
    (f : Nat → Amplitude α) :
    acts [two .swap a (some b), g, two .swap a (some b)] f = (g.map (Equiv.swap a b)).act f := by
  set π := (two .swap a (some b)).bitMap with hπ
  have hmove (f : Nat → Amplitude α) : (two .swap a (some b)).act f = f ∘ π :=
    funext (act_eq_of_isClassical (g := two .swap a (some b)) trivial f)
  have hbit (q : Qubit) (i : Nat) :
      i.testBit (Equiv.swap a b q).index.toNat = (π i).testBit q.index.toNat := by
    rw [hπ, testBit_bitMap_swap, Qubit.index_swap]
  have hflip (q : Qubit) (i : Nat) :
      π (flipBit (Equiv.swap a b q).index.toNat i) = flipBit q.index.toNat (π i) := by
    apply Nat.eq_of_testBit_eq
    intro j
    rw [hπ, testBit_bitMap_swap, testBit_flipBit, testBit_flipBit, testBit_bitMap_swap,
      Qubit.index_swap]
    simp only [EmbeddingLike.apply_eq_iff_eq]
  have hself : (f ∘ π) ∘ π = f := by
    funext i
    refine congrArg f (Nat.eq_of_testBit_eq fun j => ?_)
    rw [hπ, testBit_bitMap_swap, testBit_bitMap_swap, Equiv.swap_apply_self]
  calc acts [two .swap a (some b), g, two .swap a (some b)] f
      = g.act (f ∘ π) ∘ π := by
        rw [← hmove, ← hmove]
        rfl
    _ = (g.map (Equiv.swap a b)).act ((f ∘ π) ∘ π) :=
      (act_map (fun q _ => hbit q) (fun q _ => hflip q) _).symm
    _ = (g.map (Equiv.swap a b)).act f := by rw [hself]

end Gate

namespace State

variable [Add α] [Sub α] [Mul α] [Neg α] [HalfRoot α]

/-- Gates that only move amplitudes do the same if they do the same to indices. -/
theorem IsFull.foldlM_eq_of_bitMap {s : State α} (hs : s.IsFull) {gs gs' : List Gate}
    (hg : ∀ g ∈ gs, g.Fits s.width ∧ g.IsClassical)
    (hg' : ∀ g ∈ gs', g.Fits s.width ∧ g.IsClassical)
    (h : ∀ i, gs.foldr Gate.bitMap i = gs'.foldr Gate.bitMap i) :
    gs.foldlM apply s = gs'.foldlM apply s := by
  have hacts (f : Nat → Amplitude α) : Gate.acts gs f = Gate.acts gs' f := by
    funext i
    rw [Gate.acts_of_isClassical (fun g hmem => (hg g hmem).2),
      Gate.acts_of_isClassical (fun g hmem => (hg' g hmem).2), h]
  obtain ⟨t, ht, ht'⟩ := hs.exists_foldlM (fun g hmem => (hg g hmem).1)
    (fun g hmem => (hg' g hmem).1) hacts
  rw [ht, ht']

/-- **A swap is three controlled-NOTs, its operands may change places, and between two swaps the
control and the target of a controlled-NOT do.** -/
theorem IsFull.apply_swap {s : State α} (hs : s.IsFull) {a b : Qubit} (hab : a ≠ b)
    (ha : a.index.toNat < s.width) (hb : b.index.toNat < s.width) :
    (∃ t, s.apply (.two .swap a (some b)) = .ok t ∧
      [.two .cnot a (some b), .two .cnot b (some a), .two .cnot a (some b)].foldlM apply s =
        .ok t ∧
      s.apply (.two .swap b (some a)) = .ok t) ∧
    ∃ t, s.apply (.two .cnot b (some a)) = .ok t ∧
      [.two .swap a (some b), .two .cnot a (some b), .two .swap a (some b)].foldlM apply s =
        .ok t := by
  have hfits (k : TwoQubit) : (Gate.two k a (some b)).Fits s.width ∧
      (Gate.two k a (some b)).IsClassical := ⟨Gate.fits_two_iff.mpr ⟨hab, ha, hb⟩, trivial⟩
  have hfits' (k : TwoQubit) : (Gate.two k b (some a)).Fits s.width ∧
      (Gate.two k b (some a)).IsClassical := ⟨Gate.fits_two_iff.mpr ⟨hab.symm, hb, ha⟩, trivial⟩
  refine ⟨?cnots, ?conj⟩
  case cnots =>
    obtain ⟨t, ht⟩ := hs.exists_apply (hfits .swap).1
    refine ⟨t, ht, ?_, ?_⟩
    · rw [← ht, ← foldlM_singleton]
      exact hs.foldlM_eq_of_bitMap (by simp [hfits, hfits']) (by simp [hfits]) fun i =>
        (Gate.bitMap_swap_eq_cnots hab i).symm
    · rw [← ht, ← foldlM_singleton, ← foldlM_singleton]
      exact hs.foldlM_eq_of_bitMap (by simp [hfits']) (by simp [hfits]) (Gate.bitMap_swap_comm b a)
  case conj =>
    have hmap : (Gate.two .cnot a (some b)).map (Equiv.swap a b) = .two .cnot b (some a) := by
      simp [Gate.map]
    rw [← foldlM_singleton]
    refine hs.exists_foldlM (by simp [hfits']) (by simp [hfits]) fun f => ?_
    rw [Gate.acts_swap_conj, hmap]
    rfl

/-- Binary64 numbers on three qubits, of which the lowest and the highest are exchanged. -/
theorem apply_swap_three_qubits :
    (⟨3, #[⟨0.5, -0.5⟩, 0, ⟨-0.0, 0⟩, 0, 0, ⟨0, 0.5⟩, 0, ⟨0.5, 0⟩]⟩ : State Float).IsFull ∧
    (∃ t, (⟨3, #[⟨0.5, -0.5⟩, 0, ⟨-0.0, 0⟩, 0, 0, ⟨0, 0.5⟩, 0, ⟨0.5, 0⟩]⟩ : State Float).apply
        (.two .swap ⟨2⟩ (some ⟨0⟩)) = .ok t ∧
      [.two .cnot ⟨2⟩ (some ⟨0⟩), .two .cnot ⟨0⟩ (some ⟨2⟩), .two .cnot ⟨2⟩ (some ⟨0⟩)].foldlM apply
        (⟨3, #[⟨0.5, -0.5⟩, 0, ⟨-0.0, 0⟩, 0, 0, ⟨0, 0.5⟩, 0, ⟨0.5, 0⟩]⟩ : State Float) = .ok t) :=
  have hfull : (⟨3, #[⟨0.5, -0.5⟩, 0, ⟨-0.0, 0⟩, 0, 0, ⟨0, 0.5⟩, 0, ⟨0.5, 0⟩]⟩ :
      State Float).IsFull := by decide
  have hswap := (hfull.apply_swap (show (⟨2⟩ : Qubit) ≠ ⟨0⟩ by decide) (by decide) (by decide)).1
  ⟨hfull, hswap.imp fun _ h => ⟨h.1, h.2.1⟩⟩

end State

/-! ## Maps of pairs -/

namespace Amplitude

/-- An amplitude multiplied by the imaginary unit. -/
def timesI [Neg α] (a : Amplitude α) : Amplitude α := ⟨-a.im, a.re⟩

@[simp] theorem timesI_re [Neg α] (a : Amplitude α) : a.timesI.re = -a.im := rfl

@[simp] theorem timesI_im [Neg α] (a : Amplitude α) : a.timesI.im = a.re := rfl

end Amplitude

namespace OneQubit

section

variable [Add α] [Sub α] [Mul α] [Neg α] [HalfRoot α]

theorem pairAfter_y (hneg : ∀ x : α, - -x = x) (a b : Amplitude α) :
    pairAfter [y] a b = (pairAfter [z, x] a b).map .timesI .timesI := by
  simp [pairAfter, onPair, Kernel.pauliYPair, Amplitude.ext_iff, hneg]

theorem pairAfter_z_x (hneg : ∀ x : α, - -x = x) (a b : Amplitude α) :
    pairAfter [z, x] a b = (pairAfter [x, z] a b).map (- ·) (- ·) := by
  simp [pairAfter, onPair, Amplitude.ext_iff, hneg]

end

section

variable [CommRing α] [HalfRoot α]

/-- If two gates differ in the side on which a Hadamard gate stands, the one is what the Hadamard
gate makes of the other from both sides. -/
theorem pairAfter_h_conj (hroot : 2 * halfRoot * halfRoot = (1 : α)) {k l : OneQubit}
    {m : Amplitude α → Amplitude α}
    (h : ∀ a b, pairAfter [k, .h] a b = (pairAfter [.h, l] a b).map m m) (a b : Amplitude α) :
    pairAfter [.h, k, .h] a b = (pairAfter [l] a b).map m m := by
  calc pairAfter [.h, k, .h] a b
      = pairAfter [k, .h] (Kernel.hadamardPair a b).1 (Kernel.hadamardPair a b).2 := rfl
    _ = (pairAfter [.h, l] (Kernel.hadamardPair a b).1 (Kernel.hadamardPair a b).2).map m m := h _ _
    _ = (pairAfter [l] a b).map m m := by
      simp only [pairAfter, List.foldl_cons, List.foldl_nil, onPair,
        Kernel.hadamardPair_hadamardPair hroot]

theorem pairAfter_x_h (a b : Amplitude α) :
    pairAfter [x, h] a b = (pairAfter [h, z] a b).map id id := by
  refine Prod.ext ?_ ?_ <;> ext <;> simp [pairAfter, onPair, Kernel.hadamardPair] <;> ring

theorem pairAfter_z_h (a b : Amplitude α) :
    pairAfter [z, h] a b = (pairAfter [h, x] a b).map id id := by
  refine Prod.ext ?_ ?_ <;> ext <;> simp [pairAfter, onPair, Kernel.hadamardPair] <;> ring

theorem pairAfter_y_h (a b : Amplitude α) :
    pairAfter [y, h] a b = (pairAfter [h, y] a b).map (- ·) (- ·) := by
  refine Prod.ext ?_ ?_ <;> ext <;>
    simp [pairAfter, onPair, Kernel.hadamardPair, Kernel.pauliYPair] <;> ring

end

end OneQubit

namespace Gate

/-! ## Controlled-NOT between Hadamard gates -/

/-- The amplitudes with those negated at whose indices both qubits read one. -/
def controlledZ [Neg α] (c t : Qubit) (f : Nat → Amplitude α) (i : Nat) : Amplitude α :=
  if i.testBit c.index.toNat && i.testBit t.index.toNat then -f i else f i

theorem controlledZ_comm [Neg α] (c t : Qubit) (f : Nat → Amplitude α) :
    controlledZ c t f = controlledZ t c f := by
  funext i
  rw [controlledZ, controlledZ, Bool.and_comm]

section

variable [CommRing α] [HalfRoot α] {c t : Qubit}

theorem act_h_act_h (hroot : 2 * halfRoot * halfRoot = (1 : α)) (q : Qubit)
    (f : Nat → Amplitude α) : (one .h q).act ((one .h q).act f) = f :=
  act_act_of_halfRoot hroot (fits_one_iff.mpr (Nat.lt_succ_self _)) f

theorem acts_h_x_h (hroot : 2 * halfRoot * halfRoot = (1 : α)) (q : Qubit)
    (f : Nat → Amplitude α) : acts [one .h q, one .x q, one .h q] f = (one .z q).act f :=
  acts_map_one_eq_map (OneQubit.pairAfter_h_conj hroot OneQubit.pairAfter_x_h) q f

/-- A controlled-NOT between Hadamard gates on its target is a controlled Pauli Z: where the control
reads zero only the Hadamard gates are left, and where it reads one there is a Pauli X between
them. -/
theorem acts_h_cnot_h (hroot : 2 * halfRoot * halfRoot = (1 : α)) (hct : c ≠ t)
    (f : Nat → Amplitude α) :
    acts [one .h t, two .cnot c (some t), one .h t] f = controlledZ c t f := by
  funext i
  have hpartner := testBit_flipBit_of_ne (index_ne hct.symm) i
  set g := (one .h t).act f with hg
  cases hi : i.testBit c.index.toNat with
  | false =>
    calc (one .h t).act ((two .cnot c (some t)).act g) i
        = (one .h t).act g i :=
          Kernel.onPairs_congr _ (by simp [act, hi]) (by simp [act, hpartner, hi])
      _ = f i := by rw [hg, act_h_act_h hroot]
      _ = controlledZ c t f i := by simp [controlledZ, hi]
  | true =>
    calc (one .h t).act ((two .cnot c (some t)).act g) i
        = (one .h t).act ((one .x t).act g) i :=
          Kernel.onPairs_congr _ (by simp [act, hi]) (by simp [act, hpartner, hi])
      _ = (one .z t).act f i := congrFun (acts_h_x_h hroot t f) i
      _ = controlledZ c t f i := by simp [controlledZ, act, hi]

/-- The order of Hadamard gates on two qubits does not matter. -/
theorem acts_of_perm_h (hct : c ≠ t) {gs : List Gate} (h : gs.Perm [one .h c, one .h t])
    (f : Nat → Amplitude α) : acts gs f = acts [one .h c, one .h t] f := by
  have hcomm (f : Nat → Amplitude α) :
      (one .h t).act ((one .h c).act f) = (one .h c).act ((one .h t).act f) :=
    act_comm (by simpa [qubits] using hct.symm) f
  refine (h.symm.foldl_eq' ?_ f).symm
  simp [hcomm]

/-- **Between Hadamard gates on both qubits of a controlled-NOT, control and target change
places.** -/
theorem acts_cnot_conj (hroot : 2 * halfRoot * halfRoot = (1 : α)) (hct : c ≠ t)
    {hs hs' : List Gate} (h : hs.Perm [one .h c, one .h t]) (h' : hs'.Perm [one .h c, one .h t])
    (f : Nat → Amplitude α) :
    acts (hs ++ two .cnot c (some t) :: hs') f = (two .cnot t (some c)).act f := by
  have hz (f : Nat → Amplitude α) : controlledZ c t f =
      acts [one .h c, two .cnot t (some c), one .h c] f := by
    rw [controlledZ_comm, acts_h_cnot_h hroot hct.symm]
  calc acts (hs ++ two .cnot c (some t) :: hs') f
      = acts hs' ((two .cnot c (some t)).act (acts hs f)) := acts_append _ _ f
    _ = acts [one .h t, one .h c] ((two .cnot c (some t)).act (acts [one .h c, one .h t] f)) := by
      rw [acts_of_perm_h hct h, acts_of_perm_h hct.symm (h'.trans (.swap _ _ _))]
    _ = (one .h c).act (acts [one .h t, two .cnot c (some t), one .h t] ((one .h c).act f)) := rfl
    _ = (one .h c).act (acts [one .h c, two .cnot t (some c), one .h c] ((one .h c).act f)) := by
      rw [acts_h_cnot_h hroot hct, hz]
    _ = (one .h c).act ((one .h c).act ((two .cnot t (some c)).act
          ((one .h c).act ((one .h c).act f)))) := rfl
    _ = (two .cnot t (some c)).act f := by
      rw [act_h_act_h hroot, act_h_act_h hroot]

end

end Gate

/-! ## The relations between the kernels -/

namespace State

/-- The state with every amplitude mapped. -/
def map (m : Amplitude α → Amplitude α) (s : State α) : State α :=
  { s with amplitudes := s.amplitudes.map m }

theorem map_ofFn (m : Amplitude α → Amplitude α) (n : Nat) (f : Nat → Amplitude α) :
    (ofFn n f).map m = ofFn n (m ∘ f) := by
  rw [map, ofFn, ofFn, Kernel.tabulate, Kernel.tabulate, Array.map_ofFn]
  rfl

theorem map_id (s : State α) : s.map id = s := by
  rw [map, Array.map_id]

theorem IsFull.exists_foldlM_one [Add α] [Sub α] [Mul α] [Neg α] [HalfRoot α] {s : State α}
    (hs : s.IsFull) {q : Qubit} (hq : q.index.toNat < s.width) {ks ls : List OneQubit}
    {m : Amplitude α → Amplitude α}
    (h : ∀ a b, OneQubit.pairAfter ks a b = (OneQubit.pairAfter ls a b).map m m) :
    ∃ t, (ls.map (Gate.one · q)).foldlM apply s = .ok t ∧
      (ks.map (Gate.one · q)).foldlM apply s = .ok (t.map m) := by
  have hfits (ks : List OneQubit) : ∀ g ∈ ks.map (Gate.one · q), g.Fits s.width := by
    simpa using fun _ _ => Gate.fits_one_iff.mpr hq
  obtain ⟨f, hf⟩ := hs.exists_ofFn
  rw [hf]
  refine ⟨_, foldlM_ofFn hs.1 f (hfits ls), ?_⟩
  rw [foldlM_ofFn hs.1 f (hfits ks), map_ofFn, Gate.acts_map_one_eq_map h]

theorem IsFull.exists_foldlM_cnot_conj [CommRing α] [HalfRoot α]
    (hroot : 2 * halfRoot * halfRoot = (1 : α)) {s : State α} (hs : s.IsFull) {c t : Qubit}
    (hct : c ≠ t) (hc : c.index.toNat < s.width) (ht : t.index.toNat < s.width)
    {pre post : List Gate} (h : pre.Perm [.one .h c, .one .h t])
    (h' : post.Perm [.one .h c, .one .h t]) :
    ∃ u, [.two .cnot t (some c)].foldlM apply s = .ok u ∧
      (pre ++ .two .cnot c (some t) :: post).foldlM apply s = .ok u := by
  have hfits : ∀ g ∈ [Gate.one .h c, Gate.one .h t], g.Fits s.width := by
    simp [Gate.fits_one_iff, hc, ht]
  refine hs.exists_foldlM ?_ ?_ fun f => (Gate.acts_cnot_conj hroot hct h h' f).symm
  · simpa using Gate.fits_two_iff.mpr ⟨hct.symm, ht, hc⟩
  · simp only [List.forall_mem_append, List.forall_mem_cons]
    exact ⟨fun g hg => hfits g (h.subset hg), Gate.fits_two_iff.mpr ⟨hct, hc, ht⟩,
      fun g hg => hfits g (h'.subset hg)⟩

/-- **What the kernels of the Pauli gates, of Hadamard and of controlled-NOT have to do with each
other.** Of any numbers that negating twice does not change, such as binary64 numbers
(`Binary64.neg_neg`): Pauli Y is Z, then X, then a multiplication by the imaginary unit, and Z and X
in the other order are the same but for the sign. In exact arithmetic, over any commutative ring
with a root of one half: between Hadamard gates X becomes Z, Z becomes X and Y changes its sign, and
between Hadamard gates on both of its qubits a controlled-NOT has its control and its target
exchanged. -/
theorem pauli_hadamard_identities :
    (∀ (α : Type) [Add α] [Sub α] [Mul α] [Neg α] [HalfRoot α], (∀ x : α, - -x = x) →
      ∀ (s : State α) (q : Qubit), s.IsFull → q.index.toNat < s.width →
        (∃ t, [.one .z q, .one .x q].foldlM apply s = .ok t ∧
          s.apply (.one .y q) = .ok (t.map .timesI)) ∧
        ∃ t, [.one .x q, .one .z q].foldlM apply s = .ok t ∧
          [.one .z q, .one .x q].foldlM apply s = .ok (t.map (- ·))) ∧
    (∀ (α : Type) [CommRing α] [HalfRoot α], 2 * halfRoot * halfRoot = (1 : α) →
      ∀ s : State α, s.IsFull →
        (∀ q : Qubit, q.index.toNat < s.width →
          (∃ t, s.apply (.one .z q) = .ok t ∧
            [.one .h q, .one .x q, .one .h q].foldlM apply s = .ok t) ∧
          (∃ t, s.apply (.one .x q) = .ok t ∧
            [.one .h q, .one .z q, .one .h q].foldlM apply s = .ok t) ∧
          ∃ t, s.apply (.one .y q) = .ok t ∧
            [.one .h q, .one .y q, .one .h q].foldlM apply s = .ok (t.map (- ·))) ∧
        ∀ c t : Qubit, c ≠ t → c.index.toNat < s.width → t.index.toNat < s.width →
          ∀ pre post : List Gate, pre.Perm [.one .h c, .one .h t] →
            post.Perm [.one .h c, .one .h t] →
            ∃ u, s.apply (.two .cnot t (some c)) = .ok u ∧
              (pre ++ .two .cnot c (some t) :: post).foldlM apply s = .ok u) := by
  simp only [← foldlM_singleton]
  refine ⟨?bits, ?exact⟩
  case bits =>
    intro α _ _ _ _ _ hneg s q hs hq
    exact ⟨hs.exists_foldlM_one hq (OneQubit.pairAfter_y hneg),
      hs.exists_foldlM_one hq (OneQubit.pairAfter_z_x hneg)⟩
  case exact =>
    intro α _ _ hroot s hs
    refine ⟨fun q hq => ⟨?hxh, ?hzh, ?hyh⟩, fun c t hct hc ht pre post h h' =>
      hs.exists_foldlM_cnot_conj hroot hct hc ht h h'⟩
    case hxh =>
      simpa only [map_id, List.map_cons, List.map_nil] using
        hs.exists_foldlM_one hq (OneQubit.pairAfter_h_conj hroot OneQubit.pairAfter_x_h)
    case hzh =>
      simpa only [map_id, List.map_cons, List.map_nil] using
        hs.exists_foldlM_one hq (OneQubit.pairAfter_h_conj hroot OneQubit.pairAfter_z_h)
    case hyh =>
      exact hs.exists_foldlM_one hq (OneQubit.pairAfter_h_conj hroot OneQubit.pairAfter_y_h)

/-- Binary64 numbers on two qubits, and numbers modulo seven, where two is a root of one half. The
Hadamard gates before and after the controlled-NOT come in different orders. -/
theorem pauli_hadamard_identities_two_qubits :
    (∀ x : Float, - -x = x) ∧
    (∃ t, [.one .z ⟨1⟩, .one .x ⟨1⟩].foldlM apply
        (⟨2, #[⟨0.5, -0.5⟩, ⟨0, 0.5⟩, ⟨-0.0, 0⟩, ⟨0, -0.5⟩]⟩ : State Float) = .ok t ∧
      (⟨2, #[⟨0.5, -0.5⟩, ⟨0, 0.5⟩, ⟨-0.0, 0⟩, ⟨0, -0.5⟩]⟩ : State Float).apply (.one .y ⟨1⟩) =
        .ok (t.map .timesI)) ∧
    2 * halfRoot * halfRoot = (1 : ZMod 7) ∧
    (∃ t, (⟨2, #[⟨1, 2⟩, ⟨3, 4⟩, ⟨5, 6⟩, ⟨0, 1⟩]⟩ : State (ZMod 7)).apply (.one .y ⟨0⟩) = .ok t ∧
      [.one .h ⟨0⟩, .one .y ⟨0⟩, .one .h ⟨0⟩].foldlM apply
        (⟨2, #[⟨1, 2⟩, ⟨3, 4⟩, ⟨5, 6⟩, ⟨0, 1⟩]⟩ : State (ZMod 7)) = .ok (t.map (- ·))) ∧
    ∃ u, (⟨2, #[⟨1, 2⟩, ⟨3, 4⟩, ⟨5, 6⟩, ⟨0, 1⟩]⟩ : State (ZMod 7)).apply
        (.two .cnot ⟨1⟩ (some ⟨0⟩)) = .ok u ∧
      ([.one .h ⟨0⟩, .one .h ⟨1⟩] ++ .two .cnot ⟨0⟩ (some ⟨1⟩) ::
        [.one .h ⟨1⟩, .one .h ⟨0⟩] : List Gate).foldlM apply
        (⟨2, #[⟨1, 2⟩, ⟨3, 4⟩, ⟨5, 6⟩, ⟨0, 1⟩]⟩ : State (ZMod 7)) = .ok u := by
  have hroot : 2 * halfRoot * halfRoot = (1 : ZMod 7) := by decide
  obtain ⟨hone, htwo⟩ := pauli_hadamard_identities.2 (ZMod 7) hroot
    ⟨2, #[⟨1, 2⟩, ⟨3, 4⟩, ⟨5, 6⟩, ⟨0, 1⟩]⟩ (by decide)
  refine ⟨Binary64.neg_neg, ?_, hroot, (hone ⟨0⟩ (by decide)).2.2, ?_⟩
  · exact (pauli_hadamard_identities.1 Float Binary64.neg_neg _ ⟨1⟩ (by decide) (by decide)).1
  · exact htwo ⟨0⟩ ⟨1⟩ (by decide) (by decide) (by decide) _ _ (.refl _) (.swap _ _ _)

end State

end Statevector
