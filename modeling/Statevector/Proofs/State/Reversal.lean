import Mathlib.Data.ZMod.Defs
import Mathlib.Tactic.LinearCombination
import Statevector.Proofs.Decimal.Negation
import Statevector.Proofs.State.Classical
import Statevector.Proofs.State.OneQubit
import Statevector.Proofs.State.Trail

/-!
# Gates that undo themselves

* `Kernel.onPairs_onPairs`: a map of pairs that undoes itself does so on all pairs of a vector;
  `Kernel.pauliYPair_pauliYPair` and `Kernel.hadamardPair_hadamardPair` are such maps;
* `Gate.act_act_of_neg_neg`, `Gate.act_act_of_halfRoot`: a gate that fits undoes itself; for all
  gates but Hadamard this takes no more of the numbers than that negating them twice changes
  nothing;
* **`State.IsFull.foldlM_append_reverse_of_act`**: gates that undo themselves, followed by the same
  gates in reverse order, change nothing;
* **`State.foldlM_append_reverse`**: both readings of the numbers.
-/

namespace Statevector

variable {α : Type} {n : Nat}

/-! ## Maps of pairs -/

namespace Kernel

/-- A map of pairs that undoes itself does so on all pairs at once. -/
theorem onPairs_onPairs {f : Amplitude α → Amplitude α → Amplitude α × Amplitude α}
    (hf : ∀ x y, f (f x y).1 (f x y).2 = (x, y)) (q : Nat) (a : Nat → Amplitude α) :
    onPairs f q (onPairs f q a) = a := by
  have hmk : (fun x y => f (f x y).1 (f x y).2) = Prod.mk := funext₂ hf
  rw [onPairs_comp, hmk, onPairs_mk]

theorem pauliYPair_pauliYPair [Neg α] (hneg : ∀ x : α, - -x = x) (x y : Amplitude α) :
    pauliYPair (pauliYPair x y).1 (pauliYPair x y).2 = (x, y) := by
  simp only [pauliYPair, hneg]

/-- In exact arithmetic a Hadamard gate undoes itself: sum and difference add up to twice the one
and differ by twice the other amplitude, and both were scaled by the root of one half. -/
theorem hadamardPair_hadamardPair [CommRing α] [HalfRoot α]
    (hroot : 2 * halfRoot * halfRoot = (1 : α)) (x y : Amplitude α) :
    hadamardPair (hadamardPair x y).1 (hadamardPair x y).2 = (x, y) := by
  have hsum (u v : α) : halfRoot * (halfRoot * (u + v) + halfRoot * (u - v)) = u := by
    linear_combination u * hroot
  have hdiff (u v : α) : halfRoot * (halfRoot * (u + v) - halfRoot * (u - v)) = v := by
    linear_combination v * hroot
  refine Prod.ext ?_ ?_
  · exact congrArg₂ Amplitude.mk (hsum x.re y.re) (hsum x.im y.im)
  · exact congrArg₂ Amplitude.mk (hdiff x.re y.re) (hdiff x.im y.im)

end Kernel

/-! ## One gate -/

namespace Gate

theorem act_act_of_isClassical [Add α] [Sub α] [Mul α] [Neg α] [HalfRoot α] {g : Gate}
    (hc : g.IsClassical) (hg : g.Fits n) (f : Nat → Amplitude α) : g.act (g.act f) = f := by
  funext i
  rw [act_eq_of_isClassical hc, act_eq_of_isClassical hc, bitMap_bitMap hg]

/-- Every gate but Hadamard undoes itself if negating a number twice does. -/
theorem act_act_of_neg_neg [Add α] [Sub α] [Mul α] [Neg α] [HalfRoot α]
    (hneg : ∀ x : α, - -x = x) {g : Gate} (hg : g.Fits n) (hk : g.kind ≠ .one .h)
    (f : Nat → Amplitude α) : g.act (g.act f) = f := by
  match g with
  | .one .h _ => exact absurd rfl hk
  | .one .x q => exact act_act_of_isClassical (g := .one .x q) trivial hg f
  | .two k a b => exact act_act_of_isClassical (g := .two k a b) trivial hg f
  | .one .y q => exact Kernel.onPairs_onPairs (Kernel.pauliYPair_pauliYPair hneg) _ f
  | .one .z q =>
    have hamp (x : Amplitude α) : - -x = x := congrArg₂ Amplitude.mk (hneg x.re) (hneg x.im)
    funext i
    cases hi : i.testBit q.index.toNat with
    | false => simp only [act, hi, Bool.false_eq_true, if_false]
    | true => simp only [act, hi, if_true, hamp]

/-- In exact arithmetic every gate undoes itself. -/
theorem act_act_of_halfRoot [CommRing α] [HalfRoot α] (hroot : 2 * halfRoot * halfRoot = (1 : α))
    {g : Gate} (hg : g.Fits n) (f : Nat → Amplitude α) : g.act (g.act f) = f := by
  by_cases hk : g.kind = .one .h
  · match g, hk with
    | .one .h q, _ => exact Kernel.onPairs_onPairs (Kernel.hadamardPair_hadamardPair hroot) _ f
  · exact act_act_of_neg_neg neg_neg hg hk f

/-- Gates that undo themselves do so in reverse order as a list. -/
theorem acts_append_reverse [Add α] [Sub α] [Mul α] [Neg α] [HalfRoot α] {gs : List Gate}
    (hact : ∀ g ∈ gs, ∀ f : Nat → Amplitude α, g.act (g.act f) = f) (f : Nat → Amplitude α) :
    acts (gs ++ gs.reverse) f = f := by
  induction gs generalizing f with
  | nil => rfl
  | cons g gs ih =>
    rw [List.forall_mem_cons] at hact
    calc acts (g :: gs ++ (g :: gs).reverse) f
        = acts ((gs ++ gs.reverse) ++ [g]) (g.act f) := by simp [acts]
      _ = g.act (acts (gs ++ gs.reverse) (g.act f)) := acts_append _ _ _
      _ = g.act (g.act f) := by rw [ih hact.2]
      _ = f := hact.1 f

end Gate

/-! ## Lists of gates -/

namespace State

/-- **Gates that undo themselves, followed by the same gates in reverse order, change nothing.** -/
theorem IsFull.foldlM_append_reverse_of_act [Add α] [Sub α] [Mul α] [Neg α] [HalfRoot α]
    {s : State α} (hs : s.IsFull) {gs : List Gate} (hg : ∀ g ∈ gs, g.Fits s.width)
    (hact : ∀ g ∈ gs, ∀ f : Nat → Amplitude α, g.act (g.act f) = f) :
    (gs ++ gs.reverse).foldlM apply s = .ok s := by
  obtain ⟨f, hf⟩ := hs.exists_ofFn
  have hfits : ∀ g ∈ gs ++ gs.reverse, g.Fits s.width := by
    simpa using hg
  rw [hf, foldlM_ofFn hs.1 f hfits, Gate.acts_append_reverse hact]

/-- **Gates followed by the same gates in reverse order change nothing.** For all gates but Hadamard
this holds of any numbers that negating twice does not change, such as binary64 numbers
(`Binary64.neg_neg`); with Hadamard gates it holds in exact arithmetic, over any commutative
ring. -/
theorem foldlM_append_reverse :
    (∀ (α : Type) [Add α] [Sub α] [Mul α] [Neg α] [HalfRoot α], (∀ x : α, - -x = x) →
      ∀ (s : State α) (gs : List Gate), s.IsFull → (∀ g ∈ gs, g.Fits s.width) →
        (∀ g ∈ gs, g.kind ≠ .one .h) → (gs ++ gs.reverse).foldlM apply s = .ok s) ∧
    (∀ (α : Type) [CommRing α] [HalfRoot α], 2 * halfRoot * halfRoot = (1 : α) →
      ∀ (s : State α) (gs : List Gate), s.IsFull → (∀ g ∈ gs, g.Fits s.width) →
        (gs ++ gs.reverse).foldlM apply s = .ok s) := by
  refine ⟨?moves, ?exact⟩
  case moves =>
    intro α _ _ _ _ _ hneg s gs hs hg hk
    exact hs.foldlM_append_reverse_of_act hg fun g hmem =>
      Gate.act_act_of_neg_neg hneg (hg g hmem) (hk g hmem)
  case exact =>
    intro α _ _ hroot s gs hs hg
    exact hs.foldlM_append_reverse_of_act hg fun g hmem =>
      Gate.act_act_of_halfRoot hroot (hg g hmem)

/-- Two is a root of one half modulo seven. -/
instance halfRootModSeven : HalfRoot (ZMod 7) := ⟨2⟩

/-- Two qubits, and lists with gates of every kind, one of which lacks its second operand: binary64
numbers for the gates other than Hadamard, and numbers modulo seven for all of them. -/
theorem foldlM_append_reverse_two_qubits :
    (∀ x : Float, - -x = x) ∧
    ([.one .x ⟨1⟩, .one .y ⟨0⟩, .two .cnot ⟨0⟩ (some ⟨1⟩), .two .swap ⟨1⟩ none, .one .z ⟨1⟩,
      .two .swap ⟨1⟩ (some ⟨0⟩)] ++ [.one .x ⟨1⟩, .one .y ⟨0⟩, .two .cnot ⟨0⟩ (some ⟨1⟩),
      .two .swap ⟨1⟩ none, .one .z ⟨1⟩, .two .swap ⟨1⟩ (some ⟨0⟩)].reverse : List Gate).foldlM apply
        (⟨2, #[⟨0.5, -0.5⟩, ⟨0, 0.5⟩, ⟨-0.0, 0⟩, ⟨0, -0.5⟩]⟩ : State Float) =
      .ok ⟨2, #[⟨0.5, -0.5⟩, ⟨0, 0.5⟩, ⟨-0.0, 0⟩, ⟨0, -0.5⟩]⟩ ∧
    ([.one .h ⟨1⟩, .one .y ⟨0⟩, .two .cnot ⟨0⟩ (some ⟨1⟩), .one .h ⟨0⟩] ++
      [.one .h ⟨1⟩, .one .y ⟨0⟩, .two .cnot ⟨0⟩ (some ⟨1⟩), .one .h ⟨0⟩].reverse :
      List Gate).foldlM apply (⟨2, #[⟨1, 2⟩, ⟨3, 4⟩, ⟨5, 6⟩, ⟨0, 1⟩]⟩ : State (ZMod 7)) =
      .ok ⟨2, #[⟨1, 2⟩, ⟨3, 4⟩, ⟨5, 6⟩, ⟨0, 1⟩]⟩ :=
  ⟨Binary64.neg_neg,
    foldlM_append_reverse.1 Float Binary64.neg_neg _ _ (by decide) (by decide) (by decide),
    foldlM_append_reverse.2 (ZMod 7) (by decide) _ _ (by decide) (by decide)⟩

end State

end Statevector
