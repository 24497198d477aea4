import Statevector.State.Kernel

/-!
# Loops that succeed

* `foldlM_range_eq_ok`: a loop over the numbers below `n` whose states are known step by step;
* `mapM_eq_ok`: a list of values each of which is found.
-/

namespace Statevector

variable {σ ε β γ : Type}

/-- **A loop goes through the states that each of its steps is shown to lead to.** -/
theorem foldlM_range_eq_ok {f : σ → Nat → Except ε σ} (inv : Nat → σ) {n : Nat}
    (h : ∀ k < n, f (inv k) k = .ok (inv (k + 1))) :
    (List.range n).foldlM f (inv 0) = .ok (inv n) := by
  induction n with
  | zero => rfl
  | succ n ih =>
    have hn : (List.range n).foldlM f (inv 0) = .ok (inv n) :=
      ih fun k hk => h k (Nat.lt_succ_of_lt hk)
    rw [List.range_succ, List.foldlM_append, hn]
    change (List.foldlM f (inv n) [n]) = _
    rw [List.foldlM_cons, h n (Nat.lt_succ_self n)]
    rfl

theorem mapM_eq_ok {f : β → Except ε γ} {g : β → γ} {xs : List β} (h : ∀ x ∈ xs, f x = .ok (g x)) :
    xs.mapM f = .ok (xs.map g) := by
  induction xs with
  | nil => rfl
  | cons x xs ih =>
    rw [List.mapM_cons, h x List.mem_cons_self, ih fun y hy => h y (List.mem_cons_of_mem _ hy)]
    rfl

end Statevector
