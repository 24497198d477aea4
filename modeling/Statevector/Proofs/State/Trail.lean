import Statevector.Proofs.State.Gate

/-!
# States along a list of gates

* `State.ground_eq_ofFn`: the state that reads zero;
* `State.IsFull.exists_apply`, `State.IsFull.exists_error`: which gates a full state takes;
  **`State.IsFull.of_apply`**, **`State.IsFull.of_foldlM`**: the state after them is full again, and
  as wide; **`State.foldlM_induction`**: what every gate keeps, a list of gates keeps;
* `State.Trail`: the states that gates lead to one after the other; `State.Trail.foldlM_take`: they
  are what folding the first gates gives;
* **`State.IsFull.exists_trail`**: gates that fit lead on from every full state.
-/

namespace Statevector

namespace State

variable {α : Type} {n : Nat}

/-! ## The state that reads zero -/

theorem ground_eq_ofFn [Zero α] [One α] (n : Nat) :
    (ground n : State α) = ofFn n fun i => if i = 0 then 1 else 0 := by
  refine congrArg (State.mk n) ?_
  rw [dimension_eq]
  apply Array.ext
  · simp
  · intro i hi hi'
    rw [Array.getElem_setIfInBounds (by simpa using hi)]
    by_cases h : i = 0
    · simp [Kernel.tabulate, h]
    · simp [Kernel.tabulate, h, Ne.symm h]

theorem getElem?_ground [Zero α] [One α] {k : Nat} (hk : k < 2 ^ n) :
    (ground n : State α).amplitudes[k]? = some (if k = 0 then 1 else 0) := by
  rw [ground_eq_ofFn]
  exact Kernel.getElem?_tabulate _ hk

theorem isFull_ground [Zero α] [One α] (h : n < indexBits) : (ground n : State α).IsFull := by
  rw [ground_eq_ofFn]
  exact isFull_ofFn h _

theorem zero?_eq_ok [Zero α] [One α] (h : n ≤ maxWidth) : zero? n = .ok (ground n : State α) :=
  if_neg (Nat.not_lt.mpr h)

/-! ## One gate -/

variable [Add α] [Sub α] [Mul α] [Neg α] [HalfRoot α]

theorem IsFull.exists_apply {s : State α} (hs : s.IsFull) {g : Gate} (hg : g.Fits s.width) :
    ∃ t, s.apply g = .ok t := by
  obtain ⟨f, hf⟩ := hs.exists_ofFn
  rw [hf]
  exact ⟨_, apply_ofFn hs.1 f hg⟩

theorem IsFull.exists_error {s : State α} (hs : s.IsFull) {g : Gate} (hg : ¬ g.Fits s.width)
    (hop : g.lacksOperand = false) : ∃ e, s.apply g = .error e := by
  obtain ⟨f, hf⟩ := hs.exists_ofFn
  rw [hf]
  exact apply_ofFn_eq_error hs.1 f hg hop

/-- **A gate keeps a state full, and its width.** -/
theorem IsFull.of_apply {s t : State α} (hs : s.IsFull) {g : Gate} (h : s.apply g = .ok t) :
    t.IsFull ∧ t.width = s.width := by
  cases hop : g.lacksOperand with
  | true =>
    rw [apply_of_lacksOperand s hop] at h
    cases h
    exact ⟨hs, rfl⟩
  | false =>
    by_cases hg : g.Fits s.width
    · obtain ⟨f, hf⟩ := hs.exists_ofFn
      rw [hf, apply_ofFn hs.1 f hg] at h
      cases h
      exact ⟨isFull_ofFn hs.1 _, rfl⟩
    · obtain ⟨e, he⟩ := hs.exists_error hg hop
      rw [he] at h
      cases h

/-! ## Lists of gates -/

/-- **What every gate of a list keeps, the list keeps.** -/
theorem foldlM_induction {P : State α → Prop} {s t : State α} {gs : List Gate} (hs : P s)
    (hstep : ∀ g ∈ gs, ∀ u v, P u → u.apply g = .ok v → P v) (h : gs.foldlM apply s = .ok t) :
    P t := by
  induction gs generalizing s with
  | nil =>
    cases h
    exact hs
  | cons g gs ih =>
    rw [List.forall_mem_cons] at hstep
    cases hg : s.apply g with
    | error e =>
      rw [List.foldlM_cons, hg] at h
      cases h
    | ok u =>
      rw [List.foldlM_cons, hg] at h
      exact ih (hstep.1 s u hs hg) hstep.2 h

/-- **Gates keep a state full, and its width.** -/
theorem IsFull.of_foldlM {s t : State α} (hs : s.IsFull) {gs : List Gate}
    (h : gs.foldlM apply s = .ok t) : t.IsFull ∧ t.width = s.width := by
  refine foldlM_induction (P := fun u => u.IsFull ∧ u.width = s.width) ⟨hs, rfl⟩ ?_ h
  rintro g - u v ⟨hu, hw⟩ hv
  obtain ⟨hfull, hwidth⟩ := hu.of_apply hv
  exact ⟨hfull, hwidth.trans hw⟩

/-- The gates `gs` lead from `s` to the states `ts`, one after the other. -/
inductive Trail : State α → List Gate → List (State α) → Prop
  | nil (s : State α) : Trail s [] []
  | cons {s t : State α} {g : Gate} {gs : List Gate} {ts : List (State α)} :
    s.apply g = .ok t → Trail t gs ts → Trail s (g :: gs) (t :: ts)

variable {s t : State α} {gs : List Gate} {ts us : List (State α)}

theorem Trail.length_eq (h : Trail s gs ts) : ts.length = gs.length := by
  induction h with
  | nil => rfl
  | cons _ _ ih => rw [List.length_cons, List.length_cons, ih]

/-- Gates lead to no other states. -/
theorem Trail.unique (h : Trail s gs ts) (h' : Trail s gs us) : ts = us := by
  induction h generalizing us with
  | nil => cases h'; rfl
  | cons hg _ ih =>
    cases h' with
    | cons hg' h' =>
      rw [hg] at hg'
      cases hg'
      rw [ih h']

/-- The first gates lead to the first states. -/
theorem Trail.take (h : Trail s gs ts) (k : Nat) : Trail s (gs.take k) (ts.take k) := by
  induction h generalizing k with
  | nil => simpa using Trail.nil _
  | cons hg _ ih =>
    cases k with
    | zero => exact .nil _
    | succ k => exact .cons hg (ih k)

/-- Every state of a trail is what the gates before it make of the start. -/
theorem Trail.foldlM_take (h : Trail s gs ts) {k : Nat} (hk : (s :: ts)[k]? = some t) :
    (gs.take k).foldlM apply s = .ok t := by
  induction h generalizing k with
  | nil =>
    obtain ⟨rfl, rfl⟩ : k = 0 ∧ _ = t := by simpa [List.getElem?_singleton] using hk
    rfl
  | cons hg _ ih =>
    cases k with
    | zero => exact congrArg Except.ok (Option.some.inj hk)
    | succ k =>
      rw [List.take_succ_cons, List.foldlM_cons, hg]
      exact ih hk

/-- Every state of a trail is full, and as wide as its start. -/
theorem Trail.isFull (h : Trail s gs ts) (hs : s.IsFull) (ht : t ∈ s :: ts) :
    t.IsFull ∧ t.width = s.width := by
  obtain ⟨k, hk⟩ := List.mem_iff_getElem?.mp ht
  exact hs.of_foldlM (h.foldlM_take hk)

theorem Trail.foldlM_eq (h : Trail s gs ts) : gs.foldlM apply s = .ok (ts.getLast?.getD s) := by
  induction h with
  | nil => rfl
  | cons hg _ ih =>
    rw [List.foldlM_cons, hg, List.getLast?_cons]
    exact ih

/-- Every gate of a trail is applied to the state before it, and leads to the one after it. -/
theorem Trail.getElem? (h : Trail s gs ts) {k : Nat} {g : Gate} (hk : gs[k]? = some g) :
    ∃ t u, (s :: ts)[k]? = some t ∧ ts[k]? = some u ∧ t.apply g = .ok u := by
  induction h generalizing k with
  | nil => cases hk
  | cons hg _ ih =>
    cases k with
    | zero =>
      cases hk
      exact ⟨_, _, rfl, rfl, hg⟩
    | succ k => exact ih hk

/-- **Gates that fit lead on from every full state.** -/
theorem IsFull.exists_trail (hs : s.IsFull) (hg : ∀ g ∈ gs, g.Fits s.width) :
    ∃ ts, Trail s gs ts := by
  induction gs generalizing s with
  | nil => exact ⟨[], .nil s⟩
  | cons g gs ih =>
    rw [List.forall_mem_cons] at hg
    obtain ⟨t, ht⟩ := hs.exists_apply hg.1
    obtain ⟨hfull, hw⟩ := hs.of_apply ht
    rw [← hw] at hg
    obtain ⟨ts, hts⟩ := ih hfull hg.2
    exact ⟨t :: ts, .cons ht hts⟩

/-- A list of gates fails at a gate that fails after the gates before it. -/
theorem foldlM_append_eq_error {pre post : List Gate} {g : Gate} {e : Fault}
    (hpre : pre.foldlM apply s = .ok t) (hg : t.apply g = .error e) :
    (pre ++ g :: post).foldlM apply s = .error e := by
  rw [List.foldlM_append, hpre]
  change (g :: post).foldlM apply t = _
  rw [List.foldlM_cons, hg]
  rfl

end State

end Statevector
