import Statevector.Proofs.Run.History
import Statevector.Proofs.State.Exchange
import Statevector.Proofs.State.Reversal

/-!
# Runs with two gates exchanged

* `Circuit.IsExchange`: two neighbouring gates of a circuit in the other order;
  `History.AgreesBut`: histories that agree but for one state;
* `Executor.outcome_exchange`, `Executor.agreesBut_of_outcome`: what exchanging two gates that may
  change places does to runs;
* `Gate.Exchangeable`: all that it means for two gates that their order does not matter;
  **`Gate.exchangeable`**: gates without a common qubit are such.
-/

namespace Statevector

variable {α : Type}

/-! ## Circuits and histories -/

/-- `c'` is as wide as `c`, and has its gates with `g` and `h` after `pre` in the other order. -/
structure Circuit.IsExchange (c c' : Circuit) (pre : List Gate) (g h : Gate) (post : List Gate) :
    Prop where
  width : c'.width = c.width
  before : c.gateList = pre ++ g :: h :: post
  after : c'.gateList = pre ++ h :: g :: post

namespace Circuit.IsExchange

variable {c c' : Circuit} {pre post : List Gate} {g h : Gate}

theorem validate (hc : c.IsExchange c' pre g h post) (hv : c.validate = .ok ()) :
    c'.validate = .ok () := by
  refine validate_of_subset hv hc.width ?_
  rw [hc.before, hc.after]
  exact ((List.Perm.swap g h post).append_left pre).subset

theorem length_eq (hc : c.IsExchange c' pre g h post) :
    c'.gateList.length = c.gateList.length := by
  rw [hc.before, hc.after]
  simp

end Circuit.IsExchange

namespace History

/-- Two histories agree but for the state after `k` gates. -/
structure AgreesBut (k : Nat) (history history' : History α) : Prop where
  initial : history'.initial = history.initial
  final : history'.final = history.final
  steps : history'.steps = history.steps
  stateAt? : ∀ j ≠ k, history'.stateAt? j = history.stateAt? j

/-- Another state that is not the last changes no other state. -/
theorem agreesBut_ofTrail_set (s u : State α) {ts : List (State α)} {k : Nat}
    (hk : k + 1 < ts.length) : AgreesBut (k + 1) (ofTrail s ts) (ofTrail s (ts.set k u)) := by
  refine ⟨rfl, ?_, ?_, ?_⟩
  · simp only [ofTrail, List.getLast?_eq_getElem?, List.length_set]
    rw [List.getElem?_set_ne (by omega)]
  · simp [steps, ofTrail]
  · intro j hj
    rw [stateAt?_ofTrail, stateAt?_ofTrail, ← List.set_cons_succ, List.getElem?_set_ne (Ne.symm hj)]

end History

/-! ## Runs -/

namespace Executor

variable {e : Executor} {c c' : Circuit} {pace : Pace} {watch : Observer α}
  {pre post : List Gate} {g h : Gate}

/-- An observer that does not look at states is told nothing by them. -/
theorem flagAfter_of_blind (hblind : ∀ t t' k, watch t k = watch t' k) {ts us : List (State α)}
    (hlen : us.length = ts.length) : e.flagAfter watch us = e.flagAfter watch ts := by
  cases ts with
  | nil => rw [List.eq_nil_of_length_eq_zero hlen]
  | cons t ts =>
    have hany (vs : List (State α)) : (vs.zipIdx.any fun x => watch x.1 x.2) =
        (List.range' 0 vs.length).any fun k => watch t k := by
      rw [← List.zipIdx_map_snd, List.any_map]
      exact congrArg (vs.zipIdx.any ·) (funext fun x => hblind x.1 t x.2)
    simp only [flagAfter, hany, hlen]

variable [Zero α] [One α] [Add α] [Sub α] [Mul α] [Neg α] [HalfRoot α]

omit [Add α] [Sub α] [Mul α] [Neg α] [HalfRoot α] in
theorem prepare_exchange {s : State α} (hc : c.IsExchange c' pre g h post)
    (hs : e.prepare c = .ok s) : e.prepare c' = .ok s := by
  rw [prepare_eq_ok_iff] at hs ⊢
  rw [hc.width]
  exact ⟨hc.validate hs.1, hs.2⟩

/-- The exchanged circuit leads through the same states but one. -/
theorem trail_exchange (hcomm : ∀ f : Nat → Amplitude α, h.act (g.act f) = g.act (h.act f))
    {s : State α} {ts : List (State α)} (hc : c.IsExchange c' pre g h post)
    (hs : e.prepare c = .ok s) (ht : State.Trail s c.gateList ts) :
    ∃ u, State.Trail s c'.gateList (ts.set pre.length u) := by
  have hfits := fits_of_prepare hs
  rw [hc.before] at hfits ht
  rw [hc.after]
  exact ht.exchange hcomm (isFull_of_prepare hs).1 (hfits g (by simp)) (hfits h (by simp))

omit [Zero α] [One α] in
theorem length_lt_of_trail {s : State α} {ts : List (State α)}
    (hc : c.IsExchange c' pre g h post) (ht : State.Trail s c.gateList ts) :
    pre.length + 1 < ts.length := by
  rw [ht.length_eq, hc.before]
  simp

/-- **A run of the exchanged circuit ends like that of the circuit,** if its observer does not look
at states. -/
theorem outcome_exchange (hcomm : ∀ f : Nat → Amplitude α, h.act (g.act f) = g.act (h.act f))
    (hc : c.IsExchange c' pre g h post) (hv : c.validate = .ok ())
    (hblind : ∀ t t' k, watch t k = watch t' k) (pace : Pace) :
    (∃ fault, (e.run pace c watch).1.outcome = .error fault ∧
      (e.run pace c' watch).1.outcome = .error fault) ∨
    ∃ history history', (e.run pace c watch).1.outcome = .ok history ∧
      (e.run pace c' watch).1.outcome = .ok history' ∧
      history.AgreesBut (pre.length + 1) history' := by
  by_cases hw : c.width ≤ e.limit
  · have hs := prepare_of_narrow (α := α) hv hw
    obtain ⟨ts, ht⟩ := exists_trail hs
    obtain ⟨u, hu⟩ := trail_exchange hcomm hc hs ht
    have hflag (j : Nat) : e.flagAfter watch ((ts.set pre.length u).take j) =
        e.flagAfter watch (ts.take j) := flagAfter_of_blind hblind (by simp)
    obtain ⟨k, houtcome, -, houtcome', -⟩ :=
      run_of_trails hs ht (prepare_exchange hc hs) hu hc.length_eq hflag pace
    rw [houtcome, houtcome']
    split
    · exact .inl ⟨_, rfl, rfl⟩
    · exact .inr ⟨_, _, rfl, rfl,
        History.agreesBut_ofTrail_set _ u (length_lt_of_trail hc ht)⟩
  · have hw : e.limit < c.width := UInt32.not_le.mp hw
    refine .inl ⟨.state (.tooManyQubits c.width.toNat e.limit.toNat), ?_, ?_⟩
    · rw [run, prepare_of_wide hv hw]
    · rw [run, prepare_of_wide (hc.validate hv) (hc.width ▸ hw), hc.width]

/-- Runs of both circuits that finish agree but for one state. -/
theorem agreesBut_of_outcome (hcomm : ∀ f : Nat → Amplitude α, h.act (g.act f) = g.act (h.act f))
    (hc : c.IsExchange c' pre g h post) {e' : Executor} {pace' : Pace} {watch' : Observer α}
    {history history' : History α} (hrun : (e.run pace c watch).1.outcome = .ok history)
    (hrun' : (e'.run pace' c' watch').1.outcome = .ok history') :
    history.AgreesBut (pre.length + 1) history' := by
  obtain ⟨s, ts, hs, ht, rfl, -⟩ := exists_ofTrail hrun
  obtain ⟨s', ts', hs', ht', rfl, -⟩ := exists_ofTrail hrun'
  obtain ⟨u, hu⟩ := trail_exchange hcomm hc hs ht
  obtain ⟨-, -, hground⟩ := prepare_eq_ok_iff.mp (prepare_exchange hc hs)
  obtain ⟨-, -, hground'⟩ := prepare_eq_ok_iff.mp hs'
  rw [hground', ← hground] at ht' ⊢
  rw [ht'.unique hu]
  exact History.agreesBut_ofTrail_set s u (length_lt_of_trail hc ht)

end Executor

/-! ## Gates without a common qubit -/

namespace Gate

/-- The order of two gates does not matter: not to a state, and in a circuit only to the state
between them. -/
structure Exchangeable (α : Type) [Zero α] [One α] [Add α] [Sub α] [Mul α] [Neg α] [HalfRoot α]
    (g h : Gate) : Prop where
  /-- Both orders lead from a full state to the same state. -/
  apply : ∀ s : State α, s.IsFull → g.Fits s.width → h.Fits s.width →
    ∃ t, [g, h].foldlM State.apply s = .ok t ∧ [h, g].foldlM State.apply s = .ok t
  /-- A valid circuit stays valid when the gates are exchanged. -/
  validate : ∀ (c c' : Circuit) pre post, c.IsExchange c' pre g h post → c.validate = .ok () →
    c'.validate = .ok ()
  /-- Runs of both circuits fail alike, or finish alike but for the state between the gates, if
  they are cancelled alike. -/
  outcome : ∀ (c c' : Circuit) pre post, c.IsExchange c' pre g h post → c.validate = .ok () →
    ∀ (e : Executor) (pace : Pace) (watch : Observer α), (∀ t t' k, watch t k = watch t' k) →
      (∃ fault, (e.run pace c watch).1.outcome = .error fault ∧
        (e.run pace c' watch).1.outcome = .error fault) ∨
      ∃ history history', (e.run pace c watch).1.outcome = .ok history ∧
        (e.run pace c' watch).1.outcome = .ok history' ∧
        history.AgreesBut (pre.length + 1) history'
  /-- Any two runs of the circuits that finish agree but for the state between the gates. -/
  history : ∀ (c c' : Circuit) pre post, c.IsExchange c' pre g h post →
    ∀ (e e' : Executor) (pace pace' : Pace) (watch watch' : Observer α)
      (history history' : History α), (e.run pace c watch).1.outcome = .ok history →
      (e'.run pace' c' watch').1.outcome = .ok history' →
      history.AgreesBut (pre.length + 1) history'

theorem Exchangeable.of_act [Zero α] [One α] [Add α] [Sub α] [Mul α] [Neg α] [HalfRoot α]
    {g h : Gate} (hcomm : ∀ f : Nat → Amplitude α, h.act (g.act f) = g.act (h.act f)) :
    Exchangeable α g h where
  apply s hs hg hh := by
    refine hs.exists_foldlM ?_ ?_ hcomm
    · exact List.forall_mem_cons.mpr ⟨hg, by simpa using hh⟩
    · exact List.forall_mem_cons.mpr ⟨hh, by simpa using hg⟩
  validate _ _ _ _ hc hv := hc.validate hv
  outcome _ _ _ _ hc hv _ pace _ hblind := Executor.outcome_exchange hcomm hc hv hblind pace
  history _ _ _ _ hc _ _ _ _ _ _ _ _ hrun hrun' :=
    Executor.agreesBut_of_outcome hcomm hc hrun hrun'

/-- **The order of two gates without a common qubit does not matter.** For gates of which one is
Pauli X, controlled-NOT or swap, or none a Hadamard gate, this holds of any numbers that negating
twice does not change, such as binary64 numbers (`Binary64.neg_neg`), amplitude for amplitude. In
exact arithmetic, over any commutative ring and with any number in place of the root of one half, it
holds of all gates. -/
theorem exchangeable :
    (∀ (α : Type) [Zero α] [One α] [Add α] [Sub α] [Mul α] [Neg α] [HalfRoot α],
      (∀ x : α, - -x = x) → ∀ g h : Gate, g.qubits.Disjoint h.qubits →
        (g.IsClassical ∨ h.IsClassical ∨ g.kind ≠ .one .h ∧ h.kind ≠ .one .h) →
        Exchangeable α g h) ∧
    (∀ (α : Type) [CommRing α] [HalfRoot α] (g h : Gate), g.qubits.Disjoint h.qubits →
      Exchangeable α g h) := by
  refine ⟨?moves, ?exact⟩
  case moves =>
    intro α _ _ _ _ _ _ _ hneg g h hd hk
    exact .of_act (act_comm_of_neg_neg hneg hd hk)
  case exact =>
    intro α _ _ g h hd
    exact .of_act (act_comm hd)

/-- Pauli Y and Z on three qubits, the gates in the middle of a valid circuit, and two Hadamard gates
on numbers modulo seven. -/
theorem exchangeable_three_qubits :
    (∀ x : Float, - -x = x) ∧
    (∃ t, [.one .y ⟨0⟩, .one .z ⟨2⟩].foldlM State.apply
        (⟨3, #[⟨0.5, -0.5⟩, 0, ⟨-0.0, 0⟩, 0, 0, ⟨0, 0.5⟩, 0, ⟨0.5, 0⟩]⟩ : State Float) = .ok t ∧
      [.one .z ⟨2⟩, .one .y ⟨0⟩].foldlM State.apply
        (⟨3, #[⟨0.5, -0.5⟩, 0, ⟨-0.0, 0⟩, 0, 0, ⟨0, 0.5⟩, 0, ⟨0.5, 0⟩]⟩ : State Float) = .ok t) ∧
    (∃ history history' : History Float,
      (({ settings := .immediate } : Executor).run .blocking
        (.ofGates 3 [.one .h ⟨0⟩, .two .cnot ⟨0⟩ (some ⟨2⟩), .one .x ⟨1⟩, .one .y ⟨2⟩])
        (.cancelAt none)).1.outcome = .ok history ∧
      (({ settings := .immediate } : Executor).run .blocking
        (.ofGates 3 [.one .h ⟨0⟩, .one .x ⟨1⟩, .two .cnot ⟨0⟩ (some ⟨2⟩), .one .y ⟨2⟩])
        (.cancelAt none)).1.outcome = .ok history' ∧
      history.AgreesBut 2 history') ∧
    ∃ t, [.one .h ⟨0⟩, .one .h ⟨1⟩].foldlM State.apply
        (⟨2, #[⟨1, 2⟩, ⟨3, 4⟩, ⟨5, 6⟩, ⟨0, 1⟩]⟩ : State (ZMod 7)) = .ok t ∧
      [.one .h ⟨1⟩, .one .h ⟨0⟩].foldlM State.apply
        (⟨2, #[⟨1, 2⟩, ⟨3, 4⟩, ⟨5, 6⟩, ⟨0, 1⟩]⟩ : State (ZMod 7)) = .ok t := by
  refine ⟨Binary64.neg_neg, ?paulis, ?runs, ?hadamards⟩
  case paulis =>
    exact (exchangeable.1 Float Binary64.neg_neg (.one .y ⟨0⟩) (.one .z ⟨2⟩)
      (by simp [qubits]) (by decide)).apply _ (by decide) (by decide) (by decide)
  case runs =>
    obtain ⟨fault, hfails, -⟩ | hends := (exchangeable.1 Float Binary64.neg_neg
      (.two .cnot ⟨0⟩ (some ⟨2⟩)) (.one .x ⟨1⟩) (by simp [qubits]) (by decide)).outcome
      (.ofGates 3 [.one .h ⟨0⟩, .two .cnot ⟨0⟩ (some ⟨2⟩), .one .x ⟨1⟩, .one .y ⟨2⟩])
      (.ofGates 3 [.one .h ⟨0⟩, .one .x ⟨1⟩, .two .cnot ⟨0⟩ (some ⟨2⟩), .one .y ⟨2⟩])
      [.one .h ⟨0⟩] [.one .y ⟨2⟩] ⟨rfl, rfl, rfl⟩ (by decide) { settings := .immediate } .blocking
      (.cancelAt none) (fun _ _ _ => rfl)
    · cases (show Except.ok _ = Except.error _ from hfails)
    · exact hends
  case hadamards =>
    exact (exchangeable.2 (ZMod 7) (.one .h ⟨0⟩) (.one .h ⟨1⟩) (by simp [qubits])).apply _
      (by decide) (by decide) (by decide)

end Gate

end Statevector
