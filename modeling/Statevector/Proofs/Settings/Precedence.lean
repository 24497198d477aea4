import Statevector.Command.Respond
import Statevector.Proofs.Run.Bound

/-!
# Which settings a task has

The settings of a task come from three places: a value of the environment goes before one of the
settings file, and that before the standard one, for each setting on its own.

* `Spells`, `unsigned?_eq_some_iff`: the numbers that texts from outside spell;
* `Resolves`, `resolves_getD`: what one setting resolves to, and how it is found;
  `Settings.IsResolved`: the same for all settings; `Settings.IsResolved.unique`: they are
  determined;
* `Command.Host.Gives`, `Command.Host.IsUnusable`: what a settings file gives, and the files that
  fail a task; `Command.baseSettings`: the settings before the environment is looked at;
* **`Command.loadSettings_precedence`**: the settings of a task, and the executors made with them.
-/

namespace Statevector

open Text

/-! ## Numbers from outside -/

/-- A text spells a number below a bound: it has digits after at most one plus sign. -/
def Spells (bound : Nat) (text : String) (n : Nat) : Prop :=
  ∃ ds : List Char, (text.toList = ds ∨ text.toList = '+' :: ds) ∧ ds ≠ [] ∧
    (∀ c ∈ ds, c.isDigit = true) ∧ numeralValue ds = n ∧ n < bound

theorem unsigned?_eq_some_iff {cs : List Char} {n : Nat} : unsigned? cs = some n ↔
    ∃ ds : List Char, (cs = ds ∨ cs = '+' :: ds) ∧ ds ≠ [] ∧ (∀ c ∈ ds, c.isDigit = true) ∧
      numeralValue ds = n := by
  constructor
  · intro h
    simp only [unsigned?, Option.ite_none_right_eq_some, Option.some.injEq, List.all_eq_true] at h
    obtain ⟨⟨hne, hdigit⟩, hvalue⟩ := h
    refine ⟨_, ?_, hne, hdigit, hvalue⟩
    split
    · next hplus =>
      obtain ⟨tail, rfl⟩ := List.head?_eq_some_iff.mp hplus
      exact .inr rfl
    · exact .inl rfl
  · rintro ⟨ds, hcs, hne, hdigit, rfl⟩
    have htail : (if cs.head? = some '+' then cs.tail else cs) = ds := by
      rcases hcs with rfl | rfl
      · -- digits do not start with a plus sign
        rw [if_neg]
        intro hplus
        obtain ⟨tail, rfl⟩ := List.head?_eq_some_iff.mp hplus
        exact absurd (hdigit '+' List.mem_cons_self) (by decide)
      · rfl
    rw [unsigned?, htail]
    exact if_pos ⟨hne, List.all_eq_true.mpr hdigit⟩

theorem spells_iff {bound : Nat} {text : String} {n : Nat} :
    Spells bound text n ↔ unsigned? text.toList = some n ∧ n < bound := by
  rw [unsigned?_eq_some_iff]
  exact ⟨fun ⟨ds, h, hne, hdigit, hn, hlt⟩ => ⟨⟨ds, h, hne, hdigit, hn⟩, hlt⟩,
    fun ⟨⟨ds, h, hne, hdigit, hn⟩, hlt⟩ => ⟨ds, h, hne, hdigit, hn, hlt⟩⟩

theorem Spells.unique {bound : Nat} {text : String} {n k : Nat} (h : Spells bound text n)
    (h' : Spells bound text k) : n = k :=
  Option.some.inj ((spells_iff.mp h).1.symm.trans (spells_iff.mp h').1)

theorem word64?_eq_some_iff {n : Nat} {w : UInt64} :
    word64? n = some w ↔ w.toNat = n ∧ n < 2 ^ 64 := by
  rw [word64?, Option.ite_none_right_eq_some, Option.some.injEq, and_comm]
  refine and_congr_left fun hn => ?_
  rw [← UInt64.toNat_inj, UInt64.toNat_ofNat_of_lt' hn, eq_comm]

theorem word32?_eq_some_iff {n : Nat} {w : UInt32} :
    word32? n = some w ↔ w.toNat = n ∧ n < 2 ^ 32 := by
  rw [word32?, Option.ite_none_right_eq_some, Option.some.injEq, and_comm]
  refine and_congr_left fun hn => ?_
  rw [← UInt32.toNat_inj, UInt32.toNat_ofNat_of_lt' hn, eq_comm]

theorem readWord64?_eq_some_iff {text : String} {w : UInt64} :
    Settings.readWord64? text = some w ↔ Spells (2 ^ 64) text w.toNat := by
  rw [spells_iff, Settings.readWord64?, Option.bind_eq_bind, Option.bind_eq_some_iff]
  simp only [word64?_eq_some_iff]
  exact ⟨fun ⟨n, hn, hw, hlt⟩ => ⟨hw ▸ hn, hw ▸ hlt⟩, fun ⟨hn, hlt⟩ => ⟨_, hn, rfl, hlt⟩⟩

theorem readWord32?_eq_some_iff {text : String} {w : UInt32} :
    Settings.readWord32? text = some w ↔ Spells (2 ^ 32) text w.toNat := by
  rw [spells_iff, Settings.readWord32?, Option.bind_eq_bind, Option.bind_eq_some_iff]
  simp only [word32?_eq_some_iff]
  exact ⟨fun ⟨n, hn, hw, hlt⟩ => ⟨hw ▸ hn, hw ▸ hlt⟩, fun ⟨hn, hlt⟩ => ⟨_, hn, rfl, hlt⟩⟩

/-! ## Resolved settings -/

/-- What a setting resolves to: the number that the environment spells, else that of the settings
file, else the standard one. -/
inductive Resolves (bound : Nat) (env : Option String) (file : Option Nat) (standard : Nat) :
    Nat → Prop
  | env {text : String} {n : Nat} : env = some text → Spells bound text n →
    Resolves bound env file standard n
  | file {n : Nat} : (∀ text ∈ env, ∀ k, ¬ Spells bound text k) → file = some n →
    Resolves bound env file standard n
  | standard : (∀ text ∈ env, ∀ k, ¬ Spells bound text k) → file = none →
    Resolves bound env file standard standard

theorem Resolves.unique {bound standard n k : Nat} {env : Option String} {file : Option Nat}
    (h : Resolves bound env file standard n) (h' : Resolves bound env file standard k) : n = k := by
  cases h with
  | env henv hn =>
    cases h' with
    | env henv' hk =>
      cases henv.symm.trans henv'
      exact hn.unique hk
    | file hnone _ => exact absurd hn (hnone _ henv _)
    | standard hnone _ => exact absurd hn (hnone _ henv _)
  | file hnone hn =>
    cases h' with
    | env henv hk => exact absurd hk (hnone _ henv _)
    | file _ hk => exact Option.some.inj (hn.symm.trans hk)
    | standard _ hk => cases hn.symm.trans hk
  | standard hnone hn =>
    cases h' with
    | env henv hk => exact absurd hk (hnone _ henv _)
    | file _ hk => cases hn.symm.trans hk
    | standard _ _ => rfl

/-- A value that can be read from the environment goes before that of the file, and that before the
standard one. -/
theorem resolves_getD {β : Type} {toNat : β → Nat} {read : String → Option β} {bound : Nat}
    (hread : ∀ text w, read text = some w ↔ Spells bound text (toNat w))
    (hword : ∀ n < bound, ∃ w, toNat w = n) (env : Option String) (file : Option β)
    (standard : β) : Resolves bound env (file.map toNat) (toNat standard)
      (toNat ((env >>= read).getD (file.getD standard))) := by
  cases hvalue : env >>= read with
  | some w =>
    obtain ⟨text, htext, hw⟩ := Option.bind_eq_some_iff.mp hvalue
    exact .env htext ((hread text w).mp hw)
  | none =>
    have hnone : ∀ text ∈ env, ∀ k, ¬ Spells bound text k := by
      intro text htext k hk
      obtain ⟨w, rfl⟩ := hword k (spells_iff.mp hk).2
      have hw : env >>= read = some w :=
        Option.bind_eq_some_iff.mpr ⟨text, htext, (hread text w).mpr hk⟩
      cases hw.symm.trans hvalue
    cases file with
    | some w => exact .file hnone rfl
    | none => exact .standard hnone rfl

namespace Settings

/-- What settings resolve to under the values of a settings file and of the environment. -/
structure IsResolved (s : Settings) (file : Values) (env : Environment) : Prop where
  stepDelay : Resolves (2 ^ 64) env.stepDelay (file.stepDelay.map UInt64.toNat) 300
    s.stepDelay.toNat
  maxQubits : Resolves (2 ^ 32) env.maxQubits (file.maxQubits.map UInt32.toNat) 20
    s.maxQubits.toNat

theorem IsResolved.unique {s t : Settings} {file : Values} {env : Environment}
    (h : s.IsResolved file env) (h' : t.IsResolved file env) : s = t := by
  obtain ⟨delay, width⟩ := s
  obtain ⟨delay', width'⟩ := t
  obtain rfl : delay = delay' := UInt64.toNat_inj.mp (h.stepDelay.unique h'.stepDelay)
  obtain rfl : width = width' := UInt32.toNat_inj.mp (h.maxQubits.unique h'.maxQubits)
  rfl

/-- The values of the environment over those of the file over the standard ones. -/
theorem isResolved_override (file : Values) (env : Environment) :
    ((file.over .standard).override env).IsResolved file env where
  stepDelay := resolves_getD (fun _ _ => readWord64?_eq_some_iff)
    (fun n hn => ⟨.ofNat n, UInt64.toNat_ofNat_of_lt' hn⟩) env.stepDelay file.stepDelay
    standard.stepDelay
  maxQubits := resolves_getD (fun _ _ => readWord32?_eq_some_iff)
    (fun n hn => ⟨.ofNat n, UInt32.toNat_ofNat_of_lt' hn⟩) env.maxQubits file.maxQubits
    standard.maxQubits

/-- A width limit is in range. -/
def InRange (n : UInt32) : Prop := 1 ≤ n.toNat ∧ n.toNat ≤ 30

instance (n : UInt32) : Decidable (InRange n) := inferInstanceAs (Decidable (_ ∧ _))

theorem check_eq (s : Settings) : s.check =
    if InRange s.maxQubits then .ok () else .error (.widthLimit s.maxQubits) := by
  have hzero : s.maxQubits = 0 ↔ s.maxQubits.toNat = 0 := UInt32.toNat_inj.symm
  have hlimit : Statevector.widthLimit < s.maxQubits ↔ 30 < s.maxQubits.toNat :=
    UInt32.lt_iff_toNat_lt
  have hrange : InRange s.maxQubits ↔
      ¬ (s.maxQubits = 0 ∨ Statevector.widthLimit < s.maxQubits) := by
    rw [hzero, hlimit, InRange]
    omega
  by_cases h : InRange s.maxQubits
  · rw [if_pos h]
    exact if_neg (hrange.mp h)
  · rw [if_neg h]
    exact if_pos (not_not.mp (mt hrange.mpr h))

theorem ofText_of_values {read : Reader} {path text : String} {v : Values}
    (h : read text = some v) : ofText read path text =
      if InRange (v.over .standard).maxQubits then .ok (v.over .standard)
      else .error (.widthLimit (v.over .standard).maxQubits) := by
  simp only [ofText, h, check_eq]
  split <;> rfl

/-- The standard width limit is in range, so a file that gives none is. -/
theorem inRange_over_iff (v : Values) :
    InRange (v.over .standard).maxQubits ↔ ∀ n ∈ v.maxQubits, InRange n := by
  unfold Values.over
  cases v.maxQubits with
  | none => exact ⟨fun _ => nofun, fun _ => (by decide : InRange 20)⟩
  | some n => simp

end Settings

/-! ## Settings files -/

namespace Command

open Settings (Values Reader InRange)

/-- What the settings file of a task gives; without one it is nothing. -/
def Host.Gives (host : Host) (read : Reader) (named : Option String) (file : Values) : Prop :=
  match configPath? host named with
  | none => file = {}
  | some path => ∃ text, (host.entry path).text = .ok text ∧ read text = some file

/-- The settings file at a path is unusable: it cannot be read, it is no settings file, or its own
width limit is out of range. -/
inductive Host.IsUnusable (host : Host) (read : Reader) (path : String) : Prop
  | unreadable {reason : String} : (host.entry path).text = .error reason →
    host.IsUnusable read path
  | malformed {text : String} : (host.entry path).text = .ok text → read text = none →
    host.IsUnusable read path
  | outOfRange {text : String} {v : Values} {n : UInt32} : (host.entry path).text = .ok text →
    read text = some v → v.maxQubits = some n → ¬ InRange n → host.IsUnusable read path

variable {read : Reader} {host : Host} {named : Option String} {path : String}

theorem settingsOfFile_of_isUnusable (h : host.IsUnusable read path) :
    ∃ fault, settingsOfFile read host path = .error fault := by
  unfold settingsOfFile
  cases h with
  | unreadable hentry => exact ⟨_, by rw [hentry]⟩
  | malformed hentry htext =>
    refine ⟨.unreadable path "not a settings file", ?_⟩
    rw [hentry]
    simp only [Settings.ofText, htext]
  | @outOfRange text v n hentry htext hn hrange =>
    have hover : ¬ InRange (v.over .standard).maxQubits := fun h =>
      hrange ((Settings.inRange_over_iff v).mp h n hn)
    refine ⟨.widthLimit (v.over .standard).maxQubits, ?_⟩
    rw [hentry]
    exact (Settings.ofText_of_values htext).trans (if_neg hover)

/-- The settings of the file of a task, or the standard ones without a file. -/
def baseSettings (read : Reader) (host : Host) (named : Option String) :
    Except Settings.Fault Settings :=
  match configPath? host named with
  | some path => settingsOfFile read host path
  | none => .ok .standard

/-- Unless its file is unusable, a task starts from the values of its file over the standard
ones. -/
theorem exists_baseSettings
    (h : ∀ path, configPath? host named = some path → ¬ host.IsUnusable read path) :
    ∃ file, host.Gives read named file ∧
      baseSettings read host named = .ok (file.over .standard) := by
  unfold Host.Gives baseSettings
  cases hpath : configPath? host named with
  | none => exact ⟨{}, rfl, rfl⟩
  | some path =>
    cases hentry : (host.entry path).text with
    | error reason => exact absurd (.unreadable hentry) (h path hpath)
    | ok text =>
      cases htext : read text with
      | none => exact absurd (.malformed hentry htext) (h path hpath)
      | some v =>
        have hover : InRange (v.over .standard).maxQubits := by
          refine (Settings.inRange_over_iff v).mpr fun n hn => Decidable.byContradiction ?_
          exact fun hrange => h path hpath (.outOfRange hentry htext hn hrange)
        refine ⟨v, ⟨text, hentry, htext⟩, ?_⟩
        simp only [settingsOfFile, hentry]
        exact (Settings.ofText_of_values htext).trans (if_pos hover)

/-! ## Loading -/

theorem loadSettings_of_error {fault : Settings.Fault}
    (h : baseSettings read host named = .error fault) : ∃ path, configPath? host named = some path ∧
      loadSettings read host named = .error (.settings (some path) fault) := by
  unfold baseSettings at h
  split at h
  · next path hpath =>
    refine ⟨path, hpath, ?_⟩
    rw [loadSettings, hpath]
    simp only [h]
    rfl
  · cases h

/-- Settings under the values of the environment are checked once more. -/
theorem loadSettings_of_ok {base : Settings} (h : baseSettings read host named = .ok base) :
    loadSettings read host named = if InRange (base.override host.environment).maxQubits
      then .ok (base.override host.environment)
      else .error (.settings none (.widthLimit (base.override host.environment).maxQubits)) := by
  have hchecked (s : Settings) : (s.check.mapError (Fault.settings none) >>= fun _ => .ok s) =
      if InRange s.maxQubits then .ok s
      else .error (.settings none (.widthLimit s.maxQubits)) := by
    rw [Settings.check_eq]
    split <;> rfl
  rw [← hchecked]
  unfold baseSettings at h
  split at h
  · next path hpath =>
    rw [loadSettings, hpath]
    simp only [h]
    rfl
  · next hpath =>
    cases h
    rw [loadSettings, hpath]
    rfl

theorem inRange_of_loadSettings {s : Settings} (h : loadSettings read host named = .ok s) :
    InRange s.maxQubits := by
  cases hbase : baseSettings read host named with
  | error fault =>
    obtain ⟨path, -, herror⟩ := loadSettings_of_error hbase
    cases herror.symm.trans h
  | ok base =>
    rw [loadSettings_of_ok hbase] at h
    split at h
    · next hrange =>
      cases h
      exact hrange
    · cases h

/-! ## Executors -/

theorem loadExecutor_eq (read : Reader) (host : Host) (named : Option String)
    (delay : Option UInt64) :
    loadExecutor read host named delay = (loadSettings read host named).map fun s =>
      { settings := { s with stepDelay := delay.getD s.stepDelay } } := by
  unfold loadExecutor
  cases loadSettings read host named <;> rfl

theorem limit_of_inRange {e : Executor} (h : InRange e.settings.maxQubits) :
    e.limit = e.settings.maxQubits := by
  change (if e.settings.maxQubits ≤ widthLimit then _ else widthLimit) = _
  exact if_pos (UInt32.le_iff_toNat_le.mpr h.2)

theorem limit_of_loadExecutor {delay : Option UInt64} {e : Executor}
    (h : loadExecutor read host named delay = .ok e) :
    e.limit = e.settings.maxQubits ∧ InRange e.settings.maxQubits := by
  rw [loadExecutor_eq] at h
  cases hs : loadSettings read host named with
  | error fault =>
    rw [hs] at h
    cases h
  | ok s =>
    rw [hs] at h
    cases h
    have hrange : InRange s.maxQubits := inRange_of_loadSettings hs
    exact ⟨limit_of_inRange hrange, hrange⟩

/-- A run that does not fail for its settings or its circuit is one of the executor that is
loaded. -/
theorem perform_run (read : Reader) (host : Host) (named : Option String) (input : Input)
    (delay : Option UInt64) (format : Format) (steps : Bool) :
    (∃ fault, perform read host ⟨named, .run input delay format steps⟩ =
      { output := .text "", fault := some fault }) ∨
    ∃ e c, loadExecutor read host named delay = .ok e ∧ loadCircuit host input = .ok c ∧
      perform read host ⟨named, .run input delay format steps⟩ = runCircuit e c format steps := by
  cases he : loadExecutor read host named delay with
  | error fault =>
    refine .inl ⟨fault, ?_⟩
    simp only [perform, he]
    rfl
  | ok e =>
    cases hc : loadCircuit host input with
    | error fault =>
      refine .inl ⟨fault, ?_⟩
      simp only [perform, he, hc]
      rfl
    | ok c =>
      refine .inr ⟨e, c, rfl, rfl, ?_⟩
      simp only [perform, he, hc]
      rfl

/-- **Which settings a task has, and what its runs can be sure of**, whatever finds the values in its
settings file. An unusable file fails the task, whatever the environment says. Without one each setting resolves on its own, and loading
fails only if the width limit that comes out is out of range. An executor is made with the loaded
settings, but for the pause if one is given; its width limit is in range and is theirs, and bounds
all states of its runs. Every run of a task is one of such an executor. -/
theorem loadSettings_precedence (read : Reader) (host : Host) (named : Option String) :
    (∀ path, configPath? host named = some path → host.IsUnusable read path →
      ∃ fault, ∀ environment, loadSettings read { host with environment } named = .error fault) ∧
    ((∀ path, configPath? host named = some path → ¬ host.IsUnusable read path) →
      ∃ file s, host.Gives read named file ∧ s.IsResolved file host.environment ∧
        (∀ t : Settings, t.IsResolved file host.environment → t = s) ∧
        loadSettings read host named = if 1 ≤ s.maxQubits.toNat ∧ s.maxQubits.toNat ≤ 30 then .ok s
          else .error (.settings none (.widthLimit s.maxQubits))) ∧
    (∀ delay, loadExecutor read host named delay = (loadSettings read host named).map fun s =>
      { settings := { s with stepDelay := delay.getD s.stepDelay } }) ∧
    (∀ delay e, loadExecutor read host named delay = .ok e → e.limit = e.settings.maxQubits ∧
      (1 ≤ e.limit.toNat ∧ e.limit.toNat ≤ 30) ∧ e.IsBounded (2 ^ e.settings.maxQubits.toNat)) ∧
    ∀ input delay format steps,
      (∃ fault, perform read host ⟨named, .run input delay format steps⟩ =
        { output := .text "", fault := some fault }) ∨
      ∃ e c, loadExecutor read host named delay = .ok e ∧ loadCircuit host input = .ok c ∧
        perform read host ⟨named, .run input delay format steps⟩ = runCircuit e c format steps := by
  refine ⟨fun path hpath hunusable => ?_, fun husable => ?_, loadExecutor_eq read host named,
    fun delay e he => ?_, perform_run read host named⟩
  · obtain ⟨fault, hfault⟩ := settingsOfFile_of_isUnusable hunusable
    refine ⟨.settings (some path) fault, fun environment => ?_⟩
    -- the settings file does not depend on the environment
    have hbase : baseSettings read { host with environment } named = .error fault := by
      change baseSettings read host named = _
      rw [baseSettings, hpath]
      exact hfault
    obtain ⟨path', hpath', herror⟩ := loadSettings_of_error hbase
    cases hpath'.symm.trans hpath
    exact herror
  · obtain ⟨file, hfile, hbase⟩ := exists_baseSettings husable
    have hresolved := Settings.isResolved_override file host.environment
    exact ⟨file, _, hfile, hresolved, fun t ht => ht.unique hresolved, loadSettings_of_ok hbase⟩
  · obtain ⟨hlimit, hrange⟩ := limit_of_loadExecutor he
    refine ⟨hlimit, hlimit ▸ hrange, ?_⟩
    rw [← hlimit]
    exact e.isBounded

/-- A file that asks for 64 qubits is unusable. One that asks for five gives the pause where the
environment gives none that can be read, and is overruled on the width. -/
theorem loadSettings_precedence_two_files :
    ∃ host : Host, host.environment = ⟨some "x", some "+08"⟩ ∧
      (∃ fault, ∀ environment, loadSettings Values.ofText? { host with environment } (some "wide") =
        .error fault) ∧
      loadSettings Values.ofText? host (some "narrow") = .ok ⟨7, 8⟩ ∧
      loadExecutor Values.ofText? host (some "narrow") (some 0) = .ok { settings := ⟨0, 8⟩ } ∧
      ({ settings := ⟨0, 8⟩ } : Executor).IsBounded 256 := by
  obtain ⟨host, hhost⟩ : ∃ host : Host, host = {
    entry := fun path => .file (if path = "wide" then "max_qubits: 64"
      else "max_qubits: 5\nstep_delay_ms: 7").toUTF8
    environment := ⟨some "x", some "+08"⟩ } := ⟨_, rfl⟩
  have hwide : host.IsUnusable Values.ofText? "wide" := by
    subst hhost
    exact @Host.IsUnusable.outOfRange _ _ _ "max_qubits: 64" ⟨none, some 64⟩ 64 (by decide +kernel)
      (by decide +kernel) rfl (by decide)
  have hnarrow : loadSettings Values.ofText? host (some "narrow") = .ok ⟨7, 8⟩ := by
    subst hhost
    decide +kernel
  obtain ⟨hfails, -, -, -, -⟩ := loadSettings_precedence Values.ofText? host (some "wide")
  obtain ⟨-, -, hexecutor, hbounded, -⟩ :=
    loadSettings_precedence Values.ofText? host (some "narrow")
  have hzero : loadExecutor Values.ofText? host (some "narrow") (some 0) =
      .ok { settings := ⟨0, 8⟩ } := by
    rw [hexecutor, hnarrow]
    rfl
  exact ⟨host, by rw [hhost], hfails "wide" rfl hwide, hnarrow, hzero, (hbounded _ _ hzero).2.2⟩

end Command

end Statevector
