import Statevector.Run.Roster

/-!
# Members of a roster do not disturb each other

* `Flagged.CopiesBy`: how copies are made in a store; `Executor.copiesBy`, `Session.copiesBy`: by
  `Executor.copy` and `Session.copy`;
* `Roster.member?_setFlag_of_ne`, `Roster.member?_put_of_ne`, `Roster.member?_addCopy_of_lt`: what
  is done to one member leaves the others as they are; `Roster.member?_setFlag_self`,
  `Roster.member?_put_self`, `Roster.member?_addCopy_self`: what it makes of that member;
* `Roster.serve_cases`: all that serving a request can do; `Roster.serve_other`: a request to
  another member changes nothing;
* `Roster.serveAll`: requests served in order; `Roster.perform`: what something does that stands
  alone; **`Roster.serveAll_alone`**: a member answers as if it stood alone;
* **`Roster.serve_independent`**: this is so for executors and for sessions, and all handles of a
  member lead to the one flag that it has.
-/

namespace Statevector

/-! ## Copies in a store -/

open Flagged (valueIn)

/-- A copy that is made in a store has the value that `copy` makes of what is copied. -/
def Flagged.CopiesBy {σ : Type} [Flagged σ] (copy : σ → σ) : Prop :=
  ∀ (m : Flagged.Data σ × Handle) f,
    valueIn ((Flagged.copyIn m).run f).2 ((Flagged.copyIn m).run f).1 = copy (valueIn f m)

theorem Executor.copiesBy : Flagged.CopiesBy Executor.copy := fun m f =>
  congrArg (Executor.mk m.1) f.isSet_new

theorem Session.copiesBy {α : Type} : Flagged.CopiesBy (Session.copy (α := α)) := fun m f =>
  congrArg (fun b => Session.mk (Executor.mk m.1.1 b) m.1.2.1 m.1.2.2) f.isSet_new

namespace Roster

variable {σ ι ρ : Type} [Flagged σ] {r r' : Roster σ} {i j : Nat} {h : Handle} {s : σ}

/-! ## Handles -/

theorem handle?_eq (r : Roster σ) (i : Nat) : r.handle? i = (r.members.map Prod.snd)[i]? :=
  List.getElem?_map.symm

theorem has_of_handle? (hi : r.handle? i = some h) : r.flags.Has h := by
  rw [handle?_eq] at hi
  exact r.has h (List.mem_of_getElem? hi)

/-- No two members have the same handle. -/
theorem eq_of_handle? (hi : r.handle? i = some h) (hj : r.handle? j = some h) : j = i := by
  rw [handle?_eq] at hi hj
  have hlt := (List.getElem?_eq_some_iff.mp hj).1
  exact (List.getElem?_inj hlt r.nodup).mp (hj.trans hi.symm)

theorem isSet_setFlag_self (hi : r.handle? i = some h) (b : Bool) :
    (r.setFlag h b).isSet h = b := Flags.isSet_put_self (has_of_handle? hi) b

theorem isSet_setFlag_of_ne {h' : Handle} (hne : h' ≠ h) (b : Bool) :
    (r.setFlag h b).isSet h' = r.isSet h' := Flags.isSet_put_of_ne hne b

/-- Copies keep the flags that there are. -/
theorem isSet_addCopy (hi : r.handle? i = some h) (m : Flagged.Data σ × Handle) :
    (r.addCopy m).isSet h = r.isSet h :=
  ((Flagged.gains_copyIn m r.flags).kept h (has_of_handle? hi)).2

/-! ## Members -/

theorem exists_of_member? (hs : r.member? i = some s) : ∃ m, r.members[i]? = some m ∧
    r.handle? i = some m.2 ∧ r.isSet m.2 = Flagged.flag s ∧ Flagged.data s = m.1 := by
  obtain ⟨m, hm, rfl⟩ := Option.map_eq_some_iff.mp hs
  refine ⟨m, hm, ?_, (Flagged.flag_join _ _).symm, Flagged.data_join _ _⟩
  rw [handle?, hm]
  rfl

theorem exists_member? (hi : i < r.size) : ∃ s, r.member? i = some s := by
  rw [member?, List.getElem?_eq_getElem hi]
  exact ⟨_, rfl⟩

theorem exists_member?_of_handle? (hi : r.handle? i = some h) : ∃ s, r.member? i = some s := by
  obtain ⟨m, hm, -⟩ := Option.map_eq_some_iff.mp hi
  exact exists_member? (List.getElem?_eq_some_iff.mp hm).1

theorem lt_size_of_member? (hs : r.member? i = some s) : i < r.size := by
  obtain ⟨m, hm, -⟩ := exists_of_member? hs
  exact (List.getElem?_eq_some_iff.mp hm).1

/-- Members with the same data and the same flag are the same. -/
theorem member?_congr (hmembers : r'.members[i]? = r.members[i]?)
    (hflag : ∀ h, r.handle? i = some h → r'.isSet h = r.isSet h) : r'.member? i = r.member? i := by
  rw [member?, member?, hmembers]
  refine Option.map_congr fun m hm => ?_
  exact congrArg (Flagged.join m.1) (hflag m.2 (by rw [handle?, hm]; rfl))

theorem member?_setFlag_of_ne (hi : r.handle? i = some h) (hne : j ≠ i) (b : Bool) :
    (r.setFlag h b).member? j = r.member? j := by
  refine member?_congr rfl fun h' hj => isSet_setFlag_of_ne ?_ b
  rintro rfl
  exact hne (eq_of_handle? hi hj)

theorem member?_setFlag_self (hi : r.handle? i = some h) (hs : r.member? i = some s) (b : Bool) :
    (r.setFlag h b).member? i = some (Flagged.join (Flagged.data s) b) := by
  obtain ⟨m, hm, hh, -, hdata⟩ := exists_of_member? hs
  obtain rfl : m.2 = h := Option.some.inj (hh.symm.trans hi)
  have hm' : (r.setFlag m.2 b).members[i]? = some m := hm
  rw [member?, hm', Option.map_some, valueIn, ← isSet, isSet_setFlag_self hi, hdata]

theorem members_put (hi : r.handle? i = some h) (s : σ) :
    (r.put i s).members = r.members.modify i fun m => (Flagged.data s, m.2) := by
  simp only [put, hi]

theorem flags_put (hi : r.handle? i = some h) (s : σ) :
    (r.put i s).flags = r.flags.put h (Flagged.flag s) := by
  simp only [put, hi]
  rfl

theorem handle?_put (r : Roster σ) (i j : Nat) (s : σ) : (r.put i s).handle? j = r.handle? j := by
  cases hi : r.handle? i with
  | none => simp only [put, hi]
  | some h => rw [handle?_eq, handle?_eq, members_put hi, map_snd_modify]

theorem size_put (r : Roster σ) (i : Nat) (s : σ) : (r.put i s).size = r.size := by
  cases hi : r.handle? i with
  | none => simp only [put, hi]
  | some h => rw [size, members_put hi, List.length_modify, size]

theorem isSet_put (hi : r.handle? i = some h) (s : σ) (h' : Handle) :
    (r.put i s).isSet h' = (r.setFlag h (Flagged.flag s)).isSet h' := by
  rw [isSet, flags_put hi]
  rfl

theorem member?_put_of_ne (hne : j ≠ i) (s : σ) : (r.put i s).member? j = r.member? j := by
  cases hi : r.handle? i with
  | none => simp only [put, hi]
  | some h =>
    refine member?_congr ?_ fun h' hj => ?_
    · rw [members_put hi, List.getElem?_modify_ne _ _ hne.symm]
    · rw [isSet_put hi, isSet_setFlag_of_ne]
      rintro rfl
      exact hne (eq_of_handle? hi hj)

theorem member?_put_self (hs : r.member? i = some s) (t : σ) :
    (r.put i t).member? i = some t := by
  obtain ⟨m, hm, hi, -⟩ := exists_of_member? hs
  have hput : (r.put i t).members[i]? = some (Flagged.data t, m.2) := by
    rw [members_put hi, List.getElem?_modify_eq, hm]
    rfl
  rw [member?, hput, Option.map_some, valueIn, ← isSet, isSet_put hi, isSet_setFlag_self hi,
    Flagged.join_data_flag]

/-- To put a member back with another flag is to set the flag behind its handle. -/
theorem member?_put_join (hi : r.handle? i = some h) (hs : r.member? i = some s) (b : Bool)
    (j : Nat) :
    (r.put i (Flagged.join (Flagged.data s) b)).member? j = (r.setFlag h b).member? j := by
  by_cases hne : j = i
  · subst hne
    rw [member?_put_self hs, member?_setFlag_self hi hs]
  · rw [member?_put_of_ne hne, member?_setFlag_of_ne hi hne]

theorem size_addCopy (r : Roster σ) (m : Flagged.Data σ × Handle) :
    (r.addCopy m).size = r.size + 1 := by
  simp [size, addCopy]

theorem handle?_addCopy_of_lt (hi : i < r.size) (m : Flagged.Data σ × Handle) :
    (r.addCopy m).handle? i = r.handle? i := by
  rw [handle?, handle?, addCopy, List.getElem?_append_left hi]

theorem member?_addCopy_of_lt (hi : i < r.size) (m : Flagged.Data σ × Handle) :
    (r.addCopy m).member? i = r.member? i :=
  member?_congr (List.getElem?_append_left hi) fun _ hh => isSet_addCopy hh m

theorem getElem?_addCopy_size (r : Roster σ) (m : Flagged.Data σ × Handle) :
    (r.addCopy m).members[r.size]? = some ((Flagged.copyIn m).run r.flags).1 :=
  List.getElem?_concat_length

/-- The handle of a copy is none that there was. -/
theorem handle?_addCopy_self (r : Roster σ) (m : Flagged.Data σ × Handle) :
    ∃ h, (r.addCopy m).handle? r.size = some h ∧ ¬ r.flags.Has h := by
  refine ⟨_, ?_, (Flagged.gains_copyIn m r.flags).fresh⟩
  rw [handle?, getElem?_addCopy_size]
  rfl

theorem member?_addCopy_self {copy : σ → σ} (hcopy : Flagged.CopiesBy copy) (r : Roster σ)
    (m : Flagged.Data σ × Handle) :
    (r.addCopy m).member? r.size = some (copy (valueIn r.flags m)) := by
  rw [member?, getElem?_addCopy_size, ← hcopy]
  rfl

/-! ## One request -/

variable {act : σ → ι → ρ × σ} {request : Request ι} {answer : Answer ρ}

theorem serve_act (hs : r.member? i = some s) (a : ι) : r.serve act i (.act a) =
    some (.reply (act s a).1, r.put i (act s a).2) := by
  obtain ⟨m, hm, rfl⟩ := Option.map_eq_some_iff.mp hs
  rw [serve, hm]
  rfl

theorem serve_copy {m : Flagged.Data σ × Handle} (hm : r.members[i]? = some m) :
    r.serve act i .copy = some (.size (r.size + 1), r.addCopy m) := by
  rw [serve, hm]
  rfl

/-- All that serving a request can do. -/
theorem serve_cases (h : r.serve act i request = some (answer, r')) :
    (∃ s a, r.member? i = some s ∧ request = .act a ∧ answer = .reply (act s a).1 ∧
      r' = r.put i (act s a).2) ∨
    ∃ m, request = .copy ∧ answer = .size (r.size + 1) ∧ r' = r.addCopy m := by
  obtain ⟨m, hm, heq⟩ := Option.map_eq_some_iff.mp h
  cases request with
  | act a =>
    obtain ⟨rfl, rfl⟩ := Prod.mk.inj heq
    exact .inl ⟨_, a, by rw [member?, hm]; rfl, rfl, rfl, rfl⟩
  | copy =>
    obtain ⟨rfl, rfl⟩ := Prod.mk.inj heq
    exact .inr ⟨m, rfl, rfl, rfl⟩

/-- A request to another member changes nothing. -/
theorem serve_other (h : r.serve act i request = some (answer, r')) (hne : j ≠ i)
    (hj : j < r.size) : r'.member? j = r.member? j := by
  obtain ⟨s, a, -, -, -, rfl⟩ | ⟨m, -, -, rfl⟩ := serve_cases h
  · exact member?_put_of_ne hne _
  · exact member?_addCopy_of_lt hj m

theorem handle?_serve (h : r.serve act i request = some (answer, r')) (hj : j < r.size) :
    j < r'.size ∧ r'.handle? j = r.handle? j := by
  obtain ⟨s, a, -, -, -, rfl⟩ | ⟨m, -, -, rfl⟩ := serve_cases h
  · exact ⟨by rwa [size_put], handle?_put r i j _⟩
  · exact ⟨by rw [size_addCopy]; omega, handle?_addCopy_of_lt hj m⟩

/-! ## Many requests -/

/-- Serve some requests in order, each to the member that it names. -/
def serveAll (act : σ → ι → ρ × σ) (r : Roster σ) :
    List (Nat × Request ι) → Option (List (Answer ρ) × Roster σ)
  | [] => some ([], r)
  | (which, request) :: rest => do
    let (answer, r) ← r.serve act which request
    let (answers, r) ← r.serveAll act rest
    return (answer :: answers, r)

/-- Some actions in order of something that stands alone: its replies, and what becomes of it. -/
def perform (act : σ → ι → ρ × σ) (s : σ) : List ι → List ρ × σ
  | [] => ([], s)
  | a :: as =>
    let (reply, s) := act s a
    let (replies, s) := perform act s as
    (reply :: replies, s)

omit [Flagged σ] in
theorem perform_cons (act : σ → ι → ρ × σ) (s : σ) (a : ι) (as : List ι) : perform act s (a :: as) =
    ((act s a).1 :: (perform act (act s a).2 as).1, (perform act (act s a).2 as).2) := rfl

/-- The actions that a request asks member `which` for. -/
def actionsFor (which : Nat) : Nat × Request ι → List ι
  | (i, .act a) => if i = which then [a] else []
  | (_, .copy) => []

/-- The replies that an answer to a request holds from member `which`. -/
def repliesFrom (which : Nat) : (Nat × Request ι) × Answer ρ → List ρ
  | ((i, _), .reply reply) => if i = which then [reply] else []
  | (_, .size _) => []

theorem serveAll_cons {requests : List (Nat × Request ι)} {answers : List (Answer ρ)}
    (h : r.serveAll act ((i, request) :: requests) = some (answers, r')) :
    ∃ answer r₁ answers', r.serve act i request = some (answer, r₁) ∧
      r₁.serveAll act requests = some (answers', r') ∧ answers = answer :: answers' := by
  rw [serveAll] at h
  cases hserve : r.serve act i request with
  | none =>
    rw [hserve] at h
    cases h
  | some p =>
    cases hrest : p.2.serveAll act requests with
    | none => simp [hserve, hrest] at h
    | some q =>
      simp only [hserve, hrest, Option.bind_eq_bind, Option.bind_some, Option.pure_def,
        Option.some.injEq, Prod.mk.injEq] at h
      obtain ⟨rfl, rfl⟩ := h
      exact ⟨p.1, p.2, q.1, rfl, hrest, rfl⟩

/-- **A member answers as if it stood alone**, and becomes what it would become. -/
theorem serveAll_alone {requests : List (Nat × Request ι)} {answers : List (Answer ρ)}
    (h : r.serveAll act requests = some (answers, r')) (hs : r.member? i = some s) :
    (requests.zip answers).flatMap (repliesFrom i) =
        (perform act s (requests.flatMap (actionsFor i))).1 ∧
      r'.member? i = some (perform act s (requests.flatMap (actionsFor i))).2 := by
  induction requests generalizing r s answers with
  | nil =>
    cases h
    exact ⟨rfl, hs⟩
  | cons q requests ih =>
    obtain ⟨which, request⟩ := q
    obtain ⟨answer, r₁, answers', hserve, hrest, rfl⟩ := serveAll_cons h
    rw [List.zip_cons_cons, List.flatMap_cons, List.flatMap_cons]
    by_cases hne : which = i
    · subst hne
      obtain ⟨s', a, hs', rfl, rfl, rfl⟩ | ⟨m, rfl, rfl, rfl⟩ := serve_cases hserve
      · obtain rfl := Option.some.inj (hs.symm.trans hs')
        obtain ⟨hreplies, hend⟩ := ih hrest (member?_put_self hs _)
        simp only [repliesFrom, actionsFor, if_true, List.singleton_append, perform]
        exact ⟨congrArg _ hreplies, hend⟩
      · have hsame := (member?_addCopy_of_lt (lt_size_of_member? hs) m).trans hs
        exact ih hrest hsame
    · have hsame := (serve_other hserve (Ne.symm hne) (lt_size_of_member? hs)).trans hs
      have hactions : actionsFor i (which, request) = [] := by
        cases request with
        | act a => exact if_neg hne
        | copy => rfl
      have hreplies : repliesFrom i ((which, request), answer) = [] := by
        cases answer with
        | reply reply => exact if_neg hne
        | size members => rfl
      rw [hactions, hreplies]
      exact ih hrest hsame

/-- A member keeps its handle. -/
theorem handle?_serveAll {requests : List (Nat × Request ι)} {answers : List (Answer ρ)}
    (h : r.serveAll act requests = some (answers, r')) (hi : i < r.size) :
    r'.handle? i = r.handle? i := by
  induction requests generalizing r answers with
  | nil =>
    cases h
    rfl
  | cons q requests ih =>
    obtain ⟨answer, r₁, answers', hserve, hrest, -⟩ := serveAll_cons h
    obtain ⟨hlt, hhandle⟩ := handle?_serve hserve hi
    exact (ih hrest hlt).trans hhandle

/-! ## Independence -/

/-- The members of a roster do not disturb each other, and every one of them has a flag of its
own. -/
structure IsIndependent (act : σ → ι → ρ × σ) (copy : σ → σ) (r : Roster σ) : Prop where
  /-- Every request to a member is served, and changes no other member. -/
  frame : ∀ i < r.size, ∀ request, ∃ answer r', r.serve act i request = some (answer, r') ∧
    ∀ j < r.size, j ≠ i → r'.member? j = r.member? j
  /-- A copy comes last, as it is made, with a flag that there was not before, and changes no
  member, not even the one it is made of. -/
  copied : ∀ i s, r.member? i = some s → ∃ r',
    r.serve act i .copy = some (.size (r.size + 1), r') ∧ r'.size = r.size + 1 ∧
      r'.member? r.size = some (copy s) ∧ (∀ j < r.size, r'.member? j = r.member? j) ∧
      ∃ h, r'.handle? r.size = some h ∧ ¬ r.flags.Has h
  /-- Whatever is asked of a roster, a member replies as if it stood alone and were asked only for
  what it is asked for, and becomes what it would become then. -/
  alone : ∀ requests answers r', r.serveAll act requests = some (answers, r') →
    ∀ i s, r.member? i = some s →
      (requests.zip answers).flatMap (repliesFrom i) =
          (perform act s (requests.flatMap (actionsFor i))).1 ∧
        r'.member? i = some (perform act s (requests.flatMap (actionsFor i))).2
  /-- A member has one handle from first to last, and by it everyone sees and sets its flag and
  nothing else. -/
  shared : ∀ i s, r.member? i = some s → ∃ h, r.handle? i = some h ∧
    r.isSet h = Flagged.flag s ∧
    (∀ b, (r.setFlag h b).member? i = some (Flagged.join (Flagged.data s) b) ∧
      ∀ j ≠ i, (r.setFlag h b).member? j = r.member? j) ∧
    ∀ requests answers r', r.serveAll act requests = some (answers, r') →
      r'.handle? i = some h

/-- **The members of every roster are independent.** -/
theorem isIndependent (act : σ → ι → ρ × σ) {copy : σ → σ} (hcopy : Flagged.CopiesBy copy)
    (r : Roster σ) : r.IsIndependent act copy where
  frame i hi request := by
    obtain ⟨s, hs⟩ := exists_member? hi
    cases request with
    | act a => exact ⟨_, _, serve_act hs a, fun j _ hne => member?_put_of_ne hne _⟩
    | copy =>
      exact ⟨_, _, serve_copy (List.getElem?_eq_getElem hi),
        fun j hj _ => member?_addCopy_of_lt hj _⟩
  copied i s hs := by
    obtain ⟨m, hm, rfl⟩ := Option.map_eq_some_iff.mp hs
    exact ⟨_, serve_copy hm, size_addCopy r m, member?_addCopy_self hcopy r m,
      fun j hj => member?_addCopy_of_lt hj m, handle?_addCopy_self r m⟩
  alone requests answers r' h i s hs := serveAll_alone h hs
  shared i s hs := by
    obtain ⟨m, -, hi, hflag, -⟩ := exists_of_member? hs
    refine ⟨m.2, hi, hflag, fun b => ⟨member?_setFlag_self hi hs b,
      fun j hne => member?_setFlag_of_ne hi hne b⟩, fun requests answers r' h => ?_⟩
    rw [handle?_serveAll h (lt_size_of_member? hs), hi]

end Roster

/-! ## Executors and sessions -/

section

variable {α : Type} [Zero α] [One α] [Add α] [Sub α] [Mul α] [Neg α] [HalfRoot α]

/-- **Executors and sessions are independent of their copies.** A copy has the settings of the
original, a session's also its circuit and its trace with its cursor, and its flag is clear. Every
executor and every session replies as if it stood alone, from what it was when it was made, and all
handles of it lead to its one flag: to cancel by a handle is to cancel its member. -/
theorem Roster.serve_independent :
    (∀ r : Roster Executor, r.IsIndependent (Executor.act (α := α)) Executor.copy) ∧
    (∀ r : Roster (Session α), r.IsIndependent Session.act Session.copy) ∧
    (∀ e : Executor, e.copy = { settings := e.settings, cancelled := false }) ∧
    (∀ s : Session α, s.copy =
      { executor := { settings := s.executor.settings, cancelled := false }
        circuit := s.circuit, trace := s.trace }) ∧
    (∀ (r : Roster Executor) i h, r.handle? i = some h → ∀ b, ∃ r',
      Executor.serve r i (.act (if b then .cancel else .reset : Executor.Action α)) =
        some (.reply .done, r') ∧ ∀ j, r'.member? j = (r.setFlag h b).member? j) ∧
    (∀ (r : Roster (Session α)) i h, r.handle? i = some h → ∃ r',
      Session.serve r i (.act .cancel) = some (.reply .done, r') ∧
        ∀ j, r'.member? j = (r.setFlag h true).member? j) := by
  refine ⟨isIndependent _ Executor.copiesBy, isIndependent _ Session.copiesBy, fun _ => rfl,
    fun _ => rfl, ?executor, ?session⟩
  case executor =>
    intro r i h hi b
    obtain ⟨s, hs⟩ := exists_member?_of_handle? hi
    cases b with
    | true => exact ⟨_, serve_act hs _, member?_put_join hi hs true⟩
    | false => exact ⟨_, serve_act hs _, member?_put_join hi hs false⟩
  case session =>
    intro r i h hi
    obtain ⟨s, hs⟩ := exists_member?_of_handle? hi
    exact ⟨_, serve_act hs _, member?_put_join hi hs true⟩

end

/-- A copy of a cancelled executor runs, and then is cancelled from its observer; the executor
itself stays cancelled all the while. -/
theorem Roster.serve_independent_copy :
    ∃ (first copied last : Roster Executor) (answers : List (Roster.Answer (Executor.Reply Float)))
      (h : Handle),
      first = .single { settings := .immediate, cancelled := true } ∧
      Executor.serve first 0 (.copy : Roster.Request (Executor.Action Float)) =
        some (.size 2, copied) ∧
      copied.member? 1 = some { settings := .immediate } ∧
      copied.serveAll Executor.act
        [(0, .act (.run .blocking (.ofGates 1 [.one .x ⟨0⟩]) (.cancelAt none))),
          (1, .act (.run .paced (.ofGates 1 [.one .x ⟨0⟩]) (.cancelAt (some 0))))] =
        some (answers, last) ∧
      last.member? 0 = some { settings := .immediate, cancelled := true } ∧
      last.member? 1 = some { settings := .immediate, cancelled := true } ∧
      last.handle? 1 = some h ∧
      (last.setFlag h false).member? 0 = some { settings := .immediate, cancelled := true } ∧
      (last.setFlag h false).member? 1 = some { settings := .immediate } := by
  obtain ⟨hexecutors, -⟩ := serve_independent (α := Float)
  obtain ⟨copied, hcopied, -, hcopy, hkept, -⟩ := (hexecutors
    (.single { settings := .immediate, cancelled := true })).copied 0 _ rfl
  obtain ⟨answers, last, hlast⟩ : ∃ answers last, copied.serveAll Executor.act
        [(0, .act (.run .blocking (.ofGates 1 [.one .x ⟨0⟩]) (.cancelAt none : Observer Float))),
          (1, .act (.run .paced (.ofGates 1 [.one .x ⟨0⟩]) (.cancelAt (some 0))))] =
        some (answers, last) := by
    cases hcopied
    exact ⟨_, _, rfl⟩
  have h0 := ((hexecutors copied).alone _ _ _ hlast 0 _ (hkept 0 (by decide))).2
  have h1 := ((hexecutors copied).alone _ _ _ hlast 1 _ hcopy).2
  obtain ⟨h, hh, -, hset, -⟩ := (hexecutors last).shared 1 _ h1
  have hother := ((hset false).2 0 (by decide)).trans h0
  exact ⟨_, copied, last, answers, h, rfl, hcopied, hcopy, hlast, h0, h1, hh, hother,
    (hset false).1⟩

end Statevector
