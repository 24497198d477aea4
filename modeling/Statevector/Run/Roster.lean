import Statevector.Run.Flags
import Statevector.Run.Session

/-!
# Several executors or sessions

The flags of the members of a roster are cells of one store. A member reaches its flag by a handle,
and gives that handle to whoever asks for one. Between requests the flag of a member is in its cell
and nowhere else. In which cell the flag of a copy is depends on how the member is copied: a copy of
an executor is a new executor, and every new executor has a new flag.

* `Executor.newIn`, `Executor.copyIn`, `Session.copyIn`: what is made in a store;
* `Flagged`: what is made of data that it owns and of a flag, and how it is copied in a store;
  executors and sessions are;
* `Roster`: members with their handles, and the store of their flags;
* `Roster.handle?`, `Roster.isSet`, `Roster.setFlag`: handles, and what is done by them;
* `Roster.member?`: a member with the flag that it has now; `Roster.single`, `Roster.addCopy`: a new
  member; `Roster.put`: a member that was changed;
* `Roster.serve`: serve a request to one member, given how it acts; `Executor.serve`,
  `Session.serve`: rosters of executors and of sessions.
-/

namespace Statevector

/-! ## Things with a flag -/

/-- A new executor in a store: its settings, and the handle of a new flag. -/
def Executor.newIn (settings : Settings) : StateM Flags (Settings × Handle) := do
  return (settings, ← Flags.new)

/-- A copy of an executor in a store is a new executor with its settings. -/
def Executor.copyIn (e : Settings × Handle) : StateM Flags (Settings × Handle) := newIn e.1

/-- A copy of a session in a store has a copy of its executor, and the same circuit and trace. -/
def Session.copyIn {α : Type} (s : (Settings × Option Circuit × Option (Trace α)) × Handle) :
    StateM Flags ((Settings × Option Circuit × Option (Trace α)) × Handle) := do
  let ((settings, circuit, trace), handle) := s
  let (settings, handle) ← Executor.copyIn (settings, handle)
  return ((settings, circuit, trace), handle)

/-- What is made of data that it owns and of a flag. In a store it lies as its data and the handle
of its flag, and a copy of it has a flag of its own. -/
class Flagged (σ : Type) where
  Data : Type
  data : σ → Data
  flag : σ → Bool
  join : Data → Bool → σ
  copyIn : Data × Handle → StateM Flags (Data × Handle)
  join_data_flag (s : σ) : join (data s) (flag s) = s
  data_join (d : Data) (b : Bool) : data (join d b) = d
  flag_join (d : Data) (b : Bool) : flag (join d b) = b
  gains_copyIn (m : Data × Handle) (f : Flags) :
    f.Gains ((copyIn m).run f).2 ((copyIn m).run f).1.2

instance instFlaggedExecutor : Flagged Executor where
  Data := Settings
  data e := e.settings
  flag e := e.cancelled
  join settings cancelled := { settings, cancelled }
  copyIn := Executor.copyIn
  join_data_flag _ := rfl
  data_join _ _ := rfl
  flag_join _ _ := rfl
  gains_copyIn _ := Flags.gains_new

instance instFlaggedSession {α : Type} : Flagged (Session α) where
  Data := Settings × Option Circuit × Option (Trace α)
  data s := (s.executor.settings, s.circuit, s.trace)
  flag s := s.executor.cancelled
  join d cancelled :=
    { executor := { settings := d.1, cancelled }, circuit := d.2.1, trace := d.2.2 }
  copyIn := Session.copyIn
  join_data_flag _ := rfl
  data_join _ _ := rfl
  flag_join _ _ := rfl
  gains_copyIn _ := Flags.gains_new

/-- What lies in a store, with the flag that it has there. -/
def Flagged.valueIn {σ : Type} [Flagged σ] (f : Flags) (m : Flagged.Data σ × Handle) : σ :=
  Flagged.join m.1 (f.isSet m.2)

/-! ## Rosters -/

/-- Members, each with the data that it owns and the handle of its flag, and the store of all flags.
No two members have the same flag. -/
structure Roster (σ : Type) [Flagged σ] where
  flags : Flags := {}
  members : List (Flagged.Data σ × Handle) := []
  has : ∀ h ∈ members.map Prod.snd, flags.Has h := by simp
  nodup : (members.map Prod.snd).Nodup := by simp

namespace Roster

/-- What a member of a roster is asked for. -/
inductive Request (ι : Type)
  | act (action : ι)
  | copy

/-- What a roster answers: the reply of a member, or the new number of members. -/
inductive Answer (ρ : Type)
  | reply (reply : ρ)
  | size (members : Nat)

variable {σ : Type} [Flagged σ]

/-- The number of members. -/
def size (r : Roster σ) : Nat := r.members.length

/-- The handle of a member. -/
def handle? (r : Roster σ) (which : Nat) : Option Handle := r.members[which]?.map Prod.snd

/-- Whether the flag behind a handle is set. -/
def isSet (r : Roster σ) (h : Handle) : Bool := r.flags.isSet h

/-- Set or clear the flag behind a handle. -/
def setFlag (r : Roster σ) (h : Handle) (b : Bool) : Roster σ :=
  { r with
    flags := r.flags.put h b
    has := by simpa using r.has }

/-- A member as it is now. -/
def member? (r : Roster σ) (which : Nat) : Option σ :=
  r.members[which]?.map (Flagged.valueIn r.flags)

/-- All members as they are now. -/
def toList (r : Roster σ) : List σ := r.members.map (Flagged.valueIn r.flags)

/-- A roster with one member. -/
def single (s : σ) : Roster σ where
  flags := ⟨[Flagged.flag s]⟩
  members := [(Flagged.data s, ⟨0⟩)]
  has := by simp [Flags.Has]

/-- Add a copy of a member. -/
def addCopy (r : Roster σ) (m : Flagged.Data σ × Handle) : Roster σ where
  flags := ((Flagged.copyIn m).run r.flags).2
  members := r.members ++ [((Flagged.copyIn m).run r.flags).1]
  has := by
    have hgains := Flagged.gains_copyIn m r.flags
    simp only [List.map_append, List.mem_append, List.map_cons, List.map_nil, List.mem_singleton]
    rintro h (hh | rfl)
    · exact (hgains.kept h (r.has h hh)).1
    · exact hgains.has
  nodup := by
    have hgains := Flagged.gains_copyIn m r.flags
    rw [List.map_append, List.nodup_append]
    refine ⟨r.nodup, by simp, fun h hh h' hh' => ?_⟩
    rintro rfl
    rw [List.map_singleton, List.mem_singleton] at hh'
    exact hgains.fresh (hh' ▸ r.has h hh)

theorem map_snd_modify {δ : Type} (ms : List (δ × Handle)) (which : Nat) (d : δ) :
    (ms.modify which fun m => (d, m.2)).map Prod.snd = ms.map Prod.snd := by
  induction ms generalizing which with
  | nil => cases which <;> rfl
  | cons m ms ih =>
    cases which with
    | zero => rfl
    | succ which => exact congrArg (m.2 :: ·) (ih which)

/-- Put a changed member in its old place; its flag goes to the cell that it had. -/
def put (r : Roster σ) (which : Nat) (s : σ) : Roster σ :=
  match r.handle? which with
  | none => r
  | some h =>
    { r.setFlag h (Flagged.flag s) with
      members := r.members.modify which fun m => (Flagged.data s, m.2)
      has := by
        rw [map_snd_modify]
        exact (r.setFlag h _).has
      nodup := by
        rw [map_snd_modify]
        exact r.nodup }

/-- Serve a request to member `which`, if there is such a member. -/
def serve {ι ρ : Type} (act : σ → ι → ρ × σ) (r : Roster σ) (which : Nat) (request : Request ι) :
    Option (Answer ρ × Roster σ) :=
  r.members[which]?.map fun m => match request with
    | .act action =>
      let (reply, s) := act (Flagged.valueIn r.flags m) action
      (.reply reply, r.put which s)
    | .copy => (.size (r.size + 1), r.addCopy m)

end Roster

section

variable {α : Type} [Zero α] [One α] [Add α] [Sub α] [Mul α] [Neg α] [HalfRoot α]

/-- Serve a request to one of several executors. -/
def Executor.serve (r : Roster Executor) (which : Nat)
    (request : Roster.Request (Executor.Action α)) :
    Option (Roster.Answer (Executor.Reply α) × Roster Executor) :=
  r.serve Executor.act which request

/-- Serve a request to one of several sessions. -/
def Session.serve (r : Roster (Session α)) (which : Nat)
    (request : Roster.Request (Session.Action α)) :
    Option (Roster.Answer (Session.Reply α) × Roster (Session α)) :=
  r.serve Session.act which request

end

end Statevector
