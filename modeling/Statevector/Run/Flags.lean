/-!
# Stores of flags

A flag lies in a cell of a store and is reached by a handle, which is the number of the cell.

* `Handle`, `Flags`; `Flags.isSet`, `Flags.put`: what is done by a handle;
* `Flags.new`: a new flag; `Flags.Gains`: a store has a flag that it did not have before;
  `Flags.gains_new`: a new flag is one.
-/

namespace Statevector

/-- The way to a flag: the number of the cell that holds it. -/
structure Handle where
  cell : Nat
deriving DecidableEq, Repr, Inhabited

/-- A store of flags. -/
structure Flags where
  cells : List Bool := []
deriving DecidableEq, Repr, Inhabited

namespace Flags

/-- There is a flag behind a handle. -/
def Has (f : Flags) (h : Handle) : Prop := h.cell < f.cells.length

/-- Whether the flag behind a handle is set. -/
def isSet (f : Flags) (h : Handle) : Bool := f.cells[h.cell]?.getD false

/-- Set or clear the flag behind a handle. -/
def put (f : Flags) (h : Handle) (b : Bool) : Flags := ⟨f.cells.set h.cell b⟩

/-- The handle of a new flag, which is clear. -/
def new : StateM Flags Handle :=
  modifyGet fun f => (⟨f.cells.length⟩, ⟨f.cells ++ [false]⟩)

/-- There is a flag behind a handle where there was none. Those that there were are as they were. -/
structure Gains (f f' : Flags) (h : Handle) : Prop where
  fresh : ¬ f.Has h
  has : f'.Has h
  kept (h' : Handle) : f.Has h' → f'.Has h' ∧ f'.isSet h' = f.isSet h'

variable {f : Flags} {h h' : Handle}

@[simp] theorem has_put (b : Bool) : (f.put h b).Has h' ↔ f.Has h' := by
  rw [Has, Has, put, List.length_set]

theorem isSet_put_self (hf : f.Has h) (b : Bool) : (f.put h b).isSet h = b := by
  rw [isSet, put, List.getElem?_set_self hf, Option.getD_some]

theorem isSet_put_of_ne (hne : h' ≠ h) (b : Bool) : (f.put h b).isSet h' = f.isSet h' := by
  have hcell : h.cell ≠ h'.cell := fun e => hne (congrArg Handle.mk e.symm)
  rw [isSet, put, List.getElem?_set_ne hcell, isSet]

theorem run_new (f : Flags) : new.run f = (⟨f.cells.length⟩, ⟨f.cells ++ [false]⟩) := rfl

/-- A new flag is none that there was. -/
theorem gains_new (f : Flags) : f.Gains (new.run f).2 (new.run f).1 where
  fresh := Nat.lt_irrefl f.cells.length
  has := by simp [run_new, Has]
  kept h' hh := by
    rw [run_new]
    refine ⟨?_, congrArg (Option.getD · false) (List.getElem?_append_left hh)⟩
    rw [Has, List.length_append]
    exact Nat.lt_add_right _ hh

theorem isSet_new (f : Flags) : (new.run f).2.isSet (new.run f).1 = false := by
  simp [run_new, isSet]

end Flags

end Statevector
