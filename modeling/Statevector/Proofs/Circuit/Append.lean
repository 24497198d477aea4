import Statevector.Circuit.Validity

/-!
# Appending gates

* `Circuit.foldl_push_gates`: the gates that appending gives depend on no other part of a circuit;
* `Circuit.IsBuilt`: the circuits that are built by appending gates;
* `Circuit.IsBuilt.gates_eq`: their gates are numbered as appended gates are;
  `Circuit.IsBuilt.position_eq`: they are numbered from one.
-/

namespace Statevector

namespace Circuit

/-- The circuits that are built by appending gates, checked or not. -/
inductive IsBuilt : Circuit → Prop
  | empty (width : UInt32) : IsBuilt (empty width)
  | named {c : Circuit} (text : String) : IsBuilt c → IsBuilt { c with name := text }
  | described {c : Circuit} (text : String) : IsBuilt c → IsBuilt { c with description := text }
  | push {c : Circuit} (g : Gate) : IsBuilt c → IsBuilt (c.push g)
  | tryPush {c d : Circuit} (g : Gate) : IsBuilt c → c.tryPush g = .ok d → IsBuilt d

theorem foldl_push_gates {c d : Circuit} (h : c.gates = d.gates) (gs : List Gate) :
    gs.foldl push c = { c with gates := (gs.foldl push d).gates } := by
  induction gs generalizing c d with
  | nil => rw [List.foldl_nil, List.foldl_nil, ← h]
  | cons g gs ih =>
    have hpush : (c.push g).gates = (d.push g).gates := by rw [push, push, h]
    rw [List.foldl_cons, List.foldl_cons, ih hpush]
    rfl

theorem ofGates_append_singleton (width : UInt32) (gs : List Gate) (g : Gate) :
    ofGates width (gs ++ [g]) = (ofGates width gs).push g := by
  rw [ofGates, List.foldl_append]
  rfl

theorem gates_push_eq {c : Circuit} {width : UInt32} (g : Gate)
    (h : c.gates = (ofGates width c.gateList).gates) :
    (c.push g).gates = (ofGates width (c.push g).gateList).gates := by
  rw [gateList_push, ofGates_append_singleton, push, push, ← h]

theorem eq_push_of_tryPush {c d : Circuit} {g : Gate} (h : c.tryPush g = .ok d) :
    d = c.push g := by
  cases hg : checkGate c.width g with
  | error e => rw [tryPush, hg] at h; cases h
  | ok _ => rw [tryPush, hg] at h; cases h; rfl

/-- The gates of a circuit that was built by appending them are numbered as appended gates are. -/
theorem IsBuilt.gates_eq {c : Circuit} (h : c.IsBuilt) (width : UInt32) :
    c.gates = (ofGates width c.gateList).gates := by
  induction h with
  | empty => rfl
  | named _ _ ih => exact ih
  | described _ _ ih => exact ih
  | push g _ ih => exact gates_push_eq g ih
  | tryPush g _ hd ih => rw [eq_push_of_tryPush hd]; exact gates_push_eq g ih

theorem toNat_positionAfter (count : Nat) :
    (positionAfter count).toNat = min (count + 1) (UInt32.size - 1) := by
  have hlt : min (count + 1) (UInt32.size - 1) < UInt32.size := by
    rw [UInt32.size]
    omega
  exact UInt32.toNat_ofNat_of_lt' hlt

theorem position_of_push {c : Circuit}
    (h : ∀ k p, c.gates[k]? = some p → p.position = positionAfter k) (g : Gate) {k : Nat}
    {p : Placed} (hk : (c.push g).gates[k]? = some p) : p.position = positionAfter k := by
  rw [push, Array.getElem?_push] at hk
  split at hk
  · next hlast =>
    cases hk
    rw [hlast]
  · exact h k p hk

/-- The gates of a circuit that was built by appending them are numbered from one. -/
theorem IsBuilt.position_eq {c : Circuit} (h : c.IsBuilt) :
    ∀ k p, c.gates[k]? = some p → p.position = positionAfter k := by
  induction h with
  | empty => intro k p hk; cases hk
  | named _ _ ih => exact ih
  | described _ _ ih => exact ih
  | push g _ ih => exact fun _ _ => position_of_push ih g
  | tryPush g _ hd ih => rw [eq_push_of_tryPush hd]; exact fun _ _ => position_of_push ih g

end Circuit

end Statevector
