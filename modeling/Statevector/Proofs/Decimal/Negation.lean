import Mathlib

/-!
# Negation of binary64 numbers

The word of a binary64 number is put together from a sign, an exponent and a fraction. Negating the
number changes its sign and nothing else, but not-a-number has only one word. The laws of packing
that are used here are in Batteries, and only Mathlib as a whole imports them.

* `Unpacked.neg_unpack`, `Unpacked.abs_unpack`: the negation and the absolute value of a number
  whose word has given parts;
* `Unpacked.pack_neg_pack_neg`: a valid word that is negated twice is the same word;
* **`Binary64.neg_neg`**: negating a number twice changes nothing.
-/

namespace Statevector

namespace Unpacked

open Float.Model Float.Model.UnpackedFloat

variable {spec : Format}

/-- What acts on the sign of a number acts on the sign in its word. -/
theorem map_unpack {f : UnpackedFloat → UnpackedFloat} {g : Sign → Sign}
    (hnan : f .notANumber = .notANumber) (hinfinity : ∀ s, f (.infinity s) = .infinity (g s))
    (hzero : ∀ s, f (.zero s) = .zero (g s))
    (hfinite : ∀ s m e hm, f (.finite s m e hm) = .finite (g s) m e hm) (s : Sign)
    (e : BitVec spec.exponentBits) (m : BitVec spec.mantissaBitsWithoutImplicit) :
    f (unpack spec (packComponents spec s e m)) = unpack spec (packComponents spec (g s) e m) := by
  simp only [UnpackedFloat.unpack, unpackMantissa_packComponents, unpackExponent_packComponents,
    unpackSign_packComponents, Sign.ofBitVec_toBitVec]
  split
  · split
    · exact hinfinity s
    · exact hnan
  · split
    · split
      · exact hzero s
      · exact hfinite s _ _ _
    · exact hfinite s _ _ _

/-- Negating a number changes the sign in its word. -/
theorem neg_unpack (s : Sign) (e : BitVec spec.exponentBits)
    (m : BitVec spec.mantissaBitsWithoutImplicit) :
    (unpack spec (packComponents spec s e m)).neg = unpack spec (packComponents spec (-s) e m) :=
  map_unpack (f := UnpackedFloat.neg) (g := Neg.neg) rfl (fun _ => rfl) (fun _ => rfl)
    (fun _ _ _ _ => rfl) s e m

/-- The absolute value of a number has the sign of positive numbers in its word. -/
theorem abs_unpack (s : Sign) (e : BitVec spec.exponentBits)
    (m : BitVec spec.mantissaBitsWithoutImplicit) :
    (unpack spec (packComponents spec s e m)).abs =
      unpack spec (packComponents spec .positive e m) :=
  map_unpack (f := UnpackedFloat.abs) (g := fun _ => .positive) rfl (fun _ => rfl) (fun _ => rfl)
    (fun _ _ _ _ => rfl) s e m

/-- A number that is read from a word, valid or not, survives being written and read again. -/
theorem unpack_pack_unpack (b : BitVec spec.numBits) (hspec : 2 ≤ spec.exponentBits) :
    unpack spec ((unpack spec b).pack spec) = unpack spec b := by
  rw [pack_unpack b hspec]
  split
  · next hnan =>
    obtain ⟨he, hm⟩ := of_decide_eq_true hnan
    rw [unpack_packedNaN]
    simp only [UnpackedFloat.unpack, he, hm, if_true, if_false]
  · rfl

/-- A valid word that is negated twice is the same word. -/
theorem pack_neg_pack_neg {b : BitVec spec.numBits} (h : spec.Valid b)
    (hspec : 2 ≤ spec.exponentBits) :
    (unpack spec ((unpack spec b).neg.pack spec)).neg.pack spec = b := by
  have hparts := packComponents_unpackSign_unpackExponent_unpackMantissa b
  have hsign (s : Sign) : - -s = s := by cases s <;> rfl
  calc (unpack spec ((unpack spec b).neg.pack spec)).neg.pack spec
      = (unpack spec b).neg.neg.pack spec := by
        rw [← hparts, neg_unpack, unpack_pack_unpack _ hspec]
    _ = (unpack spec b).pack spec := by
        rw [← hparts, neg_unpack, neg_unpack, hsign]
    _ = b := pack_unpack_of_valid h hspec

end Unpacked

/-- **Negating a number twice changes nothing.** -/
theorem Binary64.neg_neg (x : Float) : - -x = x := by
  apply Float.toBits_inj.mp
  apply UInt64.toBitVec_inj.mp
  exact Unpacked.pack_neg_pack_neg x.toModel.valid (by decide)

end Statevector
