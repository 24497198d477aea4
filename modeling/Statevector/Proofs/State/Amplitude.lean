import Statevector.Proofs.Decimal.Numeral
import Statevector.State.Ket

/-!
# What is written of an amplitude

The text of an amplitude holds a numeral for each of its parts that is not near zero, and tells
which part a numeral is for.

* `Layout`, `Layout.text`: the numerals of an amplitude and how they are put together;
  `Layout.text_injective`: they are found again in the text;
* `isNegligible_iff`: the parts that are left out;
* `Numeral.IsFaithful`, `exists_faithful`: what the numeral of another part tells of it;
* **`Amplitude.text_faithful`**: the text of an amplitude whose parts are finite.
-/

namespace Statevector

/-! ## Numerals put together -/

/-- The numerals of an amplitude. A part may be left out. -/
@[ext] structure Layout where
  re : Option Numeral
  im : Option Numeral

namespace Layout

/-- The text of an amplitude with given numerals. -/
def text : Layout → List Char
  | ⟨none, none⟩ => ['0']
  | ⟨some n, none⟩ => n.text
  | ⟨none, some k⟩ => k.text ++ ['i']
  | ⟨some n, some k⟩ => n.text ++ (k.text ++ ['i'])

/-- The numerals have three places, and the second of two has a sign. -/
structure IsProper (l : Layout) : Prop where
  re : ∀ n ∈ l.re, n.HasPlaces 3
  im : ∀ k ∈ l.im, k.HasPlaces 3
  separated : l.re ≠ none → ∀ k ∈ l.im, k.sign ≠ []

variable {l l' : Layout}

/-- A text that starts with a numeral shows by what follows it which parts it has numerals for. -/
theorem eq_of_text_eq {n : Numeral} {rest : List Char} (h : l.IsProper) (hn : n.HasPlaces 3)
    (heq : l.text = n.text ++ rest) :
    (rest = [] ∧ l = ⟨some n, none⟩) ∨ (rest = ['i'] ∧ l = ⟨none, some n⟩) ∨
      ∃ k : Numeral, k.HasPlaces 3 ∧ rest = k.text ++ ['i'] ∧ l = ⟨some n, some k⟩ := by
  obtain ⟨re, im⟩ := l
  cases re with
  | none =>
    cases im with
    | none =>
      have hpoint : '.' ∈ n.text ++ rest := by simp [Numeral.text]
      rw [← heq] at hpoint
      exact absurd hpoint (by decide)
    | some k =>
      obtain ⟨rfl, hrest⟩ := (h.im k rfl).text_append_inj hn heq
      exact .inr (.inl ⟨hrest.symm, rfl⟩)
  | some m =>
    cases im with
    | none =>
      rw [text, ← List.append_nil m.text] at heq
      obtain ⟨rfl, hrest⟩ := (h.re m rfl).text_append_inj hn heq
      exact .inl ⟨hrest.symm, rfl⟩
    | some k =>
      obtain ⟨rfl, hrest⟩ := (h.re m rfl).text_append_inj hn heq
      exact .inr (.inr ⟨k, h.im k rfl, hrest.symm, rfl⟩)

/-- Without a numeral there is no point. -/
theorem eq_of_text_eq_zero (heq : l.text = ['0']) : l = ⟨none, none⟩ := by
  obtain ⟨_ | n, _ | k⟩ := l
  · rfl
  all_goals
    have hpoint : '.' ∈ ['0'] := by
      rw [← heq]
      simp [text, Numeral.text]
    exact absurd hpoint (by decide)

/-- The numerals are found again in the text. -/
theorem text_injective (h : l.IsProper) (h' : l'.IsProper) (heq : l.text = l'.text) : l = l' := by
  have hmark (k : Numeral) : k.text ++ ['i'] ≠ ['i'] := by simp [Numeral.text_ne_nil]
  obtain ⟨re, im⟩ := l'
  -- what follows the first numeral of one text is what follows that of the other
  cases re with
  | none =>
    cases im with
    | none => exact eq_of_text_eq_zero heq
    | some k =>
      rcases eq_of_text_eq h (h'.im k rfl) heq with ⟨hrest, -⟩ | ⟨-, hl⟩ | ⟨k', -, hrest, -⟩
      · cases hrest
      · exact hl
      · exact absurd hrest.symm (hmark k')
  | some n =>
    cases im with
    | none =>
      rw [text, ← List.append_nil n.text] at heq
      rcases eq_of_text_eq h (h'.re n rfl) heq with ⟨-, hl⟩ | ⟨hrest, -⟩ | ⟨k', -, hrest, -⟩
      · exact hl
      · cases hrest
      · simp at hrest
    | some k =>
      rcases eq_of_text_eq h (h'.re n rfl) heq with ⟨hrest, -⟩ | ⟨hrest, -⟩ | ⟨k', hk', hrest, hl⟩
      · simp at hrest
      · exact absurd hrest (hmark k)
      · obtain ⟨rfl, -⟩ := (h'.im k rfl).text_append_inj hk' hrest
        exact hl

end Layout

open Binary64 (ofFloat)

/-! ## Parts near zero -/

/-- The exact value of the magnitude below which a part is left out: the binary64 number nearest
to `0.001`. -/
def tolerance : ℚ := 1152921504606847 / 2 ^ 60

theorem tolerance_pos : 0 < tolerance := by norm_num [tolerance]

theorem toRat_partTolerance : (ofFloat partTolerance).toRat = tolerance := by
  have hparts : ofFloat partTolerance = .finite false 4611686018427388 (-62) := by
    decide +kernel
  rw [hparts, Binary64.toRat, tolerance]
  norm_num

/-- A part is left out if its exact value is below the tolerance. -/
theorem isNegligible_iff {x : Float} (hx : x.isFinite = true) :
    isNegligible x = true ↔ |(ofFloat x).toRat| < tolerance := by
  have habs : x.abs.isFinite = true := (Binary64.isFinite_abs x).trans hx
  have htolerance : partTolerance.isFinite = true := by decide +kernel
  rw [isNegligible, decide_eq_true_iff, Binary64.lt_iff habs htolerance, Binary64.toRat_abs,
    toRat_partTolerance]

/-! ## Numerals of parts -/

/-- What a numeral with three places tells of a number that is not near zero. -/
structure Numeral.IsFaithful (n : Numeral) (v : ℚ) : Prop where
  ne_zero : n.value ≠ 0
  sign_eq : SignType.sign n.value = SignType.sign v
  near : |n.value - v| ≤ 1 / 2000
  rounded : IsRounded 3 v n.value

/-- What is nearer to a number than zero has its sign. -/
theorem sign_eq_of_abs_sub_lt {r v : ℚ} (h : |r - v| < |v|) :
    SignType.sign r = SignType.sign v := by
  rcases lt_trichotomy v 0 with hv | rfl | hv
  · rw [abs_of_neg hv, abs_lt] at h
    rw [sign_neg hv, sign_neg (by linarith)]
  · rw [abs_zero] at h
    exact absurd h (abs_nonneg _).not_gt
  · rw [abs_of_pos hv, abs_lt] at h
    rw [sign_pos hv, sign_pos (by linarith)]

/-- Half a thousandth is less than the tolerance, so a number that is not near zero is not rounded
to zero. -/
theorem Numeral.isFaithful_of_isRounded {n : Numeral} {v : ℚ} (hv : tolerance ≤ |v|)
    (h : IsRounded 3 v n.value) : n.IsFaithful v := by
  have hnear : |n.value - v| ≤ 1 / 2000 := h.near.trans_eq (by norm_num)
  have hhalf : (1 / 2000 : ℚ) < tolerance := by norm_num [tolerance]
  have hsign := sign_eq_of_abs_sub_lt (hnear.trans_lt (hhalf.trans_le hv))
  have hne : v ≠ 0 := abs_pos.mp ((by norm_num : (0 : ℚ) < 1 / 2000).trans (hhalf.trans_le hv))
  have hvalue : n.value ≠ 0 := fun hzero => by
    rw [hzero, sign_zero, eq_comm, sign_eq_zero_iff] at hsign
    exact hne hsign
  exact ⟨hvalue, hsign, hnear, h⟩

/-- A numeral that follows another one: what has no sign gets a plus. -/
def Numeral.following (n : Numeral) : Numeral :=
  { n with sign := if n.sign = [] then ['+'] else n.sign }

section

variable {n : Numeral}

theorem Numeral.sign_following_ne_nil : n.following.sign ≠ [] := by
  unfold following
  split <;> simp [*]

theorem Numeral.text_following :
    n.following.text = (if n.sign = [] then ['+'] else []) ++ n.text := by
  unfold following
  split <;> simp [text, *]

theorem Numeral.HasPlaces.following {places : Nat} (h : n.HasPlaces places) :
    n.following.HasPlaces places := by
  refine { h with sign_mem := ?_ }
  unfold Numeral.following
  split
  · simp
  · exact h.sign_mem

theorem Numeral.value_following : n.following.value = n.value := by
  unfold following
  split <;> simp [value, *]

theorem Numeral.IsFaithful.following {v : ℚ} (h : n.IsFaithful v) : n.following.IsFaithful v := by
  have hvalue : n.following.value = n.value := Numeral.value_following
  exact ⟨hvalue ▸ h.ne_zero, hvalue ▸ h.sign_eq, hvalue ▸ h.near, hvalue ▸ h.rounded⟩

end

/-- A part that is not near zero is written as a numeral. It has a sign only if the part is
negative. -/
theorem exists_faithful {x : Float} (hx : x.isFinite = true) (h : isNegligible x = false) :
    ∃ n : Numeral, n.HasPlaces 3 ∧ (fixed 3 x).toList = n.text ∧
      n.IsFaithful (ofFloat x).toRat ∧ n.sign = if 0 ≤ x then [] else ['-'] := by
  have hbound : tolerance ≤ |(ofFloat x).toRat| := by
    rw [← not_lt, ← isNegligible_iff hx, h]
    exact Bool.false_ne_true
  have hne : (ofFloat x).toRat ≠ 0 := abs_pos.mp (tolerance_pos.trans_le hbound)
  have hzero : (ofFloat 0).toRat = 0 := by
    have hparts : ofFloat 0 = .finite false 0 (-1074) := by decide +kernel
    rw [hparts, Binary64.toRat, Nat.cast_zero, zero_mul, mul_zero]
  obtain ⟨negative, m, e, hparts⟩ := Binary64.exists_of_isFinite hx
  obtain ⟨n, hn, htext, hsign, hrounded⟩ :=
    Binary64.exists_fixed (show 0 < 3 by decide) negative m e
  have hle : 0 ≤ x ↔ negative = false := by
    rw [Binary64.le_iff (by decide +kernel) hx, hzero, hparts]
    exact Binary64.toRat_nonneg_iff (by rwa [hparts] at hne)
  rw [← hparts] at htext hrounded
  refine ⟨n, hn, by rw [fixed, String.toList_ofList, htext],
    Numeral.isFaithful_of_isRounded hbound hrounded, ?_⟩
  cases negative <;> simp [hsign, hle]

/-! ## Amplitudes -/

/-- A part with a given value is told by nothing if it is near zero, and otherwise by a faithful
numeral. -/
structure Layout.Tells (part : Option Numeral) (v : ℚ) : Prop where
  eq_none_iff : part = none ↔ |v| < tolerance
  isFaithful : ∀ n ∈ part, n.IsFaithful v

/-- The numerals of an amplitude tell its parts. -/
structure Layout.IsFaithful (l : Layout) (a : Amplitude Float) : Prop where
  re : Layout.Tells l.re (ofFloat a.re).toRat
  im : Layout.Tells l.im (ofFloat a.im).toRat

theorem Layout.tells_none {x : Float} (hx : x.isFinite = true) (h : isNegligible x = true) :
    Layout.Tells none (ofFloat x).toRat :=
  ⟨iff_of_true rfl ((isNegligible_iff hx).mp h), nofun⟩

theorem Layout.tells_some {x : Float} (hx : x.isFinite = true) (h : isNegligible x = false)
    {n : Numeral} (hn : n.IsFaithful (ofFloat x).toRat) :
    Layout.Tells (some n) (ofFloat x).toRat := by
  refine ⟨iff_of_false nofun fun hlt => ?_, fun k hk => Option.some.inj hk ▸ hn⟩
  rw [(isNegligible_iff hx).mpr hlt] at h
  cases h

/-- The numerals that an amplitude is written with. -/
theorem Amplitude.exists_layout (a : Amplitude Float) (hre : a.re.isFinite = true)
    (him : a.im.isFinite = true) :
    ∃ l : Layout, l.IsProper ∧ a.text.toList = l.text ∧ l.IsFaithful a := by
  unfold Amplitude.text
  cases hx : isNegligible a.re with
  | true =>
    have hreTold := Layout.tells_none hre hx
    cases hy : isNegligible a.im with
    | true =>
      refine ⟨⟨none, none⟩, ⟨nofun, nofun, nofun⟩, ?_, hreTold, Layout.tells_none him hy⟩
      simp [Layout.text]
    | false =>
      obtain ⟨k, hk, htext, hfaithful, -⟩ := exists_faithful him hy
      refine ⟨⟨none, some k⟩, ⟨nofun, by simpa using hk, by simp⟩, ?_, hreTold,
        Layout.tells_some him hy hfaithful⟩
      simp [htext, Layout.text]
  | false =>
    obtain ⟨n, hn, hnText, hnFaithful, -⟩ := exists_faithful hre hx
    have hreTold := Layout.tells_some hre hx hnFaithful
    cases hy : isNegligible a.im with
    | true =>
      refine ⟨⟨some n, none⟩, ⟨by simpa using hn, nofun, by simp⟩, ?_, hreTold,
        Layout.tells_none him hy⟩
      simp [hnText, Layout.text]
    | false =>
      obtain ⟨k, hk, hkText, hkFaithful, hsign⟩ := exists_faithful him hy
      refine ⟨⟨some n, some k.following⟩, ⟨by simpa using hn, by simpa using hk.following,
        by simpa using Numeral.sign_following_ne_nil⟩, ?_, hreTold,
        Layout.tells_some him hy hkFaithful.following⟩
      -- a plus is written exactly if the numeral has no sign of its own
      by_cases hnonneg : 0 ≤ a.im <;>
        simp [hnText, hkText, Layout.text, Numeral.text_following, hsign, hnonneg]

/-- **What is written of an amplitude with finite parts tells its parts apart, and each of them to
three decimal places.** A part is left out only if it is below the tolerance, which is the exact
value of the number nearest to `0.001`, and nothing but `0` is left if both are. The text is put
together in one way from numerals with three places, and the numeral of a part is not zero, has the
sign of the part and is its value rounded. -/
theorem Amplitude.text_faithful (a : Amplitude Float) (hre : a.re.isFinite = true)
    (him : a.im.isFinite = true) :
    (ofFloat 0.001).toRat = tolerance ∧
      (a.text = "0" ↔
        |(ofFloat a.re).toRat| < tolerance ∧ |(ofFloat a.im).toRat| < tolerance) ∧
      ∃ l : Layout, l.IsProper ∧ a.text.toList = l.text ∧ l.IsFaithful a ∧
        ∀ l' : Layout, l'.IsProper → a.text.toList = l'.text → l' = l := by
  obtain ⟨l, hproper, htext, hfaithful⟩ := a.exists_layout hre him
  have hzero : a.text = "0" ↔ l = ⟨none, none⟩ := by
    rw [← String.toList_inj, htext]
    exact ⟨Layout.eq_of_text_eq_zero, fun h => by simp [h, Layout.text]⟩
  refine ⟨toRat_partTolerance, ?_, l, hproper, htext, hfaithful,
    fun l' hproper' htext' => Layout.text_injective hproper' hproper (htext'.symm.trans htext)⟩
  rw [hzero, ← hfaithful.re.eq_none_iff, ← hfaithful.im.eq_none_iff, Layout.ext_iff]

/-- A real part at the tolerance and an imaginary part half way between two thousandths. -/
theorem Amplitude.text_faithful_tie :
    let a : Amplitude Float := ⟨-0.001, 0.0625⟩
    a.re.isFinite = true ∧ a.im.isFinite = true ∧ a.text = "-0.001+0.062i" ∧
      ∃ l : Layout, l.IsProper ∧ a.text.toList = l.text ∧ l.IsFaithful a :=
  have hre : (-0.001 : Float).isFinite = true := by decide +kernel
  have him : (0.0625 : Float).isFinite = true := by decide +kernel
  have h := Amplitude.text_faithful ⟨-0.001, 0.0625⟩ hre him
  have htext : Amplitude.text ⟨-0.001, 0.0625⟩ = "-0.001+0.062i" := by decide +kernel
  ⟨hre, him, htext, h.2.2.imp fun _ hl => ⟨hl.1, hl.2.1, hl.2.2.1⟩⟩

end Statevector
