import Mathlib.Algebra.Group.Nat.Defs
import ModelKeeper.Number.Binary

/-!
# Rounding stays within the format

The datum to which `BinaryFormat.round` takes a quotient is one that the format has
(`BinaryFormat.round_fits`): it is infinite, or its significand has no more bits than the format
allows and its exponent lies between the two bounds.  So the bit pattern of a 64-bit datum found by
rounding never stands for what is no number (`Double.ofRatio_ne_undefined`), and the 64-bit form of
a finite 32-bit datum equals itself (`Single.sameNumber_self`).
-/

namespace ModelKeeper

theorem twoTo_eq (n : Nat) : twoTo n = 2 ^ n := rfl

namespace BinaryFormat

/-- Whether a datum is one of the format. -/
inductive Fits (f : BinaryFormat) : Datum → Prop
  | infinite (negative : Bool) : Fits f (.infinite negative)
  | finite (negative : Bool) {m : Nat} {e : Int} : m < 2 ^ f.precision → f.minExponent ≤ e →
      e ≤ f.maxExponent → Fits f (.finite negative m e)

/-! ### The quotient at an exponent -/

/-- The whole part of `num / den · 2 ^ -e`. -/
def quotient (num den : Nat) (e : Int) : Nat := (scaled num den e).1 / (scaled num den e).2

theorem quotient_succ (num den : Nat) (e : Int) :
    quotient num den (e + 1) = quotient num den e / 2 := by
  unfold quotient scaled
  simp only [twoTo_eq]
  by_cases he : 0 ≤ e
  · -- the denominator is scaled, once more for the next exponent
    rw [if_pos he, if_pos (by omega), Nat.div_div_eq_div_mul, Nat.mul_assoc, ← Nat.pow_succ]
    have hnat : (e + 1).toNat = e.toNat + 1 := by omega
    rw [hnat]
  · -- the numerator is scaled, once less for the next exponent
    obtain ⟨j, rfl⟩ : ∃ j : Nat, e = -(j + 1 : Nat) := ⟨(-e).toNat - 1, by omega⟩
    have hhalf : num * 2 ^ (j + 1) / den / 2 = num * 2 ^ j / den := by
      rw [Nat.div_div_eq_div_mul, Nat.pow_succ, ← Nat.mul_assoc]
      exact Nat.mul_div_mul_right _ _ (by decide)
    have hnat : (- -((j + 1 : Nat) : Int)).toNat = j + 1 := by omega
    rw [if_neg he, hnat, hhalf]
    by_cases hj : j = 0
    · subst hj
      simp
    · have hnat' : (-(-((j + 1 : Nat) : Int) + 1)).toNat = j := by omega
      rw [if_neg (by omega), hnat']

/-- One bit too many at most, if the exponent is no smaller than the difference of the lengths. -/
theorem quotient_lt {num den : Nat} (hden : den ≠ 0) {p : Nat} {e : Int}
    (he : (num.log2 : Int) - den.log2 - p ≤ e) : quotient num den e < 2 ^ (p + 1) := by
  have hnum : num < 2 ^ (num.log2 + 1) := Nat.lt_log2_self
  have hden' : 2 ^ den.log2 ≤ den := Nat.log2_self_le hden
  unfold quotient scaled
  simp only [twoTo_eq]
  -- the scale is put on the denominator or on the numerator, by the sign of the exponent
  by_cases h0 : 0 ≤ e
  · rw [if_pos h0, Nat.div_lt_iff_lt_mul (Nat.mul_pos (by omega) (Nat.two_pow_pos _))]
    calc num < 2 ^ (num.log2 + 1) := hnum
      _ ≤ 2 ^ (p + 1 + (den.log2 + e.toNat)) := Nat.pow_le_pow_right (by decide) (by omega)
      _ = 2 ^ (p + 1) * (2 ^ den.log2 * 2 ^ e.toNat) := by rw [Nat.pow_add, Nat.pow_add 2 den.log2]
      _ ≤ 2 ^ (p + 1) * (den * 2 ^ e.toNat) :=
        Nat.mul_le_mul_left _ (Nat.mul_le_mul_right _ hden')
  · rw [if_neg h0, Nat.div_lt_iff_lt_mul (by omega)]
    calc num * 2 ^ (-e).toNat < 2 ^ (num.log2 + 1) * 2 ^ (-e).toNat :=
        Nat.mul_lt_mul_of_pos_right hnum (Nat.two_pow_pos _)
      _ = 2 ^ (num.log2 + 1 + (-e).toNat) := (Nat.pow_add ..).symm
      _ ≤ 2 ^ (p + 1 + den.log2) := Nat.pow_le_pow_right (by decide) (by omega)
      _ = 2 ^ (p + 1) * 2 ^ den.log2 := Nat.pow_add ..
      _ ≤ 2 ^ (p + 1) * den := Nat.mul_le_mul_left _ hden'

theorem nearest_le (num den : Nat) : nearest num den ≤ num / den + 1 := by
  unfold nearest
  simp only
  split
  · omega
  · split <;> omega

/-! ### Rounding -/

/-- The exponent that rounding chooses leaves the quotient with few enough bits. -/
theorem exists_exponent (f : BinaryFormat) (num : Nat) {den : Nat} (hden : den ≠ 0) :
    ∃ e, (let guess := max f.minExponent ((num.log2 : Int) - den.log2 - f.precision)
        if quotient num den guess < twoTo f.precision then guess else guess + 1) = e ∧
      f.minExponent ≤ e ∧ quotient num den e < 2 ^ f.precision := by
  refine ⟨_, rfl, ?_⟩
  simp only
  split
  · next h => exact ⟨by omega, h⟩
  · -- there is one bit too many, which the next exponent takes off
    refine ⟨by omega, ?_⟩
    have hlt := quotient_lt hden (p := f.precision) (Int.le_max_right f.minExponent
      ((num.log2 : Int) - den.log2 - f.precision))
    rw [Nat.pow_succ] at hlt
    rw [quotient_succ]
    omega

theorem round_fits (f : BinaryFormat) (hf : f.minExponent ≤ f.maxExponent) (hp : f.precision ≠ 0)
    (negative : Bool) (num : Nat) {den : Nat} (hden : den ≠ 0) :
    f.Fits (f.round negative num den) := by
  unfold round
  split
  · exact .finite negative (Nat.two_pow_pos _) (Int.le_refl _) hf
  · obtain ⟨e, he, hmin, hlt⟩ := f.exists_exponent num hden
    have hnearest := nearest_le (scaled num den e).1 (scaled num den e).2
    have hhalf : 2 ^ (f.precision - 1) < 2 ^ f.precision :=
      Nat.pow_lt_pow_right (by decide) (by omega)
    unfold quotient at he hlt
    simp only [he]
    split
    · -- rounding up has led to a power of two with one bit too many
      split
      · exact .infinite negative
      · exact .finite negative hhalf (by omega) (by omega)
    · next hne =>
      rw [twoTo_eq] at hne
      split
      · exact .infinite negative
      · exact .finite negative (by omega) hmin (by omega)

end BinaryFormat

/-! ### Data as bit patterns -/

namespace Double

/-- Only a full exponent field with a fraction beside it stands for what is no number. -/
theorem decode_ne_undefined {bits : Nat}
    (h : bits / 4503599627370496 % 2048 ≠ 2047 ∨ bits % 4503599627370496 = 0) :
    BinaryFormat.double.decode bits ≠ .undefined := by
  have hhidden : twoTo (BinaryFormat.double.precision - 1) = 4503599627370496 := by decide
  have hfield : twoTo BinaryFormat.double.exponentBits = 2048 := by decide
  unfold BinaryFormat.decode
  rw [hhidden, hfield]
  simp only
  split
  · exact Datum.noConfusion
  · split
    · split
      · exact Datum.noConfusion
      · omega
    · exact Datum.noConfusion

/-- The bits of a datum of the format do not stand for what is no number. -/
theorem datum_ofDatum_ne_undefined {x : Datum} (h : BinaryFormat.double.Fits x) :
    (ofDatum x).datum ≠ .undefined := by
  have hhidden : twoTo (BinaryFormat.double.precision - 1) = 4503599627370496 := by decide
  have htop : twoTo BinaryFormat.double.exponentBits = 2048 := by decide
  have hsign : twoTo (BinaryFormat.double.precision - 1 + BinaryFormat.double.exponentBits) =
      9223372036854775808 := by decide
  apply decode_ne_undefined
  unfold ofDatum BinaryFormat.encode
  rw [hhidden, htop, hsign, UInt64.toNat_ofNat']
  cases h with
  | infinite negative =>
    -- the fraction is zero
    right
    cases negative <;> decide
  | @finite negative m e hm hmin hmax =>
    -- the exponent field is not full
    left
    have hm : m < 9007199254740992 := hm
    have hmin : -1074 ≤ e := hmin
    have hmax : e ≤ 971 := hmax
    have hexponent : BinaryFormat.double.minExponent = -1074 := by decide
    simp only [hexponent]
    split <;> cases negative <;> simp only [Bool.false_eq_true, if_false, if_true] <;> omega

theorem ofRatio_ne_undefined (negative : Bool) (num : Nat) {den : Nat} (hden : den ≠ 0) :
    (ofRatio negative num den).datum ≠ .undefined :=
  datum_ofDatum_ne_undefined
    (BinaryFormat.double.round_fits (by decide) (by decide) negative num hden)

/-- Whether the datum is one of the two zeros. -/
def IsZero (x : Double) : Prop := ∃ negative e, x.datum = .finite negative 0 e

theorem sameNumber_iff {x y : Double} :
    x.sameNumber y ↔ x.IsZero ∧ y.IsZero ∨ x.datum ≠ .undefined ∧ x = y := by
  unfold sameNumber
  split
  · next n e n' e' hx hy => simp [IsZero, hx, hy]
  · next y hx =>
    have hzero : ¬ x.IsZero := fun ⟨_, _, h⟩ => by simp [hx] at h
    simp [hx, hzero]
  · next hx hzeros =>
    have hzero : ¬ (x.IsZero ∧ y.IsZero) := fun ⟨⟨n, e, hx⟩, n', e', hy⟩ => hzeros n e n' e' hx hy
    have hx : x.datum ≠ .undefined := hx
    simp [hzero, hx]

theorem sameNumber_trans {x y z : Double} (hxy : x.sameNumber y) (hyz : y.sameNumber z) :
    x.sameNumber z := by
  rw [sameNumber_iff] at *
  rcases hxy with ⟨hx, hy⟩ | ⟨hx, rfl⟩
  · rcases hyz with ⟨_, hz⟩ | ⟨_, rfl⟩
    · exact .inl ⟨hx, hz⟩
    · exact .inl ⟨hx, hy⟩
  · exact hyz

end Double

theorem Datum.ratio_snd_ne_zero (m : Nat) (e : Int) : (ratio m e).2 ≠ 0 := by
  unfold ratio
  split
  · exact Nat.one_ne_zero
  · exact Nat.ne_of_gt (Nat.two_pow_pos _)

namespace Single

theorem toDouble_ne_undefined {x : Single} (h : x.isFinite) : x.toDouble.datum ≠ .undefined := by
  unfold isFinite at h
  unfold toDouble
  split at h
  · next negative m e hx =>
    exact Double.ofRatio_ne_undefined negative _ (Datum.ratio_snd_ne_zero m e)
  · cases h

theorem sameNumber_self {x : Single} (h : x.isFinite) : x.toDouble.sameNumber x.toDouble :=
  Double.sameNumber_iff.2 (.inr ⟨toDouble_ne_undefined h, rfl⟩)

end Single

end ModelKeeper
