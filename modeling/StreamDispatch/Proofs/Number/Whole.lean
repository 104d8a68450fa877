import Mathlib
import StreamDispatch.Number.Scale

/-!
# Whole numbers as floats

A whole number below `2⁵³` has a float of its own: its digits fit into the significand, so nothing
is rounded on the way there, and nothing is cut off on the way back
(`StreamDispatch.wholePart_nearestFloat`).

A positive number is scaled until its leading bit is bit 52 of the significand. The float that it
becomes is packed into 64 bits and taken apart again; both keep a significand of 53 bits as it is.

## Main statements

* `StreamDispatch.wholePart_nearestFloat`: a whole number below `2⁵³` is read back from its float.
-/

namespace StreamDispatch

open Float.Model (Format UnpackedFloat totalExponent)
open Float.Model.UnpackedFloat (ExtendedMantissa)

/-- Scaling by a power of two moves the leading bit. -/
theorem log2_mul_two_pow {n : Nat} (hn : n ≠ 0) (k : Nat) : (n * 2 ^ k).log2 = n.log2 + k := by
  have hscaled : n * 2 ^ k ≠ 0 := Nat.mul_ne_zero hn (Nat.two_pow_pos k).ne'
  have hupper : n < 2 ^ (n.log2 + 1) := (Nat.log2_lt hn).mp (Nat.lt_succ_self _)
  rw [Nat.log2_eq_iff hscaled, Nat.add_right_comm, Nat.pow_add, Nat.pow_add]
  exact ⟨Nat.mul_le_mul_right _ (Nat.log2_self_le hn),
    Nat.mul_lt_mul_of_pos_right hupper (Nat.two_pow_pos k)⟩

/-- Shifting cuts off the last bits. -/
theorem mantissa_shiftRight (em : ExtendedMantissa) (k : Nat) :
    (em >>> k).mantissa = em.mantissa / 2 ^ k := by
  show (k.repeat ExtendedMantissa.shiftRightOne em).mantissa = _
  induction k with
  | zero => exact (Nat.div_one _).symm
  | succ k ih =>
    show (k.repeat ExtendedMantissa.shiftRightOne em).mantissa / 2 = _
    rw [ih, Nat.div_div_eq_div_mul, Nat.pow_succ]

section Normal

variable {m k : Nat} (hm : 0 < m) (hlog : m.log2 = 52) (hk : k ≤ 52)

include hlog hk

/-- A significand of 53 bits is where it should be. -/
theorem targetExponent_normal :
    Format.binary64.targetExponent (totalExponent m (-(k : Int))) = -(k : Int) := by
  simp only [Format.targetExponent, totalExponent, Format.mantissaBits, Format.minExponent, hlog]
  omega

/-- Nothing is rounded of a significand of 53 bits. -/
theorem roundWithAccuracy_normal :
    UnpackedFloat.roundWithAccuracy Format.binary64 .positive m (-(k : Int)) .exact =
      .finite .positive m (-(k : Int)) hm := by
  have hshift : UnpackedFloat.shiftToTargetExponent Format.binary64 m (-(k : Int)) .exact =
      (⟨m, false, false⟩, -(k : Int)) := by
    rw [UnpackedFloat.shiftToTargetExponent, targetExponent_normal hlog hk,
      UnpackedFloat.shiftToExponent, Int.sub_self, Int.toNat_zero, Int.natCast_zero, Int.add_zero]
    rfl
  have hrounded : (⟨m, false, false⟩ : ExtendedMantissa).roundedMantissa = m := rfl
  rw [UnpackedFloat.roundWithAccuracy, hshift]
  simp only [hrounded, hshift]
  exact dif_neg hm.ne'

/-- A significand of 53 bits is packed and taken apart again as it is. -/
theorem unpack_pack_normal :
    UnpackedFloat.unpack Format.binary64
        (UnpackedFloat.pack Format.binary64 (.finite .positive m (-(k : Int)) hm)) =
      .finite .positive m (-(k : Int)) hm := by
  have hbounds := (Nat.log2_eq_iff hm.ne').mp hlog
  have hbiased : (-(k : Int) + Format.binary64.exponentBias +
      Format.binary64.mantissaBitsWithoutImplicit).toNat = 1075 - k := by
    show (-(k : Int) + 1023 + 52).toNat = 1075 - k
    omega
  have hexponent : (BitVec.ofNat 11 (1075 - k)).toNat = 1075 - k := by
    rw [BitVec.toNat_ofNat]
    omega
  have hpack : UnpackedFloat.pack Format.binary64 (.finite .positive m (-(k : Int)) hm) =
      UnpackedFloat.packComponents Format.binary64 .positive (BitVec.ofNat 11 (1075 - k))
        (BitVec.ofNat 52 m) := by
    have hfits : ¬2 ^ Format.binary64.exponentBits ≤ 1075 - k + 1 := by
      show ¬2048 ≤ 1075 - k + 1
      omega
    have hnormal : m.log2 + 1 = Format.binary64.mantissaBits := by
      rw [hlog]
      rfl
    simp only [UnpackedFloat.pack, hbiased, if_neg hfits, if_pos hnormal]
  have hsign : UnpackedFloat.unpackSign (UnpackedFloat.packComponents Format.binary64 .positive
      (BitVec.ofNat 11 (1075 - k)) (BitVec.ofNat 52 m)) = 0#1 := by
    show ((0#1 ++ BitVec.ofNat 11 (1075 - k)) ++ BitVec.ofNat 52 m).extractLsb' 63 1 = 0#1
    rw [BitVec.extractLsb'_append_eq_of_le (by decide),
      BitVec.extractLsb'_append_eq_of_le (by decide)]
    rfl
  -- The leading bit is left out when the significand is packed, and put back.
  have hmantissa : (1#1 ++ BitVec.ofNat 52 m).toNat = m := by
    rw [BitVec.toNat_append, BitVec.toNat_ofNat, Nat.shiftLeft_eq]
    show 1 * 2 ^ 52 ||| m % 2 ^ 52 = m
    rw [Nat.one_mul, Nat.or_comm, Nat.or_two_pow_eq_add_of_lt (Nat.mod_lt m (Nat.two_pow_pos 52))]
    omega
  have hinfinite : BitVec.ofNat 11 (1075 - k) ≠ -1#11 := by
    intro h
    have := congrArg BitVec.toNat h
    rw [hexponent] at this
    change 1075 - k = 2047 at this
    omega
  have hsubnormal : BitVec.ofNat 11 (1075 - k) ≠ 0#11 := by
    intro h
    have := congrArg BitVec.toNat h
    rw [hexponent] at this
    change 1075 - k = 0 at this
    omega
  have hunbiased : ((1075 - k : Nat) : Int) - (Format.binary64.exponentBias +
      Format.binary64.mantissaBitsWithoutImplicit) = -(k : Int) := by
    show ((1075 - k : Nat) : Int) - (1023 + 52) = -(k : Int)
    omega
  rw [hpack, UnpackedFloat.unpack]
  simp only [UnpackedFloat.unpackExponent_packComponents,
    UnpackedFloat.unpackMantissa_packComponents, if_neg hinfinite, if_neg hsubnormal, hexponent,
    hunbiased, hmantissa, hsign]
  rfl

end Normal

/-- A positive whole number below `2⁵³` is scaled to a significand of 53 bits, and nothing of it is
rounded. -/
theorem ofNat_normal {n k : Nat} (hn : 0 < n) (hk : n.log2 + k = 52) :
    UnpackedFloat.ofNat Format.binary64 n =
      .finite .positive (n * 2 ^ k) (-(k : Int)) (Nat.mul_pos hn (Nat.two_pow_pos k)) := by
  have hlog : (n * 2 ^ k).log2 = 52 := (log2_mul_two_pow hn.ne' k).trans hk
  have htarget : Format.binary64.targetExponent (totalExponent n 0) = -(k : Int) := by
    simp only [Format.targetExponent, totalExponent, Format.mantissaBits, Format.minExponent]
    omega
  have hcompare : compare (n : Int) 0 = .gt := Int.compare_eq_gt.mpr (by omega)
  have hshift : (0 - -(k : Int)).toNat = k := by omega
  rw [UnpackedFloat.ofNat, UnpackedFloat.ofInt, UnpackedFloat.normalize, hcompare]
  simp only [UnpackedFloat.round, Int.toNat_natCast, htarget, UnpackedFloat.decreaseExponent,
    hshift, Nat.shiftLeft_eq]
  rw [Int.zero_sub]
  exact roundWithAccuracy_normal _ hlog (by omega)

/-- The whole part of a scaled number is the number. -/
theorem toUInt64_normal {n k : Nat} (hn : 0 < n) (hk : n.log2 + k = 52) :
    (UnpackedFloat.finite .positive (n * 2 ^ k) (-(k : Int))
      (Nat.mul_pos hn (Nat.two_pow_pos k))).toUInt64.toNat = n := by
  have hbound : n < 2 ^ (n.log2 + 1) := (Nat.log2_lt hn.ne').mp (Nat.lt_succ_self _)
  have hsmall : n < 2 ^ 53 :=
    Nat.lt_of_lt_of_le hbound (Nat.pow_le_pow_right (by decide) (by omega))
  have hint : UnpackedFloat.roundToInt .positive (n * 2 ^ k) (-(k : Int)) = n := by
    have hnone : (-(k : Int) - 0).toNat = 0 := by omega
    have hshift : (0 - (-(k : Int) - (0 : Nat))).toNat = k := by omega
    simp only [UnpackedFloat.roundToInt, UnpackedFloat.decreaseExponent, hnone,
      UnpackedFloat.shiftToExponent, hshift, mantissa_shiftRight]
    show ((n * 2 ^ k <<< 0 / 2 ^ k : Nat) : Int) = n
    rw [Nat.shiftLeft_zero, Nat.mul_div_cancel _ (Nat.two_pow_pos k)]
  rw [UnpackedFloat.toUInt64, UnpackedFloat.toInt, hint, Int.toNat_natCast]
  exact UInt64.toNat_ofNatClamp_of_lt (Nat.lt_trans hsmall (by decide))

/-- **A whole number below `2⁵³` is read back from its float.** -/
theorem wholePart_nearestFloat {n : Nat} (h : n < 2 ^ 53) : wholePart (nearestFloat n) = n := by
  have hword : n < wordCount64 := Nat.lt_trans h (by decide)
  rcases Nat.eq_zero_or_pos n with rfl | hn
  · decide +kernel
  · obtain ⟨k, hk⟩ : ∃ k, n.log2 + k = 52 :=
      ⟨52 - n.log2, Nat.add_sub_cancel' (Nat.le_of_lt_succ ((Nat.log2_lt hn.ne').mpr h))⟩
    have hfloat : wholePart (nearestFloat n) = ((UnpackedFloat.unpack Format.binary64
        (UnpackedFloat.pack Format.binary64
          (UnpackedFloat.ofNat Format.binary64 n.toUInt64.toNat))).toUInt64).toNat := by
      rw [wholePart, nearestFloat, if_pos hword]
      rfl
    have hsame : n.toUInt64.toNat = n := Nat.mod_eq_of_lt hword
    rw [hfloat, hsame, ofNat_normal hn hk, unpack_pack_normal _
      ((log2_mul_two_pow hn.ne' k).trans hk) (by omega), toUInt64_normal hn hk]

end StreamDispatch
