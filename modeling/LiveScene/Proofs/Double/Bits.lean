import Mathlib
import LiveScene.Double.Units

/-!
# Finite doubles and their bits

The bits of a double are a sign, an exponent of 11 bits and a mantissa of 52. The exponent of a
finite double is not the greatest one (`unpackExponent_of_isFinite`), so what is left of its bits
without the sign stays below the bits of infinity (`magnitudeBits_lt`). And a finite double is the
one with its sign and these bits (`ofBits?_magnitudeBits`), the negative zero and the subnormal
doubles included.
-/

namespace LiveScene.Double

open Float.Model (Format)
open Float.Model.UnpackedFloat

theorem toNat_unpackExponent (b : BitVec Format.binary64.numBits) :
    (unpackExponent b).toNat = b.toNat / blockSize % 0x800 := by
  simp [unpackExponent, blockSize, Nat.shiftRight_eq_div_pow]

/-- The exponent of a finite double is not the greatest. -/
theorem unpackExponent_of_isFinite {b : BitVec Format.binary64.numBits}
    (h : (unpack .binary64 b).isFinite) : unpackExponent b ≠ -1#_ := by
  intro he
  unfold unpack at h
  rw [if_pos he] at h
  by_cases hm : unpackMantissa b = 0#_
  · rw [if_pos hm] at h
    exact Bool.false_ne_true h
  · rw [if_neg hm] at h
    exact Bool.false_ne_true h

/-! ## Sign and magnitude -/

theorem magnitudeBits_lt {x : Float} (h : x.isFinite) : magnitudeBits x < infinityBits := by
  have he : @unpackExponent .binary64 x.toBits.toBitVec ≠ -1 :=
    unpackExponent_of_isFinite h
  have hne : x.toBits.toNat / blockSize % 0x800 ≠ 0x7ff := by
    intro heq
    apply he
    apply BitVec.eq_of_toNat_eq
    rw [toNat_unpackExponent]
    exact heq
  simp only [magnitudeBits, infinityBits, signBit, blockSize] at *
  omega

/-- A finite double is the one with its sign and its magnitude. -/
theorem ofBits?_magnitudeBits {x : Float} (h : x.isFinite) :
    ofBits? (isNegative x) (magnitudeBits x) = some x := by
  have hlt : x.toBits.toNat < 2 ^ 64 := x.toBits.toBitVec.isLt
  have hbits : (if isNegative x then signBit + magnitudeBits x else magnitudeBits x) =
      x.toBits.toNat := by
    by_cases hs : signBit ≤ x.toBits.toNat
    · simp only [isNegative, magnitudeBits, hs, decide_true, if_true]
      simp only [signBit] at *
      omega
    · simp only [isNegative, magnitudeBits, hs, decide_false, Bool.false_eq_true, if_false]
      simp only [signBit] at *
      omega
  rw [ofBits?, if_pos (magnitudeBits_lt h), hbits, UInt64.ofNat_toNat, Float.ofBits_toBits]

end LiveScene.Double
