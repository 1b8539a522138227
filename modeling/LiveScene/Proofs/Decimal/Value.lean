import LiveScene.Decimal.Notation
import LiveScene.Proofs.Double.Range

/-!
# The value of a decimal

Which double a decimal reads as depends on its value alone: zeros moved between the digits and the
power of ten change nothing (`bits_shift`), so the significant digits read as the decimal they come
from (`bits_significant`). Looking at the place of the leading digit first, as `toFloat?` does,
changes nothing either (`toFloat?_eq`). Every count of 64 bits is within the range of doubles
(`bits_lt_infinityBits`).
-/

namespace LiveScene.Decimal

open Double

/-! ## Powers of ten -/

theorem ten_pow_pos (k : Nat) : 0 < Nat.pow 10 k := Nat.pow_pos (by decide)

theorem ten_pow_add (k l : Nat) : Nat.pow 10 (k + l) = Nat.pow 10 k * Nat.pow 10 l :=
  Nat.pow_add 10 k l

theorem ten_pow_le {k l : Nat} (h : k ≤ l) : Nat.pow 10 k ≤ Nat.pow 10 l :=
  Nat.pow_le_pow_right (by decide) h

/-- Zeros moved from the digits to the power of ten. -/
theorem bits_shift (n k : Nat) (e : Int) : bits ⟨n * Nat.pow 10 k, e⟩ = bits ⟨n, e + k⟩ := by
  simp only [bits, ratio]
  rcases Int.lt_or_le e 0 with he | he
  · rw [if_neg (by omega)]
    rcases Int.lt_or_le (e + k) 0 with hek | hek
    · rw [if_neg (by omega), show (-e).toNat = (-(e + k)).toNat + k by omega, ten_pow_add]
      exact nearestBits_mul_right _ _ (ten_pow_pos k)
    · rw [if_pos (by omega), show k = (e + k).toNat + (-e).toNat by omega, ten_pow_add,
        ← Nat.mul_assoc]
      have h := nearestBits_mul_right (n * Nat.pow 10 (e + k).toNat) 1 (ten_pow_pos (-e).toNat)
      rw [Nat.one_mul] at h
      rw [h]
      congr 4
      omega
  · rw [if_pos he, if_pos (by omega), show (e + k).toNat = k + e.toNat by omega, ten_pow_add,
      Nat.mul_assoc]

theorem bits_zero (e : Int) : bits ⟨0, e⟩ = 0 := by
  simp only [bits, ratio, Nat.zero_mul]
  split
  · exact nearestBits_eq_zero (by simp)
  · exact nearestBits_eq_zero (by rw [Nat.zero_shiftLeft]; exact ten_pow_pos _)

theorem digits_ne_zero {d : Decimal} (h : d.bits ≠ 0) : d.digits ≠ 0 := by
  intro h0
  obtain ⟨n, e⟩ := d
  cases h0
  exact h (bits_zero e)

/-! ## The place of the leading digit -/

theorem digitCount_pos (n : Nat) : 0 < digitCount n := Nat.length_toDigits_pos

theorem lt_ten_pow_digitCount (n : Nat) : n < Nat.pow 10 (digitCount n) :=
  (Nat.length_toDigits_le_iff (by decide) (digitCount_pos n)).1 (Nat.le_refl _)

theorem ten_pow_le_of_lt_digitCount {n k : Nat} (hn : n ≠ 0) (hk : k < digitCount n) :
    Nat.pow 10 k ≤ n := by
  rcases Nat.eq_zero_or_pos k with rfl | hpos
  · exact Nat.pos_of_ne_zero hn
  · have h : ¬ n < Nat.pow 10 k := by
      intro hlt
      have := (Nat.length_toDigits_le_iff (by decide) hpos).2 hlt
      unfold digitCount at hk
      omega
    omega

/-- A decimal whose leading digit stands beyond `10 ^ 310` overflows. -/
theorem infinityBits_le_bits {d : Decimal} (h0 : d.digits ≠ 0)
    (h : 310 < digitCount d.digits + d.exponent) : infinityBits ≤ d.bits := by
  obtain ⟨k, hk, hten⟩ : ∃ k, k = 310 ∧ 2 ^ 1024 ≤ Nat.pow 10 k := ⟨310, rfl, by decide +kernel⟩
  have hcount := digitCount_pos d.digits
  simp only [bits, ratio]
  split
  · next he =>
    apply infinityBits_le_nearestBits Nat.one_pos
    rw [Nat.one_shiftLeft]
    calc 2 ^ 1024 ≤ Nat.pow 10 k := hten
      _ ≤ Nat.pow 10 (digitCount d.digits - 1 + d.exponent.toNat) :=
        ten_pow_le (by omega)
      _ = Nat.pow 10 (digitCount d.digits - 1) * Nat.pow 10 d.exponent.toNat := ten_pow_add _ _
      _ ≤ d.digits * Nat.pow 10 d.exponent.toNat :=
        Nat.mul_le_mul_right _ (ten_pow_le_of_lt_digitCount h0 (by omega))
  · next he =>
    apply infinityBits_le_nearestBits (ten_pow_pos _)
    rw [Nat.shiftLeft_eq]
    calc Nat.pow 10 (-d.exponent).toNat * 2 ^ 1024
        ≤ Nat.pow 10 (-d.exponent).toNat * Nat.pow 10 k := Nat.mul_le_mul_left _ hten
      _ = Nat.pow 10 ((-d.exponent).toNat + k) := (ten_pow_add _ _).symm
      _ ≤ d.digits := ten_pow_le_of_lt_digitCount h0 (by omega)

/-- A decimal whose leading digit stands below `10 ^ (-330)` rounds to zero. -/
theorem bits_eq_zero {d : Decimal} (h : digitCount d.digits + d.exponent < -330) : d.bits = 0 := by
  obtain ⟨k, hk, hten⟩ : ∃ k, k = 331 ∧ 2 ^ (1 + unitExponent) ≤ Nat.pow 10 k :=
    ⟨331, rfl, by decide +kernel⟩
  simp only [bits, ratio]
  rw [if_neg (by omega)]
  apply nearestBits_eq_zero
  rw [Nat.shiftLeft_eq]
  calc d.digits * 2 ^ (1 + unitExponent) ≤ d.digits * Nat.pow 10 k :=
        Nat.mul_le_mul_left _ hten
    _ < Nat.pow 10 (digitCount d.digits) * Nat.pow 10 k :=
        Nat.mul_lt_mul_of_pos_right (lt_ten_pow_digitCount _) (ten_pow_pos _)
    _ = Nat.pow 10 (digitCount d.digits + k) := (ten_pow_add _ _).symm
    _ ≤ Nat.pow 10 (-d.exponent).toNat := ten_pow_le (by omega)

/-- Looking at the place of the leading digit first turns away only what overflows, and makes zero
only of what rounds to it. -/
theorem toFloat?_eq (d : Decimal) (negative : Bool) :
    d.toFloat? negative = ofBits? negative d.bits := by
  simp only [toFloat?]
  split
  · next hzero =>
    obtain ⟨n, e⟩ := d
    cases hzero
    rw [bits_zero]
  · next hd =>
    split
    · next htop => rw [ofBits?, if_neg (Nat.not_lt.2 (infinityBits_le_bits hd htop))]
    · split
      · next hlow => rw [bits_eq_zero hlow]
      · rfl

theorem isSome_ofBits? {bits : Nat} (h : bits < infinityBits) (negative : Bool) :
    (ofBits? negative bits).isSome := by
  rw [ofBits?, if_pos h]
  rfl

/-- A count of 64 bits is within the range of doubles. -/
theorem bits_lt_infinityBits {n : Nat} (h : n < 0x10000000000000000) :
    bits ⟨n, 0⟩ < infinityBits := by
  refine nearestBits_lt_infinityBits Nat.one_pos ?_
  calc n * Nat.pow 10 0 = n := Nat.mul_one n
    _ < 0x10000000000000000 := h
    _ ≤ 1 <<< 1023 := by decide +kernel

end LiveScene.Decimal
