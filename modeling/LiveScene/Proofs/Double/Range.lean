import LiveScene.Double.Units

/-!
# The range of rounding

Where the nearest double of a quotient lies. From `2 ^ 1024` on it is no longer finite
(`infinityBits_le_nearestBits`), below half of that it is (`nearestBits_lt_infinityBits`), and
under half a unit it is zero (`nearestBits_eq_zero`).
-/

namespace LiveScene.Double

theorem le_roundHalfEven (num den : Nat) : num / den ≤ roundHalfEven num den := by
  simp only [roundHalfEven]
  split
  · omega
  · split <;> omega

theorem roundHalfEven_le (num den : Nat) : roundHalfEven num den ≤ num / den + 1 := by
  simp only [roundHalfEven]
  split
  · omega
  · split <;> omega

/-! ## The block of a quotient -/

/-- A quotient from `2 ^ k` on, in units. -/
theorem le_log2_scaled {num den k : Nat} (hden : 0 < den) (h : den <<< k ≤ num) :
    k + unitExponent ≤ (num * unitsPerOne / den).log2 := by
  have hq : 2 ^ (k + unitExponent) ≤ num * unitsPerOne / den := by
    rw [Nat.le_div_iff_mul_le hden, Nat.pow_add, unitsPerOne, Nat.one_shiftLeft]
    rw [Nat.shiftLeft_eq] at h
    calc 2 ^ k * 2 ^ unitExponent * den = den * 2 ^ k * 2 ^ unitExponent := by
          rw [Nat.mul_comm, Nat.mul_assoc]
      _ ≤ num * 2 ^ unitExponent := Nat.mul_le_mul_right _ h
  have hpos : 0 < 2 ^ (k + unitExponent) := Nat.two_pow_pos _
  exact (Nat.le_log2 (by omega)).2 hq

/-- A quotient below `2 ^ k`, in units. -/
theorem log2_scaled_lt {num den k : Nat} (hden : 0 < den) (h : num < den <<< k) :
    (num * unitsPerOne / den).log2 < k + unitExponent := by
  rcases Nat.eq_zero_or_pos (num * unitsPerOne / den) with h0 | h0
  · rw [h0]
    simp [unitExponent]
  rw [Nat.log2_lt (by omega), Nat.div_lt_iff_lt_mul hden, Nat.pow_add, unitsPerOne,
    Nat.one_shiftLeft]
  rw [Nat.shiftLeft_eq] at h
  calc num * 2 ^ unitExponent < den * 2 ^ k * 2 ^ unitExponent :=
        Nat.mul_lt_mul_of_pos_right h (Nat.two_pow_pos _)
    _ = 2 ^ k * 2 ^ unitExponent * den := by rw [Nat.mul_assoc, Nat.mul_comm]

theorem le_nearestBits (num den : Nat) (h : 52 ≤ (num * unitsPerOne / den).log2) :
    ((num * unitsPerOne / den).log2 - 51) * blockSize ≤ nearestBits num den := by
  have hround := le_roundHalfEven (num * unitsPerOne)
    (den <<< ((num * unitsPerOne / den).log2 - 52))
  have hne : num * unitsPerOne / den ≠ 0 := by
    intro h0
    rw [h0] at h
    simp at h
  simp only [nearestBits]
  rw [Nat.shiftLeft_eq, ← Nat.div_div_eq_div_mul] at hround
  rw [Nat.shiftLeft_eq]
  generalize num * unitsPerOne / den = q at *
  have hq : 2 ^ 52 ≤ q / 2 ^ (q.log2 - 52) := by
    rw [Nat.le_div_iff_mul_le (Nat.two_pow_pos _), ← Nat.pow_add,
      show 52 + (q.log2 - 52) = q.log2 by omega]
    exact Nat.log2_self_le hne
  have hblock : (q.log2 - 51) * blockSize = (q.log2 - 52) * blockSize + 2 ^ 52 := by
    simp only [blockSize]
    omega
  omega

theorem nearestBits_le (num den : Nat) :
    nearestBits num den ≤ ((num * unitsPerOne / den).log2 - 52 + 2) * blockSize := by
  have hround := roundHalfEven_le (num * unitsPerOne)
    (den <<< ((num * unitsPerOne / den).log2 - 52))
  simp only [nearestBits]
  rw [Nat.shiftLeft_eq, ← Nat.div_div_eq_div_mul] at hround
  rw [Nat.shiftLeft_eq]
  generalize num * unitsPerOne / den = q at *
  have hq : q / 2 ^ (q.log2 - 52) < 2 ^ 53 := by
    rw [Nat.div_lt_iff_lt_mul (Nat.two_pow_pos _), ← Nat.pow_add]
    calc q < 2 ^ (q.log2 + 1) := Nat.lt_log2_self
      _ ≤ 2 ^ (53 + (q.log2 - 52)) := Nat.pow_le_pow_right (by omega) (by omega)
  simp only [blockSize] at *
  omega

/-! ## Overflow and underflow -/

theorem infinityBits_le_nearestBits {num den : Nat} (hden : 0 < den) (h : den <<< 1024 ≤ num) :
    infinityBits ≤ nearestBits num den := by
  have hlog := le_log2_scaled hden h
  simp only [unitExponent] at hlog
  have hbits := le_nearestBits num den (by omega)
  simp only [blockSize, infinityBits] at *
  omega

theorem nearestBits_lt_infinityBits {num den : Nat} (hden : 0 < den) (h : num < den <<< 1023) :
    nearestBits num den < infinityBits := by
  have hlog := log2_scaled_lt hden h
  simp only [unitExponent] at hlog
  have hbits := nearestBits_le num den
  simp only [blockSize, infinityBits] at *
  omega

theorem nearestBits_eq_zero {num den : Nat} (h : num <<< (1 + unitExponent) < den) :
    nearestBits num den = 0 := by
  have hscaled : 2 * (num * unitsPerOne) < den := by
    rw [Nat.shiftLeft_eq, Nat.pow_add, Nat.pow_one] at h
    rw [unitsPerOne, Nat.one_shiftLeft, Nat.mul_left_comm]
    exact h
  have hquot : num * unitsPerOne / den = 0 := Nat.div_eq_of_lt (by omega)
  have hmod : num * unitsPerOne % den = num * unitsPerOne := Nat.mod_eq_of_lt (by omega)
  have hround : roundHalfEven (num * unitsPerOne) den = 0 := by
    simp only [roundHalfEven, hquot, hmod]
    rw [if_pos hscaled]
  rw [nearestBits, hquot, Nat.log2_zero, Nat.zero_sub, Nat.shiftLeft_zero, hround, Nat.zero_mul]

end LiveScene.Double
