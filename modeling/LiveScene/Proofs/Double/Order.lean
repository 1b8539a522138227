import Mathlib.Data.Nat.Log
import Mathlib.Tactic.Linarith
import LiveScene.Proofs.Double.Range

/-!
# The order of rounding

Rounding keeps the order of quotients (`nearestBits_mono`). Because a double is nearest to itself,
doubles are ordered as their bits are (`units_lt_units`), and a quotient that is rounded below a
double is less than that double (`lt_units_of_nearestBits_lt`).
-/

namespace LiveScene.Double

/-! ## Rounding to whole numbers -/

/-- Rounding up goes at most half a step, and half a step only to an even number. -/
theorem two_mul_roundHalfEven_le (num : Nat) {den : Nat} (hden : 0 < den) :
    2 * (roundHalfEven num den * den) ≤ 2 * num + den ∧
      (2 * (roundHalfEven num den * den) = 2 * num + den → roundHalfEven num den % 2 = 0) := by
  have hdiv := Nat.div_add_mod' num den
  have hmod := Nat.mod_lt num hden
  simp only [roundHalfEven]
  generalize num / den = q at hdiv
  generalize num % den = r at *
  have hstep : (q + 1) * den = q * den + den := Nat.succ_mul q den
  split
  · omega
  · split
    · rw [hstep]
      omega
    · rcases Nat.mod_two_eq_zero_or_one q with h | h
      · rw [h, Nat.add_zero]
        omega
      · rw [h, hstep]
        omega

/-- Rounding down goes at most half a step, and half a step only to an even number. -/
theorem le_two_mul_roundHalfEven (num : Nat) {den : Nat} (hden : 0 < den) :
    2 * num ≤ 2 * (roundHalfEven num den * den) + den ∧
      (2 * num = 2 * (roundHalfEven num den * den) + den → roundHalfEven num den % 2 = 0) := by
  have hdiv := Nat.div_add_mod' num den
  have hmod := Nat.mod_lt num hden
  simp only [roundHalfEven]
  generalize num / den = q at hdiv
  generalize num % den = r at *
  have hstep : (q + 1) * den = q * den + den := Nat.succ_mul q den
  split
  · omega
  · split
    · rw [hstep]
      omega
    · rcases Nat.mod_two_eq_zero_or_one q with h | h
      · rw [h, Nat.add_zero]
        omega
      · rw [h, hstep]
        omega

theorem roundHalfEven_mono {a b c d : Nat} (hb : 0 < b) (hd : 0 < d) (h : a * d ≤ c * b) :
    roundHalfEven a b ≤ roundHalfEven c d := by
  obtain ⟨hup, hupEven⟩ := two_mul_roundHalfEven_le a hb
  obtain ⟨hdown, hdownEven⟩ := le_two_mul_roundHalfEven c hd
  generalize roundHalfEven a b = m at *
  generalize roundHalfEven c d = n at *
  by_contra hlt
  -- the greater of the two is one above the other, and both quotients lie half way between them
  have hup' : 2 * (m * (b * d)) ≤ 2 * (a * d) + b * d := by
    have := Nat.mul_le_mul_right d hup
    linarith
  have hdown' : 2 * (c * b) ≤ 2 * (n * (b * d)) + b * d := by
    have := Nat.mul_le_mul_right b hdown
    linarith
  have hbd : 0 < b * d := Nat.mul_pos hb hd
  have hm : (n + 1) * (b * d) ≤ m * (b * d) := Nat.mul_le_mul_right _ (by omega)
  rw [Nat.succ_mul] at hm
  have heq : m * (b * d) = (n + 1) * (b * d) := by
    rw [Nat.succ_mul]
    omega
  have hmn : m = n + 1 := Nat.eq_of_mul_eq_mul_right hbd heq
  rw [Nat.succ_mul] at heq
  have hmEven : m % 2 = 0 := by
    refine hupEven (Nat.eq_of_mul_eq_mul_right hd ?_)
    linarith
  have hnEven : n % 2 = 0 := by
    refine hdownEven (Nat.eq_of_mul_eq_mul_right hb ?_)
    linarith
  omega

/-! ## Rounding to doubles -/

theorem nearestBits_mono {a b c d : Nat} (hb : 0 < b) (hd : 0 < d) (h : a * d ≤ c * b) :
    nearestBits a b ≤ nearestBits c d := by
  have hscaled : a * unitsPerOne * d ≤ c * unitsPerOne * b := by
    rw [Nat.mul_right_comm, Nat.mul_right_comm c]
    exact Nat.mul_le_mul_right _ h
  have hquot : a * unitsPerOne / b ≤ c * unitsPerOne / d := by
    rw [Nat.le_div_iff_mul_le hd]
    refine Nat.le_of_mul_le_mul_right ?_ hb
    calc a * unitsPerOne / b * d * b = a * unitsPerOne / b * b * d := Nat.mul_right_comm _ _ _
      _ ≤ a * unitsPerOne * d := Nat.mul_le_mul_right _ (Nat.div_mul_le_self _ _)
      _ ≤ c * unitsPerOne * b := hscaled
  have hlog : (a * unitsPerOne / b).log2 ≤ (c * unitsPerOne / d).log2 := by
    simpa only [Nat.log2_eq_log_two] using Nat.log_mono_right hquot
  have hupper := nearestBits_le a b
  have hlower := le_nearestBits c d
  rcases Nat.lt_or_ge ((a * unitsPerOne / b).log2 - 52) ((c * unitsPerOne / d).log2 - 52) with
    hlt | hge
  · have := hlower (by omega)
    simp only [blockSize] at *
    omega
  · have heq : (a * unitsPerOne / b).log2 - 52 = (c * unitsPerOne / d).log2 - 52 := by omega
    simp only [nearestBits, heq]
    refine Nat.add_le_add_left (roundHalfEven_mono ?_ ?_ ?_) _
    · rw [Nat.shiftLeft_eq]
      exact Nat.mul_pos hb (Nat.two_pow_pos _)
    · rw [Nat.shiftLeft_eq]
      exact Nat.mul_pos hd (Nat.two_pow_pos _)
    · rw [Nat.shiftLeft_eq, Nat.shiftLeft_eq, ← Nat.mul_assoc, ← Nat.mul_assoc]
      exact Nat.mul_le_mul_right _ hscaled

/-- A quotient that is rounded below a double is less than it. -/
theorem lt_units_of_nearestBits_lt {num den b : Nat} (hden : 0 < den)
    (h : nearestBits num den < b) : num * unitsPerOne < units b * den := by
  by_contra hle
  have := nearestBits_mono unitsPerOne_pos hden (Nat.le_of_not_lt hle)
  rw [nearestBits_units] at this
  omega

/-- Doubles are ordered as their bits are. -/
theorem units_lt_units {b c : Nat} (h : b < c) : units b < units c := by
  have hself : nearestBits (units b) unitsPerOne < c := by rwa [nearestBits_units]
  exact Nat.lt_of_mul_lt_mul_right (lt_units_of_nearestBits_lt unitsPerOne_pos hself)

theorem units_le_units {b c : Nat} (h : b ≤ c) : units b ≤ units c := by
  rcases Nat.eq_or_lt_of_le h with rfl | h
  · exact Nat.le_refl _
  · exact Nat.le_of_lt (units_lt_units h)

end LiveScene.Double
