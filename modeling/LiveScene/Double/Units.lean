/-!
# Doubles as whole numbers of units

Every finite double is a whole number of units of `2 ^ (-1074)`, the smallest positive double. With
its sign set aside, a double is determined by its low 63 bits, and these count upwards with the
magnitude: `units` reads the number of units off the bits, and `nearestBits` finds the bits of the
double nearest to a quotient of whole numbers. A half goes to the neighbour with the even last bit.

The bits are a block number and an offset, `shift * blockSize + mantissa`, where the magnitude is
`mantissa * 2 ^ shift` units. Because the formula also carries (a mantissa of `2 ^ 53` is the first
double of the next block), rounding up needs no case of its own, and overflow shows as bits from
`infinityBits` on.

Rounding depends on the value of a quotient alone (`nearestBits_mul_right`), and a double is nearest
to itself (`nearestBits_units`).
-/

namespace LiveScene.Double

/-- The quotient rounded to the nearest whole number, a half going to the even neighbour. -/
def roundHalfEven (num den : Nat) : Nat :=
  let q := num / den
  let twice := 2 * (num % den)
  if twice < den then q
  else if den < twice then q + 1
  else q + q % 2

/-- A unit is `2 ^ (-unitExponent)`. -/
def unitExponent : Nat := 1074

/-- How many units make one. -/
def unitsPerOne : Nat := 1 <<< unitExponent

/-- The bits of positive infinity, one more than those of the greatest finite double. -/
def infinityBits : Nat := 0x7ff0000000000000

/-- The bit that holds the sign. -/
def signBit : Nat := 0x8000000000000000

/-- How many doubles there are in a block, which is what the offset of 52 bits can tell apart. -/
def blockSize : Nat := 0x10000000000000

/-- The number of units of the double whose bits, without the sign, are `bits`. -/
def units (bits : Nat) : Nat :=
  let shift := bits / blockSize - 1
  (bits - shift * blockSize) <<< shift

/-- The bits, without the sign, of the double nearest to `num / den`; at least `infinityBits` when
that quotient overflows. -/
def nearestBits (num den : Nat) : Nat :=
  let scaled := num * unitsPerOne
  let shift := (scaled / den).log2 - 52
  shift * blockSize + roundHalfEven scaled (den <<< shift)

/-- The double with the given sign and bits, or `none` from `infinityBits` on. -/
def ofBits? (negative : Bool) (bits : Nat) : Option Float :=
  if bits < infinityBits then
    some (Float.ofBits (UInt64.ofNat (if negative then signBit + bits else bits)))
  else none

/-- The bits of `x` without its sign. -/
def magnitudeBits (x : Float) : Nat := x.toBits.toNat % signBit

/-- Whether the sign bit of `x` is set. -/
def isNegative (x : Float) : Bool := signBit ≤ x.toBits.toNat

/-! ## Rounding exact values -/

theorem roundHalfEven_mul_right (num den : Nat) {k : Nat} (hk : 0 < k) :
    roundHalfEven (num * k) (den * k) = roundHalfEven num den := by
  have h : 2 * (num % den * k) = 2 * (num % den) * k := by rw [Nat.mul_assoc]
  simp only [roundHalfEven, Nat.mul_div_mul_right _ _ hk, Nat.mul_mod_mul_right, h,
    Nat.mul_lt_mul_right hk]

theorem roundHalfEven_mul_self (m : Nat) {d : Nat} (hd : 0 < d) : roundHalfEven (m * d) d = m := by
  simp [roundHalfEven, Nat.mul_div_cancel _ hd, hd]

/-- Rounding depends on the value of the quotient alone. -/
theorem nearestBits_mul_right (num den : Nat) {k : Nat} (hk : 0 < k) :
    nearestBits (num * k) (den * k) = nearestBits num den := by
  have h1 : num * k * unitsPerOne = num * unitsPerOne * k := by
    rw [Nat.mul_assoc, Nat.mul_comm k, Nat.mul_assoc]
  have h2 (e : Nat) : (den * k) <<< e = den <<< e * k := by
    rw [Nat.shiftLeft_eq, Nat.shiftLeft_eq, Nat.mul_assoc, Nat.mul_comm k, Nat.mul_assoc]
  simp only [nearestBits, h1, h2, Nat.mul_div_mul_right _ _ hk, roundHalfEven_mul_right _ _ hk]

theorem unitsPerOne_pos : 0 < unitsPerOne := by
  rw [unitsPerOne, Nat.one_shiftLeft]
  exact Nat.two_pow_pos unitExponent

/-- The block that `nearestBits` finds for a double is its own. -/
theorem log2_units (b : Nat) : (units b).log2 - 52 = b / blockSize - 1 := by
  have hunits : units b = (b - (b / 2 ^ 52 - 1) * 2 ^ 52) * 2 ^ (b / 2 ^ 52 - 1) :=
    Nat.shiftLeft_eq _ _
  change _ = b / 2 ^ 52 - 1
  rcases Nat.lt_or_ge b (2 ^ 53) with h | h
  · have h0 : b / 2 ^ 52 - 1 = 0 := by omega
    rw [hunits, h0]
    rcases Nat.eq_zero_or_pos b with rfl | hb
    · simp
    · have : b.log2 < 53 := (Nat.log2_lt (by omega)).2 h
      simp; omega
  · have hs : 1 ≤ b / 2 ^ 52 - 1 := by omega
    generalize hk : b / 2 ^ 52 - 1 = s at hs hunits
    have hm : 2 ^ 52 ≤ b - s * 2 ^ 52 ∧ b - s * 2 ^ 52 < 2 ^ 53 := by omega
    have : (units b).log2 = 52 + s := by
      rw [hunits]
      generalize b - s * 2 ^ 52 = m at hm
      have hs2 : 0 < 2 ^ s := Nat.two_pow_pos s
      have hm0 : m ≠ 0 := by omega
      rw [Nat.log2_eq_iff (Nat.mul_ne_zero hm0 (Nat.ne_of_gt hs2)), Nat.pow_add,
        show 52 + s + 1 = 53 + s by omega, Nat.pow_add]
      exact ⟨Nat.mul_le_mul_right _ hm.1, Nat.mul_lt_mul_of_pos_right hm.2 hs2⟩
    omega

/-- A double is nearest to itself. -/
theorem nearestBits_units (b : Nat) : nearestBits (units b) unitsPerOne = b := by
  have hlog := log2_units b
  have hpos := unitsPerOne_pos
  simp only [nearestBits, Nat.mul_div_cancel _ hpos, hlog]
  have hden : 0 < unitsPerOne <<< (b / blockSize - 1) := by
    rw [Nat.shiftLeft_eq]
    exact Nat.mul_pos hpos (Nat.two_pow_pos _)
  have : units b * unitsPerOne =
      (b - (b / blockSize - 1) * blockSize) * unitsPerOne <<< (b / blockSize - 1) := by
    simp only [units, Nat.shiftLeft_eq]
    rw [Nat.mul_assoc, Nat.mul_comm (2 ^ _)]
  rw [this, roundHalfEven_mul_self _ hden]
  simp only [blockSize]
  omega

end LiveScene.Double
