import LiveScene.Double.Units

/-!
# The shortest decimal of a double

A `Decimal` is a whole number of digits and a power of ten. `Decimal.bits` reads it back as the
nearest double, and `shortest` looks for the decimal of fewest digits that reads back to a given
double. On the grid of decimals of `n` significant digits only the two neighbours of the value
need to be tried: the doubles that read the same form an interval around the value, so if any point
of the grid lies in it, so does a neighbour. Of two neighbours that both read back the nearer is
taken, and of two equally near ones the even one.

Seventeen digits always suffice; should none read back, the exact value, which every double has as
a decimal, stands in. So the result reads back in any case (`bits_shortest`).
-/

namespace LiveScene

open Double

/-- The number `digits * 10 ^ exponent`. -/
structure Decimal where
  digits : Nat
  exponent : Int
deriving DecidableEq

namespace Decimal

/-- The number of decimal digits of `n`, one for zero. -/
def digitCount (n : Nat) : Nat := (Nat.toDigits 10 n).length

/-- How many steps of `10 ^ e` there are in `u` units, as a quotient of whole numbers. -/
def steps (u : Nat) (e : Int) : Nat × Nat :=
  if 0 ≤ e then (u, unitsPerOne * Nat.pow 10 e.toNat) else (u * Nat.pow 10 (-e).toNat, unitsPerOne)

/-- The decimal as a quotient of whole numbers. -/
def ratio (d : Decimal) : Nat × Nat :=
  if 0 ≤ d.exponent then (d.digits * Nat.pow 10 d.exponent.toNat, 1)
  else (d.digits, Nat.pow 10 (-d.exponent).toNat)

/-- The bits of the nearest double. -/
def bits (d : Decimal) : Nat := nearestBits d.ratio.1 d.ratio.2

/-- The place of the leading digit of `u` units: the least `t` for which the value is below
`10 ^ t`. -/
def place (u : Nat) : Int :=
  let whole := u / unitsPerOne
  if whole = 0 then 1 - digitCount ((unitsPerOne - 1) / u) else digitCount whole

/-- The neighbours of `u` units on the grid of steps of `10 ^ e`, the preferred one first. -/
def neighbours (u : Nat) (e : Int) : List Decimal :=
  let (num, den) := steps u e
  let lower := num / den
  let nearest := roundHalfEven num den
  [⟨nearest, e⟩, ⟨if nearest = lower then lower + 1 else lower, e⟩]

/-- The value of `u` units, as a decimal of however many digits it takes. -/
def exact (u : Nat) : Decimal := ⟨u * Nat.pow 5 unitExponent, -unitExponent⟩

/-- A decimal of fewest digits that reads back as the double with the given bits. -/
def shortest (b : Nat) : Decimal :=
  let u := units b
  ((List.range 17).findSome? fun n =>
    (neighbours u (place u - (n + 1 : Nat))).find? (·.bits == b)).getD (exact u)

/-- The double nearest to the decimal, with the given sign, or `none` on overflow. A decimal far
outside the range of doubles is recognised by the place of its leading digit. -/
def toFloat? (negative : Bool) (d : Decimal) : Option Float :=
  if d.digits = 0 then ofBits? negative 0
  else
    let top := digitCount d.digits + d.exponent
    if 310 < top then none
    else if top < -330 then ofBits? negative 0
    else ofBits? negative d.bits

/-! ## Reading back -/

/-- The exact value reads as its nearest double. -/
theorem bits_exact (u : Nat) : (exact u).bits = nearestBits u unitsPerOne := by
  have h : Nat.pow 10 unitExponent = unitsPerOne * Nat.pow 5 unitExponent := by
    rw [unitsPerOne, Nat.one_shiftLeft, Nat.pow_eq, Nat.pow_eq, ← Nat.mul_pow 2 5]
  have hr : (exact u).ratio =
      (u * Nat.pow 5 unitExponent, unitsPerOne * Nat.pow 5 unitExponent) := by
    rw [← h]; rfl
  have hpos : 0 < Nat.pow 5 unitExponent := by
    rw [Nat.pow_eq]
    exact Nat.pow_pos (by decide)
  rw [bits, hr]
  exact nearestBits_mul_right _ _ hpos

/-- The shortest decimal of a double reads back as that double. -/
theorem bits_shortest (b : Nat) : (shortest b).bits = b := by
  simp only [shortest]
  cases h : (List.range 17).findSome? fun n =>
      (neighbours (units b) (place (units b) - (n + 1 : Nat))).find? (·.bits == b) with
  | none => rw [Option.getD_none, bits_exact, nearestBits_units]
  | some d =>
    obtain ⟨n, -, hn⟩ := List.exists_of_findSome?_eq_some h
    simpa using List.find?_some hn

end Decimal

end LiveScene
