import LiveScene.Json.Number

/-!
# Reading numbers in steps

The reader of numbers that trades nearness for speed (`Reader.stepwise`). It takes digits into a
significand of 64 bits for as long as there is room, makes that a double, and then multiplies or
divides by a power of ten from a table that ends at `10 ^ 308`. Each step rounds to the nearest
double, but after two of them the result need not be nearest to what was written: the text
`0.9999999999999999` is read as one. A power beyond the table is reached by dividing more than once,
and where the product overflows the number is refused, even if a shorter significand would have made
it fit.
-/

namespace LiveScene

namespace Double

/-- The bits of the double nearest to a product; at least `infinityBits` on overflow. -/
def mulBits (a b : Nat) : Nat := nearestBits (units a * units b) (unitsPerOne * unitsPerOne)

/-- The bits of the double nearest to a quotient. -/
def divBits (a b : Nat) : Nat := nearestBits (units a) (units b)

/-- The greatest power of ten in the table. -/
def tableEnd : Nat := 308

/-- The bits of the double nearest to `10 ^ k`. -/
def tenBits (k : Nat) : Nat := nearestBits (Nat.pow 10 k) 1

/-- Divides `k` times by the greatest power in the table, as long as anything is left. -/
def lower (bits : Nat) : Nat → Nat
  | 0 => bits
  | k + 1 => if bits = 0 then 0 else lower (divBits bits (tenBits tableEnd)) k

/-- A double times a power of ten, or `none` beyond the table unless it is zero. -/
def scale? (bits : Nat) (e : Int) : Option Nat :=
  if 0 ≤ e then
    if e ≤ tableEnd then some (mulBits bits (tenBits e.toNat))
    else if bits = 0 then some 0
    else none
  else
    let beyond := ((-e).toNat - 1) / tableEnd
    some (divBits (lower bits beyond) (tenBits ((-e).toNat - beyond * tableEnd)))

end Double

namespace Number

open Double

/-- Appends digits to a significand as long as it stays below `2 ^ 64`, and tells how many of them
have been left. -/
def take (significand : Nat) : List Char → Nat × Nat
  | [] => (significand, 0)
  | c :: cs =>
    let next := Nat.ofDigitChars 10 [c] significand
    if next < 0x10000000000000000 then take next cs else (significand, (c :: cs).length)

/-- The significand of the parts and its power of ten. A digit of the whole part that is left
counts as a zero, and one of the fraction as nothing. -/
def Parts.significand (p : Parts) : Decimal :=
  let fraction := p.fraction.getD []
  let (n, left) := take 0 p.whole
  let (n, behind) := take n fraction
  ⟨n, p.exponent.getD 0 + left - (fraction.length - behind : Nat)⟩

/-- The significand as a double, times its power of ten. -/
def Reader.stepwise : Reader := fun p => do
  let bits ← scale? (nearestBits p.significand.digits 1) p.significand.exponent
  ofBits? p.negative bits

end Number

end LiveScene
