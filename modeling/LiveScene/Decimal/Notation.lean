import LiveScene.Decimal.Shortest

/-!
# Decimal notation

Two ways to spell a decimal: `plain`, with a point and at least one digit on each side of it, and
`scientific`, with one digit before the point and a power of ten. Both start from the significant
digits, written without trailing zeros, and the place of the leading one.
-/

namespace LiveScene.Decimal

/-- The significant digits of a decimal, and the place of the first: the number is
`0.digits * 10 ^ place`. -/
structure Significant where
  digits : List Char
  place : Int
deriving DecidableEq

/-- The significant digits of `d`, without trailing zeros. -/
def significant (d : Decimal) : Significant :=
  let ds := Nat.toDigits 10 d.digits
  { digits := (ds.reverse.dropWhile (· == '0')).reverse
    place := ds.length + d.exponent }

namespace Significant

/-- The digit zero, `n` times. -/
def zeros (n : Nat) : List Char := List.replicate n '0'

/-- The number written out with a point, at least one digit on each side. -/
def plain (s : Significant) : List Char :=
  if s.place ≤ 0 then '0' :: '.' :: (zeros (-s.place).toNat ++ s.digits)
  else
    let whole := s.place.toNat
    if s.digits.length ≤ whole then s.digits ++ zeros (whole - s.digits.length) ++ ['.', '0']
    else s.digits.take whole ++ '.' :: s.digits.drop whole

/-- The exponent when one digit stands before the point. -/
def exponent (s : Significant) : Int := s.place - 1

/-- The text of a power of ten: a sign always, then the digits. -/
def powerText (e : Int) : List Char :=
  (if 0 ≤ e then '+' else '-') :: Nat.toDigits 10 e.natAbs

/-- One digit, the others after a point if there are any, and the power of ten. -/
def scientific (s : Significant) : List Char :=
  match s.digits with
  | [] => ['0']
  | [d] => d :: 'e' :: powerText s.exponent
  | d :: rest => d :: '.' :: (rest ++ 'e' :: powerText s.exponent)

end Significant

end LiveScene.Decimal
