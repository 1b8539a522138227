import LiveScene.Decimal.Notation
import LiveScene.Json.Basic

/-!
# Numbers in JSON text

A whole number is written by its digits. A double is written by the fewest digits that read back:
with a point when the power of ten of its leading digit is from `-5` to `15`, in scientific notation
otherwise, so that it never looks like a whole number. A double that is not finite is written
`null`.

Reading keeps text without fraction and exponent as a whole number where 64 bits suffice, and as a
signed one after a minus; so `-0` is none. How any other number becomes a double is left to a
`Reader`, which may also refuse it. The reader that takes the nearest double (`Reader.exact`) is the
one by which texts are judged; programs may use a faster one that is not always as near.
-/

namespace LiveScene.Number

/-- The least power of ten of a leading digit that is written with a point. -/
def leastPlain : Int := -5

/-- The greatest power of ten of a leading digit that is written with a point. -/
def greatestPlain : Int := 15

/-- The text of a positive double, given by its bits. -/
def magnitudeText (bits : Nat) : List Char :=
  let s := (Decimal.shortest bits).significant
  if leastPlain ≤ s.exponent ∧ s.exponent ≤ greatestPlain then s.plain else s.scientific

/-- The text of a finite double. -/
def realText (x : Float) : List Char :=
  let bits := Double.magnitudeBits x
  let text := if bits = 0 then ['0', '.', '0'] else magnitudeText bits
  if Double.isNegative x then '-' :: text else text

/-- The text of a number. -/
def text : Number → List Char
  | .int n => if n < 0 then '-' :: Nat.toDigits 10 n.natAbs else Nat.toDigits 10 n.natAbs
  | .real x => if x.isFinite then realText x else ['n', 'u', 'l', 'l']

/-- The double nearest to a number, or `none` when its magnitude overflows. -/
def toFloat? : Number → Option Float
  | .int n => Decimal.toFloat? (n < 0) ⟨n.natAbs, 0⟩
  | .real x => some x

/-! ## Reading -/

/-- The parts of a number's text. -/
structure Parts where
  negative : Bool
  whole : List Char
  fraction : Option (List Char)
  exponent : Option Int

/-- The whole part: one digit, or several of which the first is not zero. -/
def whole? (cs : List Char) : Option (List Char) :=
  match cs with
  | [] => none
  | ['0'] => some cs
  | '0' :: _ => none
  | _ => some cs

/-- The digits up to the first other character, which must be at least one, and the rest. -/
def digits? (cs : List Char) : Option (List Char × List Char) :=
  let ds := cs.takeWhile Char.isDigit
  if ds = [] then none else some (ds, cs.dropWhile Char.isDigit)

/-- Whether a text starts with a sign, and what follows it. -/
def sign (cs : List Char) : Bool × List Char :=
  match cs with
  | '-' :: rest => (true, rest)
  | _ => (false, cs)

/-- The digits after a point, if there is one, and the rest. -/
def fraction? (cs : List Char) : Option (Option (List Char) × List Char) :=
  match cs with
  | '.' :: rest => do
    let (ds, rest) ← digits? rest
    some (some ds, rest)
  | _ => some (none, cs)

/-- The sign of an exponent, for which a plus may stand too, and what follows it. -/
def exponentSign (cs : List Char) : Bool × List Char :=
  match cs with
  | '+' :: rest => (false, rest)
  | _ => sign cs

/-- The exponent after its letter: an optional sign and digits to the end. -/
def exponent? (cs : List Char) : Option Int := do
  let (negative, cs) := exponentSign cs
  let (ds, rest) ← digits? cs
  if rest = [] then
    let n : Int := Nat.ofDigitChars 10 ds 0
    some (if negative then -n else n)
  else none

/-- What may stand after the digits up to the end: nothing, or an exponent. -/
def ending? (cs : List Char) : Option (Option Int) :=
  match cs with
  | [] => some none
  | c :: rest => if c = 'e' ∨ c = 'E' then some <$> exponent? rest else none

/-- The parts of a number's text, if it is one. -/
def parts? (cs : List Char) : Option Parts := do
  let (negative, cs) := sign cs
  let (ds, rest) ← digits? cs
  let whole ← whole? ds
  let (fraction, rest) ← fraction? rest
  let exponent ← ending? rest
  return ⟨negative, whole, fraction, exponent⟩

/-- The decimal that the parts spell, without its sign. -/
def Parts.decimal (p : Parts) : Decimal :=
  let fraction := p.fraction.getD []
  ⟨Nat.ofDigitChars 10 (p.whole ++ fraction) 0, p.exponent.getD 0 - fraction.length⟩

/-- The whole number that the parts spell, if there is neither fraction nor exponent and 64 bits
suffice for it: without a sign, or with one for a number below zero. -/
def Parts.whole? (p : Parts) : Option Int :=
  let n := p.decimal.digits
  if p.fraction.isSome || p.exponent.isSome then none
  else if p.negative then
    if 0 < n ∧ n ≤ 0x8000000000000000 then some (-n) else none
  else if n < 0x10000000000000000 then some n else none

/-- How the parts of a number become a double, if they are not refused. -/
def Reader : Type := Parts → Option Float

/-- The nearest double, refused only where it overflows. -/
def Reader.exact : Reader := fun p => p.decimal.toFloat? p.negative

section

variable (R : Reader)

/-- The number that the parts spell. -/
def Parts.value? (p : Parts) : Option Number :=
  match p.whole? with
  | some n => some (.int n)
  | none => .real <$> R p

/-- The number with the given text, if it is one. -/
def ofText? (cs : List Char) : Option Number := do
  let p ← parts? cs
  p.value? R

end

end LiveScene.Number
