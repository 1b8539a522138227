/-!
# Base64

Bytes as text: three bytes become four characters of the standard alphabet, and a shorter last group
is filled up with `=`.
-/

namespace LiveScene.Base64

/-- The character for six bits. -/
def digit (n : Nat) : Char :=
  let n := n % 64
  if n < 26 then Char.ofNat ('A'.toNat + n)
  else if n < 52 then Char.ofNat ('a'.toNat + (n - 26))
  else if n < 62 then Char.ofNat ('0'.toNat + (n - 52))
  else if n = 62 then '+'
  else '/'

/-- The characters for some bytes. -/
def digits : List UInt8 → List Char
  | [] => []
  | [a] =>
    let n := a.toNat * 16
    [digit (n / 64), digit n, '=', '=']
  | [a, b] =>
    let n := (a.toNat * 256 + b.toNat) * 4
    [digit (n / 4096), digit (n / 64), digit n, '=']
  | a :: b :: c :: rest =>
    let n := (a.toNat * 256 + b.toNat) * 256 + c.toNat
    digit (n / 262144) :: digit (n / 4096) :: digit (n / 64) :: digit n :: digits rest

/-- The text for some bytes. -/
def encode (bytes : List UInt8) : String := String.ofList (digits bytes)

end LiveScene.Base64
