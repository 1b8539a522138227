/-!
# Network addresses

Addresses of hosts (`IpAddress`), of either version, and of ports on them (`SocketAddress`), with
their usual texts. Version four is written as four decimal numbers. Version six is written as eight
hexadecimal groups, of which the longest run of at least two zeros, the first of several, is left
out as `::`; an address that stands for one of version four ends in that one's text. Where there is
a port, the zone follows after `%`.
-/

namespace LiveScene

/-- The address of a host. -/
inductive IpAddress where
  | v4 (a b c d : UInt8)
  | v6 (groups : Vector UInt16 8)
deriving DecidableEq

/-- A port of a host, with the zone of the address if it is of version six. -/
structure SocketAddress where
  ip : IpAddress
  port : UInt16
  zone : UInt32 := 0
deriving DecidableEq

namespace Address

/-- The text of an address of version four. -/
def v4Text (a b c d : Nat) : String :=
  ".".intercalate [toString a, toString b, toString c, toString d]

/-- The text of some groups. -/
def groupsText (gs : List UInt16) : String :=
  ":".intercalate (gs.map fun g => String.ofList (Nat.toDigits 16 g.toNat))

/-- How many zeros a list begins with. -/
def leadingZeros (gs : List UInt16) : Nat := (gs.takeWhile (· == 0)).length

/-- Where the longest run of zeros starts, the first of several, and its length. -/
def longestZeros (gs : List UInt16) : Nat × Nat :=
  (List.range gs.length).foldl
    (fun best i =>
      let n := leadingZeros (gs.drop i)
      if best.2 < n then (i, n) else best)
    (0, 0)

/-- The text of an address of version six. -/
def v6Text (gs : List UInt16) : String :=
  match gs with
  | [0, 0, 0, 0, 0, 0xffff, g, h] =>
    "::ffff:" ++ v4Text (g.toNat / 256) (g.toNat % 256) (h.toNat / 256) (h.toNat % 256)
  | _ =>
    let (start, length) := longestZeros gs
    if length < 2 then groupsText gs
    else groupsText (gs.take start) ++ "::" ++ groupsText (gs.drop (start + length))

end Address

open Address

/-- The text of a host address. -/
def IpAddress.text : IpAddress → String
  | v4 a b c d => v4Text a.toNat b.toNat c.toNat d.toNat
  | v6 groups => v6Text groups.toList

/-- The text of a port address. -/
def SocketAddress.text (a : SocketAddress) : String :=
  match a.ip with
  | .v4 .. => a.ip.text ++ ":" ++ toString a.port.toNat
  | .v6 _ =>
    let zone := if a.zone = 0 then "" else "%" ++ toString a.zone.toNat
    "[" ++ a.ip.text ++ zone ++ "]:" ++ toString a.port.toNat

end LiveScene
