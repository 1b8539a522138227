import LiveScene.Host.Address

/-!
# The network

What a host allows when a port is to be bound: which addresses are its own, which ports are reserved
or taken, and which free port is chosen when none is asked for. Of several objections the first one
counts. With version four the address is looked at before the port. With version six the port comes
before the address, except that a multicast address is refused at once; and a link-local address is
refused because nothing says which link is meant.
-/

namespace LiveScene

namespace IpAddress

/-- The first group of an address of version six. -/
def firstGroup (gs : Vector UInt16 8) : Nat := (gs.toList.headD 0).toNat

/-- Whether an address of version six names a group of hosts. -/
def isMulticast : IpAddress → Bool
  | v4 .. => false
  | v6 gs => firstGroup gs ≥ 0xff00

/-- Whether an address of version six means something on a single link alone. -/
def isLinkLocal : IpAddress → Bool
  | v4 .. => false
  | v6 gs => firstGroup gs ≥ 0xfe80 && firstGroup gs < 0xfec0

/-- Whether an address stands for all addresses of a host. -/
def isUnspecified : IpAddress → Bool
  | v4 a b c d => [a, b, c, d].all (· == 0)
  | v6 gs => gs.toList.all (· == 0)

/-- Whether an address is one of version four, in its own form or in that of version six. -/
def isV4 : IpAddress → Bool
  | v4 .. => true
  | v6 gs => gs.toList.take 6 == [0, 0, 0, 0, 0, 0xffff]

end IpAddress

/-- Why a port could not be bound. -/
inductive BindError where
  | permissionDenied
  | invalidArgument
  | addressInUse
  | addressNotAvailable
deriving DecidableEq

/-- The text of a bind error. -/
def BindError.message : BindError → String
  | permissionDenied => "Permission denied (os error 13)"
  | invalidArgument => "Invalid argument (os error 22)"
  | addressInUse => "Address already in use (os error 98)"
  | addressNotAvailable => "Cannot assign requested address (os error 99)"

/-- The network of a host. -/
structure Network where
  /-- whether an address belongs to the host -/
  isLocal : IpAddress → Bool
  /-- whether a port is reserved -/
  isReserved : UInt16 → Bool
  /-- whether a port is taken at an address -/
  isTaken : IpAddress → UInt16 → Bool
  /-- the port chosen when none is asked for -/
  freePort : UInt16

namespace Network

/-- A host without any link. It takes every address of version four for its own and of version six
only the unspecified one. The ports below 1024 are reserved. -/
def isolated (isTaken : IpAddress → UInt16 → Bool) (freePort : UInt16) : Network where
  isLocal ip := ip.isV4 || ip.isUnspecified
  isReserved port := 0 < port && port < 1024
  isTaken := isTaken
  freePort := freePort

/-- What there is to object to a port at an address, first what counts. -/
def objections (n : Network) (ip : IpAddress) (port : UInt16) : List BindError :=
  let reserved := if n.isReserved port then [.permissionDenied] else []
  let foreign := if n.isLocal ip then [] else [.addressNotAvailable]
  let taken := if port != 0 && n.isTaken ip port then [.addressInUse] else []
  match ip with
  | .v4 .. => foreign ++ reserved ++ taken
  | .v6 _ =>
    let multicast := if ip.isMulticast then [.invalidArgument] else []
    let linkLocal := if ip.isLinkLocal then [.invalidArgument] else []
    multicast ++ reserved ++ linkLocal ++ foreign ++ taken

/-- Binds a port, or a free one instead of port zero. -/
def bind (n : Network) (ip : IpAddress) (port : UInt16) : Except BindError SocketAddress :=
  match n.objections ip port with
  | e :: _ => .error e
  | [] => .ok ⟨ip, if port = 0 then n.freePort else port, 0⟩

end Network

end LiveScene
