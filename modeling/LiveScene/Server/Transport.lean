import LiveScene.Host.Network
import LiveScene.Host.Route
import LiveScene.Server.Journal

/-!
# Transports

How a transport answers. A custom transport does as it is told. A websocket binds its port on the
network and never has a viewer here: every broadcast succeeds, and no message finds the viewer it is
for. Its acceptor needs a path that is a valid route; without one it fails in the background, which
shows only when the transport is closed.
-/

namespace LiveScene.Transport

/-- Asks a transport to listen on a port. It answers with its address, if it has one. -/
def listen (t : Transport) (network : Network) (port : UInt16) :
    Except ServerError (Option SocketAddress) :=
  match t with
  | custom t =>
    match t.refusal with
    | some r => .error (.ofRefusal port r)
    | none => .ok t.address
  | websocket c =>
    match network.bind c.bindIp port with
    | .ok address => .ok (some address)
    | .error e => .error (.bind port e.message)

/-- What there is to note when a transport is asked to listen on a port. -/
def listenNotices (t : Transport) (port : UInt16) : List Notice :=
  match t with
  | custom _ => []
  | websocket c => [.acceptorSpawned ⟨c.bindIp, port, 0⟩]

/-- What there is to note when a transport is closed. -/
def closeNotices : Transport → List Notice
  | custom _ => []
  | websocket c => if Route.isValid c.path then [] else [.acceptorFailed]

/-- What a transport does while it listens. -/
def duringListen : Transport → List Call
  | custom t => t.duringListen
  | websocket _ => []

/-- What a transport does while it closes. -/
def duringClose : Transport → List Call
  | custom t => t.duringClose
  | websocket _ => []

/-- Whether a transport goes on reporting after it has refused to listen. -/
def reportsRefused : Transport → Bool
  | custom t => t.reportsRefused
  | websocket _ => false

/-- Whether a broadcast fails, after `n` of them. -/
def broadcastFails (t : Transport) (n : Nat) : Bool :=
  match t with
  | custom t => t.broadcastFails n
  | websocket _ => false

/-- Whether a message to one viewer fails, after `n` of them. -/
def sendFails (t : Transport) (n : Nat) : Bool :=
  match t with
  | custom t => t.sendFails n
  | websocket _ => true

end LiveScene.Transport
