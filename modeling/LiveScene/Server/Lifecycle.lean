import LiveScene.Server.Call

/-!
# The lifecycle of a server

A server is idle, starting, serving or stopping. It starts when a transport is asked to listen and
serves when that has been accepted; then it holds a `Link` to the transport, until it begins to
stop. A shutdown signal fires the shutdown listeners at most once in a session and leaves a request
behind, which a wait takes up.
-/

namespace LiveScene

/-- Where a server is in its cycle. -/
inductive Phase where
  | idle
  | starting
  | serving
  | stopping
deriving DecidableEq

/-- The name of a phase. -/
def Phase.name : Phase → String
  | idle => "Idle"
  | starting => "Starting"
  | serving => "Serving"
  | stopping => "Stopping"

/-- The connection to the transport of a session. -/
structure Link where
  /-- the number of the session -/
  session : Nat
  transport : Transport
  /-- how many messages were broadcast -/
  broadcasts : Nat := 0
  /-- how many messages were sent to one viewer -/
  sends : Nat := 0

/-- The state of the cycle. -/
structure Lifecycle where
  phase : Phase := .idle
  address : Option SocketAddress := none
  link : Option Link := none
  shutdownRequested : Bool := false
  shutdownFired : Bool := false
  /-- how many sessions have begun -/
  sessions : Nat := 0

/-- What a wait finds. -/
inductive Wake where
  /-- nothing has happened -/
  | poll
  /-- a shutdown was requested -/
  | shutdownRequested
  /-- the server does not serve -/
  | stopped
deriving DecidableEq

namespace Lifecycle

/-- A transport is asked to listen. -/
def start (l : Lifecycle) : Lifecycle := { l with phase := .starting }

/-- The transport has refused. -/
def refuse (l : Lifecycle) : Lifecycle := { l with phase := .idle }

/-- The transport listens: a session begins. -/
def accept (l : Lifecycle) (t : Transport) (address : Option SocketAddress) : Lifecycle :=
  { phase := .serving
    address
    link := some { session := l.sessions, transport := t }
    shutdownRequested := false
    shutdownFired := false
    sessions := l.sessions + 1 }

/-- Detaches the transport of a session that is to end. -/
def detach? (l : Lifecycle) : Option (Link × Lifecycle) :=
  if l.phase = .serving then
    l.link.map fun link => (link, { l with phase := .stopping, link := none })
  else none

/-- The session has ended. -/
def finish (l : Lifecycle) : Lifecycle :=
  { l with phase := .idle, address := none, shutdownRequested := false }

/-- Claims the shutdown listeners of the session, unless they have been fired. -/
def claimShutdown? (l : Lifecycle) : Option Lifecycle :=
  if l.phase = .serving ∧ l.shutdownFired = false then some { l with shutdownFired := true }
  else none

/-- Leaves a request for a shutdown, if there is a session to end. -/
def requestShutdown? (l : Lifecycle) : Option Lifecycle :=
  if l.phase = .serving then some { l with shutdownRequested := true } else none

/-- What a wait finds, and the state after it has taken that up. -/
def wake (l : Lifecycle) : Wake × Lifecycle :=
  match l.phase with
  | .idle | .stopping => (.stopped, l)
  | .starting => (.poll, l)
  | .serving =>
    if l.shutdownRequested then (.shutdownRequested, { l with shutdownRequested := false })
    else (.poll, l)

end Lifecycle

end LiveScene
