import LiveScene.Server.Change

/-!
# Running calls

A call may have to run scripts before it is done: those of listeners, of checks, and of a transport
that listens or closes. What is still to do is kept on a stack of `Frame`s, so that one small step
(`Machine.step?`) never has to run a script to its end, and calls may nest as deep as they like.

Every call is over with a reply. Listeners are called in order of registration from the list that
was registered when the occasion arose; one that fails is noted and the next one is called.

The application may give up the server. Calls on it are then answered by `Reply.serverDropped`,
while the events that a transport reports still reach it as long as some call is under way that
holds it.
-/

namespace LiveScene

/-- Something still to do. -/
inductive Frame where
  /-- makes calls, one after the other -/
  | script (calls : List Call)
  /-- calls listeners on an occasion, of whom so many have been called -/
  | notify (o : Occasion) (called : Nat) (waiting : List Listener)
  /-- a listener has done what it does -/
  | heard (o : Occasion) (index : Nat) (fails : Bool)
  /-- a transport has done what it does while it listens -/
  | listened (port : UInt16) (t : Transport) (address : Option SocketAddress)
  /-- a transport has refused after what it did; whether reports get through from now on -/
  | refused (opened : Bool)
  /-- closes the transport of a session -/
  | close (link : Link)
  /-- a transport has done what it does while it closes -/
  | closed (session : Nat)
  /-- leaves a request for a shutdown -/
  | requestShutdown
  /-- waits, with these checks left to make and so many made -/
  | wait (checks : List Check) (made : Nat)
  /-- a check has done what it does -/
  | checked (failure : Option String) (checks : List Check) (made : Nat)
  /-- gives back a reply -/
  | reply (r : Reply)

/-- A server with what is still to do, the next thing first. -/
structure Machine where
  server : Server
  stack : List Frame := []

namespace Server

/-- The listeners to an occasion are to be called, as they are registered now. -/
def announce (s : Server) (o : Occasion) : Server × List Frame :=
  (s.emit (.announced o), [.notify o 0 (s.scene.registry.listeners o)])

/-- Calls a listener. -/
def fire (s : Server) (l : Listener) (o : Occasion) : Server :=
  { s with firings := s.firings + 1 }.emit (.fired l o)

/-! ## The cycle -/

/-- What comes of asking a transport to listen, when it has done what it does then. -/
def afterListen (s : Server) (port : UInt16) (t : Transport) : List Frame :=
  match t.listen s.host.network port with
  | .ok address => [.listened port t address, .reply .ok]
  | .error e => [.refused (s.inboundOpen || t.reportsRefused), .reply (.failed e)]

/-- Starts to serve over a transport, unless the server is not idle. While the transport is asked it
can report, even if it is going to refuse. -/
def serve (s : Server) (port : UInt16) (t : Transport) : Server × List Frame :=
  match s.lifecycle.phase with
  | .idle =>
    let asked := { s with lifecycle := s.lifecycle.start, inboundOpen := true }
    ((asked.emit (.listening port)).noteAll (t.listenNotices port),
      .script t.duringListen :: s.afterListen port t)
  | phase => (s.note (.serveIgnored port phase), [.reply .ok])

/-- A session begins. -/
def accept (s : Server) (port : UInt16) (t : Transport) (address : Option SocketAddress) :
    Server :=
  let session := s.lifecycle.sessions
  ({ s with lifecycle := s.lifecycle.accept t address }.emit (.accepted session)).note
    (.serving port)

/-- A transport has refused: nothing is served. -/
def refuse (s : Server) (opened : Bool) : Server :=
  { s with lifecycle := s.lifecycle.refuse, inboundOpen := opened }

/-- Begins to stop, if there is a session: the shutdown listeners are called unless they have been,
and then the transport is closed. -/
def stop (s : Server) : Server × List Frame :=
  match s.lifecycle.detach? with
  | some (link, lifecycle) =>
    let s := { s with lifecycle }.note .stopping
    if lifecycle.shutdownFired then (s, [.close link])
    else
      let (s, frames) := s.announce .shutdown
      (s, frames ++ [.close link])
  | none => (s.note .stopIgnored, [])

/-- Closes the transport of a session. -/
def close (s : Server) (link : Link) : Server × List Frame :=
  ((s.emit (.closed link.session)).noteAll link.transport.closeNotices,
    [.script link.transport.duringClose, .closed link.session])

/-- A session has ended: what still waits to be sent is dropped. -/
def finish (s : Server) (session : Nat) : Server :=
  let s := s.discard
  ({ s with lifecycle := s.lifecycle.finish }.emit (.ended session)).note .stopped

/-- Leaves a request for a shutdown, if there is a session to end. -/
def requestShutdown (s : Server) : Server :=
  match s.lifecycle.requestShutdown? with
  | some lifecycle => { s with lifecycle }
  | none => s.note (.shutdownIgnored s.lifecycle.phase)

/-- Looks what a wait finds: the server has stopped, it is to be stopped now, or a check is to be
made. -/
def wait (s : Server) (checks : List Check) (made : Nat) : Server × List Frame :=
  let (wake, lifecycle) := s.lifecycle.wake
  let s := { s with lifecycle }
  match wake with
  | .stopped => (s, [.reply (.waited made .stopped)])
  | .shutdownRequested =>
    let (s, frames) := (s.note .shutdownReceived).stop
    (s, frames ++ [.reply (.waited made .stopped)])
  | .poll =>
    match checks with
    | [] => (s, [.reply (.waited made .outOfChecks)])
    | c :: checks => (s, [.script c.script, .checked c.failure checks (made + 1)])

/-! ## Reports of transports -/

/-- A message from a viewer: its own record first, then its listeners. -/
def dispatch (s : Server) (m : ViewerMessage) : Server × List Frame :=
  let s := { s with scene := s.scene.record m }
  match m, s.scene.registry.listeners (.message m) with
  | .buttonClick key, [] => (s.note (.noButton key), [])
  | .sliderSetValue key _, [] => (s.note (.noSlider key), [])
  | m, _ => s.announce (.message m)

/-- Takes a report of a transport. -/
def hear (s : Server) : Inbound → Server × List Frame
  | .connect c =>
    let s := s.note (.connected c)
    let s := if s.config.replayOnConnect then s.replayTo c else s
    s.announce .connection
  | .disconnect c => (s.note (.disconnected c), [])
  | .message c text =>
    match ViewerMessage.parse text with
    | .ok m => s.dispatch m
    | .error e => (s.note (.messageDropped c e), [])
  | .shutdownSignal =>
    match s.lifecycle.claimShutdown? with
    | some lifecycle =>
      let (s, frames) := { s with lifecycle }.announce .shutdown
      (s, frames ++ [.requestShutdown])
    | none => (s, [.requestShutdown])

/-- Notes a report that comes when nobody holds the server any more. -/
def hearAfterDrop (s : Server) : Inbound → Server
  | .disconnect c => s.note (.disconnected c)
  | _ => s.note .inboundAfterDrop

/-! ## Calls -/

/-- Makes a call. -/
def make (s : Server) : Call → Server × List Frame
  | .change c =>
    let (r, s) := s.change c
    (s, [.reply r])
  | .on signal l =>
    ({ s with scene.registry := s.scene.registry.add signal l }, [.reply .nothing])
  | .ask q => (s, [.reply (s.answer q)])
  | .setAutoflush on => (s.setAutoflush on, [.reply .nothing])
  | .flush => (s.flush, [.reply .nothing])
  | .serve port t => s.serve port t
  | .stop =>
    let (s, frames) := s.stop
    (s, frames ++ [.reply .nothing])
  | .block checks => (s, [.wait checks 0])
  | .drop => ({ s with held := false }, [.reply (.dropped true)])
  | .hear i =>
    let (s, frames) := s.hear i
    (s, frames ++ [.reply .nothing])

/-- Takes up a call and makes it. -/
def call (s : Server) (c : Call) : Server × List Frame := (s.emit (.called c)).make c

/-- Looks at a call, which is nested if some other call is under way, and makes it if the server is
still there for it. -/
def receive (s : Server) (nested : Bool) : Call → Server × List Frame
  | .hear i =>
    if !s.inboundOpen then (s, [.reply .nothingListening])
    else if s.held || nested then s.call (.hear i)
    else (s.hearAfterDrop i, [.reply .nothing])
  | .drop => if s.held then s.call .drop else (s, [.reply (.dropped false)])
  | c => if s.held then s.call c else (s, [.reply .serverDropped])

end Server

namespace Machine

/-- Takes up the first frame of the stack, where `below` are the others: the server after that, and
what takes the place of the frame. -/
def perform (s : Server) (below : List Frame) : Frame → Server × List Frame
  | .script [] => (s, [])
  | .script (c :: calls) =>
    let (s, frames) := s.receive (!below.isEmpty) c
    (s, frames ++ [.script calls])
  | .notify _ _ [] => (s, [])
  | .notify o called (l :: waiting) =>
    (s.fire l o,
      [.script (l.script o s.firings), .heard o called (l.fails o s.firings),
        .notify o (called + 1) waiting])
  | .heard o index fails => (if fails then s.note (.listenerFailed o index) else s, [])
  | .listened port t address => (s.accept port t address, [])
  | .refused opened => (s.refuse opened, [])
  | .close link => s.close link
  | .closed session => (s.finish session, [])
  | .requestShutdown => (s.requestShutdown, [])
  | .wait checks made => s.wait checks made
  | .checked (some reason) _ made => (s, [.reply (.waited made (.failed reason))])
  | .checked none checks made => (s, [.wait checks made])
  | .reply r => (s.emit (.returned r), [])

/-- One step, unless there is nothing left to do. -/
def step? (m : Machine) : Option Machine :=
  match m.stack with
  | [] => none
  | f :: below =>
    let (server, frames) := perform m.server below f
    some { server, stack := frames ++ below }

/-- Some steps, fewer if there is nothing left to do. -/
def run (m : Machine) : Nat → Machine
  | 0 => m
  | n + 1 =>
    match m.step? with
    | some m => m.run n
    | none => m

/-- A machine that makes a call, with nothing else to do. -/
def ofCall (s : Server) (c : Call) : Machine := { server := s, stack := [.script [c]] }

end Machine

end LiveScene
