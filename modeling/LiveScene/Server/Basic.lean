import LiveScene.Command.Text
import LiveScene.Host.Files
import LiveScene.Server.Outbox
import LiveScene.Server.Scene
import LiveScene.Server.Transport
import LiveScene.Store.Replay

/-!
# Servers

The state of a server: its scene, the commands on their way to viewers, and where it is in its
cycle. `Server.edit` makes a change: every command of the change is queued in order, and the
messages that are ready then are handed to the transport in the same order. Without a link to a
transport a message is lost, and so is one that the transport fails to deliver; neither is tried
again.
-/

namespace LiveScene

/-- How a server is set up. -/
structure Config where
  /-- whether commands are sent as soon as they are queued -/
  autoflush : Bool := true
  /-- whether a viewer that connects is sent the whole scene -/
  replayOnConnect : Bool := true
deriving DecidableEq

/-- What surrounds a server. -/
structure Host where
  files : Files
  network : Network

/-- The state of a server. -/
structure Server where
  config : Config
  host : Host
  scene : Scene := {}
  outbox : Outbox := { autoflush := config.autoflush }
  lifecycle : Lifecycle := {}
  /-- whether the application still holds the server -/
  held : Bool := true
  /-- whether some transport can report what reaches it -/
  inboundOpen : Bool := false
  /-- how many calls of listeners there have been -/
  firings : Nat := 0
  /-- what has been done, the latest last -/
  journal : Array Event := #[]

namespace Server

/-- A server that has done nothing yet. -/
def new (config : Config) (host : Host) : Server := { config, host }

/-- Writes an event into the journal. -/
def emit (s : Server) (e : Event) : Server := { s with journal := s.journal.push e }

/-- Writes a notice into the journal. -/
def note (s : Server) (n : Notice) : Server := s.emit (.noted n)

/-- Writes some notices into the journal. -/
def noteAll (s : Server) (ns : List Notice) : Server := ns.foldl note s

/-! ## Sending -/

/-- How many bytes the message of some commands has. -/
def messageBytes (cs : List Command) : Nat := (Command.message cs).utf8ByteSize

/-- Hands a message to the transport of the session, for all viewers. -/
def transmit (s : Server) (cs : List Command) : Server :=
  match s.lifecycle.link with
  | none => s.note (.notServing (messageBytes cs))
  | some link =>
    let fails := link.transport.broadcastFails link.broadcasts
    let link := { link with broadcasts := link.broadcasts + 1 }
    let s := { s with lifecycle := { s.lifecycle with link } }
    let s := s.emit (.broadcast link.session cs !fails)
    if fails then s.note (.broadcastFailed (messageBytes cs)) else s

/-- Hands a message to the transport of the session, for one viewer. -/
def send (s : Server) (link : Link) (c : Connection) (cs : List Command) : Server :=
  let fails := link.transport.sendFails link.sends
  let link := { link with sends := link.sends + 1 }
  let s := { s with lifecycle := { s.lifecycle with link } }
  let s := s.emit (.sent link.session c cs !fails)
  if fails then s.note (.replayFailed c) else s

/-- Queues a command. Gives the message to send, if that is ready. -/
def push (s : Server) (c : Command) : Option (List Command) × Server :=
  let (ready, outbox) := s.outbox.push c
  (ready, { s with outbox }.emit (.queued c))

/-- Queues some commands, in order. Gives the messages that are ready. -/
def pushAll (s : Server) : List Command → List (List Command) × Server
  | [] => ([], s)
  | c :: cs =>
    let (ready, s) := s.push c
    let (more, s) := s.pushAll cs
    (ready.toList ++ more, s)

/-- Makes a change of the scene: takes over the new scene, queues the commands and sends what is
ready. -/
def edit (s : Server) (f : Scene → Edit) : Server :=
  let e := f s.scene
  let s := { s with scene := e.scene }.noteAll e.notices
  let (ready, s) := s.pushAll e.commands
  ready.foldl transmit s

/-- Sends a message that was taken from the outbox, if there is one. -/
def release (s : Server) (taken : Option (List Command)) : Server :=
  match taken with
  | some cs => (s.note (.flushing cs.length)).transmit cs
  | none => s

/-- Sends every command that waits, as one message. -/
def flush (s : Server) : Server :=
  let (taken, outbox) := s.outbox.take
  { s with outbox }.release taken

/-- Switches autoflush. Switching it on sends every command that waits, as one message. -/
def setAutoflush (s : Server) (on : Bool) : Server :=
  let (taken, outbox) := s.outbox.setAutoflush on
  { s with outbox }.release taken

/-- Drops every command that waits. -/
def discard (s : Server) : Server :=
  let (dropped, outbox) := s.outbox.discard
  let s := { s with outbox }.emit (.discarded dropped)
  if dropped.isEmpty then s else s.note (.discarded dropped.length)

/-- Sends the whole scene to one viewer, if there is anything in it and a session to send it in. -/
def replayTo (s : Server) (c : Connection) : Server :=
  let cs := s.scene.store.replay
  match s.lifecycle.link with
  | some link => if cs.isEmpty then s else (s.note (.replaying cs.length c)).send link c cs
  | none => s

/-! ## Asking -/

/-- The answer to a question. -/
def answer (s : Server) : Query → Reply
  | .state => .state s.lifecycle.phase s.lifecycle.address
  | .autoflush => .flag s.outbox.autoflush
  | .keysDown => .keys s.scene.input.keysDown.toList
  | .isKeyDown key => .flag (s.scene.input.keysDown.contains key)
  | .screenSize => .size s.scene.input.screenSize
  | .objects keys => .objects (keys.map s.scene.glance)

end Server

end LiveScene
