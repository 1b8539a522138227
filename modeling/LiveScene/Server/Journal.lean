import LiveScene.Asset.Flatten
import LiveScene.Server.Error
import LiveScene.Server.Lifecycle
import LiveScene.Server.Registry

/-!
# The journal

What a server has done, event by event: the calls it took up, the commands it queued, the messages
it handed to a transport, the listeners it called, the replies it gave, and the notices it left for
whoever reads its log.
-/

namespace LiveScene

/-- How much a notice matters. -/
inductive Level where
  | error
  | warn
  | info
  | debug
deriving DecidableEq

/-- The name of a level. -/
def Level.name : Level → String
  | error => "ERROR"
  | warn => "WARN"
  | info => "INFO"
  | debug => "DEBUG"

/-- Something worth a line in the log. -/
inductive Notice where
  | serveIgnored (port : UInt16) (phase : Phase)
  | acceptorSpawned (address : SocketAddress)
  | acceptorFailed
  | serving (port : UInt16)
  | stopIgnored
  | stopping
  | discarded (count : Nat)
  | stopped
  | shutdownReceived
  | shutdownIgnored (phase : Phase)
  | inboundAfterDrop
  | connected (c : Connection)
  | disconnected (c : Connection)
  | messageDropped (c : Connection) (e : ViewerMessage.ParseError)
  | noButton (key : String)
  | noSlider (key : String)
  | replaying (count : Nat) (c : Connection)
  | replayFailed (c : Connection)
  | flushing (count : Nat)
  | notServing (bytes : Nat)
  | broadcastFailed (bytes : Nat)
  | kindChanged (key : String) (before after : Kind)
  | listenerFailed (o : Occasion) (index : Nat)
  | assetDefect (d : Defect)
  | textureLost (key : String) (e : ServerError)
deriving DecidableEq

namespace Notice

/-- How much a notice matters. -/
def level : Notice → Level
  | acceptorFailed => .error
  | shutdownIgnored _ | messageDropped _ _ | replayFailed _ | broadcastFailed _
  | listenerFailed _ _ | assetDefect _ | textureLost _ _ => .warn
  | serveIgnored _ _ | acceptorSpawned _ | serving _ | stopping | stopped | shutdownReceived
  | connected _ | disconnected _ => .info
  | stopIgnored | discarded _ | inboundAfterDrop | noButton _ | noSlider _ | replaying _ _
  | flushing _ | notServing _ | kindChanged _ _ _ => .debug

/-- The text of a notice. -/
def text : Notice → String
  | serveIgnored port phase =>
    "serve(" ++ toString port.toNat ++ ") ignored, server is " ++ phase.name
  | acceptorSpawned address => "Spawning websocket acceptor thread for " ++ address.text
  | acceptorFailed => "Websocket acceptor thread panicked"
  | serving port => "Serving on port " ++ toString port.toNat
  | stopIgnored => "stop_serving() called while not serving"
  | stopping => "Stopping server"
  | discarded count => "Discarded " ++ toString count ++ " unflushed commands"
  | stopped => "Server stopped"
  | shutdownReceived => "Shutdown signal received"
  | shutdownIgnored phase => "Shutdown requested while " ++ phase.name ++ ", ignoring"
  | inboundAfterDrop => "Inbound event after the server was dropped"
  | connected c => "Client " ++ toString c ++ " connected"
  | disconnected c => "Client " ++ toString c ++ " disconnected"
  | messageDropped c e => "Dropping message from client " ++ toString c ++ ": " ++ e.message
  | noButton key => "Click on '" ++ key ++ "', which has no button callback"
  | noSlider key => "Slider '" ++ key ++ "' changed, but has no callback"
  | replaying count c =>
    "Replaying " ++ toString count ++ " commands to client " ++ toString c
  | replayFailed c => "Failed to replay the scene to client " ++ toString c
  | flushing count => "Flushing " ++ toString count ++ " queued commands"
  | notServing bytes => "Not serving, dropping a " ++ toString bytes ++ " byte message"
  | broadcastFailed bytes => "Failed to broadcast a " ++ toString bytes ++ " byte message"
  | kindChanged key before after =>
    "Key '" ++ key ++ "' changed kind from " ++ before.name ++ " to " ++ after.name
  | listenerFailed o index =>
    o.name ++ " listener #" ++ toString index ++ " panicked, continuing with the rest"
  | assetDefect d => d.message
  | textureLost key e => "Mesh '" ++ key ++ "' loses a texture: " ++ e.message

end Notice

/-- What is known of a key. -/
structure Glance where
  kind : Option Kind
  position : Vec3
  rotation : Vec3
  color : Vec3
  scale : Vec3
deriving DecidableEq

/-- How a wait ended. -/
inductive WaitEnd where
  /-- the server does not serve any more -/
  | stopped
  /-- a check failed -/
  | failed (reason : String)
  /-- there was no check left to make -/
  | outOfChecks
deriving DecidableEq

/-- What a call gives back. -/
inductive Reply where
  | nothing
  | ok
  | failed (e : ServerError)
  /-- the server was given up before -/
  | serverDropped
  /-- no transport has listened yet that could report anything -/
  | nothingListening
  | dropped (wasThere : Bool)
  | state (phase : Phase) (address : Option SocketAddress)
  | flag (b : Bool)
  | keys (ks : List String)
  | size (v : IVec2)
  | objects (gs : List Glance)
  /-- a wait ended after some checks -/
  | waited (checks : Nat) (how : WaitEnd)
deriving DecidableEq

/-- Something a server did. -/
inductive Event where
  /-- a call was taken up -/
  | called (c : Call)
  /-- a transport was asked to listen -/
  | listening (port : UInt16)
  /-- a session began -/
  | accepted (session : Nat)
  /-- the transport of a session was closed -/
  | closed (session : Nat)
  /-- a session ended -/
  | ended (session : Nat)
  /-- a command was queued -/
  | queued (c : Command)
  /-- commands that waited were dropped -/
  | discarded (cs : List Command)
  /-- a message was handed to the transport of a session, for all viewers -/
  | broadcast (session : Nat) (cs : List Command) (delivered : Bool)
  /-- a message was handed to the transport of a session, for one viewer -/
  | sent (session : Nat) (c : Connection) (cs : List Command) (delivered : Bool)
  /-- the listeners to an occasion are about to be called -/
  | announced (o : Occasion)
  /-- a listener was called -/
  | fired (l : Listener) (o : Occasion)
  /-- a call gave back a reply -/
  | returned (r : Reply)
  | noted (n : Notice)

end LiveScene
