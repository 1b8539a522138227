import LiveScene.Command.Basic
import LiveScene.Host.Address
import LiveScene.Json.Basic
import LiveScene.Snapshot
import LiveScene.ViewerMessage

/-!
# Calls

Everything that can be asked of a server, and everything that can reach it from outside, is a
`Call`. The server in turn runs what others have given to it: listeners, the checks of a wait, and
the transport that is listening or closing. Each of these may make further calls, so what it does is
a list of calls, its script; calls and scripts are defined together.

Listeners and checks may also fail after their scripts, and a transport may refuse to listen or fail
to send. What a listener does may be another thing on every occasion and every time, so one that
keeps a state of its own, or looks at what it is called with, is a listener as well.
-/

namespace LiveScene

/-- The placement and looks of an object made from an asset. -/
structure Placement where
  pos : Vec3
  euler : Vec3
  scale : Vec3
  color : Vec3
  shadows : Shadows := {}
deriving DecidableEq

/-- A change to the scene, where `L` are the listeners. -/
inductive Change (L : Type) where
  | createTexture (t : Texture)
  | createBox (b : Box)
  | createSphere (s : Sphere)
  | createCapsule (c : Capsule)
  | createLine (l : Line)
  /-- puts a mesh under a key, whatever key it has itself -/
  | createMesh (key : String) (m : Mesh)
  | createText (t : Text)
  | createButton (b : Button) (onClick : L)
  | createSlider (s : Slider) (onChange : L)
  | createPlot (p : Plot)
  /-- makes a texture from an image file -/
  | createTextureFromFile (key path : String)
  /-- makes a mesh of a whole asset, and the textures it needs -/
  | createMeshFromAsset (key : String) (a : Asset) (placement : Placement)
  | set (a : Attribute) (key : String) (v : Vec3)
  | setContents (key contents : String)
  | setLabel (key label : String)
  | setSlider (p : SliderProperty) (key : String) (x : Float)
  | setPlotData (key : String) (data : PlotData)
  | setLayout (p : LayoutProperty) (key : String) (v : IVec2)
  /-- removes whatever is under a key -/
  | delete (key : String)
  /-- removes what is under a key if it is an element of the screen -/
  | deleteElement (key : String)
  /-- removes everything whose key begins with `stem` -/
  | deleteUnder (stem : String)
  /-- removes everything, and all listeners but those for connections and shutdowns -/
  | clear
  /-- lets a key be dragged, and listens to that -/
  | onDrag (key : String) (l : L)
  | renderWorld (w : World) (stem : String) (forces magnitudes : Bool)
  | renderSkeleton (s : Skeleton) (stem : String) (color : Option Vec3)
  | renderBasis (scale : Float) (stem : String) (pos euler : Vec3)
  | renderTrajectories (ts : List Trajectory) (stem : String)
  | renderWrench (b : Body) (w : Wrench) (scale : Float) (stem : String)
  | clearWrench (b : Body) (stem : String)
  | renderVelocities (b : Body) (scale : Float) (stem : String)

/-- A question about a server. -/
inductive Query where
  | state
  | autoflush
  | keysDown
  | isKeyDown (key : String)
  | screenSize
  | objects (keys : List String)
deriving DecidableEq

/-- The occasions on which a listener may be registered without a key. -/
inductive Signal where
  | connection
  | shutdown
  | keydown
  | keyup
  | screenResize
deriving DecidableEq

/-- Something that listeners are called for. -/
inductive Occasion where
  | connection
  | shutdown
  | message (m : ViewerMessage)
deriving DecidableEq

/-- The name of an occasion. -/
def Occasion.name : Occasion → String
  | connection => "connection"
  | shutdown => "shutdown"
  | message (.keydown _) => "keydown"
  | message (.keyup _) => "keyup"
  | message (.drag _ _) => "drag"
  | message (.screenResize _) => "screen resize"
  | message (.buttonClick _) => "button click"
  | message (.sliderSetValue _ _) => "slider change"

/-- Identifies a connected viewer. -/
abbrev Connection := Nat

/-- Something that a transport reports. -/
inductive Inbound where
  | connect (c : Connection)
  | disconnect (c : Connection)
  | message (c : Connection) (text : String)
  /-- the process was asked to stop -/
  | shutdownSignal
deriving DecidableEq

/-- How viewers reach a websocket. -/
structure WebsocketConfig where
  bindIp : IpAddress := .v4 0 0 0 0
  path : String := "/"
  /-- how many messages a slow viewer may fall behind -/
  outboundBuffer : Nat := 1024
  /-- whether an interrupt from the terminal is reported as a shutdown signal -/
  handleInterrupt : Bool := true
deriving DecidableEq

/-- Why a transport does not listen. -/
inductive Refusal where
  | bind (reason : String)
  | threadSpawn (reason : String)
  | runtime (reason : String)
  | detached
deriving DecidableEq

mutual

/-- Something asked of a server. -/
inductive Call where
  | change (c : Change Listener)
  | on (s : Signal) (l : Listener)
  | ask (q : Query)
  | setAutoflush (on : Bool)
  | flush
  | serve (port : UInt16) (t : Transport)
  | stop
  /-- waits until the server stops, making checks on the way -/
  | block (checks : List Check)
  /-- gives up the server -/
  | drop
  | hear (i : Inbound)

/-- A listener: a name to tell it by, what it does when called, and whether it fails after that,
given the occasion and how many calls of listeners there were before. -/
structure Listener where
  name : Json
  script : Occasion → Nat → List Call
  fails : Occasion → Nat → Bool

/-- A check that a wait makes: what it does, and the failure it ends in, if any. -/
structure Check where
  script : List Call
  failure : Option String

/-- A transport of which all behaviour is given. -/
structure CustomTransport where
  refusal : Option Refusal
  /-- whether it goes on reporting after it has refused to listen -/
  reportsRefused : Bool
  address : Option SocketAddress
  duringListen : List Call
  duringClose : List Call
  /-- whether a broadcast fails, given how many there were before -/
  broadcastFails : Nat → Bool
  /-- whether a message to one viewer fails, given how many there were before -/
  sendFails : Nat → Bool

/-- What carries messages between a server and its viewers. -/
inductive Transport where
  | custom (t : CustomTransport)
  | websocket (c : WebsocketConfig)

end

end LiveScene
