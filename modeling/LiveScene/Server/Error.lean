import LiveScene.Server.Call

/-!
# Errors of a server

What can go wrong at a call, as far as the caller learns of it: a transport does not listen, or an
image file cannot be read.
-/

namespace LiveScene

/-- Why a call failed. -/
inductive ServerError where
  /-- the port could not be bound -/
  | bind (port : UInt16) (reason : String)
  /-- the thread of the transport could not be started -/
  | threadSpawn (reason : String)
  /-- the runtime of the transport could not be set up -/
  | runtime (reason : String)
  /-- the transport was gone before it listened -/
  | transportDetached
  /-- an image file could not be read -/
  | textureRead (path : String) (reason : String)
deriving DecidableEq

namespace ServerError

/-- The text of an error. -/
def message : ServerError → String
  | bind port reason => "Failed to bind port " ++ toString port.toNat ++ ": " ++ reason
  | threadSpawn reason => "Failed to spawn the network thread: " ++ reason
  | runtime reason => "Failed to build the network runtime: " ++ reason
  | transportDetached => "Network thread exited before the transport was ready"
  | textureRead path reason => "Failed to read texture '" ++ path ++ "': " ++ reason

/-- The error of a transport that refuses to listen on a port. -/
def ofRefusal (port : UInt16) : Refusal → ServerError
  | .bind reason => bind port reason
  | .threadSpawn reason => threadSpawn reason
  | .runtime reason => runtime reason
  | .detached => transportDetached

end ServerError

end LiveScene
