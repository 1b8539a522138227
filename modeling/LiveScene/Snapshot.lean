import LiveScene.Asset.Basic
import LiveScene.Object.Basic

/-!
# Snapshots of a world

A simulated world as it is in one frame: skeletons of bodies, bodies of shapes. All positions and
angles are those of the world.
-/

namespace LiveScene

/-- What a shape looks like. -/
inductive Geometry where
  | box (size : Vec3)
  | sphere (radius : Float)
  | capsule (radius height : Float)
  | mesh (asset : Asset) (scale : Vec3)

namespace Geometry

/-- The kind of object that shows a geometry. -/
def kind : Geometry → Kind
  | box _ => .box
  | sphere _ => .sphere
  | capsule _ _ => .capsule
  | mesh _ _ => .mesh

/-- The scale of an object that shows a geometry. -/
def scale : Geometry → Vec3
  | box size => size
  | sphere radius => Vec3.splat radius
  | capsule radius height => ⟨radius, radius, height⟩
  | mesh _ scale => scale

/-- Whether an object that shows a geometry can be turned. -/
def hasOrientation : Geometry → Bool
  | sphere _ => false
  | _ => true

end Geometry

/-- A shape of a body. -/
structure Shape where
  name : String
  geometry : Geometry
  position : Vec3
  euler : Vec3
  color : Vec3

/-- A rigid body, with the force on it and the vertices it collides with. -/
structure Body where
  name : String
  position : Vec3 := Vec3.zero
  shapes : List Shape := []
  externalForce : Vec3 := Vec3.zero
  vertices : List Vec3 := []
  /-- the velocities of the vertices, in the same order -/
  velocities : List Vec3 := []

/-- Bodies that belong together. -/
structure Skeleton where
  name : String
  bodies : List Body := []

/-- Everything there is in one frame. -/
structure World where
  skeletons : List Skeleton := []

/-- The points that a body passed. -/
structure Trajectory where
  body : String
  points : List Vec3
deriving DecidableEq

/-- A torque and a force. -/
structure Wrench where
  torque : Vec3
  force : Vec3
deriving DecidableEq

end LiveScene
