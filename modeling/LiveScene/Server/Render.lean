import LiveScene.Server.Texture

/-!
# Rendering snapshots

A snapshot of a world is shown by objects under keys made from a stem and the names of the parts,
joined by dots. A shape is created once; after that, as long as an object of its kind is there, only
the attributes that differ are written. Forces, axes, trajectories and velocities are lines, created
anew each time.
-/

namespace LiveScene

/-- The key made from some names. -/
def joinKey (names : List String) : String := ".".intercalate names

/-- A force shorter than this is not shown. -/
def negligibleForce : Float := 1e-9

/-- The length of the line of a unit force, when lines show magnitudes. -/
def forceScale : Float := 0.001

/-- The length of all lines of forces, when lines show directions alone. -/
def forceLength : Float := 0.1

/-- The colour of forces. -/
def forceColor : Vec3 := Vec3.unitX

/-- The colour of torques. -/
def torqueColor : Vec3 := Vec3.unitZ

namespace Shape

/-- The value that an attribute of the object of a shape has to have, in a colour. A sphere has no
rotation to be written. -/
def target? (sh : Shape) (color : Vec3) : Attribute → Option Vec3
  | .position => some sh.position
  | .rotation => if sh.geometry.hasOrientation then some sh.euler else none
  | .color => some color
  | .scale => some sh.geometry.scale

end Shape

namespace Server

/-- Draws a line. -/
def createLine (s : Server) (key : String) (points : List Vec3) (color : Vec3) : Server :=
  s.edit (·.create (.line ⟨key, points, color⟩))

/-- Writes an attribute of the object under a key. -/
def set (s : Server) (a : Attribute) (key : String) (v : Vec3) : Server :=
  s.edit fun scene => scene.update (scene.store.set? a key v) (.set a key v)

/-- Removes whatever is under a key. -/
def delete (s : Server) (key : String) : Server := s.edit (·.delete key)

/-- Removes everything whose key begins with `stem`. -/
def deleteUnder (s : Server) (stem : String) : Server := s.edit (·.deleteUnder stem)

/-! ## Shapes -/

/-- Creates the object of a shape under a key. -/
def createShape (s : Server) (key : String) (sh : Shape) (color : Vec3) : Server :=
  match sh.geometry with
  | .box size => s.edit (·.create (.box ⟨key, size, sh.position, sh.euler, color, {}⟩))
  | .sphere radius => s.edit (·.create (.sphere ⟨key, radius, sh.position, color, {}⟩))
  | .capsule radius height =>
    s.edit (·.create (.capsule ⟨key, radius, height, sh.position, sh.euler, color, {}⟩))
  | .mesh asset scale =>
    s.createMeshFromAsset key asset ⟨sh.position, sh.euler, scale, color, {}⟩

/-- Writes an attribute of the object under a key, if its value differs. -/
def updateAttribute (key : String) (sh : Shape) (color : Vec3) (s : Server) (a : Attribute) :
    Server :=
  match sh.target? color a with
  | some v => if (s.scene.store.valueOf a key).differs v then s.set a key v else s
  | none => s

/-- Shows a shape under a key. -/
def renderShape (s : Server) (key : String) (sh : Shape) (color : Vec3) : Server :=
  if s.scene.store.kind? key = some sh.geometry.kind then
    Attribute.all.foldl (updateAttribute key sh color) s
  else s.createShape key sh color

/-- Shows the shapes of a body, in one colour if one is given. -/
def renderBody (stem skeleton : String) (color : Option Vec3) (s : Server) (b : Body) : Server :=
  b.shapes.foldl
    (fun s sh => s.renderShape (joinKey [stem, skeleton, b.name, sh.name]) sh
      (color.getD sh.color)) s

/-- Shows the shapes of a skeleton, in one colour if one is given. -/
def renderSkeleton (s : Server) (k : Skeleton) (stem : String) (color : Option Vec3) : Server :=
  k.bodies.foldl (renderBody stem k.name color) s

/-! ## Forces -/

/-- The end of the line of a force, seen from its start. -/
def forceTip (force : Vec3) (magnitudes : Bool) : Vec3 :=
  if magnitudes then force * forceScale else force.normalize * forceLength

/-- Shows the force on a body, or takes away the line of one that is negligible. -/
def renderForce (stem skeleton : String) (magnitudes : Bool) (s : Server) (b : Body) : Server :=
  let key := joinKey [stem, "forces", skeleton, b.name]
  if b.externalForce.length < negligibleForce then s.delete key
  else
    let tip := b.position + forceTip b.externalForce magnitudes
    s.createLine key [b.position, tip] forceColor

/-- Shows a world: each skeleton, and after it the forces on its bodies if they are asked for. -/
def renderWorld (s : Server) (w : World) (stem : String) (forces magnitudes : Bool) : Server :=
  w.skeletons.foldl
    (fun s k =>
      let s := s.renderSkeleton k stem none
      if forces then k.bodies.foldl (renderForce stem k.name magnitudes) s else s) s

/-! ## Other lines -/

/-- Shows the axes of a frame of reference: red, green and blue. -/
def renderBasis (s : Server) (scale : Float) (stem : String) (pos euler : Vec3) : Server :=
  let rotation := Mat3.ofEuler euler
  [("x", Vec3.unitX), ("y", Vec3.unitY), ("z", Vec3.unitZ)].foldl
    (fun s (name, axis) =>
      s.createLine (joinKey [stem, name]) [pos, pos + rotation.apply axis * scale] axis) s

/-- Shows the trajectories of bodies. -/
def renderTrajectories (s : Server) (ts : List Trajectory) (stem : String) : Server :=
  ts.foldl (fun s t => s.createLine (joinKey [stem, t.body]) t.points defaultLineColor) s

/-- Shows a torque and a force at a body. -/
def renderWrench (s : Server) (b : Body) (w : Wrench) (scale : Float) (stem : String) : Server :=
  let s := s.createLine (joinKey [stem, b.name, "torque"])
    [b.position, b.position + w.torque * scale] torqueColor
  s.createLine (joinKey [stem, b.name, "force"])
    [b.position, b.position + w.force * scale] forceColor

/-- Removes everything under the name of a body. -/
def clearWrench (s : Server) (b : Body) (stem : String) : Server :=
  s.deleteUnder (joinKey [stem, b.name, ""])

/-- Shows the velocities of the vertices of a body, as far as there are both. -/
def renderVelocities (s : Server) (b : Body) (scale : Float) (stem : String) : Server :=
  (b.vertices.zip b.velocities).zipIdx.foldl
    (fun s ((vertex, velocity), index) =>
      s.createLine (joinKey [stem, b.name, toString index])
        [vertex, vertex + velocity * scale] defaultLineColor) s

end Server

end LiveScene
