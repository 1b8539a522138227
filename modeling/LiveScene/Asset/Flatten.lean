import LiveScene.Asset.Basic
import LiveScene.Object.Basic

/-!
# Flattening

An asset becomes one surface: its tree is walked depth first, a node before its children, and each
submesh that a node refers to is appended under the product of the transforms on the way down to it.
Every submesh becomes a region of its own, with its texture.

What cannot be used is left out and noted as a `Defect`: references to submeshes that do not exist,
faces that refer to vertices their submesh does not have, and submeshes without a vertex or without
a usable face. Missing normals and texture coordinates are null, and a submesh without an image
becomes a region without texture.
-/

namespace LiveScene

/-- Something in an asset that could not be used. -/
inductive Defect where
  /-- a node refers to a submesh that does not exist -/
  | missingMesh (node : String) (index : Nat)
  /-- faces refer to vertices that their submesh does not have -/
  | facesDropped (node : String) (count : Nat)
  /-- a submesh has no vertices or no usable faces -/
  | emptySubmesh (node : String)
deriving DecidableEq

/-- The text of a defect. -/
def Defect.message : Defect → String
  | missingMesh node index => "Node '" ++ node ++ "' references missing mesh " ++ toString index
  | facesDropped node count =>
    "Dropped " ++ toString count ++ " faces with out-of-range indices in node '" ++ node ++ "'"
  | emptySubmesh node => "Skipping empty submesh in node '" ++ node ++ "'"

/-- An asset as one surface, with the source of every texture it refers to and with the defects
found on the way. -/
structure FlatMesh where
  surface : Surface := {}
  sources : List (String × TextureSource) := []
  defects : List Defect := []
deriving DecidableEq

/-- A linear map that is nearer to losing a dimension than this is not inverted. -/
def singularDeterminant : Float := 1e-12

/-- How normals change under a transform: by the transpose of the inverse of its linear part, or by
that part itself where it is as good as singular. -/
def Mat4.normalMatrix (m : Mat4) : Mat3 :=
  let linear := m.linear
  if linear.det.abs < singularDeterminant then linear else linear.inverseTranspose

/-- The first `n` elements of a list, with `d` for those it lacks. -/
def takeOr {α : Type} (n : Nat) (d : α) (xs : List α) : List α :=
  xs.take n ++ List.replicate (n - xs.length) d

namespace Submesh

/-- Whether all three indices of a face are below the number of vertices. -/
def hasFace (m : Submesh) (f : Face) : Bool := f.greatest < UInt32.ofNat m.vertices.length

/-- The faces that refer to vertices of the submesh alone. -/
def usableFaces (m : Submesh) : List Face := m.faces.filter m.hasFace

/-- One normal for each vertex, turned by `t`. -/
def normalsUnder (m : Submesh) (t : Mat4) : List Vec3 :=
  let n := t.normalMatrix
  takeOr m.vertices.length Vec3.zero (m.normals.map fun v => (n.apply v).normalizeOrZero)

/-- One texture coordinate for each vertex. -/
def uvPerVertex (m : Submesh) : List Vec2 := takeOr m.vertices.length Vec2.zero m.uvs

end Submesh

namespace FlatMesh

/-- Notes a defect. -/
def note (flat : FlatMesh) (d : Defect) : FlatMesh := { flat with defects := flat.defects ++ [d] }

/-- Notes the source of a texture, unless one is known under its key. -/
def addSource (flat : FlatMesh) (key : String) (source : TextureSource) : FlatMesh :=
  if flat.sources.any (·.1 == key) then flat
  else { flat with sources := flat.sources ++ [(key, source)] }

/-- Appends a submesh as a region, with the given faces and texture key. -/
def addRegion (flat : FlatMesh) (m : Submesh) (t : Mat4) (faces : List Face) (texture : String) :
    FlatMesh :=
  let s := flat.surface
  let base := UInt32.ofNat s.vertices.length
  { flat with
    surface :=
      { vertices := s.vertices ++ m.vertices.map t.transformPoint
        normals := s.normals ++ m.normalsUnder t
        faces := s.faces ++ faces.map (·.shift base)
        uv := s.uv ++ m.uvPerVertex
        textures := s.textures ++ [texture]
        starts := s.starts ++ [s.faces.length * 3] } }

/-- Appends a submesh, if there is anything to show of it. -/
def append (a : Asset) (node : String) (t : Mat4) (m : Submesh) (flat : FlatMesh) : FlatMesh :=
  let faces := m.usableFaces
  let flat :=
    if faces.length < m.faces.length then
      flat.note (.facesDropped node (m.faces.length - faces.length))
    else flat
  if m.vertices.isEmpty || faces.isEmpty then flat.note (.emptySubmesh node)
  else
    match m.material.bind a.textureFor? with
    | some (key, source) => (flat.addRegion m t faces key).addSource key source
    | none => flat.addRegion m t faces ""

/-- Appends the submesh with an index, if there is one. -/
def appendIndex (a : Asset) (node : String) (t : Mat4) (flat : FlatMesh) (index : Nat) :
    FlatMesh :=
  match a.meshes[index]? with
  | some m => flat.append a node t m
  | none => flat.note (.missingMesh node index)

mutual

/-- Appends what a node shows, under the transform of its parent, and then its children. -/
def visit (a : Asset) (parent : Mat4) (flat : FlatMesh) : Node → FlatMesh
  | ⟨name, transform, meshes, children⟩ =>
    let t := parent * transform
    visitAll a t (meshes.foldl (appendIndex a name t) flat) children

/-- Appends what some nodes show, one after the other. -/
def visitAll (a : Asset) (parent : Mat4) (flat : FlatMesh) : List Node → FlatMesh
  | [] => flat
  | node :: nodes => visitAll a parent (visit a parent flat node) nodes

end

/-- Turns the regions with a texture into regions without one, and forgets its source. -/
def untexture (flat : FlatMesh) (key : String) : FlatMesh :=
  { flat with
    surface := { flat.surface with
      textures := flat.surface.textures.map fun t => if t == key then "" else t }
    sources := flat.sources.filter (·.1 != key) }

/-- The surface as an object, unmoved and in the default colour. -/
def toMesh (flat : FlatMesh) (key : String) : Mesh := { key, surface := flat.surface }

end FlatMesh

/-- The whole asset as one surface. -/
def Asset.flatten (a : Asset) : FlatMesh := FlatMesh.visit a Mat4.identity {} a.root

end LiveScene
