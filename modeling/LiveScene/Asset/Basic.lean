import LiveScene.Geometry.Matrix
import LiveScene.Host.Path

/-!
# Assets

An imported model: a tree of nodes, each placed relative to its parent, which refer to submeshes by
index; the submeshes refer to materials by index; and a material may have an image, either held
within the asset or in a file of its own. References may dangle, and the normals and texture
coordinates of a submesh may be fewer than its vertices.
-/

namespace LiveScene

/-- Where an image comes from. -/
inductive TextureSource where
  /-- it is part of the asset, under a key, as base64 text -/
  | embedded (key base64 : String)
  /-- it is a file -/
  | file (path : String)
deriving DecidableEq

/-- How a surface looks. -/
structure Material where
  name : String := ""
  texture : Option TextureSource := none
deriving DecidableEq

/-- Triangles with one material. -/
structure Submesh where
  vertices : List Vec3 := []
  normals : List Vec3 := []
  uvs : List Vec2 := []
  faces : List Face := []
  material : Option Nat := none
deriving DecidableEq

/-- A place in the tree of an asset, with the submeshes shown there. -/
structure Node where
  name : String := ""
  transform : Mat4 := Mat4.identity
  meshes : List Nat := []
  children : List Node := []

/-- An imported model. -/
structure Asset where
  root : Node := {}
  meshes : List Submesh := []
  materials : List Material := []
  /-- the directory that relative image paths are relative to -/
  baseDir : Option String := none

namespace Asset

/-- The path of an image file, as seen from the directory of the asset if it has one. -/
def resolve (a : Asset) (path : String) : String :=
  match a.baseDir with
  | some dir => Path.join dir path
  | none => path

/-- The texture key and the source of the image of a material, if it has an image. -/
def textureFor? (a : Asset) (material : Nat) : Option (String × TextureSource) := do
  match ← (← a.materials[material]?).texture with
  | .embedded key base64 => return (key, .embedded key base64)
  | .file path =>
    let path := a.resolve path
    return (path, .file path)

end Asset

end LiveScene
