import LiveScene.Asset.Flatten
import LiveScene.Host.Base64
import LiveScene.Server.Basic

/-!
# Textures and meshes from files and assets

An image file becomes a texture by its bytes in base64. An asset becomes one mesh: for each image it
refers to, in order, a texture is created unless some object has its key already; and where an image
file cannot be read, the regions that would show it stay without a texture.
-/

namespace LiveScene.Server

/-- Creates a texture. -/
def createTexture (s : Server) (t : Texture) : Server := s.edit (·.create (.texture t))

/-- Creates a texture from an image file, or gives the reason why it could not be read. -/
def createTextureFromFile (s : Server) (key path : String) : Except ServerError Server :=
  match s.host.files.read path with
  | .ok bytes => .ok (s.createTexture ⟨key, Base64.encode bytes⟩)
  | .error reason => .error (.textureRead path reason)

/-- Puts a mesh under a key. -/
def createMesh (s : Server) (key : String) (m : Mesh) : Server :=
  s.edit (·.create (.mesh { m with key }))

/-- Creates the texture of one source, for the mesh under `key`, unless its key is taken. Adds the
key of the texture to `lost` if its file cannot be read. -/
def createSource (key : String) (state : Server × List String) (source : String × TextureSource) :
    Server × List String :=
  let (s, lost) := state
  if s.scene.store.contains source.1 then (s, lost)
  else
    match source.2 with
    | .embedded _ base64 => (s.createTexture ⟨source.1, base64⟩, lost)
    | .file path =>
      match s.createTextureFromFile source.1 path with
      | .ok s => (s, lost)
      | .error e => (s.note (.textureLost key e), lost ++ [source.1])

/-- Puts a whole asset under a key, as one mesh. -/
def createMeshFromAsset (s : Server) (key : String) (a : Asset) (p : Placement) : Server :=
  let flat := a.flatten
  let s := s.noteAll (flat.defects.map .assetDefect)
  let (s, lost) := flat.sources.foldl (createSource key) (s, [])
  let flat := lost.foldl FlatMesh.untexture flat
  s.createMesh key { flat.toMesh key with
    pos := p.pos, euler := p.euler, scale := p.scale, color := p.color, shadows := p.shadows }

end LiveScene.Server
