import LiveScene.Geometry.Vector
import LiveScene.Object.Kind

/-!
# Scene objects

An object is addressed by its key and is of one of ten kinds. Solids, lines and meshes stand in
space, a texture is an image that meshes refer to, and texts, buttons, sliders and plots are
elements of the screen, placed in pixels from its top left corner.

Four attributes are shared by several kinds: position, rotation, colour and scale. `get?` reads one
and `set?` writes one, and both answer `none` for a kind that lacks it. The scale of a box is its
size, of a sphere its radius three times, of a capsule its radius twice and its height; a line
reports a null scale that cannot be written.
-/

namespace LiveScene

/-- The colour of a solid or a mesh when none is chosen. -/
def defaultObjectColor : Vec3 := Vec3.splat 0.5

/-- The colour of a line when none is chosen. -/
def defaultLineColor : Vec3 := ⟨1.0, 0.5, 0.5⟩

/-- Whether an object casts shadows, and whether shadows fall on it. -/
structure Shadows where
  cast : Bool := false
  receive : Bool := false
deriving DecidableEq

/-- A box around `pos`, turned by `euler`. -/
structure Box where
  key : String
  size : Vec3
  pos : Vec3
  euler : Vec3
  color : Vec3 := defaultObjectColor
  shadows : Shadows := {}
deriving DecidableEq

/-- A sphere, which has no orientation. -/
structure Sphere where
  key : String
  radius : Float
  pos : Vec3
  color : Vec3 := defaultObjectColor
  shadows : Shadows := {}
deriving DecidableEq

/-- A cylinder with round ends. -/
structure Capsule where
  key : String
  radius : Float
  height : Float
  pos : Vec3
  euler : Vec3
  color : Vec3 := defaultObjectColor
  shadows : Shadows := {}
deriving DecidableEq

/-- A line through points of space. It has no place of its own. -/
structure Line where
  key : String
  points : List Vec3
  color : Vec3 := defaultLineColor
deriving DecidableEq

/-- Triangles over shared vertices, in regions that each have a texture. Region `i` starts at the
flat index `starts[i]`, counted three to a triangle, and shows the texture with key `textures[i]`,
or the colour of the mesh if that key is empty. -/
structure Surface where
  vertices : List Vec3 := []
  normals : List Vec3 := []
  faces : List Face := []
  uv : List Vec2 := []
  textures : List String := []
  starts : List Nat := []
deriving DecidableEq

/-- A surface placed in space. -/
structure Mesh where
  key : String
  surface : Surface := {}
  pos : Vec3 := Vec3.zero
  euler : Vec3 := Vec3.zero
  scale : Vec3 := Vec3.one
  color : Vec3 := defaultObjectColor
  shadows : Shadows := {}
deriving DecidableEq

/-- An image, as base64 text. -/
structure Texture where
  key : String
  base64 : String
deriving DecidableEq

/-- The rectangle of an element on the screen. -/
structure Layout where
  fromTopLeft : IVec2
  size : IVec2
deriving DecidableEq

/-- A piece of text on the screen. -/
structure Text where
  key : String
  contents : String
  layout : Layout
deriving DecidableEq

/-- A button on the screen. -/
structure Button where
  key : String
  label : String
  layout : Layout
deriving DecidableEq

/-- A slider on the screen. -/
structure Slider where
  key : String
  layout : Layout
  min : Float
  max : Float
  value : Float
  onlyInts : Bool
  horizontal : Bool
deriving DecidableEq

/-- The two series of a plot and the ranges it shows of them. -/
structure PlotData where
  xs : List Float
  minX : Float
  maxX : Float
  ys : List Float
  minY : Float
  maxY : Float
deriving DecidableEq

/-- A plot on the screen. -/
structure Plot where
  key : String
  layout : Layout
  data : PlotData
  plotType : String
deriving DecidableEq

/-- Anything that a scene holds under a key. -/
inductive SceneObject where
  | texture (t : Texture)
  | box (b : Box)
  | sphere (s : Sphere)
  | capsule (c : Capsule)
  | line (l : Line)
  | mesh (m : Mesh)
  | text (t : Text)
  | button (b : Button)
  | slider (s : Slider)
  | plot (p : Plot)
deriving DecidableEq

/-- An attribute that several kinds of objects share. -/
inductive Attribute where
  | position
  | rotation
  | color
  | scale
deriving DecidableEq

/-- All attributes. -/
def Attribute.all : List Attribute := [.position, .rotation, .color, .scale]

namespace SceneObject

/-- The kind of an object. -/
def kind : SceneObject → Kind
  | texture _ => .texture
  | box _ => .box
  | sphere _ => .sphere
  | capsule _ => .capsule
  | line _ => .line
  | mesh _ => .mesh
  | text _ => .text
  | button _ => .button
  | slider _ => .slider
  | plot _ => .plot

/-- The key of an object. -/
def key : SceneObject → String
  | texture t => t.key
  | box b => b.key
  | sphere s => s.key
  | capsule c => c.key
  | line l => l.key
  | mesh m => m.key
  | text t => t.key
  | button b => b.key
  | slider s => s.key
  | plot p => p.key

/-- Whether an object is an element of the screen. -/
def isElement (o : SceneObject) : Bool := o.kind.isElement

/-! ## Shared attributes -/

/-- The value of an attribute, if objects of this kind have it. -/
def get? : Attribute → SceneObject → Option Vec3
  | .position, box b => some b.pos
  | .position, sphere s => some s.pos
  | .position, capsule c => some c.pos
  | .position, mesh m => some m.pos
  | .rotation, box b => some b.euler
  | .rotation, capsule c => some c.euler
  | .rotation, mesh m => some m.euler
  | .color, box b => some b.color
  | .color, sphere s => some s.color
  | .color, capsule c => some c.color
  | .color, line l => some l.color
  | .color, mesh m => some m.color
  | .scale, box b => some b.size
  | .scale, sphere s => some (Vec3.splat s.radius)
  | .scale, capsule c => some ⟨c.radius, c.radius, c.height⟩
  | .scale, line _ => some Vec3.zero
  | .scale, mesh m => some m.scale
  | _, _ => none

/-- The object with an attribute written, if objects of this kind let it be written. -/
def set? (v : Vec3) : Attribute → SceneObject → Option SceneObject
  | .position, box b => some (box { b with pos := v })
  | .position, sphere s => some (sphere { s with pos := v })
  | .position, capsule c => some (capsule { c with pos := v })
  | .position, mesh m => some (mesh { m with pos := v })
  | .rotation, box b => some (box { b with euler := v })
  | .rotation, capsule c => some (capsule { c with euler := v })
  | .rotation, mesh m => some (mesh { m with euler := v })
  | .color, box b => some (box { b with color := v })
  | .color, sphere s => some (sphere { s with color := v })
  | .color, capsule c => some (capsule { c with color := v })
  | .color, line l => some (line { l with color := v })
  | .color, mesh m => some (mesh { m with color := v })
  | .scale, box b => some (box { b with size := v })
  | .scale, sphere s => some (sphere { s with radius := v.x })
  | .scale, capsule c => some (capsule { c with radius := v.x, height := v.z })
  | .scale, mesh m => some (mesh { m with scale := v })
  | _, _ => none

/-! ## Properties of elements -/

/-- The object with another layout, if it is an element. -/
def withLayout? (f : Layout → Layout) : SceneObject → Option SceneObject
  | text t => some (text { t with layout := f t.layout })
  | button b => some (button { b with layout := f b.layout })
  | slider s => some (slider { s with layout := f s.layout })
  | plot p => some (plot { p with layout := f p.layout })
  | _ => none

/-- The object with other contents, if it is a text. -/
def withContents? (contents : String) : SceneObject → Option SceneObject
  | text t => some (text { t with contents })
  | _ => none

/-- The object with another label, if it is a button. -/
def withLabel? (label : String) : SceneObject → Option SceneObject
  | button b => some (button { b with label })
  | _ => none

/-- The object changed as a slider, if it is one. -/
def withSlider? (f : Slider → Slider) : SceneObject → Option SceneObject
  | slider s => some (slider (f s))
  | _ => none

/-- The object with other data, if it is a plot. -/
def withPlotData? (data : PlotData) : SceneObject → Option SceneObject
  | plot p => some (plot { p with data })
  | _ => none

/-! ## What writing keeps -/

theorem kind_of_set? {o o' : SceneObject} {a : Attribute} {v : Vec3} (h : o.set? v a = some o') :
    o'.kind = o.kind := by
  cases o <;> cases a <;> simp [set?] at h <;> subst h <;> rfl

theorem key_of_set? {o o' : SceneObject} {a : Attribute} {v : Vec3} (h : o.set? v a = some o') :
    o'.key = o.key := by
  cases o <;> cases a <;> simp [set?] at h <;> subst h <;> rfl

end SceneObject

end LiveScene
