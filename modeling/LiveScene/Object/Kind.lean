/-!
# Kinds of objects

Everything that a scene holds is of one of ten kinds. They are ordered as a viewer has to receive
them: textures before the meshes that use them, and the elements of the screen last.
-/

namespace LiveScene

/-- What an object is. -/
inductive Kind where
  | texture
  | box
  | sphere
  | capsule
  | line
  | mesh
  | text
  | button
  | slider
  | plot
deriving DecidableEq

namespace Kind

/-- All kinds, in order. -/
def all : List Kind :=
  [texture, box, sphere, capsule, line, mesh, text, button, slider, plot]

/-- The place of a kind in the order. -/
def rank : Kind → Nat
  | texture => 0
  | box => 1
  | sphere => 2
  | capsule => 3
  | line => 4
  | mesh => 5
  | text => 6
  | button => 7
  | slider => 8
  | plot => 9

/-- Whether one kind does not come after another. -/
def le (a b : Kind) : Bool := a.rank ≤ b.rank

/-- Whether objects of this kind are placed on the screen instead of in space. -/
def isElement : Kind → Bool
  | text | button | slider | plot => true
  | _ => false

/-- The name of a kind. -/
def name : Kind → String
  | texture => "Texture"
  | box => "Box"
  | sphere => "Sphere"
  | capsule => "Capsule"
  | line => "Line"
  | mesh => "Mesh"
  | text => "Text"
  | button => "Button"
  | slider => "Slider"
  | plot => "Plot"

end Kind

end LiveScene
