import LiveScene.Object.Basic

/-!
# Commands

A command is one change to a scene, as a viewer receives it: an object is created under its key,
something of the object under a key is set or the object is deleted, a key becomes draggable, or
everything goes. There are 26 sorts of commands, told apart by their `Opcode`.
-/

namespace LiveScene

/-- A number of a slider. -/
inductive SliderProperty where
  | value
  | min
  | max
deriving DecidableEq

/-- A part of an element's layout. -/
inductive LayoutProperty where
  | position
  | size
deriving DecidableEq

/-- The sort of a command. -/
inductive Opcode where
  | create (k : Kind)
  | set (a : Attribute)
  | enableMouse
  | deleteObject
  | setContents
  | setLabel
  | setSlider (p : SliderProperty)
  | setPlotData
  | setLayout (p : LayoutProperty)
  | deleteElement
  | clear
deriving DecidableEq

/-- One change to a scene. -/
inductive Command where
  /-- puts an object under its key, in place of whatever is there -/
  | create (o : SceneObject)
  /-- writes an attribute of the object under a key -/
  | set (a : Attribute) (key : String) (v : Vec3)
  /-- lets a key be dragged -/
  | enableMouse (key : String)
  /-- removes an object that stands in space -/
  | deleteObject (key : String)
  /-- replaces the contents of a text -/
  | setContents (key : String) (contents : String)
  /-- replaces the label of a button -/
  | setLabel (key : String) (label : String)
  /-- writes a number of a slider -/
  | setSlider (p : SliderProperty) (key : String) (x : Float)
  /-- replaces the data of a plot -/
  | setPlotData (key : String) (data : PlotData)
  /-- moves or resizes an element -/
  | setLayout (p : LayoutProperty) (key : String) (v : IVec2)
  /-- removes an element of the screen -/
  | deleteElement (key : String)
  /-- removes everything -/
  | clear
deriving DecidableEq

/-- A slider with one of its numbers written. -/
def Slider.write (s : Slider) (x : Float) : SliderProperty → Slider
  | .value => { s with value := x }
  | .min => { s with min := x }
  | .max => { s with max := x }

/-- A layout with one of its parts written. -/
def Layout.write (l : Layout) (v : IVec2) : LayoutProperty → Layout
  | .position => { l with fromTopLeft := v }
  | .size => { l with size := v }

namespace Command

/-- The sort of a command. -/
def opcode : Command → Opcode
  | create o => .create o.kind
  | set a _ _ => .set a
  | enableMouse _ => .enableMouse
  | deleteObject _ => .deleteObject
  | setContents _ _ => .setContents
  | setLabel _ _ => .setLabel
  | setSlider p _ _ => .setSlider p
  | setPlotData _ _ => .setPlotData
  | setLayout p _ _ => .setLayout p
  | deleteElement _ => .deleteElement
  | clear => .clear

/-- The key that a command is about, if it is about one. -/
def key? : Command → Option String
  | create o => some o.key
  | set _ key _ => some key
  | enableMouse key => some key
  | deleteObject key => some key
  | setContents key _ => some key
  | setLabel key _ => some key
  | setSlider _ key _ => some key
  | setPlotData key _ => some key
  | setLayout _ key _ => some key
  | deleteElement key => some key
  | clear => none

end Command

namespace SceneObject

/-- The command that creates an object. -/
def createCommand (o : SceneObject) : Command := .create o

/-- The command that deletes an object. -/
def deleteCommand (o : SceneObject) : Command :=
  if o.isElement then .deleteElement o.key else .deleteObject o.key

end SceneObject

end LiveScene
