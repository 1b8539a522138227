import LiveScene.Store.Basic

/-!
# Replay

The commands that build a scene up from nothing, for a viewer that has just connected: first all
textures, then everything else that stands in space, then the elements of the screen, each group in
ascending order of keys, and at last the keys that may be dragged, as far as they have objects.
-/

namespace LiveScene

/-- The groups in which objects are replayed. -/
inductive ReplayGroup where
  | images
  | solids
  | elements
deriving DecidableEq

/-- The group in which objects of a kind are replayed. -/
def Kind.replayGroup : Kind → ReplayGroup
  | .texture => .images
  | .text | .button | .slider | .plot => .elements
  | .box | .sphere | .capsule | .line | .mesh => .solids

namespace Store

/-- The objects of a replay group, in ascending order of keys. -/
def group (s : Store) (g : ReplayGroup) : List SceneObject :=
  (s.objects.toList.map (·.2)).filter (·.kind.replayGroup == g)

/-- The keys that may be dragged and have an object, in ascending order. -/
def draggableKeys (s : Store) : List String := s.draggable.toList.filter s.contains

/-- The commands that build the scene up from nothing. -/
def replay (s : Store) : List Command :=
  (s.group .images ++ s.group .solids ++ s.group .elements).map SceneObject.createCommand ++
    s.draggableKeys.map .enableMouse

end Store

end LiveScene
