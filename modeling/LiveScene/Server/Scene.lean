import LiveScene.Server.Journal
import LiveScene.Store.Basic

/-!
# Edits of a scene

The scene of a server is its store with the registry of listeners and the input of viewers. An
`Edit` is what a change does to it: the scene after the change, the commands that tell viewers of
it, and what there is to note. A change that has no effect on the store gives no commands.

A button or a slider takes its listener along: whatever puts another object under a key, or removes
the object there, forgets the listener under that key.
-/

namespace LiveScene

/-- The objects, the listeners and the input of a server. -/
structure Scene where
  store : Store := {}
  registry : Registry := {}
  input : Input := {}

/-- What a change does to a scene. -/
structure Edit where
  scene : Scene
  commands : List Command
  notices : List Notice := []

namespace Scene

/-- Puts an object under its key. -/
def create (s : Scene) (o : SceneObject) : Edit where
  scene := { s with store := s.store.insert o, registry := s.registry.forget o.key }
  commands := [o.createCommand]
  notices :=
    match s.store.kind? o.key with
    | some k => if k = o.kind then [] else [.kindChanged o.key k o.kind]
    | none => []

/-- Puts a button under its key, with its listener. -/
def createButton (s : Scene) (b : Button) (l : Listener) : Edit :=
  let e := s.create (.button b)
  { e with scene := { e.scene with registry := e.scene.registry.setClick b.key l } }

/-- Puts a slider under its key, with its listener. -/
def createSlider (s : Scene) (b : Slider) (l : Listener) : Edit :=
  let e := s.create (.slider b)
  { e with scene := { e.scene with registry := e.scene.registry.setChange b.key l } }

/-- Takes over a store that a command has changed, if it has. -/
def update (s : Scene) (store : Option Store) (c : Command) : Edit :=
  match store with
  | some store => ⟨{ s with store }, [c], []⟩
  | none => ⟨s, [], []⟩

/-- Removes whatever is under a key. -/
def delete (s : Scene) (key : String) : Edit :=
  let registry := s.registry.forget key
  match s.store.erase? key with
  | some (o, store) => ⟨{ s with store, registry }, [o.deleteCommand], []⟩
  | none => ⟨{ s with registry }, [], []⟩

/-- Removes what is under a key if it is an element of the screen. -/
def deleteElement (s : Scene) (key : String) : Edit :=
  if (s.store.kind? key).any (·.isElement) then s.delete key else ⟨s, [], []⟩

/-- Removes everything whose key begins with `stem`. -/
def deleteUnder (s : Scene) (stem : String) : Edit :=
  let (removed, store) := s.store.eraseUnder stem
  let registry := removed.foldl (fun r o => r.forget o.key) s.registry
  ⟨{ s with store, registry }, removed.map (·.deleteCommand), []⟩

/-- Removes everything, and all listeners but those for connections and shutdowns. -/
def clear (s : Scene) : Edit :=
  ⟨⟨.empty, s.registry.clear, s.input.clear⟩, [.clear], []⟩

/-- Lets a key be dragged, and listens to that. -/
def onDrag (s : Scene) (key : String) (l : Listener) : Edit :=
  ⟨{ s with store := s.store.enableMouse key, registry := s.registry.addDrag key l },
    [.enableMouse key], []⟩

/-- The scene after a message, before any listener is called. -/
def record (s : Scene) (m : ViewerMessage) : Scene :=
  { s with
    input := s.input.record m
    store :=
      match m with
      | .drag key pos => s.store.recordPosition key pos
      | .sliderSetValue key value => s.store.recordSliderValue key value
      | _ => s.store }

/-- What there is to see under a key. -/
def glance (s : Scene) (key : String) : Glance where
  kind := s.store.kind? key
  position := s.store.valueOf .position key
  rotation := s.store.valueOf .rotation key
  color := s.store.valueOf .color key
  scale := s.store.valueOf .scale key

end Scene

end LiveScene
