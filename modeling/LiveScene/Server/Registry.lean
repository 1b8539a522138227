import Std.Data.ExtTreeMap
import Std.Data.ExtTreeSet
import LiveScene.Server.Call

/-!
# The registry of listeners

Who is to be called on which `Occasion`, in order of registration. Listeners to drags are kept by
key, and a button or a slider has one listener, under its key. Beside the registry stands the
`Input` that viewers have reported: the keys that are down, and the size of the screen.
-/

namespace LiveScene

open Std (ExtTreeMap ExtTreeSet)

/-- All listeners. -/
structure Registry where
  connection : List Listener := []
  shutdown : List Listener := []
  keydown : List Listener := []
  keyup : List Listener := []
  screenResize : List Listener := []
  drag : ExtTreeMap String (List Listener) := ∅
  click : ExtTreeMap String Listener := ∅
  change : ExtTreeMap String Listener := ∅

namespace Registry

/-- Adds a listener for a signal. -/
def add (r : Registry) (s : Signal) (l : Listener) : Registry :=
  match s with
  | .connection => { r with connection := r.connection ++ [l] }
  | .shutdown => { r with shutdown := r.shutdown ++ [l] }
  | .keydown => { r with keydown := r.keydown ++ [l] }
  | .keyup => { r with keyup := r.keyup ++ [l] }
  | .screenResize => { r with screenResize := r.screenResize ++ [l] }

/-- The listeners to drags of a key. -/
def dragListeners (r : Registry) (key : String) : List Listener := r.drag[key]?.getD []

/-- Adds a listener to drags of a key. -/
def addDrag (r : Registry) (key : String) (l : Listener) : Registry :=
  { r with drag := r.drag.insert key (r.dragListeners key ++ [l]) }

/-- Sets the listener to clicks of the button under a key. -/
def setClick (r : Registry) (key : String) (l : Listener) : Registry :=
  { r with click := r.click.insert key l }

/-- Sets the listener to changes of the slider under a key. -/
def setChange (r : Registry) (key : String) (l : Listener) : Registry :=
  { r with change := r.change.insert key l }

/-- Forgets the listener of the button or slider under a key. -/
def forget (r : Registry) (key : String) : Registry :=
  { r with click := r.click.erase key, change := r.change.erase key }

/-- Forgets all listeners but those for connections and shutdowns. -/
def clear (r : Registry) : Registry := { connection := r.connection, shutdown := r.shutdown }

/-- The listeners to call on an occasion, in order. -/
def listeners (r : Registry) : Occasion → List Listener
  | .connection => r.connection
  | .shutdown => r.shutdown
  | .message (.keydown _) => r.keydown
  | .message (.keyup _) => r.keyup
  | .message (.drag key _) => r.dragListeners key
  | .message (.screenResize _) => r.screenResize
  | .message (.buttonClick key) => r.click[key]?.toList
  | .message (.sliderSetValue key _) => r.change[key]?.toList

/-! ## Who listens -/

theorem dragListeners_addDrag (r : Registry) (k key : String) (l : Listener) :
    (r.addDrag k l).dragListeners key =
      if k = key then r.dragListeners k ++ [l] else r.dragListeners key := by
  simp only [addDrag, dragListeners, Std.ExtTreeMap.getElem?_insert]
  split <;> simp_all

@[simp] theorem dragListeners_clear (r : Registry) (key : String) :
    r.clear.dragListeners key = [] := by simp [clear, dragListeners]

end Registry

/-- What viewers have reported of their keys and their screen. -/
structure Input where
  keysDown : ExtTreeSet String := ∅
  screenSize : IVec2 := IVec2.zero

namespace Input

/-- The input after a message. -/
def record (i : Input) : ViewerMessage → Input
  | .keydown key => { i with keysDown := i.keysDown.insert key }
  | .keyup key => { i with keysDown := i.keysDown.erase key }
  | .screenResize size => { i with screenSize := size }
  | _ => i

/-- The input with no key down. The screen keeps its size. -/
def clear (i : Input) : Input := { i with keysDown := ∅ }

end Input

end LiveScene
