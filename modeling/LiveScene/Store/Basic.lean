import Std.Data.ExtTreeMap
import Std.Data.ExtTreeSet
import LiveScene.Command.Basic

/-!
# The store of a scene

A store holds the objects of a scene, one to a key, whatever their kinds, and the keys that may be
dragged. The two are independent: a key may be draggable before it has an object and stays so when
its object is replaced, but loses the mark when its object is removed.

Reading is total: what is absent reads as the null vector. An operation that writes a part of an
object answers `none` when the key is absent or its object lacks that part, and leaves everything
else as it is. `Store.run` is what a command means: the store operation of the same name, or nothing
where that operation has no effect.
-/

namespace LiveScene

open Std (ExtTreeMap ExtTreeSet)

/-- The objects of a scene by key, and the keys that may be dragged. -/
structure Store where
  objects : ExtTreeMap String SceneObject := ∅
  draggable : ExtTreeSet String := ∅

namespace Store

/-- The store of an empty scene. -/
def empty : Store := {}

/-! ## Reading -/

/-- The object under a key. -/
def get? (s : Store) (key : String) : Option SceneObject := s.objects[key]?

/-- Whether there is an object under a key. -/
def contains (s : Store) (key : String) : Bool := (s.get? key).isSome

/-- The kind of the object under a key. -/
def kind? (s : Store) (key : String) : Option Kind := (s.get? key).map (·.kind)

/-- An attribute of the object under a key, null if there is none. -/
def valueOf (s : Store) (a : Attribute) (key : String) : Vec3 :=
  ((s.get? key).bind (·.get? a)).getD Vec3.zero

/-! ## Writing -/

/-- Puts an object under its key, in place of whatever is there. -/
def insert (s : Store) (o : SceneObject) : Store :=
  { s with objects := s.objects.insert o.key o }

/-- Lets a key be dragged. -/
def enableMouse (s : Store) (key : String) : Store :=
  { s with draggable := s.draggable.insert key }

/-- Changes the object under a key, if there is one and the change applies to it. -/
def modify? (s : Store) (key : String) (f : SceneObject → Option SceneObject) : Option Store := do
  let o ← s.get? key
  let o' ← f o
  return { s with objects := s.objects.insert key o' }

/-- Writes an attribute of the object under a key. -/
def set? (s : Store) (a : Attribute) (key : String) (v : Vec3) : Option Store :=
  s.modify? key (·.set? v a)

/-- Replaces the contents of the text under a key. -/
def setContents? (s : Store) (key contents : String) : Option Store :=
  s.modify? key (·.withContents? contents)

/-- Replaces the label of the button under a key. -/
def setLabel? (s : Store) (key label : String) : Option Store :=
  s.modify? key (·.withLabel? label)

/-- Writes a number of the slider under a key. -/
def setSlider? (s : Store) (p : SliderProperty) (key : String) (x : Float) : Option Store :=
  s.modify? key (·.withSlider? (·.write x p))

/-- Replaces the data of the plot under a key. -/
def setPlotData? (s : Store) (key : String) (data : PlotData) : Option Store :=
  s.modify? key (·.withPlotData? data)

/-- Moves or resizes the element under a key. -/
def setLayout? (s : Store) (p : LayoutProperty) (key : String) (v : IVec2) : Option Store :=
  s.modify? key (·.withLayout? (·.write v p))

/-- Removes the object under a key, and with it the mark that lets the key be dragged. The object
removed is given along with the store. -/
def erase? (s : Store) (key : String) : Option (SceneObject × Store) := do
  let o ← s.get? key
  return (o, ⟨s.objects.erase key, s.draggable.erase key⟩)

/-- Removes the objects under some keys, in order, and lists those there were. -/
def eraseAll (s : Store) : List String → List SceneObject × Store
  | [] => ([], s)
  | key :: keys =>
    match s.erase? key with
    | some (o, s') =>
      let (os, s'') := s'.eraseAll keys
      (o :: os, s'')
    | none => s.eraseAll keys

/-- Whether a key begins with `stem`. -/
def beginsWith (stem key : String) : Bool := stem.toList.isPrefixOf key.toList

/-- The stored keys that begin with `stem`, in ascending order. -/
def keysUnder (s : Store) (stem : String) : List String := s.objects.keys.filter (beginsWith stem)

/-- Removes every object whose key begins with `stem`, in ascending order of keys. -/
def eraseUnder (s : Store) (stem : String) : List SceneObject × Store :=
  s.eraseAll (s.keysUnder stem)

/-- Writes the position of an object that a viewer has already moved. -/
def recordPosition (s : Store) (key : String) (v : Vec3) : Store :=
  (s.set? .position key v).getD s

/-- Writes the value of a slider that a viewer has already moved. -/
def recordSliderValue (s : Store) (key : String) (x : Float) : Store :=
  (s.setSlider? .value key x).getD s

/-- Removes the object under a key, if there is one. -/
def erase (s : Store) (key : String) : Store := ((s.erase? key).map (·.2)).getD s

/-! ## Reading after writing -/

@[simp] theorem get?_empty (key : String) : empty.get? key = none := by simp [get?, empty]

theorem get?_insert (s : Store) (o : SceneObject) (key : String) :
    (s.insert o).get? key = if o.key = key then some o else s.get? key := by
  simp [get?, insert, Std.ExtTreeMap.getElem?_insert]

@[simp] theorem get?_enableMouse (s : Store) (k key : String) :
    (s.enableMouse k).get? key = s.get? key := rfl

theorem modify?_eq_some {s s' : Store} {key : String} {f : SceneObject → Option SceneObject}
    (h : s.modify? key f = some s') :
    ∃ o o', s.get? key = some o ∧ f o = some o' ∧
      s' = { s with objects := s.objects.insert key o' } := by
  simp only [modify?, bind, Option.bind_eq_some_iff, pure, Option.some.injEq] at h
  obtain ⟨o, ho, o', ho', rfl⟩ := h
  exact ⟨o, o', ho, ho', rfl⟩

theorem erase?_eq_none_iff {s : Store} {key : String} :
    s.erase? key = none ↔ s.get? key = none := by
  cases h : s.get? key <;> simp [erase?, h]

theorem erase?_of_get? {s : Store} {key : String} {o : SceneObject} (h : s.get? key = some o) :
    s.erase? key = some (o, s.erase key) := by
  simp [erase, erase?, h]

theorem get?_erase (s : Store) (k key : String) :
    (s.erase k).get? key = if k = key then none else s.get? key := by
  cases h : s.get? k with
  | none =>
    have : s.erase k = s := by simp [erase, erase?, h]
    rw [this]
    split <;> simp_all
  | some o =>
    have : (s.erase k).objects = s.objects.erase k := by simp [erase, erase?, h]
    simp [get?, this, Std.ExtTreeMap.getElem?_erase]

theorem beginsWith_iff {stem key : String} :
    beginsWith stem key = true ↔ ∃ rest, stem.toList ++ rest = key.toList := by
  simp [beginsWith, List.isPrefixOf_iff_prefix, List.IsPrefix]

theorem mem_keysUnder {s : Store} {stem key : String} :
    key ∈ s.keysUnder stem ↔ s.contains key ∧ beginsWith stem key := by
  simp [keysUnder, contains, get?, Std.ExtTreeMap.mem_keys]

/-! ## Commands -/

/-- The store after a command. -/
def run (s : Store) : Command → Store
  | .create o => s.insert o
  | .set a key v => (s.set? a key v).getD s
  | .enableMouse key => s.enableMouse key
  | .deleteObject key => s.erase key
  | .setContents key contents => (s.setContents? key contents).getD s
  | .setLabel key label => (s.setLabel? key label).getD s
  | .setSlider p key x => (s.setSlider? p key x).getD s
  | .setPlotData key data => (s.setPlotData? key data).getD s
  | .setLayout p key v => (s.setLayout? p key v).getD s
  | .deleteElement key => s.erase key
  | .clear => empty

/-- The store after some commands, in order. -/
def runAll (s : Store) (cs : List Command) : Store := cs.foldl run s

@[simp] theorem runAll_nil (s : Store) : s.runAll [] = s := rfl

@[simp] theorem runAll_cons (s : Store) (c : Command) (cs : List Command) :
    s.runAll (c :: cs) = (s.run c).runAll cs := rfl

theorem runAll_append (s : Store) (cs ds : List Command) :
    s.runAll (cs ++ ds) = (s.runAll cs).runAll ds := by simp [runAll]

end Store

end LiveScene
