import LiveScene.Geometry.Vector
import LiveScene.Json.Stepwise
import LiveScene.Wire.Field
import LiveScene.Wire.Record

/-!
# Messages from viewers

What a viewer reports: a key went down or up, an object was dragged, the screen changed its size, a
button was clicked or a slider moved. Messages are tagged records, and a text that denotes none of
them is malformed as a whole.
-/

namespace LiveScene

open Wire

/-- Something that happened at a viewer. -/
inductive ViewerMessage where
  | keydown (key : String)
  | keyup (key : String)
  | drag (key : String) (pos : Vec3)
  | screenResize (size : IVec2)
  | buttonClick (key : String)
  | sliderSetValue (key : String) (value : Float)
deriving DecidableEq

namespace ViewerMessage

/-- The sort of a message. -/
inductive Tag where
  | keydown
  | keyup
  | drag
  | screenResize
  | buttonClick
  | sliderSetValue
deriving DecidableEq

namespace Tag

/-- All sorts. -/
def all : List Tag := [keydown, keyup, drag, screenResize, buttonClick, sliderSetValue]

/-- The variant of a sort, after which it is spelled in text. -/
def variant : Tag → String
  | keydown => "Keydown"
  | keyup => "Keyup"
  | drag => "Drag"
  | screenResize => "ScreenResize"
  | buttonClick => "ButtonClick"
  | sliderSetValue => "SliderSetValue"

/-- The names of the fields of a message, in written order. -/
def fields : Tag → List String
  | keydown => ["key"]
  | keyup => ["key"]
  | drag => ["key", "pos"]
  | screenResize => ["size"]
  | buttonClick => ["key"]
  | sliderSetValue => ["key", "value"]

/-- How messages are spelled. -/
def schema : Schema Tag where
  name t := snakeCase t.variant
  tag? s := all.find? (snakeCase ·.variant == s)
  fields := fields

end Tag

/-- The sort of a message. -/
def tag : ViewerMessage → Tag
  | keydown _ => .keydown
  | keyup _ => .keyup
  | drag _ _ => .drag
  | screenResize _ => .screenResize
  | buttonClick _ => .buttonClick
  | sliderSetValue _ _ => .sliderSetValue

/-- The values of the fields of a message, in written order. -/
def values : ViewerMessage → List Json
  | keydown key => [toJson key]
  | keyup key => [toJson key]
  | drag key pos => [toJson key, toJson pos]
  | screenResize size => [toJson size]
  | buttonClick key => [toJson key]
  | sliderSetValue key value => [toJson key, toJson value]

/-- The message of a sort with given field values. -/
def ofValues? : Tag → List Json → Option ViewerMessage
  | .keydown, [key] => do return keydown (← ofJson? key)
  | .keyup, [key] => do return keyup (← ofJson? key)
  | .drag, [key, pos] => do return drag (← ofJson? key) (← ofJson? pos)
  | .screenResize, [size] => do return screenResize (← ofJson? size)
  | .buttonClick, [key] => do return buttonClick (← ofJson? key)
  | .sliderSetValue, [key, value] => do return sliderSetValue (← ofJson? key) (← ofJson? value)
  | _, _ => none

/-- A message as a record. -/
def record (m : ViewerMessage) : Json := Tag.schema.record m.tag m.values

/-- The text of a message. -/
def encode (m : ViewerMessage) : String := m.record.text

/-- The message that a record denotes. -/
def ofRecord? (v : Json) : Option ViewerMessage := do
  let (t, vs) ← Tag.schema.split? v
  ofValues? t vs

/-- Why a text is not a message. -/
inductive ParseError where
  /-- it denotes none; the number of its bytes in UTF-8 is kept -/
  | malformed (bytes : Nat)
deriving DecidableEq

/-- The text of a parse error. -/
def ParseError.message : ParseError → String
  | malformed bytes => "Malformed client message (" ++ toString bytes ++ " bytes)"

/-- The message that a text denotes, for a reader of numbers. -/
def parseBy (R : Number.Reader) (text : String) : Except ParseError ViewerMessage :=
  match (Json.ofText? R Schema.depthLimit text).bind ofRecord? with
  | some m => .ok m
  | none => .error (.malformed text.utf8ByteSize)

/-- The message that is read from a text. -/
def parse (text : String) : Except ParseError ViewerMessage := parseBy .stepwise text

end ViewerMessage

end LiveScene
