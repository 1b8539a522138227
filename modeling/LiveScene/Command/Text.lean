import LiveScene.Command.Basic
import LiveScene.Json.Stepwise
import LiveScene.Object.Fields
import LiveScene.Wire.Record

/-!
# The text of commands

A command is sent as a tagged record (`Command.encode`), its opcode as the tag, and read back from
any text that denotes such a record (`Command.decodeBy?`), as programs do with numbers read in steps
(`Command.decode?`). Several commands travel together as one
array (`batch`), whose text is the text of the array of their values (`batch_map_text`).
-/

namespace LiveScene

open Wire

namespace Opcode

/-- All 26 opcodes. -/
def all : List Opcode :=
  Kind.all.map create ++ Attribute.all.map set ++
    [enableMouse, deleteObject, setContents, setLabel, setSlider .value, setSlider .min,
      setSlider .max, setPlotData, setLayout .position, setLayout .size, deleteElement, clear]

/-- The name of an opcode, from a list of its own. -/
def name : Opcode → String
  | create .texture => "create_texture"
  | create .box => "create_box"
  | create .sphere => "create_sphere"
  | create .capsule => "create_capsule"
  | create .line => "create_line"
  | create .mesh => "create_mesh"
  | create .text => "create_text"
  | create .button => "create_button"
  | create .slider => "create_slider"
  | create .plot => "create_plot"
  | set .position => "set_object_pos"
  | set .rotation => "set_object_rotation"
  | set .color => "set_object_color"
  | set .scale => "set_object_scale"
  | enableMouse => "enable_mouse"
  | deleteObject => "delete_object"
  | setContents => "set_text_contents"
  | setLabel => "set_button_label"
  | setSlider .value => "set_slider_value"
  | setSlider .min => "set_slider_min"
  | setSlider .max => "set_slider_max"
  | setPlotData => "set_plot_data"
  | setLayout .position => "set_ui_elem_pos"
  | setLayout .size => "set_ui_elem_size"
  | deleteElement => "delete_ui_elem"
  | clear => "clear_all"

/-- The variant of an opcode, after which it is spelled in text. -/
def variant : Opcode → String
  | create .texture => "CreateTexture"
  | create .box => "CreateBox"
  | create .sphere => "CreateSphere"
  | create .capsule => "CreateCapsule"
  | create .line => "CreateLine"
  | create .mesh => "CreateMesh"
  | create .text => "CreateText"
  | create .button => "CreateButton"
  | create .slider => "CreateSlider"
  | create .plot => "CreatePlot"
  | set .position => "SetObjectPos"
  | set .rotation => "SetObjectRotation"
  | set .color => "SetObjectColor"
  | set .scale => "SetObjectScale"
  | enableMouse => "EnableMouse"
  | deleteObject => "DeleteObject"
  | setContents => "SetTextContents"
  | setLabel => "SetButtonLabel"
  | setSlider .value => "SetSliderValue"
  | setSlider .min => "SetSliderMin"
  | setSlider .max => "SetSliderMax"
  | setPlotData => "SetPlotData"
  | setLayout .position => "SetUiElemPos"
  | setLayout .size => "SetUiElemSize"
  | deleteElement => "DeleteUiElem"
  | clear => "ClearAll"

/-- The names of the fields of a command, in written order. -/
def fields : Opcode → List String
  | create k => k.fields
  | set .position => ["key", "pos"]
  | set .rotation => ["key", "euler"]
  | set .color => ["key", "color"]
  | set .scale => ["key", "scale"]
  | enableMouse => ["key"]
  | deleteObject => ["key"]
  | setContents => ["key", "contents"]
  | setLabel => ["key", "label"]
  | setSlider _ => ["key", "value"]
  | setPlotData => "key" :: PlotData.fields
  | setLayout .position => ["key", "from_top_left"]
  | setLayout .size => ["key", "size"]
  | deleteElement => ["key"]
  | clear => []

/-- How commands are spelled. -/
def schema : Schema Opcode where
  name op := snakeCase op.variant
  tag? s := all.find? (snakeCase ·.variant == s)
  fields := fields

end Opcode

namespace Command

/-- The values of the fields of a command, in written order. -/
def values : Command → List Json
  | create o => o.values
  | set _ key v => [toJson key, toJson v]
  | enableMouse key => [toJson key]
  | deleteObject key => [toJson key]
  | setContents key contents => [toJson key, toJson contents]
  | setLabel key label => [toJson key, toJson label]
  | setSlider _ key x => [toJson key, toJson x]
  | setPlotData key data => toJson key :: data.values
  | setLayout _ key v => [toJson key, toJson v]
  | deleteElement key => [toJson key]
  | clear => []

/-- The command of a sort with given field values. -/
def ofValues? : Opcode → List Json → Option Command
  | .create k, vs => create <$> SceneObject.ofValues? k vs
  | .set a, [key, v] => do return set a (← ofJson? key) (← ofJson? v)
  | .enableMouse, [key] => do return enableMouse (← ofJson? key)
  | .deleteObject, [key] => do return deleteObject (← ofJson? key)
  | .setContents, [key, contents] => do return setContents (← ofJson? key) (← ofJson? contents)
  | .setLabel, [key, label] => do return setLabel (← ofJson? key) (← ofJson? label)
  | .setSlider p, [key, x] => do return setSlider p (← ofJson? key) (← ofJson? x)
  | .setPlotData, key :: vs => do return setPlotData (← ofJson? key) (← PlotData.ofValues? vs)
  | .setLayout p, [key, v] => do return setLayout p (← ofJson? key) (← ofJson? v)
  | .deleteElement, [key] => do return deleteElement (← ofJson? key)
  | .clear, [] => some clear
  | _, _ => none

/-- A command as a record. -/
def record (c : Command) : Json := Opcode.schema.record c.opcode c.values

/-- The text of a command. -/
def encode (c : Command) : String := c.record.text

/-- The command that a record denotes. -/
def ofRecord? (v : Json) : Option Command := do
  let (op, values) ← Opcode.schema.split? v
  ofValues? op values

/-- The command that a text denotes, for a reader of numbers. -/
def decodeBy? (R : Number.Reader) (text : String) : Option Command := do
  ofRecord? (← Json.ofText? R Schema.depthLimit text)

/-- The command that is read from a text. -/
def decode? (text : String) : Option Command := decodeBy? .stepwise text

end Command

/-- The text of an array whose items have the given texts. -/
def batch (encoded : List String) : String := "[" ++ ",".intercalate encoded ++ "]"

/-- The texts after the first are written after commas. -/
theorem toList_intercalate_cons (s : String) (ss : List String) :
    (",".intercalate (s :: ss)).toList = s.toList ++ ss.flatMap (fun s => ',' :: s.toList) := by
  induction ss generalizing s with
  | nil => simp
  | cons t ss ih =>
    rw [String.intercalate_cons_cons]
    simp [ih]

/-- Texts of values are batched into the text of their array. -/
theorem batch_map_text (vs : List Json) : batch (vs.map Json.text) = (Json.arr vs).text := by
  apply String.toList_injective
  cases vs with
  | nil => simp [batch, Json.text, Json.tokens, Json.Token.spell]
  | cons v vs =>
    simp only [batch, String.toList_append, List.map_cons, toList_intercalate_cons,
      Json.toList_text (.arr _), Json.tokens, List.flatMap_cons, List.flatMap_append,
      Json.text_itemTokens, List.flatMap_map, ← Json.toList_text v]
    simp [Json.Token.spell]

/-- The message that carries some commands. -/
def Command.message (cs : List Command) : String := batch (cs.map encode)

end LiveScene
