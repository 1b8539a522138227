import LiveScene.Proofs.Wire.Field
import LiveScene.Proofs.Wire.Record
import LiveScene.ViewerMessage

/-!
# Messages from viewers read back

The text of a message whose doubles are read back is parsed as that message exactly if they are
finite (`ViewerMessage.parseBy_encode`). No sort of messages carries counts or series, so nothing
else can be lost on the way.
-/

namespace LiveScene.ViewerMessage

open Wire

theorem Tag.mem_all (t : Tag) : t ∈ all := by
  cases t <;> decide

/-- Sorts of messages are told apart by their spelling, and their fields by their names. -/
theorem Tag.distinct_schema : schema.Distinct := by
  have h : ∀ t ∈ all, schema.tag? (schema.name t) = some t ∧
      (Schema.tagField :: schema.fields t).Nodup := by
    decide
  exact ⟨fun t => (h t t.mem_all).1, fun t => (h t t.mem_all).2⟩

/-- The doubles of a message. -/
def floats : ViewerMessage → List Float
  | drag _ pos => pos.floats
  | sliderSetValue _ value => [value]
  | _ => []

theorem length_values (m : ViewerMessage) :
    m.values.length = (Tag.schema.fields m.tag).length := by
  cases m <;> rfl

theorem legible_values (m : ViewerMessage) : ∀ v ∈ m.values, Json.Legible 1 v := by
  cases m <;> simp [values, legible_of_depth, Faithful.depth]

theorem ofValues?_values (m : ViewerMessage) :
    ofValues? m.tag m.values = if AllFinite m.floats then some m else none := by
  cases m <;>
  · simp only [tag, ofValues?, values, floats, bind_ofJson?_toJson, Faithful.floats, allFinite_nil,
      if_true]
    rfl

theorem legible_record (m : ViewerMessage) : Json.Legible 2 m.record :=
  Schema.legible_record _ _ m.legible_values

/-- The text of a message whose doubles are read back denotes its record. -/
theorem ofText?_encode {m : ViewerMessage} {R : Number.Reader}
    (hback : m.record.ReadsBack R) :
    Json.ofText? R Schema.depthLimit m.encode = some m.record :=
  Json.ofText?_text_of_readsBack m.legible_record (by decide) hback

theorem ofRecord?_record (m : ViewerMessage) :
    ofRecord? m.record = if AllFinite m.floats then some m else none := by
  rw [ofRecord?, record, Schema.split?_record Tag.distinct_schema _ m.length_values]
  exact m.ofValues?_values

/-- The text of a message whose doubles are read back is parsed exactly if they are finite, as that
message. -/
theorem parseBy_encode {m : ViewerMessage} {R : Number.Reader}
    (hback : m.record.ReadsBack R) :
    parseBy R m.encode = if AllFinite m.floats then .ok m
      else .error (.malformed m.encode.utf8ByteSize) := by
  rw [parseBy, ofText?_encode hback, Option.bind_some, ofRecord?_record]
  by_cases hf : AllFinite m.floats
  · rw [if_pos hf, if_pos hf]
  · rw [if_neg hf, if_neg hf]

end LiveScene.ViewerMessage
