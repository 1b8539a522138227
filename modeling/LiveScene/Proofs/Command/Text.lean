import LiveScene.Command.Text
import LiveScene.Proofs.Object.Fields
import LiveScene.Proofs.Wire.Record

/-!
# Commands read back

The 26 opcodes are told apart by their spelling, and the fields of each by their names
(`Opcode.distinct_schema`). The text of a command is read as its record, with what the reader of
numbers makes of the doubles in it (`Command.ofText?_encode`). From this a command is read exactly
if no double has been refused and those outside the series of plots are finite: the command with the
samples that were sent, under the same opcode and key, and with the doubles as they were read
(`Command.decodeBy?_encode`).
-/

namespace LiveScene

open Wire

namespace Opcode

theorem mem_all (op : Opcode) : op ∈ all := by
  cases op with
  | create k => cases k <;> decide
  | set a => cases a <;> decide
  | setSlider p => cases p <;> decide
  | setLayout p => cases p <;> decide
  | _ => decide

/-- An opcode is spelled in text as it is named. -/
theorem snakeCase_variant (op : Opcode) : snakeCase op.variant = op.name := by
  have h : ∀ op ∈ all, snakeCase op.variant = op.name := by decide +kernel
  exact h op op.mem_all

/-- Opcodes are told apart by their spelling, and their fields by their names. -/
theorem distinct_schema : schema.Distinct := by
  have h : ∀ op ∈ all, all.find? (·.name == op.name) = some op ∧
      (Schema.tagField :: schema.fields op).Nodup := by
    decide +kernel
  refine ⟨?_, fun op => (h op op.mem_all).2⟩
  intro op
  change all.find? (snakeCase ·.variant == snakeCase op.variant) = some op
  simp only [snakeCase_variant]
  exact (h op op.mem_all).1

end Opcode

namespace Command

/-- The doubles of a command outside the series of a plot. -/
def floats : Command → List Float
  | create o => o.floats
  | set _ _ v => v.floats
  | setSlider _ _ x => [x]
  | setPlotData _ data => data.floats
  | _ => []

/-- The command with the samples that are sent, if it carries a plot or its data. -/
def sent : Command → Command
  | create o => create o.sent
  | setPlotData key data => setPlotData key data.sent
  | c => c

/-- The command with other doubles in their places. -/
def mapFloats (f : Float → Float) : Command → Command
  | create o => create (o.mapFloats f)
  | set a key v => set a key (v.mapFloats f)
  | setSlider p key x => setSlider p key (f x)
  | setPlotData key data => setPlotData key (data.mapFloats f)
  | c => c

/-- The counts in a command. -/
def counts : Command → List Nat
  | create o => o.counts
  | _ => []

theorem opcode_sent (c : Command) : c.sent.opcode = c.opcode := by
  cases c with
  | create o => exact congrArg Opcode.create o.kind_sent
  | _ => rfl

theorem key?_sent (c : Command) : c.sent.key? = c.key? := by
  cases c with
  | create o => exact congrArg some o.key_sent
  | _ => rfl

@[simp] theorem mapFloats_id (c : Command) : c.mapFloats id = c := by
  cases c with
  | create o => rw [mapFloats, SceneObject.mapFloats_id]
  | setPlotData key data => rw [mapFloats, PlotData.mapFloats_id]
  | _ => rfl

/-! ## Fields -/

theorem length_values (c : Command) : c.values.length = (Opcode.schema.fields c.opcode).length := by
  cases c with
  | create o => exact o.length_values
  | set a key v => cases a <;> rfl
  | setLayout p key v => cases p <;> rfl
  | _ => rfl

variable {c : Command}

theorem legible_values (h : ∀ n ∈ c.counts, n < 0x10000000000000000) :
    ∀ v ∈ c.values, Json.Legible 2 v := by
  cases c with
  | create o => exact SceneObject.legible_values h
  | _ => simp [values, PlotData.values, legible_of_depth, Faithful.depth]

theorem ofValues?_mapReals (h : ∀ n ∈ c.counts, n < 0x10000000000000000) (f : Float → Float) :
    ofValues? c.opcode (c.values.map (Json.mapReals f)) =
      if AllFinite c.floats then some (c.sent.mapFloats f) else none := by
  cases c with
  | create o =>
    have ho := SceneObject.ofValues?_mapReals h f
    change create <$> SceneObject.ofValues? o.kind (o.values.map (Json.mapReals f)) = _
    rw [ho, floats, sent]
    by_cases hf : AllFinite o.floats
    · rw [if_pos hf, if_pos hf]
      rfl
    · rw [if_neg hf, if_neg hf]
      rfl
  | setPlotData key data =>
    change (do
      let key ← ofJson? ((toJson key).mapReals f)
      let data ← PlotData.ofValues? (data.values.map (Json.mapReals f))
      return setPlotData key data : Option Command) = _
    simp only [floats, bind_ofJson?_mapReals, PlotData.bind_ofValues?_mapReals, Faithful.floats,
      allFinite_nil, if_true]
    rfl
  | clear => rfl
  | _ =>
    simp only [opcode, ofValues?, values, List.map_cons, List.map_nil, floats,
      bind_ofJson?_mapReals, Faithful.floats, allFinite_nil, if_true]
    rfl

/-! ## Texts -/

theorem legible_record (h : ∀ n ∈ c.counts, n < 0x10000000000000000) : Json.Legible 3 c.record :=
  Schema.legible_record _ _ (legible_values h)

/-- The text of a command is read as its record, with what the reader makes of its doubles. -/
theorem ofText?_encode (h : ∀ n ∈ c.counts, n < 0x10000000000000000) (R : Number.Reader) :
    Json.ofText? R Schema.depthLimit c.encode =
      if c.record.Reads R then some (c.record.mapReals R.reread) else none :=
  Json.ofText?_text (legible_record h) (by decide) R

theorem ofRecord?_mapReals (h : ∀ n ∈ c.counts, n < 0x10000000000000000) (f : Float → Float) :
    ofRecord? (c.record.mapReals f) =
      if AllFinite c.floats then some (c.sent.mapFloats f) else none := by
  have hlength : (c.values.map (Json.mapReals f)).length =
      (Opcode.schema.fields c.opcode).length := by
    rw [List.length_map, c.length_values]
  rw [ofRecord?, record, Schema.mapReals_record,
    Schema.split?_record Opcode.distinct_schema _ hlength]
  exact ofValues?_mapReals h f

/-- The text of a command is read exactly if the reader refuses none of its doubles and they are
finite: as the command that was sent, with what the reader makes of them. -/
theorem decodeBy?_encode (h : ∀ n ∈ c.counts, n < 0x10000000000000000) (R : Number.Reader) :
    decodeBy? R c.encode =
      if c.record.Reads R ∧ AllFinite c.floats then some (c.sent.mapFloats R.reread) else none := by
  rw [decodeBy?, ofText?_encode h, if_and]
  split
  · exact ofRecord?_mapReals h R.reread
  · rfl

variable {R : Number.Reader}

/-- The text of a command whose doubles are read back denotes its record. -/
theorem ofText?_encode_of_readsBack (h : ∀ n ∈ c.counts, n < 0x10000000000000000)
    (hback : c.record.ReadsBack R) :
    Json.ofText? R Schema.depthLimit c.encode = some c.record :=
  Json.ofText?_text_of_readsBack (legible_record h) (by decide) hback

/-- The text of a command whose doubles are read back is read exactly if they are finite, as the
command that was sent. -/
theorem decodeBy?_encode_of_readsBack (h : ∀ n ∈ c.counts, n < 0x10000000000000000)
    (hback : c.record.ReadsBack R) :
    decodeBy? R c.encode = if AllFinite c.floats then some c.sent else none := by
  have hself : c.record.mapReals id = c.record :=
    Json.mapReals_eq_self (legible_record h).within fun _ _ => rfl
  have hread := ofRecord?_mapReals h id
  rw [hself, mapFloats_id] at hread
  rw [decodeBy?, ofText?_encode_of_readsBack h hback]
  exact hread

end Command

end LiveScene
