import Mathlib.Data.List.Forall2
import LiveScene.Proofs.Command.Text
import LiveScene.Proofs.Json.Stepwise

/-!
# Messages of several commands

Commands travel together as the texts of their records, joined with commas between brackets. Nothing
escapes these marks, so that a message keeps its commands apart rests on the text of each: it is
self-delimiting, whatever keys, labels, payloads and doubles the command carries. Because the joined
texts are the text of the array of the records (`message_eq_text`), this is the statement that a
legible array is read as what the reader of numbers makes of it.

A message denotes one object for each command (`message_framing`): what the text of that command
denotes alone, with the members its opcode declares, in order after the type. From these objects the
commands are read exactly if their doubles outside the series of plots are finite, and the message
determines the texts it was joined from.

Only the doubles may come back changed, for numbers are read in steps: each is read as it is read
from its own text, and `0.9999999999999999` is one that does not come back
(`message_rounds_near_one`).
-/

namespace LiveScene

namespace Command

/-- The commands that a text denotes as an array of records, for a reader of numbers. -/
def decodeAllBy? (R : Number.Reader) (text : String) : Option (List Command) := do
  match ← Json.ofText? R Schema.depthLimit text with
  | .arr items => items.mapM ofRecord?
  | _ => none

/-- The commands that are read from a text. -/
def decodeAll? (text : String) : Option (List Command) := decodeAllBy? .stepwise text

/-- A value is what the text of a command denotes: an object of the members that the opcode of the
command declares, in order after its type. -/
structure Denotes (R : Number.Reader) (c : Command) (v : Json) : Prop where
  text : Json.ofText? R Schema.depthLimit c.encode = some v
  members : ∃ values, v = .obj (("type", .str c.opcode.name) :: c.opcode.fields.zip values) ∧
    values.length = c.opcode.fields.length

/-- The counts in a command have at most 64 bits. -/
def CountsFit (c : Command) : Prop := ∀ n ∈ c.counts, n < 0x10000000000000000

variable {R : Number.Reader} {cs : List Command}

theorem denotes_record {c : Command} (h : c.CountsFit) (hreads : c.record.Reads R) :
    c.Denotes R (c.record.mapReals R.reread) where
  text := by rw [ofText?_encode h, if_pos hreads]
  members := by
    refine ⟨c.values.map (Json.mapReals R.reread), ?_, ?_⟩
    · rw [record, Schema.mapReals_record, ← Opcode.snakeCase_variant]
      rfl
    · rw [List.length_map]
      exact c.length_values

/-- Records are read one after the other, and the first that is not readable stops the reading. -/
theorem mapM_ofRecord? (h : ∀ c ∈ cs, c.CountsFit) (f : Float → Float) :
    (cs.map fun c => c.record.mapReals f).mapM ofRecord? =
      if AllFinite (cs.flatMap floats) then some (cs.map fun c => c.sent.mapFloats f)
      else none := by
  induction cs with
  | nil => simp
  | cons c cs ih =>
    have hfirst := ofRecord?_mapReals (h c List.mem_cons_self) f
    have hrest := ih fun d hd => h d (List.mem_cons_of_mem _ hd)
    rw [List.map_cons, List.mapM_cons, hfirst, hrest]
    by_cases hc : AllFinite c.floats <;>
      by_cases hcs : AllFinite (cs.flatMap floats) <;> simp [hc, hcs]

/-- Where its doubles are read back, a command is what they are put into. -/
theorem mapFloats_reread {c : Command} (h : c.CountsFit) (hfinite : AllFinite c.floats)
    (hback : c.record.ReadsBack R) : c.sent.mapFloats R.reread = c.sent := by
  have hread := decodeBy?_encode h R
  rw [if_pos ⟨hback.reads, hfinite⟩, decodeBy?_encode_of_readsBack h hback, if_pos hfinite] at hread
  exact (Option.some.inj hread).symm

/-! ## The array of the records -/

theorem message_eq_text (cs : List Command) : message cs = (Json.arr (cs.map record)).text := by
  rw [← batch_map_text, message, List.map_map]
  rfl

theorem legible_records (h : ∀ c ∈ cs, c.CountsFit) :
    Json.Legible 4 (.arr (cs.map record)) := by
  refine .arr ?_
  intro v hv
  obtain ⟨c, hc, rfl⟩ := List.mem_map.1 hv
  exact legible_record (h c hc)

theorem reads_records (h : ∀ c ∈ cs, c.record.Reads R) :
    (Json.arr (cs.map record)).Reads R := by
  intro x hx
  obtain ⟨v, hv, hx⟩ := Json.exists_mem_of_mem_reals_arr hx
  obtain ⟨c, hc, rfl⟩ := List.mem_map.1 hv
  exact h c hc x hx

/-- A message is read as the array of the records of its commands, with what the reader makes of
their doubles. -/
theorem ofText?_message (h : ∀ c ∈ cs, c.CountsFit) (hreads : ∀ c ∈ cs, c.record.Reads R) :
    Json.ofText? R Schema.depthLimit (message cs) =
      some (.arr (cs.map fun c => c.record.mapReals R.reread)) := by
  rw [message_eq_text, Json.ofText?_text (legible_records h) (by decide),
    if_pos (reads_records hreads), Json.mapReals_arr, List.map_map]
  rfl

theorem decodeAllBy?_message (h : ∀ c ∈ cs, c.CountsFit) (hreads : ∀ c ∈ cs, c.record.Reads R) :
    decodeAllBy? R (message cs) =
      if AllFinite (cs.flatMap floats) then some (cs.map fun c => c.sent.mapFloats R.reread)
      else none := by
  rw [decodeAllBy?, ofText?_message h hreads]
  exact mapM_ofRecord? h R.reread

theorem decodeAllBy?_message_of_readsBack (h : ∀ c ∈ cs, c.CountsFit)
    (hback : ∀ c ∈ cs, c.record.ReadsBack R) :
    decodeAllBy? R (message cs) =
      if AllFinite (cs.flatMap floats) then some (cs.map sent) else none := by
  rw [decodeAllBy?_message h fun c hc => (hback c hc).reads]
  split
  · next hfinite =>
    refine congrArg some (List.map_congr_left fun c hc => ?_)
    exact mapFloats_reread (h c hc) (fun x hx => hfinite x (List.mem_flatMap.2 ⟨c, hc, hx⟩))
      (hback c hc)
  · rfl

/-- A message determines the texts of its commands. -/
theorem map_encode_eq_of_message_eq {ds : List Command} (hcs : ∀ c ∈ cs, c.CountsFit)
    (hds : ∀ d ∈ ds, d.CountsFit) (h : message cs = message ds) :
    cs.map encode = ds.map encode := by
  -- for the nearest doubles the message denotes the records as they are
  have hread {cs : List Command} (hcs : ∀ c ∈ cs, c.CountsFit) :
      Json.ofText? .exact Schema.depthLimit (message cs) = some (.arr (cs.map record)) := by
    have hlegible := legible_records hcs
    rw [message_eq_text]
    exact Json.ofText?_text_of_readsBack hlegible (by decide) (Json.readsBack_exact hlegible)
  have heq := hread hcs
  rw [h, hread hds, Option.some.injEq, Json.arr.injEq] at heq
  calc cs.map encode = (cs.map record).map Json.text := by rw [List.map_map]; rfl
    _ = (ds.map record).map Json.text := by rw [heq]
    _ = ds.map encode := by rw [List.map_map]; rfl

end Command

/-- No content of commands breaks the framing of a message. Its text is an array of as many objects
as there are commands, each what the text of its command denotes, for every reader of numbers that
refuses none of their doubles; neither the nearest double nor the reader in steps does. The commands
are read back from it exactly if all doubles outside the series of plots are finite, with zeros for
the samples that are not, and each double as its own text is read. So they are the same commands
where each double is read back from its text. Joining is injective on lists of texts of commands.
The start indices of a mesh are counts of 64 bits. -/
theorem message_framing (cs : List Command) (hcs : ∀ c ∈ cs, c.CountsFit) :
    (∀ R : Number.Reader, (∀ c ∈ cs, c.record.Reads R) →
      ∃ items, Json.ofText? R Schema.depthLimit (batch (cs.map Command.encode)) =
          some (.arr items) ∧
        List.Forall₂ (Command.Denotes R) cs items) ∧
    (∀ c ∈ cs, c.record.Reads .exact ∧ c.record.Reads .stepwise) ∧
    Command.decodeAll? (batch (cs.map Command.encode)) =
      (if AllFinite (cs.flatMap Command.floats) then
        some (cs.map fun c => c.sent.mapFloats Number.Reader.stepwise.reread) else none) ∧
    ((∀ c ∈ cs, c.record.ReadsBack .stepwise) →
      Command.decodeAll? (batch (cs.map Command.encode)) =
        if AllFinite (cs.flatMap Command.floats) then some (cs.map Command.sent) else none) ∧
    ∀ ds : List Command, (∀ d ∈ ds, d.CountsFit) →
      batch (cs.map Command.encode) = batch (ds.map Command.encode) →
      cs.map Command.encode = ds.map Command.encode := by
  have hlegible (c : Command) (hc : c ∈ cs) := Command.legible_record (hcs c hc)
  have hexact (c : Command) (hc : c ∈ cs) : c.record.Reads .exact :=
    (Json.readsBack_exact (hlegible c hc)).reads
  have hstepwise (c : Command) (hc : c ∈ cs) : c.record.Reads .stepwise :=
    Json.reads_stepwise (hlegible c hc)
  refine ⟨fun R hreads => ⟨_, Command.ofText?_message hcs hreads, ?_⟩,
    fun c hc => ⟨hexact c hc, hstepwise c hc⟩,
    Command.decodeAllBy?_message hcs hstepwise,
    Command.decodeAllBy?_message_of_readsBack hcs,
    fun ds hds h => Command.map_encode_eq_of_message_eq hcs hds h⟩
  rw [List.forall₂_map_right_iff, List.forall₂_same]
  exact fun c hc => Command.denotes_record (hcs c hc) (hreads c hc)

/-- Commands whose contents look like marks of a message: a label, a key and an image full of them,
and a plot with samples that are not finite. -/
def hostileCommands : List Command :=
  [.setLabel "],[\"" "\x7b\"type\":\"clear_all\"\x7d]\\",
    .setPlotData "," {
      xs := [0.1, 0 / 0], minX := 0, maxX := 1, ys := [1 / 0, 2], minY := -1, maxY := 1 },
    .create (.texture ⟨"\\\"", "\n\t\u0000[,]"⟩),
    .deleteElement ""]

/-- Commands that look like marks are read back, with zeros for two samples. -/
theorem message_framing_hostile :
    (∀ c ∈ hostileCommands, c.CountsFit) ∧
      (∀ c ∈ hostileCommands, c.record.ReadsBack .stepwise) ∧
      Command.decodeAll? (batch (hostileCommands.map Command.encode)) =
        some [.setLabel "],[\"" "\x7b\"type\":\"clear_all\"\x7d]\\",
          .setPlotData "," {
            xs := [0.1, 0], minX := 0, maxX := 1, ys := [0, 2], minY := -1, maxY := 1 },
          .create (.texture ⟨"\\\"", "\n\t\u0000[,]"⟩),
          .deleteElement ""] := by
  have hcounts : ∀ c ∈ hostileCommands, c.CountsFit := by
    simp [hostileCommands, Command.CountsFit, Command.counts, SceneObject.counts]
  have hback : ∀ c ∈ hostileCommands, c.record.ReadsBack .stepwise := by decide +kernel
  have hfinite : AllFinite (hostileCommands.flatMap Command.floats) := by decide
  have hread := (message_framing hostileCommands hcounts).2.2.2.1 hback
  rw [if_pos hfinite] at hread
  refine ⟨hcounts, hback, hread.trans (congrArg some ?_)⟩
  decide

/-- A slider's value just below one is finite, but comes back as one. -/
theorem message_rounds_near_one :
    AllFinite (Command.setSlider .value "k" 0.9999999999999999).floats ∧
      Command.decodeAll?
          (batch ([.setSlider .value "k" 0.9999999999999999].map Command.encode)) =
        some [.setSlider .value "k" 1] ∧
      Command.setSlider .value "k" 0.9999999999999999 ≠ .setSlider .value "k" 1 := by
  decide +kernel

end LiveScene
