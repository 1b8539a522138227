import LiveScene.Proofs.Command.Text
import LiveScene.Proofs.ViewerMessage

/-!
# The whole format reads back

What was shown of each sort of records comes together here. A command is written as an object whose
first member is its opcode, and it reads back exactly if its doubles outside the series of plots are
finite: as the command that was sent, in which zeros stand for the samples that are not finite. A
message from a viewer is parsed exactly if its doubles are finite, as itself.

All this is for any reader of numbers that makes each double which has been written of the text it
was written as. A reader that takes the nearest double always does so, and the one that reads in
steps does for most doubles.
-/

namespace LiveScene

/-- Commands and messages whose written doubles are read back read back themselves, and nothing but
a double that is not finite prevents it. The nearest doubles are always read back. The start indices
of a mesh are counts of 64 bits. -/
theorem format_round_trip :
    (∀ (R : Number.Reader) (c : Command), (∀ n ∈ c.counts, n < 0x10000000000000000) →
      c.record.ReadsBack R →
      (∃ members, Json.ofText? R Schema.depthLimit c.encode =
        some (.obj (("type", .str c.opcode.name) :: members))) ∧
      ((∃ c', Command.decodeBy? R c.encode = some c') ↔ ∀ x ∈ c.floats, x.isFinite) ∧
      (∀ c', Command.decodeBy? R c.encode = some c' →
        c' = c.sent ∧ c'.opcode = c.opcode ∧ c'.key? = c.key?)) ∧
    (∀ (R : Number.Reader) (m : ViewerMessage), m.record.ReadsBack R →
      ((∃ m', ViewerMessage.parseBy R m.encode = .ok m') ↔ ∀ x ∈ m.floats, x.isFinite) ∧
      (∀ m', ViewerMessage.parseBy R m.encode = .ok m' → m' = m)) ∧
    (∀ c : Command, (∀ n ∈ c.counts, n < 0x10000000000000000) → c.record.ReadsBack .exact) ∧
    ∀ m : ViewerMessage, m.record.ReadsBack .exact := by
  refine ⟨?_, ?_, fun c hcounts => Json.readsBack_exact (Command.legible_record hcounts),
    fun m => Json.readsBack_exact m.legible_record⟩
  · intro R c hcounts hback
    have hdecode := Command.decodeBy?_encode_of_readsBack hcounts hback
    refine ⟨⟨c.opcode.fields.zip c.values, ?_⟩, ?_, ?_⟩
    · rw [← Opcode.snakeCase_variant]
      exact Command.ofText?_encode_of_readsBack hcounts hback
    · by_cases hfinite : AllFinite c.floats
      · rw [if_pos hfinite] at hdecode
        exact ⟨fun _ => hfinite, fun _ => ⟨c.sent, hdecode⟩⟩
      · rw [if_neg hfinite] at hdecode
        refine ⟨?_, fun h => absurd h hfinite⟩
        rintro ⟨c', hc'⟩
        rw [hdecode] at hc'
        cases hc'
    · intro c' hc'
      rw [hdecode] at hc'
      split at hc'
      · cases hc'
        exact ⟨rfl, c.opcode_sent, c.key?_sent⟩
      · cases hc'
  · intro R m hback
    have hparse := ViewerMessage.parseBy_encode hback
    refine ⟨?_, ?_⟩
    · by_cases hfinite : AllFinite m.floats
      · rw [if_pos hfinite] at hparse
        exact ⟨fun _ => hfinite, fun _ => ⟨m, hparse⟩⟩
      · rw [if_neg hfinite] at hparse
        refine ⟨?_, fun h => absurd h hfinite⟩
        rintro ⟨m', hm'⟩
        rw [hparse] at hm'
        cases hm'
    · intro m' hm'
      rw [hparse] at hm'
      split at hm'
      · cases hm'
        rfl
      · cases hm'

/-- A mesh of two regions. -/
def Mesh.twoRegions : Mesh where
  key := "m"
  surface := {
    vertices := [⟨0, 0, 0⟩, ⟨1.5, 0, 0⟩, ⟨0, 0.1, -1e-7⟩]
    faces := [⟨0, 1, 2⟩, ⟨0, 2, 1⟩]
    textures := ["", "bark"]
    starts := [0, 3] }

/-- A mesh with its start indices reads back, and so does the report of a slider. -/
theorem format_round_trip_mesh :
    (∀ n ∈ (Command.create (.mesh Mesh.twoRegions)).counts, n < 0x10000000000000000) ∧
      (Command.create (.mesh Mesh.twoRegions)).record.ReadsBack .stepwise ∧
      (ViewerMessage.sliderSetValue "volume" (-0.0)).record.ReadsBack .stepwise ∧
      Command.decode? (Command.create (.mesh Mesh.twoRegions)).encode =
        some (.create (.mesh Mesh.twoRegions)) ∧
      ViewerMessage.parse (ViewerMessage.sliderSetValue "volume" (-0.0)).encode =
        .ok (.sliderSetValue "volume" (-0.0)) := by
  have hcounts : ∀ n ∈ (Command.create (.mesh Mesh.twoRegions)).counts,
      n < 0x10000000000000000 := by
    decide
  have hmesh : (Command.create (.mesh Mesh.twoRegions)).record.ReadsBack .stepwise := by
    unfold Json.ReadsBack
    decide +kernel
  have hslider : (ViewerMessage.sliderSetValue "volume" (-0.0)).record.ReadsBack .stepwise := by
    unfold Json.ReadsBack
    decide +kernel
  obtain ⟨-, hread, hsent⟩ := format_round_trip.1 .stepwise _ hcounts hmesh
  obtain ⟨c, hc⟩ := hread.2 (by decide +kernel)
  obtain ⟨rfl, -⟩ := hsent c hc
  obtain ⟨hparse, hself⟩ := format_round_trip.2.1 .stepwise _ hslider
  obtain ⟨m, hm⟩ := hparse.2 (by decide +kernel)
  obtain rfl := hself m hm
  exact ⟨hcounts, hmesh, hslider, hc, hm⟩

end LiveScene
