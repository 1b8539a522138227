import LiveScene.Proofs.Server.Edits
import LiveScene.Proofs.Server.Listeners

/-!
# Scenes with corresponding listeners

Two scenes correspond when they have the same store and the same input, and on every occasion the
listeners of one correspond to those of the other (`Scene.Corresponds`). Nothing that is done to a
scene depends on what its listeners would do, so corresponding edits tell viewers and the log the
same and lead to corresponding scenes (`EditPair.corresponds`), and so does recording a message.
-/

namespace LiveScene

variable {L : Listener → Listener → Prop} {x y : Scene}

/-- Two scenes that are the same but for corresponding listeners. -/
structure Scene.Corresponds (L : Listener → Listener → Prop) (x y : Scene) : Prop where
  store : x.store = y.store
  input : x.input = y.input
  registry : x.registry.Alike L y.registry

/-- Nothing but the store is seen of a key. -/
theorem Scene.glance_of_store (h : x.store = y.store) : x.glance = y.glance := by
  funext key
  simp only [Scene.glance, h]

/-- Two edits that tell the same and lead to corresponding scenes. -/
structure Edit.Corresponds (L : Listener → Listener → Prop) (d e : Edit) : Prop where
  scene : d.scene.Corresponds L e.scene
  commands : d.commands = e.commands
  notices : d.notices = e.notices

namespace Scene.Corresponds

/-- Both scenes go on with other listeners. -/
theorem withRegistry (h : x.Corresponds L y) {r r' : Registry} (hr : r.Alike L r') :
    Corresponds L { x with registry := r } { y with registry := r' } :=
  ⟨h.store, h.input, hr⟩

theorem create (h : x.Corresponds L y) (o : SceneObject) :
    (x.create o).Corresponds L (y.create o) where
  scene := ⟨congrArg (·.insert o) h.store, h.input, h.registry.forget o.key⟩
  commands := rfl
  notices := by simp only [Scene.create, h.store]

theorem delete (h : x.Corresponds L y) (key : String) :
    (x.delete key).Corresponds L (y.delete key) := by
  unfold Scene.delete
  rw [h.store]
  cases y.store.erase? key with
  | none => exact ⟨⟨rfl, h.input, h.registry.forget key⟩, rfl, rfl⟩
  | some p => exact ⟨⟨rfl, h.input, h.registry.forget key⟩, rfl, rfl⟩

theorem record (h : x.Corresponds L y) (m : ViewerMessage) :
    (x.record m).Corresponds L (y.record m) where
  store := by cases m <;> simp [Scene.record, h.store]
  input := congrArg (·.record m) h.input
  registry := h.registry

end Scene.Corresponds

theorem EditPair.corresponds {f g : Scene → Edit} (h : EditPair L f g)
    (hxy : x.Corresponds L y) : (f x).Corresponds L (g y) := by
  have hstore := hxy.store
  cases h with
  | create o _ => exact hxy.create o
  | createButton b hl =>
    obtain ⟨hscene, hcommands, hnotices⟩ := hxy.create (.button b)
    exact ⟨hscene.withRegistry (hscene.registry.setClick b.key hl), hcommands, hnotices⟩
  | createSlider b hl =>
    obtain ⟨hscene, hcommands, hnotices⟩ := hxy.create (.slider b)
    exact ⟨hscene.withRegistry (hscene.registry.setChange b.key hl), hcommands, hnotices⟩
  | update c f _ _ =>
    dsimp only
    rw [hstore]
    cases f y.store with
    | none => exact ⟨hxy, rfl, rfl⟩
    | some store => exact ⟨⟨rfl, hxy.input, hxy.registry⟩, rfl, rfl⟩
  | delete key => exact hxy.delete key
  | deleteElement key =>
    simp only [Scene.deleteElement, hstore]
    split
    · exact hxy.delete key
    · exact ⟨hxy, rfl, rfl⟩
  | deleteUnder stem =>
    simp only [Scene.deleteUnder, hstore]
    refine ⟨⟨rfl, hxy.input, ?_⟩, rfl, rfl⟩
    exact List.foldl_rel hxy.registry fun o _ r r' h => h.forget o.key
  | clear => exact ⟨⟨rfl, congrArg Input.clear hxy.input, hxy.registry.clear⟩, rfl, rfl⟩
  | onDrag key hl =>
    exact ⟨⟨congrArg (·.enableMouse key) hstore, hxy.input, hxy.registry.addDrag key hl⟩, rfl, rfl⟩

end LiveScene
