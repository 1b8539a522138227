import LiveScene.Proofs.Server.Worlds

/-!
# Forces

With forces, a frame of a world draws a line for each force that is not negligible and removes what
is under the key of each that is. The forces come between the shapes of one skeleton and the next,
but if their keys are keys of nothing else (`World.ForcesApart`), they do not get in the way of the
shapes, nor the shapes in theirs: the keys of forces and the other keys may be looked at on their
own (`World.ForcesApart.separates`), and each force does what it would do alone
(`Server.slot_renderWorld_force`, `Server.filter_runCommands_forces`).

So whatever there was before, after a frame the forces that are there are those of the frame, and
all else is as if there were no forces (`render_world_forces`).
-/

namespace LiveScene

/-! ## The keys of a world -/

namespace World

/-- The keys of the textures of the assets of a world. -/
def textureKeys (w : World) : List String :=
  w.skeletons.flatMap fun k => k.bodies.flatMap fun b =>
    b.shapes.flatMap fun sh => sh.geometry.sources.map (·.1)

/-- The forces on the bodies of a world. -/
def forceParts (stem : String) (magnitudes : Bool) (w : World) : List (String × Part) :=
  w.skeletons.flatMap (·.forceParts stem magnitudes)

variable {w : World} {stem : String} {magnitudes : Bool}

theorem filter_isForce_parts : (w.parts stem true magnitudes).filter (·.2.isForce) =
    w.forceParts stem magnitudes := by
  simp [parts, forceParts, List.filter_flatMap, Skeleton.shapeParts, Skeleton.forceParts,
    List.filter_map, Function.comp_def, Part.isForce]

theorem filter_not_isForce_parts : (w.parts stem true magnitudes).filter (!·.2.isForce) =
    w.parts stem false magnitudes := by
  simp [parts, List.filter_flatMap, Skeleton.shapeParts, Skeleton.forceParts,
    List.filter_map, Function.comp_def, Part.isForce]

theorem map_fst_forceParts (w : World) (stem : String) (magnitudes : Bool) :
    (w.forceParts stem magnitudes).map (·.1) = w.forceKeys stem := by
  simp [forceParts, forceKeys, List.map_flatMap, Skeleton.forceParts, Function.comp_def]

theorem touches_of_mem_forceParts {e : String × Part} (he : e ∈ w.forceParts stem magnitudes) :
    e.2.touches e.1 = {e.1} := by
  obtain ⟨k, -, he⟩ := List.mem_flatMap.1 he
  obtain ⟨b, -, rfl⟩ := List.mem_map.1 he
  rfl

/-- What a shape is about is its key and the keys of textures. -/
theorem mem_touches_of_mem_shapeParts {k : Skeleton} (hk : k ∈ w.skeletons) {color : Option Vec3}
    {e : String × Part} (he : e ∈ k.shapeParts stem color) :
    e.2.isForce = false ∧
      ∀ key ∈ e.2.touches e.1, key ∈ w.shapeKeys stem ∨ key ∈ w.textureKeys := by
  obtain ⟨⟨key, sh⟩, hsh, rfl⟩ := List.mem_map.1 he
  refine ⟨rfl, fun x hx => ?_⟩
  rcases Set.mem_insert_iff.1 hx with rfl | hx
  · exact Or.inl (List.mem_flatMap.2 ⟨k, hk, List.mem_map_of_mem hsh⟩)
  · obtain ⟨b, hb, hsh⟩ := List.mem_flatMap.1 hsh
    obtain ⟨sh', hmem, heq⟩ := List.mem_map.1 hsh
    obtain rfl : sh' = sh := congrArg Prod.snd heq
    refine Or.inr (List.mem_flatMap.2 ⟨k, hk, List.mem_flatMap.2 ⟨b, hb, ?_⟩⟩)
    exact List.mem_flatMap.2 ⟨sh', hmem, Geometry.mem_textureKeys_iff.1 hx⟩

/-- The forces of a world have keys of their own: no two have the same, and none has that of a shape
or of a texture. -/
structure ForcesApart (stem : String) (w : World) : Prop where
  nodup : (w.forceKeys stem).Nodup
  shapes : ∀ key ∈ w.forceKeys stem, key ∉ w.shapeKeys stem
  textures : ∀ key ∈ w.forceKeys stem, key ∉ w.textureKeys

namespace ForcesApart

/-- The parts of a frame that are about keys of forces are the forces. -/
theorem separates (h : w.ForcesApart stem) :
    Server.Separates (· ∈ w.forceKeys stem) (·.2.isForce) (w.parts stem true magnitudes) := by
  intro e he key hkey
  obtain ⟨k, hk, he⟩ := List.mem_flatMap.1 he
  rcases List.mem_append.1 he with he | he
  · obtain ⟨hforce, htouches⟩ := mem_touches_of_mem_shapeParts hk he
    have hother : key ∉ w.forceKeys stem := fun hmem =>
      (htouches key hkey).elim (h.shapes key hmem) (h.textures key hmem)
    exact (decide_eq_false hother).trans hforce.symm
  · obtain ⟨b, hb, rfl⟩ := List.mem_map.1 he
    obtain rfl : key = k.forceKey stem b := hkey
    exact decide_eq_true (List.mem_flatMap.2 ⟨k, hk, List.mem_map_of_mem hb⟩)

theorem disjoint (h : w.ForcesApart stem) : (w.forceParts stem magnitudes).Pairwise
    fun e f => Disjoint (e.2.touches e.1) (f.2.touches f.1) := by
  have hkeys := h.nodup
  rw [← w.map_fst_forceParts stem magnitudes, List.Nodup, List.pairwise_map] at hkeys
  refine hkeys.imp_of_mem fun he hf hne => ?_
  rw [touches_of_mem_forceParts he, touches_of_mem_forceParts hf]
  exact Set.disjoint_singleton.2 hne

end ForcesApart

end World

/-! ## The forces of a frame -/

namespace Server

theorem get?_showPart_force (s : Server) (key : String) (points : Option (List Vec3)) :
    (s.showPart (key, .force points)).scene.store.get? key =
      points.map fun points => .line ⟨key, points, forceColor⟩ := by
  cases points with
  | none =>
    have hstore : (s.delete key).scene.store = s.scene.store.erase key := by
      rw [delete, scene_edit, Scene.store_delete_eq_erase]
    rw [showPart, hstore, Store.get?_erase, if_pos rfl, Option.map_none]
  | some points =>
    rw [showPart, createLine, (Creates.edit s _).store]
    exact (Store.get?_insert s.scene.store _ key).trans (if_pos rfl)

variable {s : Server} {w : World} {stem : String} {magnitudes : Bool}

/-- Under the key of a force there is what the force alone would leave there. -/
theorem slot_renderWorld_force (hkeys : w.ForcesApart stem) {e : String × Part}
    (he : e ∈ w.forceParts stem magnitudes) :
    (s.renderWorld w stem true magnitudes).slot e.1 = (s.showPart e).slot e.1 := by
  have htouches := World.touches_of_mem_forceParts he
  have hkey : e.1 ∈ w.forceKeys stem := by
    rw [← w.map_fst_forceParts stem magnitudes]
    exact List.mem_map_of_mem he
  rw [renderWorld_eq, slot_showParts_filter (t := s) hkeys.separates rfl (fun _ _ => rfl)
    (decide_eq_true hkey), World.filter_isForce_parts]
  exact slot_showParts hkeys.disjoint he (htouches ▸ rfl)

/-- Under all other keys the forces make no difference. -/
theorem slot_renderWorld_of_notMem (hkeys : w.ForcesApart stem) {key : String}
    (hkey : key ∉ w.forceKeys stem) :
    (s.renderWorld w stem true magnitudes).slot key =
      (s.renderWorld w stem false magnitudes).slot key := by
  have hother : (!decide (key ∈ w.forceKeys stem)) = true := by simpa using hkey
  rw [renderWorld_eq, renderWorld_eq,
    slot_showParts_filter (t := s) hkeys.separates.not rfl (fun _ _ => rfl) hother,
    World.filter_not_isForce_parts]

/-- What is queued under the keys of forces is what each force alone would queue. -/
theorem filter_runCommands_forces (hkeys : w.ForcesApart stem) (hk : s.scene.store.Keyed) :
    (s.runCommands (w.parts stem true magnitudes)).filter (·.key?.any (· ∈ w.forceKeys stem)) =
      (w.forceParts stem magnitudes).flatMap s.partCommands := by
  rw [filter_runCommands (fun c key hc => by rw [hc, Option.any_some]) hkeys.separates hk rfl
    fun _ _ => rfl, World.filter_isForce_parts, runCommands_eq hkeys.disjoint]

/-- What else is queued is what would be queued without the forces. -/
theorem filter_runCommands_others (hkeys : w.ForcesApart stem) (hk : s.scene.store.Keyed) :
    (s.runCommands (w.parts stem true magnitudes)).filter (!·.key?.any (· ∈ w.forceKeys stem)) =
      s.runCommands (w.parts stem false magnitudes) := by
  rw [filter_runCommands (fun c key hc => by rw [hc, Option.any_some]) hkeys.separates.not hk rfl
    fun _ _ => rfl, World.filter_not_isForce_parts]

end Server

/-- After a frame of a world with forces, whose keys are those of no shape or texture, there is an
object under the key of the force on a body unless the force is shorter than what is negligible, and
then it is the red line from the body along the force, whatever was there before. A negligible force
costs the command that deletes what was there, if anything was, any other force the command that
creates its line, and these are all commands about keys of forces. What else is queued and what is
under all other keys, those of shapes among them, is the same as without the forces. -/
theorem render_world_forces {config : Config} {host : Host} {m : Machine}
    (h : m.Reachable config host) (w : World) (stem : String) (magnitudes : Bool)
    (hkeys : w.ForcesApart stem) :
    let s := m.server
    let t := (s.change (.renderWorld w stem true magnitudes)).2
    let u := (s.change (.renderWorld w stem false magnitudes)).2
    let line (k : Skeleton) (b : Body) : SceneObject := .line ⟨k.forceKey stem b,
      [b.position, b.position + Server.forceTip b.externalForce magnitudes], forceColor⟩
    let isForce (c : Command) : Bool := c.key?.any (· ∈ w.forceKeys stem)
    (∀ k ∈ w.skeletons, ∀ b ∈ k.bodies,
      t.scene.store.get? (k.forceKey stem b) =
        if b.externalForce.length < negligibleForce then none else some (line k b)) ∧
      (∃ es fs, t.journal.toList = s.journal.toList ++ es ∧
        u.journal.toList = s.journal.toList ++ fs ∧
        (queuedIn es).filter isForce = (w.skeletons.flatMap fun k => k.bodies.flatMap fun b =>
          if b.externalForce.length < negligibleForce then
            ((s.scene.store.get? (k.forceKey stem b)).map (·.deleteCommand)).toList
          else [.create (line k b)]) ∧
        (queuedIn es).filter (!isForce ·) = queuedIn fs) ∧
      ∀ key ∉ w.forceKeys stem, t.slot key = u.slot key := by
  intro s t u line isForce
  have hkeyed : s.scene.store.Keyed := h.sound.keyed
  refine ⟨fun k hk b hb => ?_, ?_, fun key hkey => ?_⟩
  · have he : (k.forceKey stem b, .force (b.forcePoints? magnitudes)) ∈
        w.forceParts stem magnitudes :=
      List.mem_flatMap.2 ⟨k, hk, List.mem_map_of_mem hb⟩
    have hget : t.scene.store.get? (k.forceKey stem b) = _ :=
      Store.get?_of_slot (Server.slot_renderWorld_force (s := s) hkeys he)
    rw [hget, Server.get?_showPart_force, Body.forcePoints?]
    split <;> rfl
  · obtain ⟨es, hes, hq⟩ := s.queues_showParts (w.parts stem true magnitudes)
    obtain ⟨fs, hfs, hq'⟩ := s.queues_showParts (w.parts stem false magnitudes)
    rw [← Server.renderWorld_eq] at hes hfs
    refine ⟨es, fs, hes, hfs, ?_, ?_⟩
    · rw [hq, Server.filter_runCommands_forces hkeys hkeyed, World.forceParts, List.flatMap_assoc]
      refine List.flatMap_congr fun k _ => ?_
      rw [Skeleton.forceParts, List.flatMap_map]
      refine List.flatMap_congr fun b _ => ?_
      rw [Body.forcePoints?]
      split <;> rfl
    · rw [hq, hq', Server.filter_runCommands_others hkeys hkeyed]
  · exact Server.slot_renderWorld_of_notMem hkeys hkey

/-- A ball that is pushed up, and two bodies at rest. -/
def World.pushed : World where
  skeletons := [
    { name := "arm"
      bodies := [
        { name := "upper"
          position := Vec3.unitY
          shapes := [⟨"ball", .sphere 0.12, Vec3.unitY, Vec3.zero, Vec3.one⟩]
          externalForce := ⟨0, 0, 200⟩ },
        { name := "lower" }] },
    { name := "leg", bodies := [{ name := "foot" }] }]

/-- It shows a text under the key of a force. -/
def Machine.captioned : Machine :=
  run (ofCall serving.server (.change (.createText
    ⟨"world.forces.arm.lower", "at rest", ⟨IVec2.zero, IVec2.zero⟩⟩))) 3

/-- The text gives way, although there is no force under its key, and the ball stays. -/
theorem render_world_forces_pushed :
    Machine.captioned.Reachable ⟨false, true⟩ .blank ∧ World.pushed.ForcesApart "world" ∧
      let s := Machine.captioned.server
      let t := (s.change (.renderWorld .pushed "world" true true)).2
      let up : SceneObject := .line ⟨"world.forces.arm.upper", [⟨0, 1, 0⟩, ⟨0, 1, 0.2⟩], ⟨1, 0, 0⟩⟩
      s.scene.store.contains "world.forces.arm.lower" ∧
        t.scene.store.get? "world.forces.arm.upper" = some up ∧
        t.scene.store.get? "world.forces.arm.lower" = none ∧
        t.scene.store.get? "world.forces.leg.foot" = none ∧
        (∃ es, t.journal.toList = s.journal.toList ++ es ∧
          (queuedIn es).filter (·.key?.any (· ∈ World.pushed.forceKeys "world")) =
            [.create up, .deleteElement "world.forces.arm.lower"]) ∧
        t.scene.store.contains "world.arm.upper.ball" := by
  have hreachable : Machine.captioned.Reachable ⟨false, true⟩ .blank :=
    (Machine.Reachable.callRun (m := ⟨.new ⟨false, true⟩ .blank, []⟩) .refl rfl _ 5).callRun rfl _ 3
  have hkeys : World.pushed.ForcesApart "world" := ⟨by decide, by decide, by decide⟩
  obtain ⟨hlines, ⟨es, -, hes, -, hqueued, -⟩, hothers⟩ :=
    render_world_forces hreachable .pushed "world" true hkeys
  have hball := hothers "world.arm.upper.ball" (by decide)
  refine ⟨hreachable, hkeys, by decide, ?_, ?_, ?_, ⟨es, hes, ?_⟩, ?_⟩
  · exact (hlines _ (.head _) _ (.head _)).trans (by decide +kernel)
  · exact (hlines _ (.head _) _ (.tail _ (.head _))).trans (by decide +kernel)
  · exact (hlines _ (.tail _ (.head _)) _ (.head _)).trans (by decide +kernel)
  · exact hqueued.trans (by decide +kernel)
  · rw [Store.contains_of_slot hball]
    decide

end LiveScene
