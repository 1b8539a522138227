import LiveScene.Proofs.Server.Forces

/-!
# The surfaces of meshes

A frame that finds a mesh under the key of a shape that is a mesh as well writes the attributes that
differ, and no command that writes to an object touches a surface
(`Store.surface?_run_of_isWrite`). So a mesh keeps the surface that it was created with
(`Server.showsMesh_renderShape`): it is that of the asset of the first of the frames that have found
a mesh there, whatever the assets of the others (`surface_kept_over_frames`), and a frame shows the
asset that it comes with only if there was no mesh before (`rendered_mesh_surface`,
`changed_asset_not_shown`).
-/

namespace LiveScene

/-- Two surfaces are the same, but for their textures. -/
structure Surface.SameTriangles (x y : Surface) : Prop where
  vertices : x.vertices = y.vertices
  normals : x.normals = y.normals
  faces : x.faces = y.faces
  uv : x.uv = y.uv
  starts : x.starts = y.starts

/-! ## Surfaces in a store -/

namespace SceneObject

/-- The surface of a mesh. -/
def surface? : SceneObject → Option Surface
  | mesh m => some m.surface
  | _ => none

theorem isSome_surface? (o : SceneObject) : o.surface?.isSome ↔ o.kind = .mesh := by
  cases o <;> simp [surface?, kind]

/-- No command that writes a part of an object writes its surface. -/
theorem surface?_rewrite (c : Command) (o : SceneObject) :
    (c.rewrite o).surface? = o.surface? := by
  cases c with
  | set a _ _ => cases a <;> cases o <;> rfl
  | _ => cases o <;> rfl

end SceneObject

namespace Store

variable {s t : Store} {key : String}

/-- The surface of the mesh under a key, if there is one. -/
def surface? (s : Store) (key : String) : Option Surface := (s.get? key).bind (·.surface?)

theorem surface?_congr (h : s.get? key = t.get? key) : s.surface? key = t.surface? key := by
  rw [surface?, surface?, h]

theorem isSome_surface? (s : Store) (key : String) :
    (s.surface? key).isSome ↔ s.kind? key = some .mesh := by
  cases ho : s.get? key with
  | none => simp [surface?, kind?, ho]
  | some o => simp [surface?, kind?, ho, o.isSome_surface?]

/-- A command that writes to an object leaves all surfaces alone. -/
theorem surface?_run_of_isWrite (s : Store) {c : Command} (h : c.isWrite) (key : String) :
    (s.run c).surface? key = s.surface? key := by
  have heffect (x : Option SceneObject) :
      c.effect key x = if c.key? = some key then x.map c.rewrite else x := by
    cases c <;> first | rfl | cases h
  rw [surface?, surface?, get?_run, heffect]
  split
  · rw [Option.bind_map]
    exact Option.bind_congr fun o _ => SceneObject.surface?_rewrite c o
  · rfl

end Store

namespace Server

variable {s t : Server} {key k : String} {sh : Shape} {a : Asset} {scale color : Vec3}
  {es : List (String × Part)}

/-! ## Writing to a mesh -/

theorem surface?_set (s : Server) (b : Attribute) (key : String) (v : Vec3) (k : String) :
    (s.set b key v).scene.store.surface? k = s.scene.store.surface? k := by
  have hstore : (s.set b key v).scene.store = s.scene.store.run (.set b key v) := by
    rw [set, scene_edit, Store.run]
    cases s.scene.store.set? b key v <;> rfl
  rw [hstore, Store.surface?_run_of_isWrite _ rfl]

theorem surface?_updateAttribute (s : Server) (key : String) (sh : Shape) (color : Vec3)
    (b : Attribute) (k : String) :
    (updateAttribute key sh color s b).scene.store.surface? k = s.scene.store.surface? k := by
  unfold updateAttribute
  split
  · split
    · exact s.surface?_set b key _ k
    · rfl
  · rfl

theorem surface?_updateAll (s : Server) (key : String) (sh : Shape) (color : Vec3)
    (bs : List Attribute) (k : String) :
    (bs.foldl (updateAttribute key sh color) s).scene.store.surface? k =
      s.scene.store.surface? k := by
  induction bs generalizing s with
  | nil => rfl
  | cons b bs ih => exact (ih _).trans (s.surface?_updateAttribute key sh color b k)

/-! ## Showing a mesh -/

/-- In `t` there is a mesh under a key: with the surface of the mesh that is there in `s`, if there
is one, and otherwise with that of an asset, textures apart. -/
def ShowsMesh (key : String) (a : Asset) (s t : Server) : Prop :=
  ∃ x, t.scene.store.surface? key = some x ∧
    match s.scene.store.surface? key with
    | some old => x = old
    | none => x.SameTriangles a.flatten.surface

theorem ShowsMesh.congr {s' t' : Server} (h : ShowsMesh key a s t)
    (hs : s'.scene.store.surface? key = s.scene.store.surface? key)
    (ht : t'.scene.store.surface? key = t.scene.store.surface? key) : ShowsMesh key a s' t' := by
  rwa [ShowsMesh, hs, ht]

theorem showsMesh_renderShape (s : Server) (key : String) (color : Vec3)
    (hmesh : sh.geometry = .mesh a scale) : ShowsMesh key a s (s.renderShape key sh color) := by
  unfold renderShape
  split
  case isTrue hkind =>
    rw [hmesh] at hkind
    obtain ⟨x, hx⟩ := Option.isSome_iff_exists.1 ((s.scene.store.isSome_surface? key).2 hkind)
    exact ⟨x, (s.surface?_updateAll key sh color _ key).trans hx, by rw [hx]⟩
  case isFalse hkind =>
    rw [hmesh, Geometry.kind, ← s.scene.store.isSome_surface?, Option.not_isSome_iff_eq_none]
      at hkind
    have hget : (s.createShape key sh color).scene.store.get? key =
        some (.mesh (s.meshFrom key a ⟨sh.position, sh.euler, scale, color, {}⟩)) := by
      rw [createShape, hmesh]
      exact s.get?_mesh key a _
    refine ⟨_, by rw [Store.surface?, hget]; rfl, ?_⟩
    rw [hkind]
    exact ⟨rfl, rfl, rfl, rfl, rfl⟩

/-- Showing a part touches no surface under another key. -/
theorem surface?_showPart_of_ne (s : Server) {e : String × Part} (hk : k ≠ e.1) :
    (s.showPart e).scene.store.surface? k = s.scene.store.surface? k := by
  obtain ⟨key, ⟨sh, color⟩ | points⟩ := e
  · rcases s.keeps_renderShape sh color hk with h | ⟨hnone, _, _, _, _, _, hget⟩
    · exact Store.surface?_congr h
    · -- a texture has been made where there was nothing
      rw [showPart, Store.surface?, Store.surface?, hget, hnone]
      rfl
  · have hslot := (local_showPart (key, .force points)).frame s hk
    exact Store.surface?_congr (Store.get?_of_slot hslot)

theorem surface?_showParts_of_notMem (s : Server) (hk : k ∉ es.map (·.1)) :
    (es.foldl showPart s).scene.store.surface? k = s.scene.store.surface? k := by
  induction es generalizing s with
  | nil => rfl
  | cons e es ih =>
    rw [List.map_cons, List.mem_cons, not_or] at hk
    exact (ih _ hk.2).trans (s.surface?_showPart_of_ne hk.1)

/-- A part that is a mesh is shown if no other part has its key. -/
theorem showsMesh_showParts (s : Server) (he : (key, .shape sh color) ∈ es)
    (hkey : (es.map (·.1)).count key = 1) (hmesh : sh.geometry = .mesh a scale) :
    ShowsMesh key a s (es.foldl showPart s) := by
  induction es generalizing s with
  | nil => cases he
  | cons e es ih =>
    rw [List.map_cons, List.count_cons] at hkey
    by_cases hfirst : e.1 = key
    · have hrest : key ∉ es.map (·.1) := by
        rw [← List.count_eq_zero]
        simpa [hfirst] using hkey
      obtain rfl : e = (key, .shape sh color) := by
        rcases List.mem_cons.1 he with he | he
        · exact he.symm
        · exact absurd (List.mem_map_of_mem he) hrest
      exact (s.showsMesh_renderShape key color hmesh).congr rfl
        (surface?_showParts_of_notMem _ hrest)
    · have hmem : (key, .shape sh color) ∈ es := by
        rcases List.mem_cons.1 he with he | he
        · exact absurd (congrArg Prod.fst he).symm hfirst
        · exact he
      exact (ih (s.showPart e) hmem (by simpa [hfirst] using hkey)).congr
        (s.surface?_showPart_of_ne (Ne.symm hfirst)).symm rfl

/-! ## Frame after frame -/

/-- A mesh keeps its surface as long as only meshes are shown under its key. -/
theorem surface?_showAll {es : List (String × Shape)} {x : Surface}
    (hx : s.scene.store.surface? key = some x)
    (hmesh : ∀ e ∈ es, e.1 = key → e.2.geometry.kind = .mesh) (color : Option Vec3) :
    (es.foldl (showEntry color) s).scene.store.surface? key = some x := by
  induction es generalizing s with
  | nil => exact hx
  | cons e es ih =>
    obtain ⟨hfirst, hrest⟩ := List.forall_mem_cons.1 hmesh
    refine ih ?_ hrest
    by_cases hkey : e.1 = key
    · have hkind : s.scene.store.kind? e.1 = some e.2.geometry.kind := by
        rw [hfirst hkey, hkey, ← s.scene.store.isSome_surface?, hx]
        rfl
      rw [showEntry, renderShape, if_pos hkind, surface?_updateAll, hx]
    · have hother : (showEntry color s e).scene.store.surface? key = s.scene.store.surface? key :=
        s.surface?_showPart_of_ne (e := (e.1, .shape e.2 _)) (Ne.symm hkey)
      rw [hother, hx]

end Server

/-- A mesh keeps its surface over any number of frames of skeletons in which nothing but meshes is
shown under its key, whatever their assets are. -/
theorem surface_kept_over_frames (s : Server) {key : String} {x : Surface}
    (hx : s.scene.store.surface? key = some x) (frames : List (Skeleton × String × Option Vec3))
    (hmesh : ∀ f ∈ frames, ∀ e ∈ f.1.entries f.2.1, e.1 = key → e.2.geometry.kind = .mesh) :
    (frames.foldl (fun s f => (s.change (.renderSkeleton f.1 f.2.1 f.2.2)).2)
      s).scene.store.surface? key = some x := by
  induction frames generalizing s with
  | nil => exact hx
  | cons f frames ih =>
    obtain ⟨hfirst, hrest⟩ := List.forall_mem_cons.1 hmesh
    have hshown := Server.surface?_showAll hx hfirst f.2.2
    rw [← Server.renderSkeleton_eq] at hshown
    exact ih _ hshown hrest

/-- A frame of a skeleton whose shapes have keys of their own leaves a mesh under the key of each
shape that is one. If there was no mesh before, it has the vertices, the normals, the faces, the
texture coordinates and the starts of the regions of the asset; if there was one, it keeps its
surface as it is, whatever the asset. The same holds of a frame of a world, if all its shapes have
keys of their own and no force that is shown has one of them. -/
theorem rendered_mesh_surface (s : Server) (stem : String) :
    (∀ (k : Skeleton) (color : Option Vec3), ((k.entries stem).map (·.1)).Nodup →
      ∀ key sh a scale, (key, sh) ∈ k.entries stem → sh.geometry = .mesh a scale →
        Server.ShowsMesh key a s (s.change (.renderSkeleton k stem color)).2) ∧
      ∀ (w : World) (forces magnitudes : Bool), (w.shapeKeys stem).Nodup →
        (forces → ∀ key ∈ w.forceKeys stem, key ∉ w.shapeKeys stem) →
        ∀ k ∈ w.skeletons, ∀ key sh a scale, (key, sh) ∈ k.entries stem →
          sh.geometry = .mesh a scale →
          Server.ShowsMesh key a s (s.change (.renderWorld w stem forces magnitudes)).2 := by
  constructor
  · intro k color hkeys key sh a scale hsh hmesh
    rw [Server.change, Server.renderSkeleton_eq_showPart]
    have hkey : ((k.shapeParts stem color).map (·.1)).count key = 1 := by
      rw [k.map_fst_shapeParts]
      exact List.count_eq_one_of_mem hkeys (List.mem_map_of_mem hsh)
    exact s.showsMesh_showParts (List.mem_map_of_mem hsh) hkey hmesh
  · intro w forces magnitudes hkeys hforces k hk key sh a scale hsh hmesh
    rw [Server.change, Server.renderWorld_eq]
    have hkey : key ∈ w.shapeKeys stem := List.mem_flatMap.2 ⟨k, hk, List.mem_map_of_mem hsh⟩
    have hpart : (key, .shape sh sh.color) ∈ w.parts stem forces magnitudes :=
      List.mem_flatMap.2 ⟨k, hk, List.mem_append_left _ (List.mem_map_of_mem hsh)⟩
    exact s.showsMesh_showParts hpart (World.count_parts hkeys hforces hkey) hmesh

/-- A puppet whose skin is an asset. -/
def Skeleton.puppet (skin : Asset) : Skeleton where
  name := "puppet"
  bodies := [
    { name := "body"
      shapes := [⟨"skin", .mesh skin Vec3.one, Vec3.zero, Vec3.zero, Vec3.one⟩] }]

/-- It shows a puppet. -/
def Machine.dressed : Machine :=
  run (ofCall (.new {} .blank) (.change (.renderSkeleton (.puppet .twice) "skel" none))) 3

/-- The puppet that is there keeps its skin, and a new one has the skin that it comes with. -/
theorem rendered_mesh_surface_puppet :
    (((Skeleton.puppet .patchwork).entries "skel").map (·.1)).Nodup ∧
      (World.shapeKeys "skel" ⟨[.puppet .patchwork]⟩).Nodup ∧
      let t := (Machine.dressed.server.change (.renderSkeleton (.puppet .patchwork) "skel" none)).2
      let u := ((Server.new {} .blank).change
        (.renderWorld ⟨[.puppet .patchwork]⟩ "skel" true true)).2
      (∃ x, t.scene.store.surface? "skel.puppet.body.skin" = some x ∧
        x.vertices = Asset.twice.flatten.surface.vertices) ∧
      ∃ x, u.scene.store.surface? "skel.puppet.body.skin" = some x ∧
        x.vertices = Asset.patchwork.flatten.surface.vertices := by
  have hkeys : (((Skeleton.puppet .patchwork).entries "skel").map (·.1)).Nodup := by decide
  have hall : (World.shapeKeys "skel" ⟨[.puppet .patchwork]⟩).Nodup := by decide
  refine ⟨hkeys, hall, ?_, ?_⟩
  · obtain ⟨x, hx, hold⟩ := (rendered_mesh_surface Machine.dressed.server "skel").1
      (.puppet .patchwork) none hkeys "skel.puppet.body.skin" _ _ _ (.head _) rfl
    have hbefore : Machine.dressed.server.scene.store.surface? "skel.puppet.body.skin" =
        some Asset.twice.flatten.surface := by decide +kernel
    rw [hbefore] at hold
    exact ⟨x, hx, congrArg Surface.vertices hold⟩
  · obtain ⟨x, hx, hnew⟩ := (rendered_mesh_surface (.new {} .blank) "skel").2 ⟨[.puppet .patchwork]⟩
      true true hall (fun _ => by decide) _ (.head _) "skel.puppet.body.skin" _ _ _ (.head _) rfl
    exact ⟨x, hx, hnew.vertices⟩

/-- It is not so that a mesh has the surface of the asset of the last frame, even if all shapes have
keys of their own. -/
theorem changed_asset_not_shown :
    ¬∀ (config : Config) (host : Host) (m : Machine), m.Reachable config host →
      ∀ (k : Skeleton) (stem : String) (color : Option Vec3),
        ((k.entries stem).map (·.1)).Nodup → ∀ key sh a scale, (key, sh) ∈ k.entries stem →
          sh.geometry = .mesh a scale →
          let t := (m.server.change (.renderSkeleton k stem color)).2
          ∃ x, t.scene.store.surface? key = some x ∧ x.SameTriangles a.flatten.surface := by
  intro h
  have hreachable : Machine.dressed.Reachable {} .blank :=
    Machine.Reachable.callRun (m := ⟨.new {} .blank, []⟩) .refl rfl _ 3
  obtain ⟨x, hx, hsame⟩ := h _ _ _ hreachable (.puppet .patchwork) "skel" none (by decide)
    "skel.puppet.body.skin" _ _ _ (.head _) rfl
  have hvertices : ((Machine.dressed.server.change (.renderSkeleton (.puppet .patchwork) "skel"
      none)).2.scene.store.surface? "skel.puppet.body.skin").map (·.vertices) =
        some Asset.patchwork.flatten.surface.vertices := by
    rw [hx, Option.map_some, hsame.vertices]
  revert hvertices
  decide +kernel

end LiveScene
