import LiveScene.Proofs.Geometry.Agreement
import LiveScene.Proofs.Object.Attributes
import LiveScene.Proofs.Server.Entries
import LiveScene.Proofs.Server.Locality

/-!
# Showing a shape

A shape is shown under a key by an object of the kind of its geometry whose attributes agree with
those of the shape (`Store.Shows`). Showing it comes to that whatever is under the key before: an
object of another kind gives way to one that has the attributes of the shape
(`Server.creates_createShape`), and of an object of the same kind those attributes are written that
differ, one after the other, none of which touches another (`Server.Updates`). So the object shows
the shape either way (`Server.shows_renderShape`). Under other keys nothing changes, but that
textures are made where there was nothing (`Server.Keeps`).
-/

namespace LiveScene

/-! ## What is to be read of a shape -/

/-- The command that writes an attribute under a key, if its value differs from what is there. -/
def Attribute.setIfDiffers (a : Attribute) (key : String) (u v : Vec3) : List Command :=
  if u.differs v then [.set a key v] else []

/-- Where the textures of an object of a geometry come from. -/
def Geometry.sources : Geometry → List (String × TextureSource)
  | mesh a _ => a.flatten.sources
  | _ => []

/-- Only spheres cannot be turned. -/
theorem Geometry.hasOrientation_eq (g : Geometry) :
    g.hasOrientation = decide (g.kind ≠ .sphere) := by
  cases g <;> rfl

namespace Shape

variable {sh : Shape} {color v : Vec3} {a : Attribute} {o : SceneObject}

theorem writable_of_target? (h : sh.target? color a = some v) :
    sh.geometry.kind.writable a = true := by
  obtain ⟨name, geometry, position, euler, c⟩ := sh
  cases geometry <;> cases a <;>
    simp_all [target?, Geometry.kind, Geometry.hasOrientation, Kind.writable]

/-- What a shape has to have is read back as it is written. -/
theorem readBack_of_target? (h : sh.target? color a = some v) (ho : o.kind = sh.geometry.kind) :
    o.readBack v a = v := by
  obtain ⟨name, geometry, position, euler, c⟩ := sh
  cases geometry <;> cases a <;> cases o <;>
    simp_all [target?, Geometry.kind, Geometry.scale, SceneObject.kind, SceneObject.readBack] <;>
    subst h <;> rfl

/-- The command that writes an attribute of a shape under a key, if what is read there differs. -/
def writes (key : String) (sh : Shape) (color : Vec3) (read : Attribute → Vec3) (a : Attribute) :
    List Command :=
  match sh.target? color a with
  | some v => a.setIfDiffers key (read a) v
  | none => []

end Shape

/-- The object under a key shows a shape in a colour. -/
structure Store.Shows (s : Store) (key : String) (sh : Shape) (color : Vec3) : Prop where
  kind : s.kind? key = some sh.geometry.kind
  agrees : ∀ a v, sh.target? color a = some v → (s.valueOf a key).Agrees v

theorem Store.Shows.of_get? {s t : Store} {key : String} {sh : Shape} {color : Vec3}
    (h : s.Shows key sh color) (hget : t.get? key = s.get? key) : t.Shows key sh color where
  kind := by rw [Store.kind?, hget]; exact h.kind
  agrees a v hv := by rw [Store.valueOf, hget]; exact h.agrees a v hv

/-- What is not turned reads as not turned. -/
theorem Store.Shows.valueOf_rotation {s : Store} {key : String} {sh : Shape} {color : Vec3}
    (h : s.Shows key sh color) (hturns : sh.geometry.hasOrientation = false) :
    s.valueOf .rotation key = Vec3.zero := by
  obtain ⟨o, ho, hkind⟩ := Option.map_eq_some_iff.1 h.kind
  rw [Geometry.hasOrientation_eq, ← hkind] at hturns
  have hsphere : o.kind = .sphere := by simpa using hturns
  rw [Store.valueOf, ho, Option.bind_some, SceneObject.get?_rotation_of_kind hsphere,
    Option.getD_none]

namespace Server

variable {s t u : Server} {key : String} {sh : Shape} {color : Vec3} {cs ds : List Command}

/-! ## Writing what differs -/

/-- `t` comes from `s` with some commands being queued, in order. -/
def Queues (s t : Server) (cs : List Command) : Prop :=
  ∃ es, t.journal.toList = s.journal.toList ++ es ∧ queuedIn es = cs

theorem Queues.refl (s : Server) : Queues s s [] := ⟨[], (List.append_nil _).symm, rfl⟩

theorem Queues.trans (h : Queues s t cs) (h' : Queues t u ds) : Queues s u (cs ++ ds) := by
  obtain ⟨es, hes, rfl⟩ := h
  obtain ⟨fs, hfs, rfl⟩ := h'
  exact ⟨es ++ fs, by rw [hfs, hes, List.append_assoc], by simp⟩

/-- Writing an attribute that can be written changes the object and queues a command. -/
theorem get?_set {a : Attribute} {v : Vec3} {o o' : SceneObject}
    (ho : s.scene.store.get? key = some o) (ho' : o.set? v a = some o') :
    (s.set a key v).scene.store.get? key = some o' ∧ Queues s (s.set a key v) [.set a key v] := by
  have hset : s.scene.store.set? a key v =
      some { s.scene.store with objects := s.scene.store.objects.insert key o' } := by
    simp [Store.set?, Store.modify?, ho, ho']
  have hedit : s.scene.update (s.scene.store.set? a key v) (.set a key v) =
      ⟨{ s.scene with store := { s.scene.store with
        objects := s.scene.store.objects.insert key o' } }, [.set a key v], []⟩ := by
    rw [hset, Scene.update]
  constructor
  · rw [set, scene_edit, hedit]
    simp [Store.get?]
  · obtain ⟨es, hes, -, hqueued⟩ := journal_edit s fun scene =>
      scene.update (scene.store.set? a key v) (.set a key v)
    rw [hedit] at hqueued
    exact ⟨es, hes, hqueued⟩

/-- What a shape has to have can be written to an object of its kind, and is then what is read. -/
theorem set_target {a : Attribute} {v : Vec3}
    (hkind : s.scene.store.kind? key = some sh.geometry.kind) (hv : sh.target? color a = some v) :
    (s.set a key v).scene.store.kind? key = some sh.geometry.kind ∧
      (∀ b, (s.set a key v).scene.store.valueOf b key =
        if b = a then v else s.scene.store.valueOf b key) ∧
      Queues s (s.set a key v) [.set a key v] := by
  obtain ⟨o, ho, hok⟩ := Option.map_eq_some_iff.1 hkind
  have hwritable : (o.set? v a).isSome := by
    rw [o.isSome_set?, hok]
    exact Shape.writable_of_target? hv
  obtain ⟨o', ho'⟩ := Option.isSome_iff_exists.1 hwritable
  obtain ⟨hget, hqueued⟩ := get?_set ho ho'
  refine ⟨?_, fun b => ?_, hqueued⟩
  · rw [Store.kind?, hget, Option.map_some, SceneObject.kind_of_set? ho', hok]
  · rw [Store.valueOf, Store.valueOf, hget, ho, Option.bind_some, Option.bind_some,
      SceneObject.get?_of_set? ho', Shape.readBack_of_target? hv hok]
    split <;> rfl

/-- `t` comes from `s` by writing those of some attributes of the object under a key that differ
from what a shape has to have. -/
structure Updates (key : String) (sh : Shape) (color : Vec3) (as : List Attribute) (s t : Server) :
    Prop where
  kind : t.scene.store.kind? key = some sh.geometry.kind
  agrees : ∀ a ∈ as, ∀ v, sh.target? color a = some v → (t.scene.store.valueOf a key).Agrees v
  others : ∀ a ∉ as, t.scene.store.valueOf a key = s.scene.store.valueOf a key
  queued : Queues s t (as.flatMap (sh.writes key color (s.scene.store.valueOf · key)))

theorem updateAttribute_of_not_differs {a : Attribute}
    (h : ∀ v, sh.target? color a = some v → (s.scene.store.valueOf a key).differs v = false) :
    updateAttribute key sh color s a = s := by
  unfold updateAttribute
  cases hv : sh.target? color a with
  | none => rfl
  | some v => simp [h v hv]

theorem updates_updateAttribute (hkind : s.scene.store.kind? key = some sh.geometry.kind)
    (color : Vec3) (a : Attribute) :
    Updates key sh color [a] s (updateAttribute key sh color s a) := by
  cases hv : sh.target? color a with
  | none =>
    rw [updateAttribute_of_not_differs (by simp [hv])]
    exact ⟨hkind, by simp [hv], fun _ _ => rfl, by simpa [Shape.writes, hv] using .refl s⟩
  | some v =>
    cases hdiffers : (s.scene.store.valueOf a key).differs v with
    | false =>
      rw [updateAttribute_of_not_differs (by simp [hv, hdiffers])]
      exact ⟨hkind, by simp [hv, Vec3.Agrees, hdiffers], fun _ _ => rfl,
        by simpa [Shape.writes, hv, Attribute.setIfDiffers, hdiffers] using .refl s⟩
    | true =>
      obtain ⟨hkind', hread, hqueued⟩ := set_target hkind hv
      have hstep : updateAttribute key sh color s a = s.set a key v := by
        simp [updateAttribute, hv, hdiffers]
      rw [hstep]
      refine ⟨hkind', ?_, ?_, ?_⟩
      · intro b hb w hw
        obtain rfl := List.mem_singleton.1 hb
        obtain rfl := Option.some.inj (hv.symm.trans hw)
        rw [hread, if_pos rfl]
        exact .refl v
      · intro b hb
        rw [hread, if_neg (List.mem_singleton.not.1 hb)]
      · simpa [Shape.writes, hv, Attribute.setIfDiffers, hdiffers] using hqueued

/-- Each attribute is read as it was before the first of them was written. -/
theorem updates_foldl {as : List Attribute} (has : as.Nodup)
    (hkind : s.scene.store.kind? key = some sh.geometry.kind) (color : Vec3) :
    Updates key sh color as s (as.foldl (updateAttribute key sh color) s) := by
  induction as generalizing s with
  | nil => exact ⟨hkind, by simp, fun _ _ => rfl, .refl s⟩
  | cons a as ih =>
    obtain ⟨hnew, has⟩ := List.nodup_cons.1 has
    have hfirst := updates_updateAttribute hkind color a
    have hrest := ih has hfirst.kind
    refine ⟨hrest.kind, ?_, ?_, ?_⟩
    · intro b hb v hv
      rcases List.mem_cons.1 hb with rfl | hb
      · rw [List.foldl_cons, hrest.others _ hnew]
        exact hfirst.agrees _ (List.mem_singleton.2 rfl) v hv
      · exact hrest.agrees b hb v hv
    · intro b hb
      rw [List.mem_cons, not_or] at hb
      rw [List.foldl_cons, hrest.others b hb.2, hfirst.others b (List.mem_singleton.not.2 hb.1)]
    · have hsame : as.flatMap (sh.writes key color
          ((updateAttribute key sh color s a).scene.store.valueOf · key)) =
          as.flatMap (sh.writes key color (s.scene.store.valueOf · key)) := by
        refine List.flatMap_congr fun b hb => ?_
        have hb : b ∉ [a] := fun h => hnew (List.mem_singleton.1 h ▸ hb)
        rw [Shape.writes, Shape.writes, hfirst.others b hb]
      have hqueued := hfirst.queued.trans hrest.queued
      rw [hsame] at hqueued
      simpa using hqueued

/-! ## Creating -/

/-- The textures that are created for a shape. -/
def texturesFor (s : Server) (sh : Shape) : List Texture :=
  sh.geometry.sources.filterMap s.textureFrom?

/-- The object that is created for a shape. -/
def objectFor (s : Server) (key : String) (sh : Shape) (color : Vec3) : SceneObject :=
  match sh.geometry with
  | .box size => .box ⟨key, size, sh.position, sh.euler, color, {}⟩
  | .sphere radius => .sphere ⟨key, radius, sh.position, color, {}⟩
  | .capsule radius height => .capsule ⟨key, radius, height, sh.position, sh.euler, color, {}⟩
  | .mesh a scale => .mesh (s.meshFrom key a ⟨sh.position, sh.euler, scale, color, {}⟩)

theorem key_objectFor (s : Server) (key : String) (sh : Shape) (color : Vec3) :
    (s.objectFor key sh color).key = key := by
  unfold objectFor
  cases sh.geometry <;> rfl

theorem kind_objectFor (s : Server) (key : String) (sh : Shape) (color : Vec3) :
    (s.objectFor key sh color).kind = sh.geometry.kind := by
  unfold objectFor
  cases sh.geometry <;> rfl

theorem get?_objectFor (s : Server) (key : String) {a : Attribute} {v : Vec3}
    (h : sh.target? color a = some v) : (s.objectFor key sh color).get? a = some v := by
  obtain ⟨name, geometry, position, euler, c⟩ := sh
  rw [← h]
  cases geometry <;> cases a <;> rfl

theorem creates_createShape (s : Server) (key : String) (sh : Shape) (color : Vec3) :
    Creates s (s.createShape key sh color)
      ((s.texturesFor sh).map .texture ++ [s.objectFor key sh color]) := by
  unfold createShape texturesFor objectFor
  cases sh.geometry with
  | box size => exact .edit s _
  | sphere radius => exact .edit s _
  | capsule radius height => exact .edit s _
  | mesh a scale => exact s.creates_createMeshFromAsset key a _

/-- `t` comes from `s` with nothing changed under a key, unless there was nothing and a texture from
one of some sources has been put there. -/
def Keeps (sources : List (String × TextureSource)) (s t : Server) (key : String) : Prop :=
  t.scene.store.get? key = s.scene.store.get? key ∨
    s.scene.store.get? key = none ∧ ∃ source ∈ sources, source.1 = key ∧
      ∃ image, source.2.payload? s.host.files = some image ∧
        t.scene.store.get? key = some (.texture ⟨key, image⟩)

theorem Keeps.get?_eq {sources : List (String × TextureSource)} (h : Keeps sources s t key)
    {k : Kind} (hkind : s.scene.store.kind? key = some k) :
    t.scene.store.get? key = s.scene.store.get? key := by
  rcases h with h | ⟨hnone, -⟩
  · exact h
  · rw [Store.kind?, hnone] at hkind
    cases hkind

theorem Keeps.trans {xs ys : List (String × TextureSource)} (h : Keeps xs s t key)
    (h' : Keeps ys t u key) (hhost : t.host = s.host) : Keeps (xs ++ ys) s u key := by
  rcases h with h | ⟨hnone, x, hx, hkey, image, himage, hget⟩
  · rcases h' with h' | ⟨hnone, y, hy, hkey, image, himage, hget⟩
    · exact Or.inl (h'.trans h)
    · rw [hhost] at himage
      rw [h] at hnone
      exact Or.inr ⟨hnone, y, List.mem_append_right xs hy, hkey, image, himage, hget⟩
  · -- what has been put there stays
    have hkept := h'.get?_eq (by rw [Store.kind?, hget]; rfl)
    exact Or.inr ⟨hnone, x, List.mem_append_left ys hx, hkey, image, himage, hkept.trans hget⟩

/-! ## Both ways -/

theorem shows_renderShape (s : Server) (key : String) (sh : Shape) (color : Vec3) :
    (s.renderShape key sh color).scene.store.Shows key sh color := by
  unfold renderShape
  split
  · next hkind =>
    have hall : Attribute.all.Nodup := by decide
    have h := updates_foldl hall hkind color
    exact ⟨h.kind, fun a => h.agrees a (by cases a <;> decide)⟩
  · have hget : (s.createShape key sh color).scene.store.get? key =
        some (s.objectFor key sh color) := by
      rw [(s.creates_createShape key sh color).store, List.foldl_append, List.foldl_cons,
        List.foldl_nil, Store.get?_insert, if_pos (key_objectFor s key sh color)]
    refine ⟨?_, fun a v hv => ?_⟩
    · rw [Store.kind?, hget, Option.map_some, kind_objectFor]
    · rw [Store.valueOf, hget, Option.bind_some, get?_objectFor s key hv]
      exact .refl v

theorem keeps_renderShape (s : Server) (sh : Shape) (color : Vec3) {k : String} (hk : k ≠ key) :
    Keeps sh.geometry.sources s (s.renderShape key sh color) k := by
  unfold renderShape
  split
  · have hlocal : Local {key} fun s => Attribute.all.foldl (updateAttribute key sh color) s :=
      .foldl _ fun a _ => .updateAttribute key sh color a
    exact Or.inl (Store.get?_of_slot (hlocal.frame s hk))
  · have h := s.creates_createShape key sh color
    rcases Store.get?_foldl_insert s.scene.store _ k with ⟨o, ho, hok, hget⟩ | ⟨-, hget⟩
    · rw [← h.store] at hget
      rcases List.mem_append.1 ho with ho | ho
      · obtain ⟨x, hx, rfl⟩ := List.mem_map.1 ho
        obtain ⟨source, hsource, hx⟩ := List.mem_filterMap.1 hx
        obtain ⟨hfree, image, himage, rfl⟩ := textureFrom?_eq_some_iff.1 hx
        obtain rfl : source.1 = k := hok
        refine Or.inr ⟨?_, source, hsource, rfl, image, himage, hget⟩
        simpa [Store.contains] using hfree
      · rw [List.mem_singleton.1 ho, key_objectFor] at hok
        exact absurd hok.symm hk
    · rw [← h.store] at hget
      exact Or.inl hget

/-- Of an object that is of the right kind already, what differs is written. -/
theorem queues_renderShape (hkind : s.scene.store.kind? key = some sh.geometry.kind)
    (color : Vec3) : Queues s (s.renderShape key sh color)
      (Attribute.all.flatMap (sh.writes key color (s.scene.store.valueOf · key))) := by
  rw [renderShape, if_pos hkind]
  exact (updates_foldl (by decide) hkind color).queued

/-- Showing again what is shown already does nothing, if no number is a NaN. -/
theorem renderShape_of_shows (h : s.scene.store.Shows key sh color)
    (hnumeric : ∀ a v, sh.target? color a = some v → v.IsNumeric) :
    s.renderShape key sh color = s := by
  rw [renderShape, if_pos h.kind]
  refine List.foldl_fixed' (fun a => updateAttribute_of_not_differs fun v hv => ?_) _
  rw [(h.agrees a v hv).differs_eq]
  exact (hnumeric a v hv).not_differs_self

end Server

end LiveScene
