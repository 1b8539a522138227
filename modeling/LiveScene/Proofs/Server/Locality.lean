import Mathlib.Data.Set.BooleanAlgebra
import Mathlib.Data.Set.Function
import Mathlib.Order.CompletePartialOrder
import LiveScene.Proofs.Server.Meshes
import LiveScene.Proofs.Store.Slots

/-!
# Changes are local

A change is about some keys (`Change.touches`): those that it may write to, and those that a mesh
made from an asset looks at to see whether its textures are there. What it does to the store is
local to them (`Server.Local`): the slots of all other keys stay as they are, and what becomes of
its own slots depends on nothing but the host and these slots. Single edits are local because they
act slot by slot (`Local.edit`); whatever is done one after the other, or done or not done for what
stands in the slots, is local as well (`Local.comp`, `Local.foldl`, `Local.ite`); and so every
change is (`Server.local_change`).

Two functions that are local to different keys may be swapped (`Local.store_comm`).
-/

namespace LiveScene

/-! ## Keys that a change is about -/

/-- The keys of the textures that an asset comes with. -/
def Asset.textureKeys (a : Asset) : Set String := {key | key ∈ a.flatten.sourceKeys}

/-- The keys of the textures that an object of a geometry comes with. -/
def Geometry.textureKeys : Geometry → Set String
  | mesh a _ => a.textureKeys
  | _ => ∅

/-- The keys that showing a shape under a key is about. -/
def Shape.touches (key : String) (sh : Shape) : Set String := insert key sh.geometry.textureKeys

/-- The keys that showing a skeleton is about. -/
def Skeleton.touches (stem : String) (k : Skeleton) : Set String :=
  {key | ∃ b ∈ k.bodies, ∃ sh ∈ b.shapes,
    key ∈ sh.touches (joinKey [stem, k.name, b.name, sh.name])}

/-- The keys that showing a world is about. -/
def World.touches (stem : String) (forces : Bool) (w : World) : Set String :=
  {key | ∃ k ∈ w.skeletons, key ∈ k.touches stem ∨
    forces ∧ ∃ b ∈ k.bodies, joinKey [stem, "forces", k.name, b.name] = key}

/-- The keys that a change is about. -/
def Change.touches {L : Type} : Change L → Set String
  | createTexture t => {t.key}
  | createBox b => {b.key}
  | createSphere b => {b.key}
  | createCapsule c => {c.key}
  | createLine l => {l.key}
  | createMesh key _ => {key}
  | createText t => {t.key}
  | createButton b _ => {b.key}
  | createSlider b _ => {b.key}
  | createPlot p => {p.key}
  | createTextureFromFile key _ => {key}
  | createMeshFromAsset key a _ => insert key a.textureKeys
  | set _ key _ => {key}
  | setContents key _ => {key}
  | setLabel key _ => {key}
  | setSlider _ key _ => {key}
  | setPlotData key _ => {key}
  | setLayout _ key _ => {key}
  | delete key => {key}
  | deleteElement key => {key}
  | deleteUnder stem => {key | Store.beginsWith stem key}
  | clear => Set.univ
  | onDrag key _ => {key}
  | renderWorld w stem forces _ => w.touches stem forces
  | renderSkeleton k stem _ => k.touches stem
  | renderBasis _ stem _ _ => {joinKey [stem, "x"], joinKey [stem, "y"], joinKey [stem, "z"]}
  | renderTrajectories ts stem => {key | ∃ t ∈ ts, joinKey [stem, t.body] = key}
  | renderWrench b _ _ stem => {joinKey [stem, b.name, "torque"], joinKey [stem, b.name, "force"]}
  | clearWrench b stem => {key | Store.beginsWith (joinKey [stem, b.name, ""]) key}
  | renderVelocities b _ stem =>
    {key | ∃ i < (b.vertices.zip b.velocities).length, joinKey [stem, b.name, toString i] = key}

theorem Scene.store_delete_eq_erase (scene : Scene) (key : String) :
    (scene.delete key).scene.store = scene.store.erase key := by
  unfold Scene.delete
  cases ho : scene.store.get? key with
  | none => simp [Store.erase, Store.erase?, ho]
  | some o => rw [Store.erase?_of_get? ho]

namespace Server

variable {s t : Server} {K K' : Set String} {f g : Server → Server} {key : String}

/-- The slot of a key in the store of a server. -/
def slot (s : Server) (key : String) : Slot := s.scene.store.slot key

theorem store_of_slot (h : s.slot = t.slot) : s.scene.store = t.scene.store :=
  Store.ext_slot (congrFun h)

/-- What textures can be made for an asset, and which are lacking, is told by the host and by the
slots of its sources. -/
theorem textures_congr {a : Asset} (hhost : s.host = t.host)
    (hslots : Set.EqOn s.slot t.slot a.textureKeys) :
    s.newTextures a = t.newTextures a ∧ s.lostTextures a = t.lostTextures a := by
  have hsame : ∀ source ∈ a.flatten.sources, s.textureFrom? source = t.textureFrom? source ∧
      s.lacks source = t.lacks source := by
    intro source hsource
    have hslot : s.slot source.1 = t.slot source.1 := hslots (List.mem_map_of_mem hsource)
    have hcontains := Store.contains_of_slot hslot
    simp only [textureFrom?, lacks, hcontains, hhost, and_self]
  exact ⟨List.filterMap_congr fun source hsource => (hsame source hsource).1,
    congrArg _ (List.filter_congr fun source hsource => (hsame source hsource).2)⟩

/-- `f` is about the keys in `K` alone: it leaves the slots of all others as they are, and makes the
same of the same slots on the same host, whatever else there is. -/
structure Local (K : Set String) (f : Server → Server) : Prop where
  host : ∀ s, (f s).host = s.host
  frame : ∀ s, Set.EqOn (f s).slot s.slot Kᶜ
  agree : ∀ s t, s.host = t.host → Set.EqOn s.slot t.slot K → Set.EqOn (f s).slot (f t).slot K

namespace Local

theorem mono (h : Local K f) (hK : K ⊆ K') : Local K' f where
  host := h.host
  frame s := (h.frame s).mono (Set.compl_subset_compl.2 hK)
  agree s t hhost hslots key hkey := by
    by_cases hk : key ∈ K
    · exact h.agree s t hhost (hslots.mono hK) hk
    · rw [h.frame s hk, h.frame t hk, hslots hkey]

/-- What leaves host and store alone. -/
theorem of_still (hhost : ∀ s, (f s).host = s.host)
    (hstore : ∀ s, (f s).scene.store = s.scene.store) : Local K f where
  host := hhost
  frame s key _ := by rw [slot, slot, hstore]
  agree s t _ hslots key hkey := by rw [slot, slot, hstore, hstore]; exact hslots hkey

theorem id : Local K fun s => s := of_still (fun _ => rfl) fun _ => rfl

theorem comp (hf : Local K f) (hg : Local K g) : Local K fun s => g (f s) where
  host s := (hg.host _).trans (hf.host s)
  frame s := (hg.frame (f s)).trans (hf.frame s)
  agree s t hhost hslots :=
    hg.agree _ _ ((hf.host s).trans (hhost.trans (hf.host t).symm)) (hf.agree s t hhost hslots)

theorem foldl {α : Type} {step : Server → α → Server} (xs : List α)
    (h : ∀ x ∈ xs, Local K (step · x)) : Local K fun s => xs.foldl step s := by
  induction xs with
  | nil => exact .id
  | cons x xs ih =>
    rw [List.forall_mem_cons] at h
    exact h.1.comp (ih h.2)

/-- What is done depends on the slots. -/
theorem ite {p : Server → Prop} [DecidablePred p]
    (hp : ∀ s t, Set.EqOn s.slot t.slot K → (p s ↔ p t)) (hf : Local K f) (hg : Local K g) :
    Local K fun s => if p s then f s else g s where
  host s := by
    split
    · exact hf.host s
    · exact hg.host s
  frame s := by
    split
    · exact hf.frame s
    · exact hg.frame s
  agree s t hhost hslots := by
    simp only [hp s t hslots]
    split
    · exact hf.agree s t hhost hslots
    · exact hg.agree s t hhost hslots

/-! ## Edits -/

/-- What acts slot by slot, and on the slots of some keys alone. -/
theorem of_slots {φ : String → Slot → Slot} (hhost : ∀ s, (f s).host = s.host)
    (hslot : ∀ s key, (f s).slot key = φ key (s.slot key))
    (hφ : ∀ key ∉ K, ∀ x, φ key x = x) : Local K f where
  host := hhost
  frame s key hkey := by rw [hslot, hφ key hkey]
  agree s t _ hslots key hkey := by rw [hslot, hslot, hslots hkey]

theorem edit {e : Scene → Edit} {φ : String → Slot → Slot}
    (he : ∀ scene key, (e scene).scene.store.slot key = φ key (scene.store.slot key))
    (hφ : ∀ key ∉ K, ∀ x, φ key x = x) : Local K (·.edit e) :=
  of_slots (fun s => congrArg (·.2.1) (surroundings_edit s e))
    (fun s key => by rw [slot, scene_edit, he, slot]) hφ

/-- An edit that does what a command does. -/
theorem run {e : Scene → Edit} (c : Command) (hc : c.key? = some key)
    (he : ∀ scene, (e scene).scene.store = scene.store.run c) : Local {key} (·.edit e) := by
  refine edit (φ := c.onSlot) (fun scene k => by rw [he, Store.slot_run]) fun k hk x => ?_
  exact Command.onSlot_of_ne hc (Ne.symm hk) x

theorem create (o : SceneObject) : Local {o.key} (·.edit (·.create o)) :=
  run (.create o) rfl fun _ => rfl

theorem createButton (b : Button) (l : Listener) : Local {b.key} (·.edit (·.createButton b l)) :=
  run (.create (.button b)) rfl fun _ => rfl

theorem createSlider (b : Slider) (l : Listener) : Local {b.key} (·.edit (·.createSlider b l)) :=
  run (.create (.slider b)) rfl fun _ => rfl

theorem update {φ : Store → Option Store} (c : Command) (hc : c.key? = some key)
    (hφ : ∀ s : Store, s.run c = (φ s).getD s) :
    Local {key} (·.edit fun scene => scene.update (φ scene.store) c) := by
  refine run c hc fun scene => ?_
  rw [hφ]
  cases φ scene.store <;> rfl

theorem set (a : Attribute) (key : String) (v : Vec3) : Local {key} (·.set a key v) :=
  update (.set a key v) rfl fun _ => rfl

theorem delete (key : String) : Local {key} (·.delete key) :=
  run (.deleteObject key) rfl fun scene => scene.store_delete_eq_erase key

theorem deleteElement (key : String) : Local {key} (·.edit (·.deleteElement key)) := by
  have heq (s : Server) : s.edit (·.deleteElement key) =
      if (s.scene.store.kind? key).any (·.isElement) then s.delete key else s := by
    simp only [Server.edit, Scene.deleteElement]
    split <;> rfl
  simp only [heq]
  refine ite (fun s t hslots => ?_) (delete key) id
  rw [Store.kind?_of_slot (hslots rfl)]

theorem deleteUnder (stem : String) :
    Local {key | Store.beginsWith stem key} (·.deleteUnder stem) := by
  refine edit (φ := fun k x => if Store.beginsWith stem k then x.erase else x)
    (fun scene k => scene.store.slot_eraseUnder stem k) fun k hk x => if_neg hk

theorem clear : Local Set.univ (·.edit (·.clear)) := by
  refine edit (φ := fun _ _ => ⟨none, false⟩) (fun scene k => ?_) fun k hk => absurd trivial hk
  have h := Store.slot_run scene.store .clear k
  exact h

theorem onDrag (key : String) (l : Listener) : Local {key} (·.edit (·.onDrag key l)) :=
  run (.enableMouse key) rfl fun _ => rfl

/-! ## Textures and meshes -/

/-- What is done depends on the host. -/
theorem ofHost {F : Host → Server → Server} (h : ∀ host, Local K (F host)) :
    Local K fun s => F s.host s where
  host s := (h s.host).host s
  frame s := (h s.host).frame s
  agree s t hhost hslots := by
    rw [hhost]
    exact (h t.host).agree s t hhost hslots

theorem createTextureFromFile (key path : String) :
    Local {key} fun s => (s.change (.createTextureFromFile key path)).2 := by
  have heq (s : Server) : (s.change (.createTextureFromFile key path)).2 =
      ((TextureSource.file path).payload? s.host.files).elim s fun image =>
        s.edit (·.create (.texture ⟨key, image⟩)) := by
    simp only [Server.change, Server.createTextureFromFile, TextureSource.payload?]
    cases s.host.files.read path <;> rfl
  simp only [heq]
  refine ofHost (F := fun host s => ((TextureSource.file path).payload? host.files).elim s
    fun image => s.edit (·.create (.texture ⟨key, image⟩))) fun host => ?_
  cases (TextureSource.file path).payload? host.files with
  | none => exact id
  | some image => exact create (.texture ⟨key, image⟩)

/-- What comes of an asset is told by the host and by the slots of its sources. -/
theorem createMeshFromAsset (key : String) (a : Asset) (p : Placement) :
    Local (insert key a.textureKeys) (·.createMeshFromAsset key a p) := by
  have hcreates (s : Server) := s.creates_createMeshFromAsset key a p
  refine ⟨fun s => (hcreates s).host, fun s k hk => ?_, fun s t hhost hslots k _ => ?_⟩
  · rw [slot, (hcreates s).store]
    refine Store.slot_foldl_insert_of_ne fun o ho hok => hk ?_
    rcases List.mem_append.1 ho with ho | ho
    · obtain ⟨x, hx, rfl⟩ := List.mem_map.1 ho
      exact Or.inr (hok ▸ sourceKey_of_mem_newTextures hx)
    · rw [List.mem_singleton.1 ho] at hok
      exact Or.inl hok.symm
  · obtain ⟨hnew, hlost⟩ := textures_congr hhost (hslots.mono (Set.subset_insert key a.textureKeys))
    rw [slot, slot, (hcreates s).store, (hcreates t).store, hnew, meshFrom, hlost]
    exact Store.slot_foldl_insert_congr (hslots ‹_›) _

/-! ## Rendering -/

/-- Writes an attribute if it differs. -/
theorem updateAttribute (key : String) (sh : Shape) (color : Vec3) (a : Attribute) :
    Local {key} (Server.updateAttribute key sh color · a) := by
  unfold Server.updateAttribute
  cases sh.target? color a with
  | none => exact id
  | some v =>
    refine ite (fun s t hslots => ?_) (set a key v) id
    rw [Store.valueOf_of_slot (hslots rfl)]

theorem createShape (key : String) (sh : Shape) (color : Vec3) :
    Local (sh.touches key) (·.createShape key sh color) := by
  unfold Server.createShape Shape.touches
  cases sh.geometry with
  | box size => exact (create _).mono (by simp [SceneObject.key])
  | sphere radius => exact (create _).mono (by simp [SceneObject.key])
  | capsule radius height => exact (create _).mono (by simp [SceneObject.key])
  | mesh a scale => exact createMeshFromAsset key a _

theorem renderShape (key : String) (sh : Shape) (color : Vec3) :
    Local (sh.touches key) (·.renderShape key sh color) := by
  have hkey : {key} ⊆ sh.touches key := Set.singleton_subset_iff.2 (Set.mem_insert _ _)
  unfold Server.renderShape
  refine ite (fun s t hslots => ?_) (foldl _ fun a _ => ?_) (createShape key sh color)
  · rw [Store.kind?_of_slot (hslots (Set.mem_insert _ _))]
  · exact (updateAttribute key sh color a).mono hkey

theorem renderSkeleton (k : Skeleton) (stem : String) (color : Option Vec3) :
    Local (k.touches stem) (·.renderSkeleton k stem color) :=
  foldl _ fun b hb => foldl _ fun sh hsh =>
    (renderShape _ sh _).mono fun _ hkey => ⟨b, hb, sh, hsh, hkey⟩

theorem createLine (key : String) (points : List Vec3) (color : Vec3) :
    Local {key} (·.createLine key points color) :=
  create (.line ⟨key, points, color⟩)

theorem renderForce (stem skeleton : String) (magnitudes : Bool) (b : Body) :
    Local {joinKey [stem, "forces", skeleton, b.name]}
      (Server.renderForce stem skeleton magnitudes · b) := by
  unfold Server.renderForce
  dsimp only
  split
  · exact delete _
  · exact createLine _ _ _

theorem renderWorld (w : World) (stem : String) (forces magnitudes : Bool) :
    Local (w.touches stem forces) (·.renderWorld w stem forces magnitudes) := by
  refine foldl _ fun k hk => ?_
  have hskeleton : Local (w.touches stem forces) (·.renderSkeleton k stem none) :=
    (renderSkeleton k stem none).mono fun _ hkey => ⟨k, hk, Or.inl hkey⟩
  cases forces with
  | false => exact hskeleton
  | true =>
    refine hskeleton.comp (foldl k.bodies fun b hb => ?_)
    refine (renderForce stem k.name magnitudes b).mono fun key hkey => ?_
    exact ⟨k, hk, Or.inr ⟨rfl, b, hb, hkey.symm⟩⟩

theorem renderBasis (scale : Float) (stem : String) (pos euler : Vec3) :
    Local {joinKey [stem, "x"], joinKey [stem, "y"], joinKey [stem, "z"]}
      (·.renderBasis scale stem pos euler) := by
  refine foldl _ fun axis haxis => (createLine _ _ _).mono fun key hkey => ?_
  simp only [List.mem_cons, List.not_mem_nil, or_false] at haxis
  rcases haxis with rfl | rfl | rfl <;> simp_all

theorem renderTrajectories (ts : List Trajectory) (stem : String) :
    Local {key | ∃ t ∈ ts, joinKey [stem, t.body] = key} (·.renderTrajectories ts stem) :=
  foldl _ fun t ht => (createLine _ _ _).mono fun _ hkey => ⟨t, ht, hkey.symm⟩

theorem renderWrench (b : Body) (w : Wrench) (scale : Float) (stem : String) :
    Local {joinKey [stem, b.name, "torque"], joinKey [stem, b.name, "force"]}
      (·.renderWrench b w scale stem) :=
  ((createLine _ _ _).mono (by simp)).comp ((createLine _ _ _).mono (by simp))

theorem renderVelocities (b : Body) (scale : Float) (stem : String) :
    Local {key | ∃ i < (b.vertices.zip b.velocities).length,
      joinKey [stem, b.name, toString i] = key} (·.renderVelocities b scale stem) := by
  refine foldl _ fun p hp => (createLine _ _ _).mono fun key hkey => ?_
  obtain ⟨p, index⟩ := p
  exact ⟨index, List.snd_lt_of_mem_zipIdx hp, hkey.symm⟩

end Local

/-! ## All changes -/

/-- A change is local to the keys that it is about. -/
theorem local_change (c : Change Listener) : Local c.touches fun s => (s.change c).2 := by
  cases c with
  | createTexture x => exact .create (.texture x)
  | createBox b => exact .create (.box b)
  | createSphere b => exact .create (.sphere b)
  | createCapsule c => exact .create (.capsule c)
  | createLine l => exact .create (.line l)
  | createMesh key m => exact .create (.mesh { m with key })
  | createText x => exact .create (.text x)
  | createButton b l => exact .createButton b l
  | createSlider b l => exact .createSlider b l
  | createPlot p => exact .create (.plot p)
  | createTextureFromFile key path => exact .createTextureFromFile key path
  | createMeshFromAsset key a p => exact .createMeshFromAsset key a p
  | set a key v => exact .set a key v
  | setContents key contents => exact .update (.setContents key contents) rfl fun _ => rfl
  | setLabel key label => exact .update (.setLabel key label) rfl fun _ => rfl
  | setSlider p key x => exact .update (.setSlider p key x) rfl fun _ => rfl
  | setPlotData key data => exact .update (.setPlotData key data) rfl fun _ => rfl
  | setLayout p key v => exact .update (.setLayout p key v) rfl fun _ => rfl
  | delete key => exact .delete key
  | deleteElement key => exact .deleteElement key
  | deleteUnder stem => exact .deleteUnder stem
  | clear => exact .clear
  | onDrag key l => exact .onDrag key l
  | renderWorld w stem forces magnitudes => exact .renderWorld w stem forces magnitudes
  | renderSkeleton k stem color => exact .renderSkeleton k stem color
  | renderBasis scale stem pos euler => exact .renderBasis scale stem pos euler
  | renderTrajectories ts stem => exact .renderTrajectories ts stem
  | renderWrench b w scale stem => exact .renderWrench b w scale stem
  | clearWrench b stem => exact .deleteUnder _
  | renderVelocities b scale stem => exact .renderVelocities b scale stem

/-! ## Swapping -/

/-- The store afterwards depends on the host and on the store alone. -/
theorem Local.store_congr (h : Local K f) (hhost : s.host = t.host)
    (hstore : s.scene.store = t.scene.store) : (f s).scene.store = (f t).scene.store := by
  have hslots : Set.EqOn s.slot t.slot Set.univ := fun key _ => congrArg (·.slot key) hstore
  have hall := (h.mono (Set.subset_univ K)).agree s t hhost hslots
  exact store_of_slot (funext fun key => hall trivial)

/-- Functions that are local to different keys may be swapped. -/
theorem Local.store_comm (hf : Local K f) (hg : Local K' g) (hK : Disjoint K K') (s : Server) :
    (f (g s)).scene.store = (g (f s)).scene.store := by
  -- on the keys of one of them the other changes nothing, neither before it nor after it
  have half {K K' : Set String} {f g : Server → Server} (hf : Local K f) (hg : Local K' g)
      (hK : Disjoint K K') : Set.EqOn (f (g s)).slot (g (f s)).slot K := by
    intro key hkey
    have hsame : Set.EqOn (g s).slot s.slot K := (hg.frame s).mono hK.subset_compl_right
    rw [hf.agree (g s) s (hg.host s) hsame hkey, hg.frame (f s) (hK.subset_compl_right hkey)]
  refine store_of_slot (funext fun key => ?_)
  by_cases hk : key ∈ K
  · exact half hf hg hK hk
  by_cases hk' : key ∈ K'
  · exact (half hg hf hK.symm hk').symm
  · rw [hf.frame (g s) hk, hg.frame s hk', hg.frame (f s) hk', hf.frame s hk]

end Server

end LiveScene
