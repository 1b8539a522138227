import LiveScene.Proofs.Server.Frames

/-!
# Worlds

A frame of a world is one list of parts, each under a key (`World.parts`): the shapes of a skeleton,
the forces on its bodies if they are asked for, and so on skeleton by skeleton. Showing a part is
about few keys (`Part.touches`): what it does to the store is local to them
(`Server.local_showPart`), and the commands that it queues are about them and told by what is under
them (`Server.partCommands`).

So a frame whose parts are about two sorts of keys may be looked at from either sort alone. Of what
is under these keys, and of the commands about them, the parts of the other sort can be left out
(`Server.slot_showParts_filter`, `Server.filter_runCommands`). And if no two parts are about the
same key, each does what it would do alone (`Server.slot_showParts`, `Server.runCommands_eq`).
-/

namespace LiveScene

/-! ## Keys of commands -/

theorem SceneObject.key?_deleteCommand (o : SceneObject) : o.deleteCommand.key? = some o.key := by
  unfold deleteCommand
  split <;> rfl

theorem Shape.key?_of_mem_writes {sh : Shape} {key : String} {color : Vec3}
    {read : Attribute → Vec3} {a : Attribute} {c : Command} (h : c ∈ sh.writes key color read a) :
    c.key? = some key := by
  cases hv : sh.target? color a with
  | none => simp [writes, hv] at h
  | some v =>
    obtain ⟨-, rfl⟩ : (read a).differs v ∧ c = .set a key v := by
      simpa [writes, Attribute.setIfDiffers, hv] using h
    rfl

theorem Geometry.mem_textureKeys_iff {g : Geometry} {key : String} :
    key ∈ g.textureKeys ↔ key ∈ g.sources.map (·.1) := by
  cases g with
  | mesh a scale => rfl
  | _ => simp [textureKeys, sources]

/-! ## Parts -/

/-- What a frame shows under a key. -/
inductive Part where
  /-- a shape, in a colour -/
  | shape (sh : Shape) (color : Vec3)
  /-- the points of the line of a force, if it is not negligible -/
  | force (points : Option (List Vec3))

namespace Part

/-- The keys that showing a part under a key is about. -/
def touches (key : String) : Part → Set String
  | shape sh _ => sh.touches key
  | force _ => {key}

/-- Whether a part is a force. -/
def isForce : Part → Bool
  | shape _ _ => false
  | force _ => true

end Part

/-- The points of the line of the force on a body, if it is not negligible. -/
def Body.forcePoints? (b : Body) (magnitudes : Bool) : Option (List Vec3) :=
  if b.externalForce.length < negligibleForce then none
  else some [b.position, b.position + Server.forceTip b.externalForce magnitudes]

namespace Skeleton

/-- The shapes of a skeleton, in one colour if one is given. -/
def shapeParts (stem : String) (color : Option Vec3) (k : Skeleton) : List (String × Part) :=
  (k.entries stem).map fun e => (e.1, .shape e.2 (color.getD e.2.color))

theorem map_fst_shapeParts (k : Skeleton) (stem : String) (color : Option Vec3) :
    (k.shapeParts stem color).map (·.1) = (k.entries stem).map (·.1) := by
  rw [shapeParts, List.map_map]
  rfl

/-- The key of the force on a body. -/
def forceKey (stem : String) (k : Skeleton) (b : Body) : String :=
  joinKey [stem, "forces", k.name, b.name]

/-- The forces on the bodies of a skeleton. -/
def forceParts (stem : String) (magnitudes : Bool) (k : Skeleton) : List (String × Part) :=
  k.bodies.map fun b => (k.forceKey stem b, .force (b.forcePoints? magnitudes))

end Skeleton

namespace World

/-- Everything that a frame of a world shows, in order. -/
def parts (stem : String) (forces magnitudes : Bool) (w : World) : List (String × Part) :=
  w.skeletons.flatMap fun k =>
    k.shapeParts stem none ++ if forces then k.forceParts stem magnitudes else []

/-- The keys under which the shapes of a world are shown. -/
def shapeKeys (stem : String) (w : World) : List String :=
  w.skeletons.flatMap fun k => (k.entries stem).map (·.1)

/-- The keys under which the forces on the bodies of a world are shown. -/
def forceKeys (stem : String) (w : World) : List String :=
  w.skeletons.flatMap fun k => k.bodies.map (k.forceKey stem)

variable {w : World} {stem key : String} {forces magnitudes : Bool}

/-- The parts of a frame have the keys of the shapes and, if they are shown, of the forces. -/
theorem map_fst_parts_perm : ((w.parts stem forces magnitudes).map (·.1)).Perm
    (w.shapeKeys stem ++ if forces then w.forceKeys stem else []) := by
  cases forces with
  | false => simp [parts, shapeKeys, List.map_flatMap, Skeleton.map_fst_shapeParts]
  | true =>
    have hperm := List.flatMap_append_perm w.skeletons (fun k => (k.entries stem).map (·.1))
      fun k => k.bodies.map (k.forceKey stem)
    simpa [parts, shapeKeys, forceKeys, List.map_flatMap, Skeleton.map_fst_shapeParts,
      Skeleton.forceParts, Function.comp_def] using hperm.symm

theorem count_parts (hshapes : (w.shapeKeys stem).Nodup)
    (hforces : forces → ∀ key ∈ w.forceKeys stem, key ∉ w.shapeKeys stem)
    (hkey : key ∈ w.shapeKeys stem) :
    ((w.parts stem forces magnitudes).map (·.1)).count key = 1 := by
  rw [map_fst_parts_perm.count_eq, List.count_append, List.count_eq_one_of_mem hshapes hkey]
  cases forces with
  | false => rfl
  | true => rw [if_pos rfl, List.count_eq_zero.2 fun hforce => hforces rfl key hforce hkey]

end World

namespace Server

variable {s t : Server} {e : String × Part} {es : List (String × Part)} {key : String}

/-- Shows a part under its key. -/
def showPart (s : Server) : String × Part → Server
  | (key, .shape sh color) => s.renderShape key sh color
  | (key, .force (some points)) => s.createLine key points forceColor
  | (key, .force none) => s.delete key

theorem renderForce_eq (s : Server) (stem : String) (k : Skeleton) (magnitudes : Bool) (b : Body) :
    renderForce stem k.name magnitudes s b =
      s.showPart (k.forceKey stem b, .force (b.forcePoints? magnitudes)) := by
  unfold renderForce Body.forcePoints?
  dsimp only
  split <;> rfl

theorem renderSkeleton_eq_showPart (s : Server) (k : Skeleton) (stem : String)
    (color : Option Vec3) :
    s.renderSkeleton k stem color = (k.shapeParts stem color).foldl showPart s := by
  rw [renderSkeleton_eq, Skeleton.shapeParts, List.foldl_map]
  rfl

/-- Showing a world is showing its parts, one after the other. -/
theorem renderWorld_eq (s : Server) (w : World) (stem : String) (forces magnitudes : Bool) :
    s.renderWorld w stem forces magnitudes = (w.parts stem forces magnitudes).foldl showPart s := by
  rw [renderWorld, World.parts, List.foldl_flatMap]
  congr 1
  funext s k
  rw [List.foldl_append, ← renderSkeleton_eq_showPart]
  cases forces with
  | false => rfl
  | true =>
    simp only [Skeleton.forceParts, List.foldl_map, ← renderForce_eq, if_true]

theorem local_showPart (e : String × Part) : Local (e.2.touches e.1) (·.showPart e) := by
  obtain ⟨key, sh | points⟩ := e
  · exact .renderShape key sh _
  · cases points with
    | none => exact .delete key
    | some points => exact .createLine key points forceColor

/-! ## Commands -/

/-- The commands that showing a shape queues. -/
def shapeCommands (s : Server) (key : String) (sh : Shape) (color : Vec3) : List Command :=
  if s.scene.store.kind? key = some sh.geometry.kind then
    Attribute.all.flatMap (sh.writes key color (s.scene.store.valueOf · key))
  else ((s.texturesFor sh).map SceneObject.texture ++ [s.objectFor key sh color]).map .create

/-- The commands that showing a part queues. -/
def partCommands (s : Server) : String × Part → List Command
  | (key, .shape sh color) => s.shapeCommands key sh color
  | (key, .force (some points)) => [.create (.line ⟨key, points, forceColor⟩)]
  | (key, .force none) => ((s.scene.store.get? key).map (·.deleteCommand)).toList

theorem queues_edit (s : Server) (f : Scene → Edit) : Queues s (s.edit f) (f s.scene).commands := by
  obtain ⟨es, hes, -, hqueued⟩ := journal_edit s f
  exact ⟨es, hes, hqueued⟩

theorem queues_showPart (s : Server) (e : String × Part) :
    Queues s (s.showPart e) (s.partCommands e) := by
  obtain ⟨key, ⟨sh, color⟩ | points⟩ := e
  · unfold showPart partCommands shapeCommands
    dsimp only
    split
    case isTrue hkind => exact queues_renderShape hkind color
    case isFalse hkind =>
      rw [renderShape, if_neg hkind]
      exact (s.creates_createShape key sh color).queued
  · cases points with
    | none =>
      have hcommands : (s.scene.delete key).commands = s.partCommands (key, .force none) := by
        rw [Scene.delete, partCommands]
        cases ho : s.scene.store.get? key with
        | none => simp [Store.erase?_eq_none_iff.2 ho]
        | some o => simp [Store.erase?_of_get? ho]
      exact hcommands ▸ queues_edit s (·.delete key)
    | some points => exact queues_edit s _

/-- What is queued is told by the host and by what is under the keys of the part. -/
theorem partCommands_congr (hhost : s.host = t.host)
    (hslots : Set.EqOn s.slot t.slot (e.2.touches e.1)) : s.partCommands e = t.partCommands e := by
  obtain ⟨key, ⟨sh, color⟩ | points⟩ := e
  · have hkey : s.slot key = t.slot key := hslots (Set.mem_insert key _)
    have hobjects : s.texturesFor sh = t.texturesFor sh ∧
        s.objectFor key sh color = t.objectFor key sh color := by
      unfold texturesFor objectFor
      cases hgeometry : sh.geometry with
      | box size => exact ⟨rfl, rfl⟩
      | sphere radius => exact ⟨rfl, rfl⟩
      | capsule radius height => exact ⟨rfl, rfl⟩
      | mesh a scale =>
        have hsources : Set.EqOn s.slot t.slot a.textureKeys := fun k hk =>
          hslots (Set.mem_insert_of_mem key (by rw [hgeometry]; exact hk))
        obtain ⟨hnew, hlost⟩ := textures_congr hhost hsources
        exact ⟨hnew, by simp only [meshFrom, hlost]⟩
    simp only [partCommands, shapeCommands, Store.kind?_of_slot hkey, Store.valueOf_of_slot hkey,
      hobjects]
  · have hkey : s.slot key = t.slot key := hslots (Set.mem_singleton key)
    cases points with
    | none => simp only [partCommands, Store.get?_of_slot hkey]
    | some points => rfl

/-- What is queued is about the keys of the part. -/
theorem key?_of_mem_partCommands (hk : s.scene.store.Keyed) {c : Command}
    (hc : c ∈ s.partCommands e) : ∃ key ∈ e.2.touches e.1, c.key? = some key := by
  obtain ⟨key, ⟨sh, color⟩ | points⟩ := e
  · unfold partCommands shapeCommands at hc
    dsimp only at hc
    split at hc
    case isTrue =>
      obtain ⟨a, -, hc⟩ := List.mem_flatMap.1 hc
      exact ⟨key, Set.mem_insert _ _, Shape.key?_of_mem_writes hc⟩
    case isFalse =>
      obtain ⟨o, ho, rfl⟩ := List.mem_map.1 hc
      rcases List.mem_append.1 ho with ho | ho
      · obtain ⟨x, hx, rfl⟩ := List.mem_map.1 ho
        obtain ⟨source, hsource, hx⟩ := List.mem_filterMap.1 hx
        obtain ⟨-, payload, -, rfl⟩ := textureFrom?_eq_some_iff.1 hx
        have hkey := Geometry.mem_textureKeys_iff.2 (List.mem_map_of_mem hsource)
        exact ⟨source.1, Set.mem_insert_of_mem _ hkey, rfl⟩
      · rw [List.mem_singleton.1 ho]
        exact ⟨key, Set.mem_insert _ _, congrArg some (s.key_objectFor key sh color)⟩
  · refine ⟨key, Set.mem_singleton key, ?_⟩
    cases points with
    | none =>
      obtain ⟨o, ho, rfl⟩ := Option.map_eq_some_iff.1 (Option.mem_toList.1 hc)
      rw [o.key?_deleteCommand, hk key o ho]
    | some points => rw [List.mem_singleton.1 hc]; rfl

/-! ## One part after the other -/

/-- The commands that showing some parts queues, one after the other. -/
def runCommands : Server → List (String × Part) → List Command
  | _, [] => []
  | s, e :: es => s.partCommands e ++ (s.showPart e).runCommands es

theorem queues_showParts (s : Server) (es : List (String × Part)) :
    Queues s (es.foldl showPart s) (s.runCommands es) := by
  induction es generalizing s with
  | nil => exact .refl s
  | cons e es ih => exact (s.queues_showPart e).trans (ih _)

theorem keptByEdits_keyed : KeptByEdits Eq fun s t => s = t ∧ s.scene.store.Keyed where
  host h := congrArg Server.host h.1
  store h := congrArg (·.scene.store) h.1
  note n h := ⟨congrArg (·.note n) h.1, h.2⟩
  edit := by
    rintro s _ f g hfg ⟨rfl, hk⟩
    refine ⟨congrArg s.edit hfg.eq, ?_⟩
    rw [scene_edit, hfg.store_eq hk]
    exact hk.runAll _

theorem keyed_showPart (hk : s.scene.store.Keyed) (e : String × Part) :
    (s.showPart e).scene.store.Keyed := by
  have hR := keptByEdits_keyed.parts
  have hs : s = s ∧ s.scene.store.Keyed := ⟨rfl, hk⟩
  obtain ⟨key, ⟨sh, color⟩ | points⟩ := e
  · exact (hR.renderShape key sh color hs).2
  · cases points with
    | none => exact (hR.delete key hs).2
    | some points => exact (hR.createLine key points forceColor hs).2

/-- What no part is about stays as it is. -/
theorem slot_showParts_of_notMem (h : ∀ e ∈ es, key ∉ e.2.touches e.1) :
    (es.foldl showPart s).slot key = s.slot key := by
  induction es generalizing s with
  | nil => rfl
  | cons e es ih =>
    rw [List.forall_mem_cons] at h
    exact (ih h.2).trans ((local_showPart e).frame s h.1)

/-! ## Parts of two sorts -/

/-- The parts that `p` selects are about keys that `q` selects, and the others are about others. -/
def Separates (q : String → Bool) (p : String × Part → Bool) (es : List (String × Part)) : Prop :=
  ∀ e ∈ es, ∀ key ∈ e.2.touches e.1, q key = p e

theorem Separates.not {q : String → Bool} {p : String × Part → Bool} (h : Separates q p es) :
    Separates (fun key => !q key) (fun e => !p e) es :=
  fun e he key hkey => congrArg (!·) (h e he key hkey)

section

variable {q : String → Bool} {p : String × Part → Bool}

theorem eqOn_showPart (h : ∀ key ∈ e.2.touches e.1, q key = true) (hhost : s.host = t.host)
    (hslots : Set.EqOn s.slot t.slot {key | q key}) :
    Set.EqOn (s.showPart e).slot (t.showPart e).slot {key | q key} :=
  ((local_showPart e).mono h).agree s t hhost hslots

theorem eqOn_showPart_left (h : ∀ key ∈ e.2.touches e.1, q key = false)
    (hslots : Set.EqOn s.slot t.slot {key | q key}) :
    Set.EqOn (s.showPart e).slot t.slot {key | q key} := by
  intro key hkey
  have hother : key ∉ e.2.touches e.1 := fun hmem =>
    Bool.false_ne_true ((h key hmem).symm.trans hkey)
  rw [(local_showPart e).frame s hother, hslots hkey]

/-- Under the keys of one sort the parts of the other sort make no difference. -/
theorem slot_showParts_filter (h : Separates q p es) (hhost : s.host = t.host)
    (hslots : Set.EqOn s.slot t.slot {key | q key}) :
    Set.EqOn (es.foldl showPart s).slot ((es.filter p).foldl showPart t).slot {key | q key} := by
  induction es generalizing s t with
  | nil => exact hslots
  | cons e es ih =>
    obtain ⟨hfirst, hrest⟩ := List.forall_mem_cons.1 h
    have hhost' : (s.showPart e).host = t.host := ((local_showPart e).host s).trans hhost
    cases hp : p e with
    | true =>
      rw [hp] at hfirst
      rw [List.filter_cons_of_pos hp]
      exact ih hrest (hhost'.trans ((local_showPart e).host t).symm)
        (eqOn_showPart hfirst hhost hslots)
    | false =>
      rw [hp] at hfirst
      rw [List.filter_cons_of_neg (by simp [hp])]
      exact ih hrest hhost' (eqOn_showPart_left hfirst hslots)

/-- The commands about the keys of one sort are those of the parts of that sort. -/
theorem filter_runCommands {r : Command → Bool} (hr : ∀ c key, c.key? = some key → r c = q key)
    (h : Separates q p es) (hk : s.scene.store.Keyed) (hhost : s.host = t.host)
    (hslots : Set.EqOn s.slot t.slot {key | q key}) :
    (s.runCommands es).filter r = t.runCommands (es.filter p) := by
  induction es generalizing s t with
  | nil => rfl
  | cons e es ih =>
    obtain ⟨hfirst, hrest⟩ := List.forall_mem_cons.1 h
    have hhost' : (s.showPart e).host = t.host := ((local_showPart e).host s).trans hhost
    -- all commands of the part are about keys of the same sort
    have habout : ∀ c ∈ s.partCommands e, r c = p e := fun c hc => by
      obtain ⟨key, hkey, hc⟩ := key?_of_mem_partCommands hk hc
      rw [hr c key hc, hfirst key hkey]
    rw [runCommands, List.filter_append]
    cases hp : p e with
    | true =>
      rw [hp] at hfirst habout
      have hsame : s.partCommands e = t.partCommands e :=
        partCommands_congr hhost (hslots.mono hfirst)
      rw [List.filter_cons_of_pos hp, runCommands, List.filter_eq_self.2 habout, hsame]
      congr 1
      exact ih hrest (keyed_showPart hk e) (hhost'.trans ((local_showPart e).host t).symm)
        (eqOn_showPart hfirst hhost hslots)
    | false =>
      rw [hp] at hfirst habout
      rw [List.filter_cons_of_neg (by simp [hp]), List.filter_eq_nil_iff.2 (by simpa using habout),
        List.nil_append]
      exact ih hrest (keyed_showPart hk e) hhost' (eqOn_showPart_left hfirst hslots)

end

/-! ## Parts that are about different keys -/

section

variable (hdisjoint : es.Pairwise fun e f => Disjoint (e.2.touches e.1) (f.2.touches f.1))

include hdisjoint

/-- Each part leaves under its keys what it would leave there if it were the only one. -/
theorem slot_showParts (he : e ∈ es) (hkey : key ∈ e.2.touches e.1) :
    (es.foldl showPart s).slot key = (s.showPart e).slot key := by
  induction es generalizing s with
  | nil => cases he
  | cons f es ih =>
    obtain ⟨hfirst, hrest⟩ := List.pairwise_cons.1 hdisjoint
    rw [List.foldl_cons]
    rcases List.mem_cons.1 he with rfl | he
    · exact slot_showParts_of_notMem fun g hg hmem =>
        Set.disjoint_left.1 (hfirst g hg) hkey hmem
    · rw [ih hrest he]
      have hsame : Set.EqOn (s.showPart f).slot s.slot (e.2.touches e.1) :=
        ((local_showPart f).frame s).mono (hfirst e he).subset_compl_left
      exact (local_showPart e).agree _ s ((local_showPart f).host s) hsame hkey

/-- Each part queues what it would queue if it were the first one. -/
theorem runCommands_eq : s.runCommands es = es.flatMap s.partCommands := by
  induction es generalizing s with
  | nil => rfl
  | cons e es ih =>
    obtain ⟨hfirst, hrest⟩ := List.pairwise_cons.1 hdisjoint
    rw [runCommands, ih hrest, List.flatMap_cons]
    congr 1
    refine List.flatMap_congr fun f hf => ?_
    exact partCommands_congr ((local_showPart e).host s)
      (((local_showPart e).frame s).mono (hfirst f hf).subset_compl_left)

end

end Server

end LiveScene
