import LiveScene.Proofs.Asset.Textures
import LiveScene.Proofs.Server.Acts

/-!
# Meshes made from assets

Making a mesh from an asset creates objects one after the other (`Server.Creates`): a texture for
each source whose key is free and whose image can be had, and then the mesh. What becomes of a
source is told by the server before the call alone (`Server.textureFrom?`, `Server.lacks`), since
the sources of an asset have keys of their own, so none of them gets in the way of another
(`Server.creates_createSources`).

So the call queues what is missing and nothing else (`mesh_from_asset_creates_missing`). A region is
left with a key only if some object is under that key: the texture that was created, or whatever was
there before, be it a texture or not (`mesh_from_asset_kinds`, `taken_key_shown`).
-/

namespace LiveScene

/-- The text of an image, unless it is in a file that cannot be read. -/
def TextureSource.payload? (files : Files) : TextureSource → Option String
  | embedded _ base64 => some base64
  | file path =>
    match files.read path with
    | .ok bytes => some (Base64.encode bytes)
    | .error _ => none

/-! ## Storing several objects -/

/-- Of several objects that are put into a store, one is under a key afterwards if any has that
key, and otherwise what was there before. -/
theorem Store.get?_foldl_insert (s : Store) (os : List SceneObject) (key : String) :
    (∃ o ∈ os, o.key = key ∧ (os.foldl Store.insert s).get? key = some o) ∨
      ((∀ o ∈ os, o.key ≠ key) ∧ (os.foldl Store.insert s).get? key = s.get? key) := by
  induction os generalizing s with
  | nil => exact Or.inr ⟨List.forall_mem_nil _, rfl⟩
  | cons o os ih =>
    rw [List.foldl_cons]
    rcases ih (s.insert o) with ⟨o', ho', hkey, hget⟩ | ⟨hnone, hget⟩
    · exact Or.inl ⟨o', List.mem_cons_of_mem o ho', hkey, hget⟩
    · rw [Store.get?_insert] at hget
      by_cases hkey : o.key = key
      · rw [if_pos hkey] at hget
        exact Or.inl ⟨o, List.mem_cons_self, hkey, hget⟩
      · rw [if_neg hkey] at hget
        exact Or.inr ⟨List.forall_mem_cons.2 ⟨hkey, hnone⟩, hget⟩

namespace Server

variable {s t u : Server} {os ps : List SceneObject}

/-- `t` comes from `s` by creating some objects, in order. -/
structure Creates (s t : Server) (os : List SceneObject) : Prop where
  host : t.host = s.host
  store : t.scene.store = os.foldl Store.insert s.scene.store
  queued : ∃ es, t.journal.toList = s.journal.toList ++ es ∧ queuedIn es = os.map .create

namespace Creates

theorem refl (s : Server) : Creates s s [] := ⟨rfl, rfl, [], (List.append_nil _).symm, rfl⟩

theorem trans (h : Creates s t os) (h' : Creates t u ps) : Creates s u (os ++ ps) where
  host := h'.host.trans h.host
  store := by rw [h'.store, h.store, List.foldl_append]
  queued := by
    obtain ⟨es, hes, hq⟩ := h.queued
    obtain ⟨fs, hfs, hq'⟩ := h'.queued
    exact ⟨es ++ fs, by rw [hfs, hes, List.append_assoc], by simp [hq, hq']⟩

theorem note (s : Server) (n : Notice) : Creates s (s.note n) [] :=
  ⟨rfl, rfl, [.noted n], toList_journal_note s n, rfl⟩

theorem noteAll (s : Server) (ns : List Notice) : Creates s (s.noteAll ns) [] := by
  obtain ⟨es, h⟩ := handed_noteAll s ns
  exact ⟨congrArg (·.2.1) h.surroundings, congrArg (·.store) h.scene, es, h.journal, h.queued⟩

theorem edit (s : Server) (o : SceneObject) : Creates s (s.edit (·.create o)) [o] := by
  obtain ⟨es, h, hq, -⟩ := edited_edit s (f := (·.create o)) rfl (Store.apt_singleton _ rfl)
  exact ⟨congrArg (·.2.1) (surroundings_edit s _), congrArg (·.store) (scene_edit s _), es,
    h.journal, hq⟩

/-- Nothing changes under the other keys. -/
theorem get? (h : Creates s t os) {key : String} (hkey : ∀ o ∈ os, o.key ≠ key) :
    t.scene.store.get? key = s.scene.store.get? key := by
  rw [h.store]
  rcases Store.get?_foldl_insert s.scene.store os key with ⟨o, ho, ho', -⟩ | ⟨-, hget⟩
  · exact absurd ho' (hkey o ho)
  · exact hget

end Creates

/-! ## Sources -/

/-- The texture that a source gives, unless its key is taken or its file cannot be read. -/
def textureFrom? (s : Server) (source : String × TextureSource) : Option Texture :=
  if s.scene.store.contains source.1 then none
  else (source.2.payload? s.host.files).map (⟨source.1, ·⟩)

/-- Whether a source has to be done without: its key is free, and its file cannot be read. -/
def lacks (s : Server) (source : String × TextureSource) : Bool :=
  !s.scene.store.contains source.1 && (source.2.payload? s.host.files).isNone

theorem textureFrom?_eq_some_iff {source : String × TextureSource} {x : Texture} :
    s.textureFrom? source = some x ↔ s.scene.store.contains source.1 = false ∧
      ∃ payload, source.2.payload? s.host.files = some payload ∧ ⟨source.1, payload⟩ = x := by
  unfold textureFrom?
  cases s.scene.store.contains source.1 <;> simp

/-- A source that is not missing gives a texture, unless its key is taken. -/
theorem exists_textureFrom? {source : String × TextureSource} (h : s.lacks source = false)
    (hfree : s.scene.store.contains source.1 = false) :
    ∃ x, s.textureFrom? source = some x ∧ x.key = source.1 := by
  have hpayload : (source.2.payload? s.host.files).isSome := by
    simpa [lacks, hfree, Option.isSome_iff_ne_none] using h
  obtain ⟨payload, hpayload⟩ := Option.isSome_iff_exists.1 hpayload
  exact ⟨_, textureFrom?_eq_some_iff.2 ⟨hfree, payload, hpayload, rfl⟩, rfl⟩

theorem creates_createTexture (s : Server) (x : Texture) :
    Creates s (s.createTexture x) [.texture x] :=
  Creates.edit s (.texture x)

theorem creates_createSource (key : String) (s : Server) (lost : List String)
    (source : String × TextureSource) :
    Creates s (createSource key (s, lost) source).1 ((s.textureFrom? source).toList.map .texture) ∧
      (createSource key (s, lost) source).2 =
        lost ++ if s.lacks source then [source.1] else [] := by
  obtain ⟨k, source⟩ := source
  unfold createSource textureFrom? lacks
  by_cases htaken : s.scene.store.contains k
  · simpa [htaken] using Creates.refl s
  · cases source with
    | embedded k' base64 =>
      simpa [htaken, TextureSource.payload?] using creates_createTexture s ⟨k, base64⟩
    | file path =>
      cases hread : s.host.files.read path with
      | ok bytes =>
        simpa [htaken, TextureSource.payload?, createTextureFromFile, hread] using
          creates_createTexture s ⟨k, Base64.encode bytes⟩
      | error reason =>
        simpa [htaken, TextureSource.payload?, createTextureFromFile, hread] using Creates.note s _

/-- A source gives the same as before if nothing is created under its key. -/
theorem Creates.source (h : Creates s t os) (source : String × TextureSource)
    (hkey : ∀ o ∈ os, o.key ≠ source.1) :
    t.textureFrom? source = s.textureFrom? source ∧ t.lacks source = s.lacks source := by
  have hcontains : t.scene.store.contains source.1 = s.scene.store.contains source.1 :=
    congrArg Option.isSome (h.get? hkey)
  simp only [textureFrom?, lacks, hcontains, h.host, and_self]

/-- Sources with keys of their own do not get in each other's way. -/
theorem creates_createSources (key : String) {sources : List (String × TextureSource)}
    (hkeys : (sources.map (·.1)).Nodup) (s : Server) (lost : List String) :
    Creates s (sources.foldl (createSource key) (s, lost)).1
        ((sources.filterMap s.textureFrom?).map .texture) ∧
      (sources.foldl (createSource key) (s, lost)).2 =
        lost ++ (sources.filter s.lacks).map (·.1) := by
  induction sources generalizing s lost with
  | nil => exact ⟨Creates.refl s, (List.append_nil lost).symm⟩
  | cons source sources ih =>
    obtain ⟨hfirst, hlost⟩ := creates_createSource key s lost source
    rw [List.map_cons, List.nodup_cons] at hkeys
    obtain ⟨hnew, hkeys⟩ := hkeys
    rw [List.foldl_cons]
    generalize createSource key (s, lost) source = p at hfirst hlost
    obtain ⟨t, lost'⟩ := p
    dsimp only at hfirst hlost
    obtain ⟨hrest, hlost'⟩ := ih hkeys t lost'
    -- what is created for the first source has its key, which no later source has
    have hsame : ∀ x ∈ sources, t.textureFrom? x = s.textureFrom? x ∧ t.lacks x = s.lacks x := by
      refine fun x hx => hfirst.source x fun o ho hkey => hnew ?_
      obtain ⟨texture, htexture, rfl⟩ := List.mem_map.1 ho
      obtain ⟨-, payload, -, rfl⟩ := textureFrom?_eq_some_iff.1 (Option.mem_toList.1 htexture)
      exact List.mem_map.2 ⟨x, hx, hkey.symm⟩
    rw [List.filterMap_congr fun x hx => (hsame x hx).1] at hrest
    rw [List.filter_congr fun x hx => (hsame x hx).2] at hlost'
    have hall := hfirst.trans hrest
    constructor
    · cases hsource : s.textureFrom? source <;> simpa [hsource] using hall
    · rw [hlost', hlost]
      cases hsource : s.lacks source <;> simp [hsource]

/-! ## The mesh -/

/-- The textures that an asset needs and that can be made, in the order of their sources. -/
def newTextures (s : Server) (a : Asset) : List Texture :=
  a.flatten.sources.filterMap s.textureFrom?

/-- The keys of the textures that an asset has to do without. -/
def lostTextures (s : Server) (a : Asset) : List String :=
  (a.flatten.sources.filter s.lacks).map (·.1)

/-- The mesh made from an asset: all of it, without the textures that it has to do without. -/
def meshFrom (s : Server) (key : String) (a : Asset) (p : Placement) : Mesh :=
  { a.flatten.toMesh key with
    surface := a.flatten.surface.without (s.lostTextures a)
    pos := p.pos, euler := p.euler, scale := p.scale, color := p.color, shadows := p.shadows }

theorem creates_createMeshFromAsset (s : Server) (key : String) (a : Asset) (p : Placement) :
    Creates s (s.createMeshFromAsset key a p)
      ((s.newTextures a).map .texture ++ [.mesh (s.meshFrom key a p)]) := by
  have hnoted := Creates.noteAll s (a.flatten.defects.map .assetDefect)
  obtain ⟨htextures, hlost⟩ := creates_createSources key a.flatten_sourced.nodup
    (s.noteAll (a.flatten.defects.map .assetDefect)) []
  -- notices of defects make no difference to what the sources give
  have hsame source := hnoted.source source (List.forall_mem_nil _)
  rw [List.filterMap_congr fun x _ => (hsame x).1] at htextures
  rw [List.filter_congr fun x _ => (hsame x).2] at hlost
  unfold createMeshFromAsset
  dsimp only
  generalize a.flatten.sources.foldl (createSource key)
    (s.noteAll (a.flatten.defects.map .assetDefect), []) = q at htextures hlost
  obtain ⟨t, lost⟩ := q
  obtain rfl : lost = s.lostTextures a := hlost
  have hmesh := Creates.edit t (.mesh (s.meshFrom key a p))
  simp only [createMesh, FlatMesh.toMesh, FlatMesh.surface_foldl_untexture]
  exact (hnoted.trans htextures).trans hmesh

/-! ## The store afterwards -/

section

variable {key k : String} {a : Asset} {p : Placement}

theorem free_of_mem_newTextures {x : Texture} (h : x ∈ s.newTextures a) :
    s.scene.store.contains x.key = false := by
  obtain ⟨source, -, hsource⟩ := List.mem_filterMap.1 h
  obtain ⟨hfree, payload, -, rfl⟩ := textureFrom?_eq_some_iff.1 hsource
  exact hfree

theorem sourceKey_of_mem_newTextures {x : Texture} (h : x ∈ s.newTextures a) :
    x.key ∈ a.flatten.sourceKeys := by
  obtain ⟨source, hsource, hx⟩ := List.mem_filterMap.1 h
  obtain ⟨-, payload, -, rfl⟩ := textureFrom?_eq_some_iff.1 hx
  exact List.mem_map_of_mem hsource

/-- The mesh is under its key. -/
theorem get?_mesh (s : Server) (key : String) (a : Asset) (p : Placement) :
    (s.createMeshFromAsset key a p).scene.store.get? key =
      some (.mesh (s.meshFrom key a p)) := by
  rw [(s.creates_createMeshFromAsset key a p).store, List.foldl_append, List.foldl_cons,
    List.foldl_nil, Store.get?_insert]
  exact if_pos rfl

/-- Under another key that is taken nothing changes. -/
theorem get?_taken (a : Asset) (p : Placement) (hk : k ≠ key) (htaken : s.scene.store.contains k) :
    (s.createMeshFromAsset key a p).scene.store.get? k = s.scene.store.get? k := by
  refine (s.creates_createMeshFromAsset key a p).get? fun o ho hok => ?_
  rcases List.mem_append.1 ho with ho | ho
  · obtain ⟨x, hx, rfl⟩ := List.mem_map.1 ho
    have hfree := free_of_mem_newTextures hx
    rw [show x.key = k from hok, htaken] at hfree
    cases hfree
  · rw [List.mem_singleton.1 ho] at hok
    exact hk hok.symm

/-- Under another key, the key of a texture that is created, there is a texture. -/
theorem get?_new (p : Placement) (hk : k ≠ key) {x : Texture} (hx : x ∈ s.newTextures a)
    (hxk : x.key = k) :
    ∃ y, (s.createMeshFromAsset key a p).scene.store.get? k = some (.texture y) := by
  rw [(s.creates_createMeshFromAsset key a p).store]
  rcases Store.get?_foldl_insert s.scene.store _ k with ⟨o, ho, hok, hget⟩ | ⟨hnone, -⟩
  · rcases List.mem_append.1 ho with ho | ho
    · obtain ⟨y, -, rfl⟩ := List.mem_map.1 ho
      exact ⟨y, hget⟩
    · rw [List.mem_singleton.1 ho] at hok
      exact absurd hok.symm hk
  · exact absurd hxk (hnone _ (List.mem_append_left _ (List.mem_map_of_mem hx)))

/-- A texture that a region of the mesh refers to has a source that is not missing. -/
theorem source_of_mem_textures {x : String} (h : x ∈ (s.meshFrom key a p).surface.textures)
    (hx : x ≠ "") : ∃ source ∈ a.flatten.sources, source.1 = x ∧ s.lacks source = false := by
  obtain ⟨y, hy, hyx⟩ := List.mem_map.1 h
  by_cases hlost : y ∈ s.lostTextures a
  · rw [if_pos hlost] at hyx
    exact absurd hyx.symm hx
  · rw [if_neg hlost] at hyx
    obtain rfl := hyx
    obtain ⟨source, hsource, hkey⟩ :=
      List.mem_map.1 ((a.flatten_sourced.known y hy).resolve_left hx)
    refine ⟨source, hsource, hkey, Bool.eq_false_iff.2 fun hlacks => hlost ?_⟩
    exact List.mem_map.2 ⟨source, List.mem_filter.2 ⟨hsource, hlacks⟩, hkey⟩

end

end Server

/-- A mesh made from an asset queues exactly what is missing, and overwrites nothing but what is
under its own key. For each source of the asset, in order, a texture is created if no object had its
key before and its image can be had, and then the mesh; the mesh is the whole asset as placed, with
the keys blanked of those textures that no object had and whose files cannot be read. -/
theorem mesh_from_asset_creates_missing (s : Server) (key : String) (a : Asset) (p : Placement) :
    let t := (s.change (.createMeshFromAsset key a p)).2
    (∃ es, t.journal.toList = s.journal.toList ++ es ∧
        queuedIn es = (s.newTextures a).map (fun x => .create (.texture x)) ++
          [.create (.mesh (s.meshFrom key a p))]) ∧
      t.scene.store.get? key = some (.mesh (s.meshFrom key a p)) ∧
      ∀ k ≠ key, s.scene.store.contains k → t.scene.store.get? k = s.scene.store.get? k := by
  intro t
  obtain ⟨es, hjournal, hqueued⟩ := (s.creates_createMeshFromAsset key a p).queued
  rw [List.map_append, List.map_map] at hqueued
  exact ⟨⟨es, hjournal, hqueued⟩, s.get?_mesh key a p,
    fun k hk htaken => Server.get?_taken a p hk htaken⟩

/-- A triangle with a texture within the asset, and one with a texture in a file. -/
def Asset.patchwork : Asset where
  root := { meshes := [0, 1] }
  meshes := [
    { vertices := [⟨0, 0, 0⟩, ⟨1, 0, 0⟩, ⟨0, 1, 0⟩], faces := [⟨0, 1, 2⟩], material := some 0 },
    { vertices := [⟨1, 1, 0⟩, ⟨1, 0, 0⟩, ⟨0, 1, 0⟩], faces := [⟨0, 1, 2⟩], material := some 1 }]
  materials := [
    { texture := some (.embedded "bark" "aGk=") }, { texture := some (.file "moss.png") }]

/-- Something in its place, in white. -/
def Placement.unmoved : Placement := ⟨Vec3.zero, Vec3.zero, Vec3.one, Vec3.one, {}⟩

/-- The patchwork in a directory of its own, with another triangle whose texture is in a file. -/
def Asset.tapestry : Asset := { Asset.patchwork with
  root := { meshes := [0, 1, 2] }
  meshes := Asset.patchwork.meshes ++
    [{ vertices := [⟨1, 1, 0⟩, ⟨2, 0, 0⟩, ⟨1, 0, 0⟩], faces := [⟨0, 1, 2⟩], material := some 2 }]
  materials := Asset.patchwork.materials ++ [{ texture := some (.file "fern.png") }]
  baseDir := some "/assets" }

/-- A host with a single file. -/
def Host.mossy : Host := { Host.blank with
  files.read path := if path = "/assets/moss.png" then .ok [104, 105] else Files.none.read path }

/-- The file that is there becomes a texture, and without the other one the region that would show
it is left without texture. -/
theorem mesh_from_asset_creates_missing_tapestry :
    ∃ es mesh, ((Server.new {} .mossy).change
        (.createMeshFromAsset "tree" .tapestry .unmoved)).2.journal.toList = es ∧
      queuedIn es = [.create (.texture ⟨"bark", "aGk="⟩),
        .create (.texture ⟨"/assets/moss.png", "aGk="⟩), .create (.mesh mesh)] ∧
      mesh.surface.textures = ["bark", "/assets/moss.png", ""] := by
  obtain ⟨⟨es, hjournal, hqueued⟩, -, -⟩ :=
    mesh_from_asset_creates_missing (.new {} .mossy) "tree" .tapestry .unmoved
  have htextures : (Server.new {} .mossy).newTextures .tapestry =
      [⟨"bark", "aGk="⟩, ⟨"/assets/moss.png", "aGk="⟩] := by decide
  rw [htextures] at hqueued
  exact ⟨es, _, hjournal, hqueued, by decide⟩

/-- Every texture key in a mesh made from an asset, under a key that no source of the asset has, is
the key of an object: of what was there before, whatever its kind, or else of a texture. -/
theorem mesh_from_asset_kinds (s : Server) (key : String) (a : Asset) (p : Placement)
    (hkey : key ∉ a.flatten.sourceKeys) :
    let t := (s.change (.createMeshFromAsset key a p)).2
    ∃ mesh, t.scene.store.get? key = some (.mesh mesh) ∧
      ∀ x ∈ mesh.surface.textures, x ≠ "" →
        t.scene.store.kind? x = some ((s.scene.store.kind? x).getD .texture) := by
  intro t
  refine ⟨s.meshFrom key a p, s.get?_mesh key a p, fun x hx hne => ?_⟩
  obtain ⟨source, hsource, rfl, hlacks⟩ := Server.source_of_mem_textures hx hne
  have hk : source.1 ≠ key := fun h => hkey (h ▸ List.mem_map_of_mem hsource)
  cases htaken : s.scene.store.contains source.1 with
  | true =>
    have hget : t.scene.store.get? source.1 = _ := Server.get?_taken a p hk htaken
    obtain ⟨o, ho⟩ := Option.isSome_iff_exists.1 htaken
    simp [Store.kind?, hget, ho]
  | false =>
    obtain ⟨y, hy, hyk⟩ := Server.exists_textureFrom? hlacks htaken
    obtain ⟨z, hz⟩ := Server.get?_new p hk (List.mem_filterMap.2 ⟨source, hsource, hy⟩) hyk
    have hget : t.scene.store.get? source.1 = some (.texture z) := hz
    have hnone : s.scene.store.get? source.1 = none := by simpa [Store.contains] using htaken
    simp [Store.kind?, hget, hnone, SceneObject.kind]

/-- On a server without objects, the texture is created. -/
theorem mesh_from_asset_kinds_twice :
    "tree" ∉ Asset.twice.flatten.sourceKeys ∧
      ∃ mesh, ((Server.new {} .blank).change
          (.createMeshFromAsset "tree" .twice .unmoved)).2.scene.store.get? "tree" =
            some (.mesh mesh) ∧
        mesh.surface.textures = ["bark", "bark"] ∧
        ((Server.new {} .blank).change
          (.createMeshFromAsset "tree" .twice .unmoved)).2.scene.store.kind? "bark" =
            some .texture := by
  have hkey : "tree" ∉ Asset.twice.flatten.sourceKeys := by decide
  obtain ⟨mesh, hmesh, hkinds⟩ :=
    mesh_from_asset_kinds (.new {} .blank) "tree" .twice .unmoved hkey
  have htextures : mesh.surface.textures = ["bark", "bark"] := by
    have hsame := hmesh.symm.trans (Server.get?_mesh (.new {} .blank) "tree" .twice .unmoved)
    obtain rfl : mesh = _ := by simpa using hsame
    decide
  exact ⟨hkey, mesh, hmesh, htextures, hkinds "bark" (by simp [htextures]) (by decide)⟩

/-- A server on which a sphere has been created under the key of a texture. -/
def Machine.barked : Machine :=
  run (ofCall (.new {} .blank)
    (.change (.createSphere { key := "bark", radius := 1, pos := Vec3.zero }))) 3

/-- Where a key is taken, the texture is not created, and the mesh refers to what is there. -/
theorem taken_key_shown :
    Machine.barked.Reachable {} .blank ∧ "tree" ∉ Asset.twice.flatten.sourceKeys ∧
      ∃ mesh, (Machine.barked.server.change
          (.createMeshFromAsset "tree" .twice .unmoved)).2.scene.store.get? "tree" =
            some (.mesh mesh) ∧
        "bark" ∈ mesh.surface.textures ∧
        (Machine.barked.server.change
          (.createMeshFromAsset "tree" .twice .unmoved)).2.scene.store.kind? "bark" =
            some .sphere := by
  have hreachable : Machine.barked.Reachable {} .blank :=
    Machine.Reachable.callRun (m := ⟨.new {} .blank, []⟩) .refl rfl _ 3
  have hkind : Machine.barked.server.scene.store.kind? "bark" = some .sphere := rfl
  have hget : (Machine.barked.server.createMeshFromAsset "tree" .twice .unmoved).scene.store.get?
      "bark" = Machine.barked.server.scene.store.get? "bark" :=
    Server.get?_taken _ _ (by decide) rfl
  exact ⟨hreachable, by decide, _, Server.get?_mesh _ _ _ _, by decide,
    (congrArg (Option.map SceneObject.kind) hget).trans hkind⟩

end LiveScene
