import Mathlib.Data.List.Nodup
import LiveScene.Proofs.Asset.Regions

/-!
# The textures of a flattened asset

A placed submesh is kept if it has a vertex and a usable face (`Asset.kept`). For each submesh that
it keeps, the walk notes a texture key, and a source if none is known under that key. So a flattened
asset, however large, has the texture keys of the kept submeshes and the first of their sources
under each key (`Asset.flatten_textured`). Every texture that a region refers to has a source, then,
and no two sources have the same key (`Asset.flatten_sourced`).

Taking textures away again blanks their keys wherever they stand and forgets their sources, in
whatever order and however often it is done (`FlatMesh.foldl_untexture`). The sources that are left
are those of the regions that are still textured, each under the key that has reached it first
(`textures_tabled`).
-/

namespace LiveScene

/-! ## The first source under each key -/

/-- A source is kept if it is the first under its key. -/
theorem mem_firstSources_iff {sources : List (String × TextureSource)}
    {s : String × TextureSource} :
    s ∈ firstSources sources ↔ sources.find? (·.1 == s.1) = some s := by
  induction sources using List.reverseRecOn with
  | nil => simp [firstSources, withEarlier]
  | append_singleton sources last ih =>
    rw [firstSources_concat, List.find?_append]
    cases hany : sources.any (·.1 == last.1) with
    | true =>
      rw [if_pos rfl, ih]
      by_cases hkey : last.1 = s.1
      · have hsome : (sources.find? (·.1 == s.1)).isSome := by
          rw [List.find?_isSome, ← List.any_eq_true, ← hkey]
          exact hany
        obtain ⟨first, hfirst⟩ := Option.isSome_iff_exists.1 hsome
        rw [hfirst, Option.some_or]
      · simp [hkey]
    | false =>
      rw [if_neg Bool.false_ne_true, List.mem_append, List.mem_singleton, ih]
      by_cases hkey : last.1 = s.1
      · have hnone : sources.find? (·.1 == s.1) = none := by
          rw [hkey] at hany
          simpa using hany
        simp [hnone, hkey, eq_comm]
      · have hne : s ≠ last := fun h => hkey (congrArg Prod.fst h).symm
        simp [hkey, hne]

/-- The kept sources have the keys of all. -/
theorem mem_keys_firstSources {sources : List (String × TextureSource)} {key : String} :
    key ∈ (firstSources sources).map (·.1) ↔ key ∈ sources.map (·.1) := by
  have h := Bool.eq_iff_iff.1 (any_firstSources sources key)
  simpa using h

/-- The kept sources stand in the order in which their keys first occur. -/
theorem pairwise_idxOf_firstSources (sources : List (String × TextureSource)) :
    ((firstSources sources).map (·.1)).Pairwise fun x y =>
      (sources.map (·.1)).idxOf x < (sources.map (·.1)).idxOf y := by
  induction sources using List.reverseRecOn with
  | nil => exact .nil
  | append_singleton sources last ih =>
    have hidx {x : String} (hx : x ∈ (firstSources sources).map (·.1)) :
        ((sources ++ [last]).map (·.1)).idxOf x = (sources.map (·.1)).idxOf x := by
      rw [List.map_append, List.idxOf_append_of_mem (mem_keys_firstSources.1 hx)]
    have hearlier := ih.imp_of_mem fun {x y} hx hy h => by rwa [← hidx hx, ← hidx hy] at h
    rw [firstSources_concat]
    split
    case isTrue => exact hearlier
    case isFalse hnew =>
      have hkeys : (firstSources sources ++ [last]).map (·.1) =
          (firstSources sources).map (·.1) ++ [last.1] := List.map_append
      rw [hkeys, List.pairwise_append]
      refine ⟨hearlier, List.pairwise_singleton _ _, fun x hx y hy => ?_⟩
      obtain rfl := List.mem_singleton.1 hy
      have hlast : last.1 ∉ sources.map (·.1) := by simpa using hnew
      have hlt := List.idxOf_lt_length_iff.2 (mem_keys_firstSources.1 hx)
      rw [hidx hx, List.map_append, List.idxOf_append_of_notMem hlast]
      omega

/-! ## Kept submeshes -/

/-- Whether a placed submesh is kept: it has a vertex and a usable face. -/
def Placed.isKept (p : Placed) : Bool := !p.mesh.vertices.isEmpty && !p.mesh.usableFaces.isEmpty

/-- The placed submeshes that are kept, in the order of the tree. -/
def Asset.kept (a : Asset) : List Placed := a.placements.filter Placed.isKept

namespace FlatMesh

variable {a : Asset} {flat : FlatMesh} {ps : List Placed} {m : Submesh} {t : Mat4}

/-- A flat mesh has the texture keys of some placed submeshes, and the first of their sources under
each key. -/
structure Textured (a : Asset) (ps : List Placed) (flat : FlatMesh) : Prop where
  textures : flat.surface.textures = ps.map (Placed.textureKey a)
  sources : flat.sources = firstSources (ps.filterMap (Placed.texture? a))

namespace Textured

theorem note (h : flat.Textured a ps) (d : Defect) : (flat.note d).Textured a ps :=
  ⟨h.textures, h.sources⟩

theorem addUntextured (h : flat.Textured a ps) (faces : List Face)
    (htexture : m.material.bind a.textureFor? = none) :
    (flat.addRegion m t faces "").Textured a (ps ++ [⟨m, t⟩]) := by
  have hlast : (Placed.mk m t).texture? a = none := htexture
  constructor
  case textures => simp [addRegion, h.textures, Placed.textureKey, hlast]
  case sources =>
    rw [List.filterMap_append, List.filterMap_cons_none hlast, List.filterMap_nil, List.append_nil]
    exact h.sources

theorem addTextured (h : flat.Textured a ps) (faces : List Face) {key : String}
    {source : TextureSource} (htexture : m.material.bind a.textureFor? = some (key, source)) :
    ((flat.addRegion m t faces key).addSource key source).Textured a (ps ++ [⟨m, t⟩]) := by
  have hlast : (Placed.mk m t).texture? a = some (key, source) := htexture
  constructor
  case textures =>
    rw [surface_addSource]
    simp [addRegion, h.textures, Placed.textureKey, hlast]
  case sources =>
    have hsources : (flat.addRegion m t faces key).sources =
        firstSources (ps.filterMap (Placed.texture? a)) := h.sources
    rw [sources_addSource, hsources, List.filterMap_append, List.filterMap_cons_some hlast,
      List.filterMap_nil, firstSources_concat, any_firstSources]

/-- A submesh is kept, or nothing is appended. -/
theorem append (h : flat.Textured a ps) (node : String) (t : Mat4) (m : Submesh) :
    (flat.append a node t m).Textured a (ps ++ [⟨m, t⟩].filter Placed.isKept) := by
  have hkept : (m.vertices.isEmpty || m.usableFaces.isEmpty) = !(Placed.mk m t).isKept := by
    simp [Placed.isKept]
  unfold FlatMesh.append
  simp only [hkept]
  generalize hnoted : (if m.usableFaces.length < m.faces.length then
    flat.note (.facesDropped node (m.faces.length - m.usableFaces.length)) else flat) = noted
  have hn : noted.Textured a ps := by
    rw [← hnoted]
    split
    · exact h.note _
    · exact h
  cases hk : (Placed.mk m t).isKept with
  | false => simpa [hk] using hn.note (.emptySubmesh node)
  | true =>
    cases htexture : m.material.bind a.textureFor? with
    | none => simpa [hk] using hn.addUntextured m.usableFaces htexture
    | some texture => simpa [hk] using hn.addTextured m.usableFaces htexture

theorem appendIndex (h : flat.Textured a ps) (r : Reference) :
    (flat.appendIndex a r.node r.transform r.index).Textured a
      (ps ++ (a.place? r).toList.filter Placed.isKept) := by
  unfold FlatMesh.appendIndex
  cases hm : a.meshes[r.index]? with
  | none => simpa [Asset.place?, hm] using h.note _
  | some m => simpa [Asset.place?, hm] using h.append r.node r.transform m

theorem foldl_appendIndex (h : flat.Textured a ps) (refs : List Reference) :
    (refs.foldl (fun flat r => flat.appendIndex a r.node r.transform r.index) flat).Textured a
      (ps ++ (refs.filterMap a.place?).filter Placed.isKept) := by
  induction refs generalizing flat ps with
  | nil => simpa using h
  | cons r refs ih =>
    have hsplit : (r :: refs).filterMap a.place? =
        (a.place? r).toList ++ refs.filterMap a.place? := by
      cases h : a.place? r <;> simp [h]
    rw [hsplit, List.filter_append, ← List.append_assoc]
    exact ih (h.appendIndex r)

end Textured

end FlatMesh

/-- A flattened asset has the textures of the submeshes that are kept. -/
theorem Asset.flatten_textured (a : Asset) : a.flatten.Textured a a.kept := by
  have hempty : FlatMesh.Textured a [] {} := ⟨rfl, rfl⟩
  rw [a.flatten_eq_foldl]
  exact hempty.foldl_appendIndex a.root.references

/-! ## Sources and regions -/

namespace FlatMesh

/-- The keys of the sources. -/
def sourceKeys (flat : FlatMesh) : List String := flat.sources.map (·.1)

/-- Every texture that a region refers to has a source, and there is one to a key. -/
structure Sourced (flat : FlatMesh) : Prop where
  nodup : flat.sourceKeys.Nodup
  known : ∀ x ∈ flat.surface.textures, x = "" ∨ x ∈ flat.sourceKeys

variable {a : Asset} {flat : FlatMesh} {ps : List Placed}

namespace Textured

theorem pairwise_sourceKeys (h : flat.Textured a ps) : flat.sourceKeys.Pairwise fun x y =>
    ((ps.filterMap (Placed.texture? a)).map (·.1)).idxOf x <
      ((ps.filterMap (Placed.texture? a)).map (·.1)).idxOf y := by
  rw [sourceKeys, h.sources]
  exact pairwise_idxOf_firstSources _

theorem mem_sourceKeys_iff (h : flat.Textured a ps) {key : String} :
    key ∈ flat.sourceKeys ↔ ∃ p ∈ ps, ∃ source, p.texture? a = some (key, source) := by
  rw [sourceKeys, h.sources, mem_keys_firstSources]
  simp only [List.mem_map, List.mem_filterMap, Prod.exists, exists_and_right, exists_eq_right]
  exact ⟨fun ⟨source, p, hp, h⟩ => ⟨p, hp, source, h⟩, fun ⟨p, hp, source, h⟩ => ⟨source, p, hp, h⟩⟩

theorem sourced (h : flat.Textured a ps) : flat.Sourced where
  nodup := h.pairwise_sourceKeys.imp fun {x y} hlt hxy => absurd hlt (by simp [hxy])
  known x hx := by
    rw [h.textures] at hx
    obtain ⟨p, hp, rfl⟩ := List.mem_map.1 hx
    cases htexture : p.texture? a with
    | none => exact Or.inl (by simp [Placed.textureKey, htexture])
    | some texture =>
      refine Or.inr (h.mem_sourceKeys_iff.2 ⟨p, hp, texture.2, ?_⟩)
      simp [Placed.textureKey, htexture]

/-- Every key with a source is the texture of some region. -/
theorem mem_textures (h : flat.Textured a ps) {key : String} (hkey : key ∈ flat.sourceKeys) :
    key ∈ flat.surface.textures := by
  obtain ⟨p, hp, source, hsource⟩ := h.mem_sourceKeys_iff.1 hkey
  rw [h.textures]
  exact List.mem_map.2 ⟨p, hp, by simp [Placed.textureKey, hsource]⟩

end Textured

end FlatMesh

theorem Asset.flatten_sourced (a : Asset) : a.flatten.Sourced := a.flatten_textured.sourced

/-! ## Taking textures away -/

/-- A surface without the textures under some keys. -/
def Surface.without (s : Surface) (keys : List String) : Surface :=
  { s with textures := s.textures.map fun x => if x ∈ keys then "" else x }

namespace FlatMesh

variable {flat : FlatMesh} {keys : List String} {x : String}

/-- Taking some textures away blanks their keys and forgets their sources. -/
theorem foldl_untexture (flat : FlatMesh) (keys : List String) :
    keys.foldl untexture flat = { flat with
      surface := flat.surface.without keys
      sources := flat.sources.filter (·.1 ∉ keys) } := by
  induction keys generalizing flat with
  | nil => simp [Surface.without]
  | cons key keys ih =>
    rw [List.foldl_cons, ih]
    simp only [Surface.without, untexture, List.map_map, List.filter_filter]
    congr 2
    · refine List.map_congr_left fun x _ => ?_
      by_cases hx : x = key <;> simp [hx]
    · funext s
      by_cases hs : s.1 = key <;> simp [hs]

theorem surface_foldl_untexture (flat : FlatMesh) (keys : List String) :
    (keys.foldl untexture flat).surface = flat.surface.without keys := by
  rw [foldl_untexture]

/-- The keys that are left are those that have not been taken away. -/
theorem sourceKeys_foldl_untexture (flat : FlatMesh) (keys : List String) :
    (keys.foldl untexture flat).sourceKeys = flat.sourceKeys.filter (· ∉ keys) := by
  rw [foldl_untexture, sourceKeys, sourceKeys, List.filter_map]
  rfl

/-- A texture of some region stays there unless it is taken away. -/
theorem mem_textures_foldl_untexture (h : x ∈ flat.surface.textures) (hx : x ∉ keys) :
    x ∈ (keys.foldl untexture flat).surface.textures := by
  rw [surface_foldl_untexture]
  exact List.mem_map.2 ⟨x, h, if_neg hx⟩

/-- A texture that is left on some region has been there and has not been taken away. -/
theorem of_mem_textures_foldl_untexture (h : x ∈ (keys.foldl untexture flat).surface.textures)
    (hne : x ≠ "") : x ∈ flat.surface.textures ∧ x ∉ keys := by
  rw [surface_foldl_untexture] at h
  obtain ⟨y, hy, hyx⟩ := List.mem_map.1 h
  by_cases hkey : y ∈ keys
  · rw [if_pos hkey] at hyx
    exact absurd hyx.symm hne
  · rw [if_neg hkey] at hyx
    exact hyx ▸ ⟨hy, hkey⟩

end FlatMesh

/-! ## The table of textures -/

namespace Asset

/-- The keys of the images that the kept submeshes have, in the order of the tree. -/
def reachedKeys (a : Asset) : List String := (a.kept.filterMap (Placed.texture? a)).map (·.1)

/-- The first kept submesh with an image under a key. -/
def firstWith? (a : Asset) (key : String) : Option Placed :=
  a.kept.find? fun p => (p.texture? a).any (·.1 == key)

end Asset

/-- The sources of a flat mesh are a table of the textures of its regions, without those under some
keys that have been taken away. -/
structure FlatMesh.Tabled (a : Asset) (keys : List String) (flat : FlatMesh) : Prop where
  /-- the keys stand in the order in which they are reached -/
  ordered : flat.sourceKeys.Pairwise fun x y => a.reachedKeys.idxOf x < a.reachedKeys.idxOf y
  distinct : flat.sourceKeys.Nodup
  /-- every texture of a region has one source -/
  once : ∀ x ∈ flat.surface.textures, x ≠ "" → flat.sourceKeys.count x = 1
  /-- every source is that of a texture of some region -/
  used : ∀ x ∈ flat.sourceKeys, x ∈ flat.surface.textures
  /-- every source is that of the material of the first submesh with the key -/
  first : ∀ s ∈ flat.sources, ∃ p, a.firstWith? s.1 = some p ∧
    p.mesh.material.bind a.textureFor? = some s
  /-- what has been taken away is gone -/
  gone : ∀ x ∈ keys, x ∉ flat.sourceKeys ∧ (x ≠ "" → x ∉ flat.surface.textures)

theorem Asset.first_of_mem_sources {a : Asset} {s : String × TextureSource}
    (h : s ∈ a.flatten.sources) :
    ∃ p, a.firstWith? s.1 = some p ∧ p.mesh.material.bind a.textureFor? = some s := by
  rw [a.flatten_textured.sources, mem_firstSources_iff, List.find?_filterMap] at h
  exact Option.bind_eq_some_iff.1 h

/-- However often and in whatever order textures are taken away from a flattened asset, the sources
are a table of the textures of its regions: the keys are distinct and in the order in which they
are reached, every key of a region that is left has one source, every source is that of the first
kept submesh with its key and belongs to some region, and nothing is left of what has been taken
away. Nothing else is changed by it, and the outcome is told by the set of keys alone. -/
theorem textures_tabled (a : Asset) (keys : List String) :
    let flat := keys.foldl FlatMesh.untexture a.flatten
    flat.Tabled a keys ∧
      flat = { a.flatten with
        surface := { a.flatten.surface with textures := flat.surface.textures }
        sources := flat.sources } ∧
      ∀ keys' : List String, (∀ x, x ∈ keys' ↔ x ∈ keys) →
        keys'.foldl FlatMesh.untexture a.flatten = flat := by
  intro flat
  have hflat : flat = _ := a.flatten.foldl_untexture keys
  have hkeys : flat.sourceKeys = a.flatten.sourceKeys.filter (· ∉ keys) :=
    a.flatten.sourceKeys_foldl_untexture keys
  have hmem {x : String} : x ∈ flat.sourceKeys ↔ x ∈ a.flatten.sourceKeys ∧ x ∉ keys := by
    rw [hkeys, List.mem_filter, decide_eq_true_iff]
  have hdistinct : flat.sourceKeys.Nodup := hkeys ▸ a.flatten_sourced.nodup.filter _
  refine ⟨?_, by rw [hflat]; rfl, fun keys' hsame => ?_⟩
  · constructor
    case ordered => exact hkeys ▸ a.flatten_textured.pairwise_sourceKeys.filter _
    case distinct => exact hdistinct
    case once =>
      intro x hx hne
      obtain ⟨hregion, hleft⟩ := FlatMesh.of_mem_textures_foldl_untexture hx hne
      have hsource := (a.flatten_sourced.known x hregion).resolve_left hne
      exact List.count_eq_one_of_mem hdistinct (hmem.2 ⟨hsource, hleft⟩)
    case used =>
      intro x hx
      obtain ⟨hsource, hleft⟩ := hmem.1 hx
      exact FlatMesh.mem_textures_foldl_untexture (a.flatten_textured.mem_textures hsource) hleft
    case first =>
      intro s hs
      rw [hflat] at hs
      exact Asset.first_of_mem_sources (List.mem_filter.1 hs).1
    case gone =>
      intro x hx
      exact ⟨fun h => (hmem.1 h).2 hx,
        fun hne h => (FlatMesh.of_mem_textures_foldl_untexture h hne).2 hx⟩
  · rw [hflat, FlatMesh.foldl_untexture]
    simp only [Surface.without, hsame]

/-- A patch with a texture within the asset, one with a texture in a file, and the first again. -/
def Asset.quilt : Asset where
  root := { meshes := [0, 1, 0] }
  meshes := [
    { vertices := [⟨0, 0, 0⟩, ⟨1, 0, 0⟩, ⟨0, 1, 0⟩], faces := [⟨0, 1, 2⟩], material := some 0 },
    { vertices := [⟨1, 1, 0⟩, ⟨1, 0, 0⟩, ⟨0, 1, 0⟩], faces := [⟨0, 1, 2⟩], material := some 1 }]
  materials := [
    { texture := some (.embedded "silk" "aGk=") }, { texture := some (.file "moss.png") }]
  baseDir := some "/assets"

/-- Without the silk, the moss is the only texture. -/
theorem textures_tabled_quilt :
    (∀ x, x ∈ ["silk", "silk"] ↔ x ∈ ["silk"]) ∧
      let flat := ["silk"].foldl FlatMesh.untexture Asset.quilt.flatten
      flat.surface.textures = ["", "/assets/moss.png", ""] ∧
        flat.sources = [("/assets/moss.png", .file "/assets/moss.png")] ∧
        "silk" ∉ flat.sourceKeys ∧ flat.sourceKeys.count "/assets/moss.png" = 1 ∧
        ["silk", "silk"].foldl FlatMesh.untexture Asset.quilt.flatten = flat := by
  have hsame : ∀ x, x ∈ ["silk", "silk"] ↔ x ∈ ["silk"] := by simp
  obtain ⟨htable, -, hset⟩ := textures_tabled .quilt ["silk"]
  exact ⟨hsame, by decide, by decide, (htable.gone "silk" (.head _)).1,
    htable.once "/assets/moss.png" (by decide) (by decide), hset _ hsame⟩

end LiveScene
