import Mathlib.Algebra.GroupWithZero.Nat
import Mathlib.Data.List.Induction
import LiveScene.Asset.Flatten

/-!
# The regions of a flattened asset

Flattening walks a tree and keeps seven lists at once, skipping what cannot be used. What it
computes is said here without the walk. The references of a tree to submeshes are listed in its
order (`Node.references`), each with the transforms on the way down to it; those that do not dangle
place a submesh (`Asset.placements`), and a placed submesh with a vertex and a face over its own
vertices is shown (`Asset.shown`). A surface shows some placed submeshes (`Surface.Shows`) if each
of its lists is put together from them one after the other, where faces and starts count what the
earlier ones have brought.

The walk is a fold over the references (`FlatMesh.visit_eq_foldl`). A step appends the region of one
reference or nothing (`FlatMesh.Shows.appendIndex`), so `flatten_shows` is a matter of induction on
the references. Indices are of 32 bits and do not wrap around as long as the placed submeshes have
fewer than `2 ^ 32` vertices together.
-/

namespace LiveScene

/-! ## References of a tree -/

/-- A reference of a node to a submesh. -/
structure Reference where
  /-- the name of the node -/
  node : String
  /-- the transforms on the way down from the root, that of the node the last -/
  path : List Mat4
  /-- the index of the submesh -/
  index : Nat

namespace Reference

/-- A reference below a node with the transform `t`. -/
def under (t : Mat4) (r : Reference) : Reference := { r with path := t :: r.path }

/-- The product of the transforms on the way down, from the left. -/
def transform (r : Reference) : Mat4 := r.path.foldl (· * ·) Mat4.identity

end Reference

mutual

/-- The references in the tree of a node: its own, and then those of its children. -/
def Node.references : Node → List Reference
  | ⟨name, transform, meshes, children⟩ =>
    meshes.map (⟨name, [transform], ·⟩) ++ (Node.referencesAll children).map (·.under transform)

/-- The references in some trees, one after the other. -/
def Node.referencesAll : List Node → List Reference
  | [] => []
  | node :: nodes => node.references ++ Node.referencesAll nodes

end

/-! ## Placed submeshes -/

/-- The indices of a face, as numbers. -/
def Face.indices (f : Face) : List Nat := [f.a.toNat, f.b.toNat, f.c.toNat]

/-- The faces of a submesh whose indices are all below the number of its vertices. -/
def Submesh.facesWithin (m : Submesh) : List Face :=
  m.faces.filter fun f => f.indices.all (· < m.vertices.length)

/-- A submesh and the transform under which it is seen. -/
structure Placed where
  mesh : Submesh
  transform : Mat4

namespace Placed

/-- Whether there is anything to show of a placed submesh. -/
def isShown (p : Placed) : Bool := !p.mesh.vertices.isEmpty && !p.mesh.facesWithin.isEmpty

/-- The vertices where they are seen. -/
def vertices (p : Placed) : List Vec3 := p.mesh.vertices.map p.transform.transformPoint

/-- One normal for each vertex: the given one, turned and brought to length one, or null. -/
def normals (p : Placed) : List Vec3 :=
  (List.range p.mesh.vertices.length).map fun i =>
    match p.mesh.normals[i]? with
    | some v => (p.transform.normalMatrix.apply v).normalizeOrZero
    | none => Vec3.zero

/-- One texture coordinate for each vertex: the given one, or null. -/
def uv (p : Placed) : List Vec2 :=
  (List.range p.mesh.vertices.length).map fun i => p.mesh.uvs[i]?.getD Vec2.zero

/-- The key and the source of the image, if the material of the submesh has one. -/
def texture? (a : Asset) (p : Placed) : Option (String × TextureSource) :=
  p.mesh.material.bind a.textureFor?

/-- The key of the image, empty if there is none. -/
def textureKey (a : Asset) (p : Placed) : String := ((p.texture? a).map (·.1)).getD ""

/-- How many vertices some placed submeshes have. -/
def vertexCount (ps : List Placed) : Nat := (ps.map (·.mesh.vertices.length)).sum

/-- How many faces some placed submeshes have over their own vertices. -/
def faceCount (ps : List Placed) : Nat := (ps.map (·.mesh.facesWithin.length)).sum

@[simp] theorem vertexCount_append (ps qs : List Placed) :
    vertexCount (ps ++ qs) = vertexCount ps + vertexCount qs := by
  simp [vertexCount]

@[simp] theorem vertexCount_cons (p : Placed) (ps : List Placed) :
    vertexCount (p :: ps) = p.mesh.vertices.length + vertexCount ps := by
  simp [vertexCount]

theorem vertexCount_filter_le (f : Placed → Bool) (ps : List Placed) :
    vertexCount (ps.filter f) ≤ vertexCount ps := by
  induction ps with
  | nil => exact Nat.le_refl _
  | cons p ps ih =>
    rw [List.filter_cons, vertexCount_cons]
    split
    · rw [vertexCount_cons]
      omega
    · omega

end Placed

/-- The submesh that a reference places, if it does not dangle. -/
def Asset.place? (a : Asset) (r : Reference) : Option Placed :=
  a.meshes[r.index]?.map (⟨·, r.transform⟩)

/-- The submeshes that an asset places, in the order of its tree. -/
def Asset.placements (a : Asset) : List Placed := a.root.references.filterMap a.place?

/-- The placed submeshes that are shown. -/
def Asset.shown (a : Asset) : List Placed := a.placements.filter Placed.isShown

/-! ## Surfaces put together -/

/-- The elements of a list, each with those before it. -/
def withEarlier {α : Type} (xs : List α) : List (α × List α) :=
  xs.zipIdx.map fun (x, i) => (x, xs.take i)

/-- The first of the sources under each key. -/
def firstSources (sources : List (String × TextureSource)) : List (String × TextureSource) :=
  (withEarlier sources).filterMap fun (s, earlier) =>
    if earlier.any (·.1 == s.1) then none else some s

/-- A surface is put together from placed submeshes, each with a texture of `a`. -/
structure Surface.Shows (a : Asset) (ps : List Placed) (s : Surface) : Prop where
  vertices : s.vertices = ps.flatMap Placed.vertices
  normals : s.normals = ps.flatMap Placed.normals
  uv : s.uv = ps.flatMap Placed.uv
  faces : s.faces.map Face.indices = (withEarlier ps).flatMap fun (p, earlier) =>
    p.mesh.facesWithin.map fun f => f.indices.map (Placed.vertexCount earlier + ·)
  textures : s.textures = ps.map (Placed.textureKey a)
  starts : s.starts = (withEarlier ps).map fun (_, earlier) => 3 * Placed.faceCount earlier

/-- A flat mesh shows some placed submeshes: its surface is put together from them, and its sources
are the first under each key that they have. -/
structure FlatMesh.Shows (a : Asset) (ps : List Placed) (flat : FlatMesh) : Prop where
  surface : flat.surface.Shows a ps
  sources : flat.sources = firstSources (ps.filterMap (Placed.texture? a))

/-- What the elements contribute to a list has the same length whatever comes before them. -/
theorem length_flatMap_withEarlier {α β : Type} (xs : List α) {f : α × List α → List β}
    {g : α → Nat} (h : ∀ x earlier, (f (x, earlier)).length = g x) :
    ((withEarlier xs).flatMap f).length = (xs.map g).sum := by
  have hlengths : (withEarlier xs).map (fun p => (f p).length) = xs.map g := by
    calc (withEarlier xs).map (fun p => (f p).length)
        = xs.zipIdx.map fun p => g p.1 := by simp [withEarlier, h, Function.comp_def]
      _ = (xs.zipIdx.map (·.1)).map g := by rw [List.map_map]; rfl
      _ = xs.map g := by rw [List.zipIdx_map_fst]
  rw [List.length_flatMap, hlengths]

theorem withEarlier_concat {α : Type} (xs : List α) (x : α) :
    withEarlier (xs ++ [x]) = withEarlier xs ++ [(x, xs)] := by
  have hbefore : ∀ p ∈ xs.zipIdx, (p.1, (xs ++ [x]).take p.2) = (p.1, xs.take p.2) := by
    intro p hp
    have hlt : p.2 < xs.length := by
      have := List.mem_zipIdx hp
      omega
    rw [List.take_append_of_le_length (Nat.le_of_lt hlt)]
  simp only [withEarlier, List.zipIdx_append, List.map_append]
  rw [List.map_congr_left hbefore]
  simp

theorem firstSources_concat (sources : List (String × TextureSource))
    (s : String × TextureSource) :
    firstSources (sources ++ [s]) =
      if sources.any (·.1 == s.1) then firstSources sources else firstSources sources ++ [s] := by
  simp only [firstSources, withEarlier_concat, List.filterMap_append, List.filterMap_cons,
    List.filterMap_nil]
  cases sources.any (·.1 == s.1) <;> simp

/-- The kept sources have the keys of all. -/
theorem any_firstSources (sources : List (String × TextureSource)) (key : String) :
    (firstSources sources).any (·.1 == key) = sources.any (·.1 == key) := by
  induction sources using List.reverseRecOn with
  | nil => rfl
  | append_singleton sources s ih =>
    rw [firstSources_concat]
    by_cases h : sources.any (·.1 == s.1)
    · rw [if_pos h, ih, List.any_append, List.any_cons, List.any_nil, Bool.or_false]
      by_cases hkey : s.1 = key
      · rw [← hkey, h]
        rfl
      · simp [hkey]
    · simp [h, ih]

namespace FlatMesh

/-! ## The walk over the references -/

mutual

/-- Visiting a node is appending what its references refer to, in order. -/
theorem visit_eq_foldl (a : Asset) (parent : Mat4) (flat : FlatMesh) : (node : Node) →
    visit a parent flat node = node.references.foldl
      (fun flat r => flat.appendIndex a r.node (r.path.foldl (· * ·) parent) r.index) flat
  | ⟨name, transform, meshes, children⟩ => by
    rw [visit, Node.references, List.foldl_append, List.foldl_map, List.foldl_map,
      visitAll_eq_foldl a (parent * transform)]
    rfl

theorem visitAll_eq_foldl (a : Asset) (parent : Mat4) (flat : FlatMesh) : (nodes : List Node) →
    visitAll a parent flat nodes = (Node.referencesAll nodes).foldl
      (fun flat r => flat.appendIndex a r.node (r.path.foldl (· * ·) parent) r.index) flat
  | [] => rfl
  | node :: nodes => by
    rw [visitAll, Node.referencesAll, List.foldl_append, visit_eq_foldl a parent flat node,
      visitAll_eq_foldl a parent _ nodes]

end

end FlatMesh

/-! ## Submeshes -/

theorem takeOr_eq_map_range {α : Type} (n : Nat) (d : α) (xs : List α) :
    takeOr n d xs = (List.range n).map fun i => xs[i]?.getD d := by
  apply List.ext_getElem?
  intro i
  rw [takeOr, List.getElem?_append, List.length_take, List.getElem?_take, List.getElem?_replicate,
    List.getElem?_map]
  by_cases hn : i < n
  · rw [List.getElem?_range hn]
    by_cases hxs : i < xs.length
    · have hmin : i < min n xs.length := by omega
      simp [hn, hxs, hmin]
    · have hmin : ¬ i < min n xs.length := by omega
      have hrest : i - min n xs.length < n - xs.length := by omega
      simp [hxs, hmin, hrest]
  · simp [hn]
    omega

namespace Face

theorem toNat_max (x y : UInt32) : (max x y).toNat = max x.toNat y.toNat := by
  have hle : x.toNat ≤ y.toNat ↔ x ≤ y := UInt32.le_iff_toNat_le.symm
  simp only [Nat.max_def, hle]
  exact apply_ite UInt32.toNat (x ≤ y) y x

/-- The greatest index of a face is below a number if all three are. -/
theorem greatest_lt_iff (f : Face) {n : Nat} (hn : n < 0x100000000) :
    f.greatest < UInt32.ofNat n ↔ ∀ i ∈ f.indices, i < n := by
  have hcount : (UInt32.ofNat n).toNat = n := UInt32.toNat_ofNat_of_lt hn
  rw [UInt32.lt_iff_toNat_lt, hcount, greatest, toNat_max, toNat_max, Nat.max_lt, Nat.max_lt]
  simp [indices, and_assoc]

/-- Raised indices do not wrap around while they stay in range. -/
theorem indices_shift {f : Face} {base n : Nat} (hbase : base + n < 0x100000000)
    (hf : ∀ i ∈ f.indices, i < n) :
    (f.shift (UInt32.ofNat base)).indices = f.indices.map (base + ·) := by
  have hcount : (UInt32.ofNat base).toNat = base :=
    UInt32.toNat_ofNat_of_lt (Nat.lt_of_le_of_lt (Nat.le_add_right base n) hbase)
  have hadd : ∀ x : UInt32, x.toNat < n → (x + UInt32.ofNat base).toNat = base + x.toNat := by
    intro x hx
    rw [UInt32.toNat_add, hcount, Nat.mod_eq_of_lt (by omega), Nat.add_comm]
  simp only [indices, List.mem_cons, List.not_mem_nil, or_false, forall_eq_or_imp, forall_eq] at hf
  obtain ⟨ha, hb, hc⟩ := hf
  simp [indices, shift, hadd, ha, hb, hc]

end Face

namespace Submesh

theorem usableFaces_eq {m : Submesh} (h : m.vertices.length < 0x100000000) :
    m.usableFaces = m.facesWithin := by
  refine List.filter_congr ?_
  intro f _
  rw [hasFace, Bool.eq_iff_iff, decide_eq_true_iff, f.greatest_lt_iff h]
  simp

theorem lt_of_mem_facesWithin {m : Submesh} {f : Face} (hf : f ∈ m.facesWithin) {i : Nat}
    (hi : i ∈ f.indices) : i < m.vertices.length := by
  have hall := (List.mem_filter.1 hf).2
  simpa using List.all_eq_true.1 hall i hi

theorem normalsUnder_eq (m : Submesh) (t : Mat4) : m.normalsUnder t = (Placed.mk m t).normals := by
  rw [normalsUnder, takeOr_eq_map_range]
  refine List.map_congr_left ?_
  intro i _
  cases h : m.normals[i]? <;> simp [h]

theorem uvPerVertex_eq (m : Submesh) (t : Mat4) : m.uvPerVertex = (Placed.mk m t).uv :=
  takeOr_eq_map_range _ _ _

end Submesh

/-! ## Appending -/

theorem Surface.Shows.length_vertices {a : Asset} {ps : List Placed} {s : Surface}
    (hs : s.Shows a ps) : s.vertices.length = Placed.vertexCount ps := by
  simp [hs.vertices, Placed.vertexCount, Placed.vertices, List.length_flatMap]

theorem Surface.Shows.length_faces {a : Asset} {ps : List Placed} {s : Surface}
    (hs : s.Shows a ps) : s.faces.length = Placed.faceCount ps := by
  rw [← List.length_map Face.indices, hs.faces]
  exact length_flatMap_withEarlier ps fun _ _ => by simp

namespace FlatMesh

variable {a : Asset} {flat : FlatMesh} {ps : List Placed} {m : Submesh} {t : Mat4}

/-- A region with the faces over its own vertices shows the submesh after the earlier ones. -/
theorem surface_addRegion (hs : flat.surface.Shows a ps)
    (hlt : Placed.vertexCount ps + m.vertices.length < 0x100000000) :
    (flat.addRegion m t m.facesWithin (Placed.textureKey a ⟨m, t⟩)).surface.Shows a
      (ps ++ [⟨m, t⟩]) := by
  have hvertices := hs.length_vertices
  have hfaces := hs.length_faces
  constructor
  case vertices => simp [addRegion, hs.vertices, Placed.vertices]
  case normals => simp [addRegion, hs.normals, m.normalsUnder_eq t]
  case uv => simp [addRegion, hs.uv, m.uvPerVertex_eq t]
  case faces =>
    have hshift :
        m.facesWithin.map (fun f => (f.shift (UInt32.ofNat (Placed.vertexCount ps))).indices) =
          m.facesWithin.map fun f => f.indices.map (Placed.vertexCount ps + ·) :=
      List.map_congr_left fun f hf =>
        Face.indices_shift hlt fun i hi => Submesh.lt_of_mem_facesWithin hf hi
    simp [addRegion, hs.faces, withEarlier_concat, hvertices, Function.comp_def, hshift]
  case textures => simp [addRegion, hs.textures]
  case starts => simp [addRegion, hs.starts, withEarlier_concat, hfaces, Nat.mul_comm]

theorem Shows.note (hs : flat.Shows a ps) (d : Defect) : (flat.note d).Shows a ps :=
  ⟨hs.surface, hs.sources⟩

theorem surface_addSource (flat : FlatMesh) (key : String) (source : TextureSource) :
    (flat.addSource key source).surface = flat.surface := by
  unfold addSource
  split <;> rfl

theorem sources_addSource (flat : FlatMesh) (key : String) (source : TextureSource) :
    (flat.addSource key source).sources =
      if flat.sources.any (·.1 == key) then flat.sources else flat.sources ++ [(key, source)] := by
  unfold addSource
  split <;> rfl

/-- A region without texture. -/
theorem Shows.addUntextured (hs : flat.Shows a ps)
    (hlt : Placed.vertexCount ps + m.vertices.length < 0x100000000)
    (h : m.material.bind a.textureFor? = none) :
    (flat.addRegion m t m.facesWithin "").Shows a (ps ++ [⟨m, t⟩]) := by
  have hlast : (Placed.mk m t).texture? a = none := h
  have hsurface := surface_addRegion (t := t) hs.surface hlt
  rw [Placed.textureKey, hlast] at hsurface
  refine ⟨hsurface, ?_⟩
  rw [List.filterMap_append, List.filterMap_cons_none hlast, List.filterMap_nil, List.append_nil]
  exact hs.sources

/-- A region with a texture, whose source is kept if it is the first under its key. -/
theorem Shows.addTextured (hs : flat.Shows a ps)
    (hlt : Placed.vertexCount ps + m.vertices.length < 0x100000000) {key : String}
    {source : TextureSource} (h : m.material.bind a.textureFor? = some (key, source)) :
    ((flat.addRegion m t m.facesWithin key).addSource key source).Shows a (ps ++ [⟨m, t⟩]) := by
  have hlast : (Placed.mk m t).texture? a = some (key, source) := h
  have hsurface := surface_addRegion (t := t) hs.surface hlt
  have hsources : (flat.addRegion m t m.facesWithin key).sources =
      firstSources (ps.filterMap (Placed.texture? a)) := hs.sources
  rw [Placed.textureKey, hlast] at hsurface
  refine ⟨(surface_addSource _ key source).symm ▸ hsurface, ?_⟩
  rw [sources_addSource, hsources, List.filterMap_append, List.filterMap_cons_some hlast,
    List.filterMap_nil, firstSources_concat, any_firstSources]

/-- A submesh is appended after the earlier ones if there is anything to show of it. -/
theorem Shows.append (hs : flat.Shows a ps) (node : String)
    (hlt : Placed.vertexCount ps + m.vertices.length < 0x100000000) :
    (flat.append a node t m).Shows a (ps ++ [⟨m, t⟩].filter Placed.isShown) := by
  have hfaces : m.usableFaces = m.facesWithin := m.usableFaces_eq (by omega)
  have hshown : (m.vertices.isEmpty || m.facesWithin.isEmpty) = !(Placed.mk m t).isShown := by
    simp [Placed.isShown]
  unfold FlatMesh.append
  simp only [hfaces, hshown]
  -- dropped faces are noted before anything is appended
  generalize hnoted : (if m.facesWithin.length < m.faces.length then
    flat.note (.facesDropped node (m.faces.length - m.facesWithin.length)) else flat) = noted
  have hs' : noted.Shows a ps := by
    rw [← hnoted]
    split
    · exact hs.note _
    · exact hs
  cases h : (Placed.mk m t).isShown with
  | false => simpa [h] using hs'.note (.emptySubmesh node)
  | true =>
    cases htexture : m.material.bind a.textureFor? with
    | none => simpa [h] using hs'.addUntextured hlt htexture
    | some texture => simpa [h] using hs'.addTextured hlt htexture

/-- A reference that does not dangle appends the submesh it places. -/
theorem Shows.appendIndex (hs : flat.Shows a ps) (r : Reference)
    (hlt : Placed.vertexCount ps + Placed.vertexCount (a.place? r).toList < 0x100000000) :
    (flat.appendIndex a r.node r.transform r.index).Shows a
      (ps ++ (a.place? r).toList.filter Placed.isShown) := by
  unfold FlatMesh.appendIndex
  cases hm : a.meshes[r.index]? with
  | none => simpa [Asset.place?, hm] using hs.note _
  | some m =>
    have hplace : (a.place? r).toList = [⟨m, r.transform⟩] := by simp [Asset.place?, hm]
    rw [hplace] at hlt ⊢
    exact hs.append r.node (by simpa [Placed.vertexCount] using hlt)

/-- The references of a tree append what they place, one after the other. -/
theorem Shows.foldl_appendIndex (hs : flat.Shows a ps) (refs : List Reference)
    (hlt : Placed.vertexCount ps + Placed.vertexCount (refs.filterMap a.place?) < 0x100000000) :
    (refs.foldl (fun flat r => flat.appendIndex a r.node r.transform r.index) flat).Shows a
      (ps ++ (refs.filterMap a.place?).filter Placed.isShown) := by
  induction refs generalizing flat ps with
  | nil => simpa using hs
  | cons r refs ih =>
    have hsplit : (r :: refs).filterMap a.place? =
        (a.place? r).toList ++ refs.filterMap a.place? := by
      cases h : a.place? r <;> simp [h]
    rw [hsplit, Placed.vertexCount_append] at hlt
    have hstep := hs.appendIndex r (by omega)
    have hrest := ih hstep (by
      have hle := Placed.vertexCount_filter_le Placed.isShown (a.place? r).toList
      rw [Placed.vertexCount_append]
      omega)
    rwa [List.append_assoc, ← List.filter_append, ← hsplit] at hrest

end FlatMesh

/-- Flattening is appending what the references of the tree refer to, in order. -/
theorem Asset.flatten_eq_foldl (a : Asset) : a.flatten = a.root.references.foldl
    (fun flat r => flat.appendIndex a r.node r.transform r.index) {} :=
  FlatMesh.visit_eq_foldl a Mat4.identity {} a.root

/-- A flattened asset shows what its tree places, submesh after submesh in the order of the tree:
vertices and normals under the product of the transforms on the way down, faces raised by the
vertices before them, a texture key and a start for each, and the first source of each texture. -/
theorem flatten_shows (a : Asset) (h : Placed.vertexCount a.placements < 0x100000000) :
    a.flatten.Shows a a.shown := by
  have hempty : FlatMesh.Shows a [] {} := ⟨by constructor <;> rfl, rfl⟩
  have hrun := hempty.foldl_appendIndex a.root.references
    (by simpa [Asset.placements, Placed.vertexCount] using h)
  rw [a.flatten_eq_foldl]
  exact hrun

/-- A triangle shown by a node and again, moved, by its child, beside references to a submesh that
does not exist and to one without faces. One face of the triangle is no face of its own. -/
def Asset.twice : Asset where
  root := {
    name := "root", meshes := [0, 9, 1],
    children := [{
      name := "child", meshes := [0],
      transform := ⟨⟨1, 0, 0, 0⟩, ⟨0, 1, 0, 0⟩, ⟨0, 0, 1, 0⟩, ⟨5, 0, 0, 1⟩⟩ }] }
  meshes := [
    { vertices := [⟨0, 0, 0⟩, ⟨1, 0, 0⟩, ⟨0, 1, 0⟩], normals := [⟨0, 0, 2⟩],
      faces := [⟨0, 1, 3⟩, ⟨0, 1, 2⟩], material := some 0 },
    { vertices := [⟨0, 0, 0⟩] }]
  materials := [{ name := "skin", texture := some (.embedded "bark" "aGk=") }]

/-- The second triangle refers to its own vertices, and its region starts after the first. -/
theorem flatten_shows_twice :
    Placed.vertexCount Asset.twice.placements < 0x100000000 ∧
      Asset.twice.flatten.surface.faces.map Face.indices = [[0, 1, 2], [3, 4, 5]] ∧
      Asset.twice.flatten.surface.textures = ["bark", "bark"] ∧
      Asset.twice.flatten.surface.starts = [0, 3] ∧
      Asset.twice.flatten.sources = [("bark", .embedded "bark" "aGk=")] := by
  have hlt : Placed.vertexCount Asset.twice.placements < 0x100000000 := by decide
  have hshows := flatten_shows Asset.twice hlt
  refine ⟨hlt, hshows.surface.faces.trans ?_, hshows.surface.textures.trans ?_,
    hshows.surface.starts.trans ?_, hshows.sources.trans ?_⟩
  all_goals decide

end LiveScene
