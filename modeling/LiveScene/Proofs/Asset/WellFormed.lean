import LiveScene.Proofs.Asset.Textures

/-!
# Well-formed surfaces

Whoever draws a surface looks up vertices by the indices of faces, and the faces of a region by its
start, so these numbers have to fit the lists that they refer to (`Surface.WellFormed`). The starts
cut the faces into regions (`Surface.regions`). If the faces are put together from pieces, and the
starts are where the pieces begin, the regions are the pieces again (`Surface.regions_eq`).

In a surface that shows placed submeshes the pieces are the faces of the submeshes, each raised by
the vertices before it (`Surface.Shows.faces_eq`), which are fewer than `2 ^ 32`, so nothing wraps
around. No piece is empty, since a submesh without faces is not shown. So flattened assets are
well formed, with or without their textures (`flattened_well_formed`).
-/

namespace LiveScene

/-! ## Regions -/

/-- The faces of each region: from its start to the next one, those of the last to the end. -/
def Surface.regions (s : Surface) : List (List Face) :=
  s.starts.zipWith (fun start stop => (s.faces.take (stop / 3)).drop (start / 3))
    (s.starts.tail ++ [3 * s.faces.length])

theorem length_withEarlier {α : Type} (xs : List α) : (withEarlier xs).length = xs.length := by
  simp [withEarlier]

theorem isPrefix_of_mem_withEarlier {α : Type} {xs earlier : List α} {x : α}
    (h : (x, earlier) ∈ withEarlier xs) : earlier ++ [x] <+: xs := by
  obtain ⟨i, hi, hx⟩ := List.mem_iff_getElem.1 h
  have hlt : i < xs.length := length_withEarlier xs ▸ hi
  have hat : (withEarlier xs)[i] = (xs[i], xs.take i) := by simp [withEarlier]
  obtain ⟨rfl, rfl⟩ := Prod.mk.inj (hat.symm.trans hx)
  rw [List.take_append_getElem]
  exact List.take_prefix _ _

/-- Of two elements, the first is among those before the second. -/
theorem pairwise_withEarlier {α : Type} (xs : List α) :
    (withEarlier xs).Pairwise fun p q => p.2 ++ [p.1] <+: q.2 := by
  induction xs using List.reverseRecOn with
  | nil => exact .nil
  | append_singleton xs x ih =>
    rw [withEarlier_concat, List.pairwise_append]
    refine ⟨ih, List.pairwise_singleton _ _, fun p hp q hq => ?_⟩
    obtain rfl := List.mem_singleton.1 hq
    exact isPrefix_of_mem_withEarlier hp

/-- Cutting where the pieces begin gives the pieces. -/
theorem Surface.regions_eq {s : Surface} {pieces : List (List Face)}
    (hfaces : s.faces = pieces.flatten)
    (hstarts : s.starts = (withEarlier pieces).map fun p => 3 * p.2.flatten.length) :
    s.regions = pieces := by
  have hlength : s.starts.length = pieces.length := by
    rw [hstarts, List.length_map, length_withEarlier]
  have hstart {i : Nat} (hi : i < s.starts.length) :
      s.starts[i] = 3 * (pieces.take i).flatten.length := by
    simp [hstarts, withEarlier]
  have hstop {i : Nat} (hi : i < (s.starts.tail ++ [3 * s.faces.length]).length) :
      (s.starts.tail ++ [3 * s.faces.length])[i] = 3 * (pieces.take (i + 1)).flatten.length := by
    rw [List.getElem_append]
    split
    · rw [List.getElem_tail, hstart]
    · next hlast =>
      rw [List.length_tail] at hlast
      rw [List.take_of_length_le (by omega), List.getElem_singleton, hfaces]
  refine List.ext_getElem ?_ fun i hi hi' => ?_
  · simp only [regions, List.length_zipWith, List.length_append, List.length_tail,
      List.length_singleton]
    omega
  · have hsplit : pieces.flatten =
        (pieces.take i).flatten ++ (pieces[i] ++ (pieces.drop (i + 1)).flatten) := by
      rw [← List.flatten_cons, List.getElem_cons_drop, ← List.flatten_append,
        List.take_append_drop]
    have hnext : (pieces.take (i + 1)).flatten = (pieces.take i).flatten ++ pieces[i] := by
      rw [← List.take_append_getElem hi', List.flatten_append, List.flatten_singleton]
    have hthird (n : Nat) : 3 * n / 3 = n := Nat.mul_div_cancel_left n (by decide)
    simp only [regions, List.getElem_zipWith, hstart, hstop, hthird]
    rw [hfaces, hsplit, hnext, ← List.append_assoc, List.take_left, List.drop_left]

/-! ## Faces of placed submeshes -/

theorem Face.indices_injective : Function.Injective Face.indices := by
  intro f g h
  simp only [Face.indices, List.cons.injEq, UInt32.toNat_inj, and_true] at h
  obtain ⟨ha, hb, hc⟩ := h
  cases f
  cases g
  simp_all

namespace Placed

variable {ps earlier : List Placed} {p : Placed} {f : Face}

/-- The faces of a placed submesh, raised by the vertices of the earlier ones. -/
def raisedFaces (earlier : List Placed) (p : Placed) : List Face :=
  p.mesh.facesWithin.map (·.shift (UInt32.ofNat (vertexCount earlier)))

theorem vertexCount_add_le (h : earlier ++ [p] <+: ps) :
    vertexCount earlier + p.mesh.vertices.length ≤ vertexCount ps := by
  obtain ⟨later, rfl⟩ := h
  simp [vertexCount]

theorem faceCount_add_le (h : earlier ++ [p] <+: ps) :
    faceCount earlier + p.mesh.facesWithin.length ≤ faceCount ps := by
  obtain ⟨later, rfl⟩ := h
  simp [faceCount]

/-- The raised indices stay in range as long as there are not too many vertices. -/
theorem indices_raised (h : (p, earlier) ∈ withEarlier ps) (hlt : vertexCount ps < 0x100000000)
    (hf : f ∈ p.mesh.facesWithin) :
    (f.shift (UInt32.ofNat (vertexCount earlier))).indices =
      f.indices.map (vertexCount earlier + ·) := by
  have hle := vertexCount_add_le (isPrefix_of_mem_withEarlier h)
  exact Face.indices_shift (by omega) fun i hi => Submesh.lt_of_mem_facesWithin hf hi

end Placed

namespace Surface

variable {a : Asset} {s : Surface} {ps : List Placed}

/-- The faces are those of the submeshes, each raised by the vertices before it. -/
theorem Shows.faces_eq (hs : s.Shows a ps) (hlt : Placed.vertexCount ps < 0x100000000) :
    s.faces = ((withEarlier ps).map fun p => p.1.raisedFaces p.2).flatten := by
  apply List.map_injective_iff.2 Face.indices_injective
  rw [hs.faces, List.map_flatten, List.map_map, List.flatMap]
  congr 1
  refine List.map_congr_left fun p hp => ?_
  rw [Function.comp_apply, Placed.raisedFaces, List.map_map]
  exact List.map_congr_left fun f hf => (Placed.indices_raised hp hlt hf).symm

/-- Where the faces of the submeshes begin. -/
theorem starts_withEarlier (ps : List Placed) :
    (withEarlier ps).map (fun p => 3 * Placed.faceCount p.2) =
      (withEarlier ((withEarlier ps).map fun p => p.1.raisedFaces p.2)).map
        fun p => 3 * p.2.flatten.length := by
  induction ps using List.reverseRecOn with
  | nil => rfl
  | append_singleton ps p ih =>
    have hcount : ((withEarlier ps).flatMap fun p => p.1.raisedFaces p.2).length =
        Placed.faceCount ps :=
      length_flatMap_withEarlier ps fun p earlier => List.length_map _
    simp only [withEarlier_concat, List.map_append, List.map_singleton, ih, ← List.flatMap_def,
      hcount]

/-- The regions are the faces of the submeshes. -/
theorem Shows.regions_eq (hs : s.Shows a ps) (hlt : Placed.vertexCount ps < 0x100000000) :
    s.regions = (withEarlier ps).map fun p => p.1.raisedFaces p.2 :=
  Surface.regions_eq (hs.faces_eq hlt) (hs.starts.trans (starts_withEarlier ps))

end Surface

/-! ## Surfaces that fit together -/

/-- The lists of a surface fit together, and its regions are faces of some placed submeshes, one
after the other, over vertices of their own. -/
structure Surface.WellFormed (ps : List Placed) (s : Surface) : Prop where
  normals : s.normals.length = s.vertices.length
  uv : s.uv.length = s.vertices.length
  textures : s.textures.length = s.starts.length
  /-- starts are counted in whole faces -/
  whole : ∀ i ∈ s.starts, 3 ∣ i
  first : ∀ i ∈ s.starts.head?, i = 0
  increasing : s.starts.Pairwise (· < ·)
  below : ∀ i ∈ s.starts, i < 3 * s.faces.length
  /-- the regions share out the faces -/
  partition : s.regions.flatten = s.faces
  nonempty : ∀ r ∈ s.regions, r ≠ []
  /-- raising an index does not wrap around -/
  unwrapped : ∀ p earlier, (p, earlier) ∈ withEarlier ps →
    ∀ f ∈ p.mesh.facesWithin, ∀ i ∈ f.indices, Placed.vertexCount earlier + i < 0x100000000
  /-- a region is that of one submesh, and refers to the vertices that come from it -/
  own : List.Forall₂ (fun (p, earlier) r =>
    r = p.raisedFaces earlier ∧
      (s.vertices.drop (Placed.vertexCount earlier)).take p.mesh.vertices.length = p.vertices ∧
      ∀ f ∈ r, ∀ i ∈ f.indices, Placed.vertexCount earlier ≤ i ∧
        i < Placed.vertexCount earlier + p.mesh.vertices.length) (withEarlier ps) s.regions

namespace Surface

variable {a : Asset} {s : Surface} {ps : List Placed}

theorem WellFormed.without (h : s.WellFormed ps) (keys : List String) :
    (s.without keys).WellFormed ps :=
  { h with textures := (List.length_map _).trans h.textures }

/-- The vertices after the earlier ones come from the submesh. -/
theorem Shows.take_drop_vertices (hs : s.Shows a ps) {p : Placed} {earlier : List Placed}
    (h : (p, earlier) ∈ withEarlier ps) :
    (s.vertices.drop (Placed.vertexCount earlier)).take p.mesh.vertices.length = p.vertices := by
  obtain ⟨later, rfl⟩ := isPrefix_of_mem_withEarlier h
  have hearlier : Placed.vertexCount earlier = (earlier.flatMap Placed.vertices).length := by
    simp [Placed.vertexCount, Placed.vertices, List.length_flatMap]
  have hown : p.mesh.vertices.length = p.vertices.length := by simp [Placed.vertices]
  rw [hs.vertices, List.append_assoc, List.flatMap_append, hearlier, List.drop_left,
    List.flatMap_append, List.flatMap_singleton, hown, List.take_left]

/-- A surface that shows submeshes of which there is something to show is well formed. -/
theorem Shows.wellFormed (hs : s.Shows a ps) (hlt : Placed.vertexCount ps < 0x100000000)
    (hshown : ∀ p ∈ ps, p.isShown) : s.WellFormed ps := by
  have hfaces {p : Placed} {earlier : List Placed} (h : (p, earlier) ∈ withEarlier ps) :
      0 < p.mesh.facesWithin.length := by
    have hp := hshown p ((isPrefix_of_mem_withEarlier h).subset (by simp))
    rw [Placed.isShown, Bool.and_eq_true] at hp
    simpa [List.length_pos_iff] using hp.2
  constructor
  case normals =>
    rw [hs.normals, hs.length_vertices]
    simp [Placed.normals, Placed.vertexCount, List.length_flatMap]
  case uv =>
    rw [hs.uv, hs.length_vertices]
    simp [Placed.uv, Placed.vertexCount, List.length_flatMap]
  case textures => rw [hs.textures, hs.starts, List.length_map, List.length_map, length_withEarlier]
  case whole =>
    intro i hi
    rw [hs.starts] at hi
    obtain ⟨p, -, rfl⟩ := List.mem_map.1 hi
    exact Nat.dvd_mul_right 3 _
  case first =>
    intro i hi
    rw [hs.starts] at hi
    cases ps with
    | nil => cases hi
    | cons p ps => simpa [withEarlier, Placed.faceCount] using hi.symm
  case increasing =>
    rw [hs.starts, List.pairwise_map]
    refine (pairwise_withEarlier ps).imp_of_mem fun {p q} hp _ h => ?_
    have hle : Placed.faceCount p.2 + p.1.mesh.facesWithin.length ≤ Placed.faceCount q.2 :=
      Placed.faceCount_add_le h
    have hpos : 0 < p.1.mesh.facesWithin.length := hfaces hp
    show 3 * Placed.faceCount p.2 < 3 * Placed.faceCount q.2
    omega
  case below =>
    intro i hi
    rw [hs.starts] at hi
    obtain ⟨⟨p, earlier⟩, hp, rfl⟩ := List.mem_map.1 hi
    have hle := Placed.faceCount_add_le (isPrefix_of_mem_withEarlier hp)
    have hpos := hfaces hp
    rw [hs.length_faces]
    show 3 * Placed.faceCount earlier < 3 * Placed.faceCount ps
    omega
  case partition => rw [hs.regions_eq hlt, hs.faces_eq hlt]
  case nonempty =>
    intro r hr
    rw [hs.regions_eq hlt] at hr
    obtain ⟨p, hp, rfl⟩ := List.mem_map.1 hr
    rw [← List.length_pos_iff, Placed.raisedFaces, List.length_map]
    exact hfaces hp
  case unwrapped =>
    intro p earlier h f hf i hi
    have hle := Placed.vertexCount_add_le (isPrefix_of_mem_withEarlier h)
    have hi := Submesh.lt_of_mem_facesWithin hf hi
    omega
  case own =>
    rw [hs.regions_eq hlt, List.forall₂_map_right_iff, List.forall₂_same]
    rintro ⟨p, earlier⟩ h
    refine ⟨rfl, hs.take_drop_vertices h, fun f hf i hi => ?_⟩
    obtain ⟨g, hg, rfl⟩ := List.mem_map.1 hf
    have hraised := Placed.indices_raised h hlt hg
    obtain ⟨j, hj, rfl⟩ := List.mem_map.1 (hraised ▸ hi)
    exact ⟨Nat.le_add_right _ _, Nat.add_lt_add_left (Submesh.lt_of_mem_facesWithin hg hj) _⟩

end Surface

/-- A flattened asset is well formed, whatever textures are taken away from it: normals and texture
coordinates go with the vertices, and texture keys with the starts; the starts are multiples of
three that begin with zero, ascend strictly and stay below the indices there are, and so cut the
faces into regions none of which is empty; each region is that of one shown submesh and refers to
the vertices that come from it, and no index wraps around. -/
theorem flattened_well_formed (a : Asset) (h : Placed.vertexCount a.placements < 0x100000000)
    (keys : List String) (key : String) :
    ((keys.foldl FlatMesh.untexture a.flatten).toMesh key).surface.WellFormed a.shown := by
  have hempty : FlatMesh.Shows a [] {} := ⟨by constructor <;> rfl, rfl⟩
  have hrun := hempty.foldl_appendIndex a.root.references
    (by simpa [Asset.placements, Placed.vertexCount] using h)
  rw [← a.flatten_eq_foldl] at hrun
  have hshown : Placed.vertexCount a.shown < 0x100000000 :=
    Nat.lt_of_le_of_lt (Placed.vertexCount_filter_le _ _) h
  have hflat : a.flatten.surface.WellFormed a.shown :=
    hrun.surface.wellFormed hshown fun p hp => (List.mem_filter.1 hp).2
  rw [FlatMesh.toMesh, FlatMesh.surface_foldl_untexture]
  exact hflat.without keys

/-- The triangle that is shown twice has a region for each time, over vertices of its own. -/
theorem flattened_well_formed_twice :
    Placed.vertexCount Asset.twice.placements < 0x100000000 ∧
      let s := ((["bark"].foldl FlatMesh.untexture Asset.twice.flatten).toMesh "tree").surface
      s.regions = [[⟨0, 1, 2⟩], [⟨3, 4, 5⟩]] ∧ s.regions.flatten = s.faces ∧
        s.starts.Pairwise (· < ·) ∧ s.uv.length = 6 := by
  have hlt : Placed.vertexCount Asset.twice.placements < 0x100000000 := by decide
  have hwell := flattened_well_formed .twice hlt ["bark"] "tree"
  exact ⟨hlt, by decide, hwell.partition, hwell.increasing, hwell.uv.trans (by decide)⟩

end LiveScene
