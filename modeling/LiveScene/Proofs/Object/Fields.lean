import LiveScene.Object.Fields
import LiveScene.Proofs.Wire.Field

/-!
# Objects read back

The doubles of an object that are written as they are (`SceneObject.floats`) are all of them but the
samples of a plot, which are written as zero when they are not finite. So an object reads back
exactly if these are finite, and what is read is the object with its samples as they were sent, and
with whatever has come into the places of its doubles (`SceneObject.ofValues?_mapReals`).
-/

namespace LiveScene

open Wire

/-! ## What is sent -/

namespace PlotData

/-- The doubles of plot data outside its series. -/
def floats (d : PlotData) : List Float := [d.minX, d.maxX, d.minY, d.maxY]

/-- Plot data with the samples that are sent. -/
def sent (d : PlotData) : PlotData :=
  { d with xs := d.xs.map finiteOrZero, ys := d.ys.map finiteOrZero }

/-- Plot data with other doubles in their places. -/
def mapFloats (f : Float → Float) (d : PlotData) : PlotData :=
  ⟨d.xs.map f, f d.minX, f d.maxX, d.ys.map f, f d.minY, f d.maxY⟩

@[simp] theorem mapFloats_id (d : PlotData) : d.mapFloats id = d := by
  simp [mapFloats]

end PlotData

/-- The doubles of a surface. -/
def Surface.floats (s : Surface) : List Float :=
  s.vertices.flatMap Vec3.floats ++ s.normals.flatMap Vec3.floats ++ s.uv.flatMap Vec2.floats

/-- The surface with other doubles in their places. -/
def Surface.mapFloats (f : Float → Float) (s : Surface) : Surface :=
  { s with
    vertices := s.vertices.map (Vec3.mapFloats f)
    normals := s.normals.map (Vec3.mapFloats f)
    uv := s.uv.map (Vec2.mapFloats f) }

/-- Pairs that are made of the same doubles are the same. -/
theorem map_mapFloats_id_vec2 (vs : List Vec2) : vs.map (Vec2.mapFloats id) = vs := List.map_id vs

theorem map_mapFloats_id_vec3 (vs : List Vec3) : vs.map (Vec3.mapFloats id) = vs := List.map_id vs

@[simp] theorem Surface.mapFloats_id (s : Surface) : s.mapFloats id = s := by
  rw [Surface.mapFloats, map_mapFloats_id_vec3, map_mapFloats_id_vec3, map_mapFloats_id_vec2]

namespace SceneObject

/-- The doubles of an object outside the series of a plot. -/
def floats : SceneObject → List Float
  | texture _ => []
  | box b => b.size.floats ++ b.pos.floats ++ b.euler.floats ++ b.color.floats
  | sphere s => [s.radius] ++ s.pos.floats ++ s.color.floats
  | capsule c => [c.radius, c.height] ++ c.pos.floats ++ c.euler.floats ++ c.color.floats
  | line l => l.points.flatMap Vec3.floats ++ l.color.floats
  | mesh m =>
    m.surface.floats ++ m.pos.floats ++ m.euler.floats ++ m.scale.floats ++ m.color.floats
  | text _ => []
  | button _ => []
  | slider s => [s.min, s.max, s.value]
  | plot p => p.data.floats

/-- The object with the samples that are sent, if it is a plot. -/
def sent : SceneObject → SceneObject
  | plot p => plot { p with data := p.data.sent }
  | o => o

/-- The object with other doubles in their places. -/
def mapFloats (f : Float → Float) : SceneObject → SceneObject
  | texture t => texture t
  | box b =>
    box { b with
      size := b.size.mapFloats f
      pos := b.pos.mapFloats f
      euler := b.euler.mapFloats f
      color := b.color.mapFloats f }
  | sphere s =>
    sphere { s with radius := f s.radius, pos := s.pos.mapFloats f, color := s.color.mapFloats f }
  | capsule c =>
    capsule { c with
      radius := f c.radius
      height := f c.height
      pos := c.pos.mapFloats f
      euler := c.euler.mapFloats f
      color := c.color.mapFloats f }
  | line l =>
    line { l with points := l.points.map (Vec3.mapFloats f), color := l.color.mapFloats f }
  | mesh m =>
    mesh { m with
      surface := m.surface.mapFloats f
      pos := m.pos.mapFloats f
      euler := m.euler.mapFloats f
      scale := m.scale.mapFloats f
      color := m.color.mapFloats f }
  | text t => text t
  | button b => button b
  | slider s => slider { s with min := f s.min, max := f s.max, value := f s.value }
  | plot p => plot { p with data := p.data.mapFloats f }

/-- The counts in an object: where the regions of a mesh start. -/
def counts : SceneObject → List Nat
  | mesh m => m.surface.starts
  | _ => []

theorem kind_sent (o : SceneObject) : o.sent.kind = o.kind := by
  cases o <;> rfl

theorem key_sent (o : SceneObject) : o.sent.key = o.key := by
  cases o <;> rfl

@[simp] theorem mapFloats_id (o : SceneObject) : o.mapFloats id = o := by
  cases o with
  | line l => rw [mapFloats, map_mapFloats_id_vec3, Vec3.mapFloats_id]
  | mesh m => rw [mapFloats, Surface.mapFloats_id]; rfl
  | plot p => rw [mapFloats, PlotData.mapFloats_id]
  | _ => rfl

end SceneObject

/-! ## Plot data -/

namespace PlotData

theorem isFinite_finiteOrZero (x : Float) : (finiteOrZero x).isFinite := by
  unfold finiteOrZero
  split
  · next h => exact h
  · decide

variable (f : Float → Float)

/-- The samples of a series always read back. -/
theorem ofJson?_series (xs : List Float) :
    ofJson? ((toJson (xs.map finiteOrZero)).mapReals f) = some ((xs.map finiteOrZero).map f) := by
  have hfinite : AllFinite (Faithful.floats (xs.map finiteOrZero)) := by
    intro x hx
    obtain ⟨y, hy, hxy⟩ := List.mem_flatMap.1 hx
    obtain ⟨z, -, rfl⟩ := List.mem_map.1 hy
    rw [List.mem_singleton.1 hxy]
    exact isFinite_finiteOrZero z
  rw [Faithful.ofJson?_mapReals, if_pos hfinite]
  rfl

theorem ofValues?_mapReals (d : PlotData) :
    ofValues? (d.values.map (Json.mapReals f)) =
      if AllFinite d.floats then some (d.sent.mapFloats f) else none := by
  simp only [ofValues?, values, List.map_cons, List.map_nil, floats, ofJson?_series,
    bind_ofJson?_mapReals, Faithful.floats, allFinite_cons, allFinite_nil, and_true, if_and,
    Option.bind_eq_bind, Option.bind_some]
  rfl

/-- Reading plot data between the other fields of a plot. -/
theorem bind_ofValues?_mapReals {β : Type} (d : PlotData) (g : PlotData → Option β) :
    (do g (← ofValues? (d.values.map (Json.mapReals f)))) =
      if AllFinite d.floats then g (d.sent.mapFloats f) else none := by
  rw [ofValues?_mapReals]
  split <;> rfl

end PlotData

namespace SceneObject

/-- An object reads back exactly if its doubles are finite, with its samples as they were sent. -/
theorem ofValues?_mapReals {o : SceneObject} (h : ∀ n ∈ o.counts, n < 0x10000000000000000)
    (f : Float → Float) : ofValues? o.kind (o.values.map (Json.mapReals f)) =
      if AllFinite o.floats then some (o.sent.mapFloats f) else none := by
  cases o with
  | mesh m =>
    have hstarts : ofJson? ((toJson m.surface.starts).mapReals f) = some m.surface.starts :=
      ofJson?_mapReals_counts h f
    simp only [kind, ofValues?, values, List.map_cons, List.map_nil, floats, sent, Surface.floats,
      bind_ofJson?_mapReals, Faithful.floats, Faithful.map, List.map_id, hstarts, allFinite_append,
      allFinite_nil, allFinite_flatMap_nil, if_and, if_true, Option.bind_eq_bind, Option.bind_some]
    rfl
  | plot p =>
    change (do
      let key ← ofJson? ((toJson p.key).mapReals f)
      let fromTopLeft ← ofJson? ((toJson p.layout.fromTopLeft).mapReals f)
      let size ← ofJson? ((toJson p.layout.size).mapReals f)
      let data ← PlotData.ofValues? (p.data.values.map (Json.mapReals f))
      let plotType ← ofJson? ((toJson p.plotType).mapReals f)
      return plot ⟨key, ⟨fromTopLeft, size⟩, data, plotType⟩ : Option SceneObject) = _
    simp only [floats, bind_ofJson?_mapReals, PlotData.bind_ofValues?_mapReals, Faithful.floats,
      allFinite_nil, if_true]
    rfl
  | _ =>
    simp only [kind, ofValues?, values, List.map_cons, List.map_nil, floats, bind_ofJson?_mapReals,
      Faithful.floats, allFinite_append, allFinite_cons, allFinite_nil, and_true, if_and, if_true]
    rfl

theorem length_values (o : SceneObject) : o.values.length = o.kind.fields.length := by
  cases o <;> rfl

theorem legible_values {o : SceneObject} (h : ∀ n ∈ o.counts, n < 0x10000000000000000) :
    ∀ v ∈ o.values, Json.Legible 2 v := by
  cases o with
  | mesh m =>
    have hstarts : Json.Legible 2 (toJson m.surface.starts) := (legible_counts h).mono (by decide)
    simp [values, hstarts, legible_of_depth, Faithful.depth]
  | _ => simp [values, PlotData.values, legible_of_depth, Faithful.depth]

end SceneObject

end LiveScene
