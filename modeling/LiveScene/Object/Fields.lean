import LiveScene.Object.Basic
import LiveScene.Wire.Field

/-!
# The fields of objects

For each kind of object, the names of its fields in the order in which they are written
(`Kind.fields`), the values of an object's fields (`SceneObject.values`), and the object with given
field values (`SceneObject.ofValues?`). The samples of a plot that are not finite are written as
zero, so that a series is always a list of numbers.
-/

namespace LiveScene

open Wire

/-- The names of the fields of a kind, in written order. -/
def Kind.fields : Kind → List String
  | .texture => ["key", "base64"]
  | .box => ["key", "size", "pos", "euler", "color", "cast_shadows", "receive_shadows"]
  | .sphere => ["key", "radius", "pos", "color", "cast_shadows", "receive_shadows"]
  | .capsule =>
    ["key", "radius", "height", "pos", "euler", "color", "cast_shadows", "receive_shadows"]
  | .line => ["key", "points", "color"]
  | .mesh =>
    ["key", "vertices", "vertex_normals", "faces", "uv", "textures", "texture_start_indices",
      "pos", "euler", "scale", "color", "cast_shadows", "receive_shadows"]
  | .text => ["key", "contents", "from_top_left", "size"]
  | .button => ["key", "label", "from_top_left", "size"]
  | .slider =>
    ["key", "from_top_left", "size", "min", "max", "value", "only_ints", "horizontal"]
  | .plot =>
    ["key", "from_top_left", "size", "xs", "min_x", "max_x", "ys", "min_y", "max_y", "plot_type"]

namespace PlotData

/-- A sample as it is sent: zero instead of a value that is not finite. -/
def finiteOrZero (x : Float) : Float := if x.isFinite then x else 0

/-- The names of the fields of plot data, in written order. -/
def fields : List String := ["xs", "min_x", "max_x", "ys", "min_y", "max_y"]

/-- The values of the fields of plot data. -/
def values (d : PlotData) : List Json :=
  [toJson (d.xs.map finiteOrZero), toJson d.minX, toJson d.maxX,
    toJson (d.ys.map finiteOrZero), toJson d.minY, toJson d.maxY]

/-- The plot data with given field values. -/
def ofValues? : List Json → Option PlotData
  | [xs, minX, maxX, ys, minY, maxY] => do
    return ⟨← ofJson? xs, ← ofJson? minX, ← ofJson? maxX, ← ofJson? ys, ← ofJson? minY,
      ← ofJson? maxY⟩
  | _ => none

end PlotData

namespace SceneObject

/-- The values of the fields of an object, in written order. -/
def values : SceneObject → List Json
  | texture t => [toJson t.key, toJson t.base64]
  | box b =>
    [toJson b.key, toJson b.size, toJson b.pos, toJson b.euler, toJson b.color,
      toJson b.shadows.cast, toJson b.shadows.receive]
  | sphere s =>
    [toJson s.key, toJson s.radius, toJson s.pos, toJson s.color, toJson s.shadows.cast,
      toJson s.shadows.receive]
  | capsule c =>
    [toJson c.key, toJson c.radius, toJson c.height, toJson c.pos, toJson c.euler,
      toJson c.color, toJson c.shadows.cast, toJson c.shadows.receive]
  | line l => [toJson l.key, toJson l.points, toJson l.color]
  | mesh m =>
    [toJson m.key, toJson m.surface.vertices, toJson m.surface.normals, toJson m.surface.faces,
      toJson m.surface.uv, toJson m.surface.textures, toJson m.surface.starts, toJson m.pos,
      toJson m.euler, toJson m.scale, toJson m.color, toJson m.shadows.cast,
      toJson m.shadows.receive]
  | text t => [toJson t.key, toJson t.contents, toJson t.layout.fromTopLeft, toJson t.layout.size]
  | button b => [toJson b.key, toJson b.label, toJson b.layout.fromTopLeft, toJson b.layout.size]
  | slider s =>
    [toJson s.key, toJson s.layout.fromTopLeft, toJson s.layout.size, toJson s.min, toJson s.max,
      toJson s.value, toJson s.onlyInts, toJson s.horizontal]
  | plot p =>
    toJson p.key :: toJson p.layout.fromTopLeft :: toJson p.layout.size ::
      (p.data.values ++ [toJson p.plotType])

/-- The object of a kind with given field values. -/
def ofValues? : Kind → List Json → Option SceneObject
  | .texture, [key, base64] => do
    return texture ⟨← ofJson? key, ← ofJson? base64⟩
  | .box, [key, size, pos, euler, color, cast, receive] => do
    return box ⟨← ofJson? key, ← ofJson? size, ← ofJson? pos, ← ofJson? euler, ← ofJson? color,
      ⟨← ofJson? cast, ← ofJson? receive⟩⟩
  | .sphere, [key, radius, pos, color, cast, receive] => do
    return sphere ⟨← ofJson? key, ← ofJson? radius, ← ofJson? pos, ← ofJson? color,
      ⟨← ofJson? cast, ← ofJson? receive⟩⟩
  | .capsule, [key, radius, height, pos, euler, color, cast, receive] => do
    return capsule ⟨← ofJson? key, ← ofJson? radius, ← ofJson? height, ← ofJson? pos,
      ← ofJson? euler, ← ofJson? color, ⟨← ofJson? cast, ← ofJson? receive⟩⟩
  | .line, [key, points, color] => do
    return line ⟨← ofJson? key, ← ofJson? points, ← ofJson? color⟩
  | .mesh, [key, vertices, normals, faces, uv, textures, starts, pos, euler, scale, color, cast,
      receive] => do
    return mesh ⟨← ofJson? key,
      ⟨← ofJson? vertices, ← ofJson? normals, ← ofJson? faces, ← ofJson? uv, ← ofJson? textures,
        ← ofJson? starts⟩,
      ← ofJson? pos, ← ofJson? euler, ← ofJson? scale, ← ofJson? color,
      ⟨← ofJson? cast, ← ofJson? receive⟩⟩
  | .text, [key, contents, fromTopLeft, size] => do
    return text ⟨← ofJson? key, ← ofJson? contents, ⟨← ofJson? fromTopLeft, ← ofJson? size⟩⟩
  | .button, [key, label, fromTopLeft, size] => do
    return button ⟨← ofJson? key, ← ofJson? label, ⟨← ofJson? fromTopLeft, ← ofJson? size⟩⟩
  | .slider, [key, fromTopLeft, size, min, max, value, onlyInts, horizontal] => do
    return slider ⟨← ofJson? key, ⟨← ofJson? fromTopLeft, ← ofJson? size⟩, ← ofJson? min,
      ← ofJson? max, ← ofJson? value, ← ofJson? onlyInts, ← ofJson? horizontal⟩
  | .plot, [key, fromTopLeft, size, xs, minX, maxX, ys, minY, maxY, plotType] => do
    return plot ⟨← ofJson? key, ⟨← ofJson? fromTopLeft, ← ofJson? size⟩,
      ← PlotData.ofValues? [xs, minX, maxX, ys, minY, maxY], ← ofJson? plotType⟩
  | _, _ => none

end SceneObject

end LiveScene
