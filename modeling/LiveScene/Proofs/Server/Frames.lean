import LiveScene.Proofs.Server.Shapes

/-!
# Frames

A frame of a skeleton shows its shapes one after the other, each under a key (`Skeleton.entries`).
If no two of them have the same key, none gets in the way of another: what is shown stays while the
others are shown (`Server.shows_showAll`), be it that textures are made on the way under keys that
shapes come to later. So each shape is shown whatever was there before, and nothing else is touched
(`render_skeleton_shows`).

What one frame leaves is then what the next one finds. An object that agrees with a shape differs
from the same values as the shape does, so the next frame writes what differs between the two frames
and nothing else (`Server.queues_showAll`), and the same frame again does nothing at all
(`rerender_writes_differences`).
-/

namespace LiveScene

/-- The shapes of a skeleton, each with the key under which it is shown. -/
def Skeleton.entries (stem : String) (k : Skeleton) : List (String × Shape) :=
  k.bodies.flatMap fun b =>
    b.shapes.map fun sh => (joinKey [stem, k.name, b.name, sh.name], sh)

namespace Shape

variable {old new sh : Shape} {key : String} {color color' v : Vec3} {s : Store} {a : Attribute}

/-- The commands that bring an object from one shape to another of the same kind: position,
rotation unless it is a sphere, colour and scale, each if its value differs. -/
def changes (key : String) (old new : Shape) (color color' : Vec3) : List Command :=
  Attribute.position.setIfDiffers key old.position new.position ++
    (if new.geometry.hasOrientation then Attribute.rotation.setIfDiffers key old.euler new.euler
      else []) ++
    Attribute.color.setIfDiffers key color color' ++
    Attribute.scale.setIfDiffers key old.geometry.scale new.geometry.scale

/-- No number of a shape is a NaN. -/
structure IsNumeric (sh : Shape) : Prop where
  position : sh.position.IsNumeric
  euler : sh.euler.IsNumeric
  color : sh.color.IsNumeric
  scale : sh.geometry.scale.IsNumeric

instance : Decidable sh.IsNumeric :=
  decidable_of_iff (sh.position.IsNumeric ∧ sh.euler.IsNumeric ∧ sh.color.IsNumeric ∧
      sh.geometry.scale.IsNumeric)
    ⟨fun ⟨hposition, heuler, hcolor, hscale⟩ => ⟨hposition, heuler, hcolor, hscale⟩,
      fun h => ⟨h.position, h.euler, h.color, h.scale⟩⟩

theorem IsNumeric.target (h : sh.IsNumeric) (hcolor : color.IsNumeric)
    (hv : sh.target? color a = some v) : v.IsNumeric := by
  cases a with
  | position => cases hv; exact h.position
  | rotation =>
    obtain rfl := Option.some.inj (Option.ite_none_right_eq_some.1 hv).2
    exact h.euler
  | color => cases hv; exact hcolor
  | scale => cases hv; exact h.scale

/-- An object that shows one shape differs from another shape as the two shapes do. -/
theorem flatMap_writes (h : s.Shows key old color) (hkind : new.geometry.kind = old.geometry.kind)
    (color' : Vec3) : Attribute.all.flatMap (new.writes key color' (s.valueOf · key)) =
      old.changes key new color color' := by
  have hsame (a : Attribute) {u : Vec3} (hu : old.target? color a = some u) (v : Vec3) :
      a.setIfDiffers key (s.valueOf a key) v = a.setIfDiffers key u v := by
    rw [Attribute.setIfDiffers, Attribute.setIfDiffers, (h.agrees a u hu).differs_eq]
  have hrotation : new.writes key color' (s.valueOf · key) .rotation =
      if new.geometry.hasOrientation then Attribute.rotation.setIfDiffers key old.euler new.euler
      else [] := by
    cases hturns : new.geometry.hasOrientation with
    | false => simp [writes, target?, hturns]
    | true =>
      have hold : old.target? color .rotation = some old.euler := by
        rw [Geometry.hasOrientation_eq, hkind, ← Geometry.hasOrientation_eq] at hturns
        simp [target?, hturns]
      simp [writes, target?, hturns, hsame .rotation hold]
  simp only [Attribute.all, List.flatMap_cons, List.flatMap_nil, hrotation]
  simp [writes, target?, changes, hsame .position rfl, hsame .color rfl, hsame .scale rfl]

end Shape

namespace Server

variable {s : Server} {color : Option Vec3} {es : List (String × Shape)} {key : String}

/-- Shows a shape under its key, in the colour that is given for all or in its own. -/
def showEntry (color : Option Vec3) (s : Server) (e : String × Shape) : Server :=
  s.renderShape e.1 e.2 (color.getD e.2.color)

theorem renderSkeleton_eq (s : Server) (k : Skeleton) (stem : String) (color : Option Vec3) :
    s.renderSkeleton k stem color = (k.entries stem).foldl (showEntry color) s := by
  rw [renderSkeleton, Skeleton.entries, List.foldl_flatMap]
  simp only [List.foldl_map]
  rfl

theorem host_showEntry (color : Option Vec3) (s : Server) (e : String × Shape) :
    (showEntry color s e).host = s.host :=
  (Local.renderShape e.1 e.2 (color.getD e.2.color)).host s

/-- The store shows each of some shapes under its key. -/
def ShowsAll (s : Server) (es : List (String × Shape)) (color : Option Vec3) : Prop :=
  ∀ e ∈ es, s.scene.store.Shows e.1 e.2 (color.getD e.2.color)

/-- Showing a shape under another key does not hide what is shown. -/
theorem shows_showEntry_of_ne {sh : Shape} {c : Vec3} (h : s.scene.store.Shows key sh c)
    {e : String × Shape} (he : key ≠ e.1) : (showEntry color s e).scene.store.Shows key sh c :=
  h.of_get? ((s.keeps_renderShape e.2 (color.getD e.2.color) he).get?_eq h.kind)

/-! ## One frame -/

theorem keeps_showAll (hkey : key ∉ es.map (·.1)) :
    Keeps (es.flatMap (·.2.geometry.sources)) s (es.foldl (showEntry color) s) key := by
  induction es generalizing s with
  | nil => exact Or.inl rfl
  | cons e es ih =>
    rw [List.map_cons, List.mem_cons, not_or] at hkey
    have hfirst : Keeps e.2.geometry.sources s (showEntry color s e) key :=
      s.keeps_renderShape e.2 _ hkey.1
    rw [List.flatMap_cons, List.foldl_cons]
    exact hfirst.trans (ih hkey.2) (host_showEntry color s e)

theorem shows_showAll (hkeys : (es.map (·.1)).Nodup) :
    (es.foldl (showEntry color) s).ShowsAll es color := by
  induction es generalizing s with
  | nil => exact List.forall_mem_nil _
  | cons e es ih =>
    obtain ⟨hnew, hkeys⟩ := List.nodup_cons.1 hkeys
    refine List.forall_mem_cons.2 ⟨?_, ih hkeys⟩
    have hfirst := s.shows_renderShape e.1 e.2 (color.getD e.2.color)
    exact hfirst.of_get? ((keeps_showAll hnew).get?_eq hfirst.kind)

theorem keeps_renderSkeleton (s : Server) {k : Skeleton} {stem : String} (color : Option Vec3)
    (hkey : key ∉ (k.entries stem).map (·.1)) :
    Keeps ((k.entries stem).flatMap (·.2.geometry.sources)) s (s.renderSkeleton k stem color)
      key := by
  rw [renderSkeleton_eq]
  exact keeps_showAll hkey

theorem showsAll_renderSkeleton (s : Server) {k : Skeleton} {stem : String} (color : Option Vec3)
    (hkeys : ((k.entries stem).map (·.1)).Nodup) :
    (s.renderSkeleton k stem color).ShowsAll (k.entries stem) color := by
  rw [renderSkeleton_eq]
  exact shows_showAll hkeys

/-! ## The next frame -/

/-- Of shapes that are shown already by objects of their kinds, what differs is written. -/
theorem queues_showAll {color' : Option Vec3} {es' : List (String × Shape)}
    (hkeys : (es.map (·.1)).Nodup) (hshows : s.ShowsAll es color)
    (hsame : es'.map (fun e => (e.1, e.2.geometry.kind)) =
      es.map fun e => (e.1, e.2.geometry.kind)) :
    Queues s (es'.foldl (showEntry color') s) ((es.zip es').flatMap fun p =>
      p.1.2.changes p.1.1 p.2.2 (color.getD p.1.2.color) (color'.getD p.2.2.color)) := by
  induction es generalizing s es' with
  | nil =>
    obtain rfl := List.map_eq_nil_iff.1 hsame
    exact .refl s
  | cons e es ih =>
    obtain ⟨⟨key, sh'⟩, es', rfl, hhead, hrest⟩ := List.map_eq_cons_iff.1 hsame
    obtain ⟨key, sh⟩ := e
    obtain ⟨rfl, hkind⟩ := Prod.mk.inj hhead
    obtain ⟨hnew, hkeys⟩ := List.nodup_cons.1 hkeys
    obtain ⟨hshown, hshows⟩ := List.forall_mem_cons.1 hshows
    have hfound : s.scene.store.kind? key = some sh'.geometry.kind := by
      rw [hkind]
      exact hshown.kind
    have hfirst := queues_renderShape hfound (color'.getD sh'.color)
    rw [Shape.flatMap_writes hshown hkind] at hfirst
    have hkept : (showEntry color' s (key, sh')).ShowsAll es color := fun x hx =>
      shows_showEntry_of_ne (hshows x hx) fun h => hnew (List.mem_map.2 ⟨x, hx, h⟩)
    exact hfirst.trans (ih hkeys hkept hrest)

/-- Shapes that are shown already make no difference. -/
theorem showAll_of_showsAll (hshows : s.ShowsAll es color) (hnumeric : ∀ e ∈ es, e.2.IsNumeric)
    (hcolor : ∀ c ∈ color, c.IsNumeric) : es.foldl (showEntry color) s = s := by
  induction es with
  | nil => rfl
  | cons e es ih =>
    obtain ⟨hshown, hshows⟩ := List.forall_mem_cons.1 hshows
    obtain ⟨hsh, hnumeric⟩ := List.forall_mem_cons.1 hnumeric
    have hshade : (color.getD e.2.color).IsNumeric := by
      cases color with
      | none => exact hsh.color
      | some c => exact hcolor c rfl
    rw [List.foldl_cons, showEntry, renderShape_of_shows hshown fun a v => hsh.target hshade]
    exact ih hshows hnumeric

end Server

/-- After a frame of a skeleton whose shapes have keys of their own, under the key of each shape
there is an object of the kind of its geometry, in the place, the colour and the size of the shape,
and turned as the shape is, unless it is a sphere, which is not turned; each of these is the same as
the value of the shape or does not differ from it. What has been there before makes no difference.
Under all other keys nothing has changed, but that textures have been created for the assets of
meshes where there was nothing. -/
theorem render_skeleton_shows (s : Server) (k : Skeleton) (stem : String) (color : Option Vec3)
    (hkeys : ((k.entries stem).map (·.1)).Nodup) :
    let t := (s.change (.renderSkeleton k stem color)).2
    (∀ key sh, (key, sh) ∈ k.entries stem →
      let g := t.scene.glance key
      g.kind = some sh.geometry.kind ∧ g.position.Agrees sh.position ∧
        (if sh.geometry.hasOrientation then g.rotation.Agrees sh.euler
          else g.rotation = Vec3.zero) ∧
        g.color.Agrees (color.getD sh.color) ∧ g.scale.Agrees sh.geometry.scale) ∧
      ∀ key, key ∉ (k.entries stem).map (·.1) →
        t.scene.store.get? key = s.scene.store.get? key ∨
          s.scene.store.get? key = none ∧
            ∃ e ∈ k.entries stem, ∃ source ∈ e.2.geometry.sources, source.1 = key ∧
              ∃ image, source.2.payload? s.host.files = some image ∧
                t.scene.store.get? key = some (.texture ⟨key, image⟩) := by
  intro t
  refine ⟨fun key sh hsh => ?_, fun key hkey => ?_⟩
  · have hshows : t.scene.store.Shows key sh (color.getD sh.color) :=
      s.showsAll_renderSkeleton color hkeys (key, sh) hsh
    refine ⟨hshows.kind, hshows.agrees .position _ rfl, ?_, hshows.agrees .color _ rfl,
      hshows.agrees .scale _ rfl⟩
    split
    · next hturns => exact hshows.agrees .rotation _ (if_pos hturns)
    · next hturns => exact hshows.valueOf_rotation (Bool.eq_false_iff.2 hturns)
  · rcases s.keeps_renderSkeleton color hkey with h | ⟨hnone, source, hsource, hrest⟩
    · exact Or.inl h
    · obtain ⟨e, he, hsource⟩ := List.mem_flatMap.1 hsource
      exact Or.inr ⟨hnone, e, he, source, hsource, hrest⟩

/-- An arm with a bone, a joint and a hand, the bone at some place. -/
def Skeleton.arm (bone : Vec3) : Skeleton where
  name := "arm"
  bodies := [
    { name := "upper"
      shapes := [
        ⟨"bone", .capsule 0.1 0.5, bone, ⟨0, 0, 0.5⟩, ⟨0.2, 0.3, 0.4⟩⟩,
        ⟨"joint", .sphere 0.12, ⟨0, 1.25, 0⟩, Vec3.unitX, Vec3.one⟩] },
    { name := "lower"
      shapes := [⟨"hand", .mesh .twice Vec3.one, ⟨0, 1.5, 0⟩, Vec3.zero, Vec3.unitY⟩] }]

/-- A server with a line under the key of the bone, a larger ball under that of the joint, and a
lamp. -/
def Server.cluttered : Server :=
  [.createLine ⟨"skel.arm.upper.bone", [], Vec3.unitX⟩,
    .createSphere { key := "skel.arm.upper.joint", radius := 1, pos := Vec3.zero },
    .createSphere { key := "lamp", radius := 1, pos := Vec3.zero }].foldl
      (fun s c => (s.change c).2) (.new {} .blank)

/-- The line gives way to the bone, the ball becomes the joint, and the lamp stays as it is. -/
theorem render_skeleton_shows_arm :
    (((Skeleton.arm Vec3.zero).entries "skel").map (·.1)).Nodup ∧
      let t := (Server.cluttered.change (.renderSkeleton (.arm Vec3.zero) "skel" none)).2
      (t.scene.glance "skel.arm.upper.bone").kind = some .capsule ∧
        (t.scene.glance "skel.arm.upper.bone").scale.Agrees ⟨0.1, 0.1, 0.5⟩ ∧
        (t.scene.glance "skel.arm.upper.joint").scale.Agrees (Vec3.splat 0.12) ∧
        (t.scene.glance "skel.arm.upper.joint").rotation = Vec3.zero ∧
        (t.scene.glance "skel.arm.lower.hand").kind = some .mesh ∧
        t.scene.store.get? "lamp" = Server.cluttered.scene.store.get? "lamp" := by
  have hkeys : (((Skeleton.arm Vec3.zero).entries "skel").map (·.1)).Nodup := by decide
  obtain ⟨hshows, hothers⟩ :=
    render_skeleton_shows .cluttered (.arm Vec3.zero) "skel" none hkeys
  obtain ⟨hbone, -, -, -, hsize⟩ := hshows "skel.arm.upper.bone" _ (.head _)
  obtain ⟨-, -, hrotation, -, hradius⟩ := hshows "skel.arm.upper.joint" _ (.tail _ (.head _))
  obtain ⟨hhand, -⟩ := hshows "skel.arm.lower.hand" _ (.tail _ (.tail _ (.head _)))
  refine ⟨hkeys, hbone, hsize, hradius, hrotation, hhand, ?_⟩
  rcases hothers "lamp" (by decide) with hsame | ⟨hnone, -⟩
  · exact hsame
  · exact absurd hnone (by decide)

/-- A frame after a frame of the same shapes, of the same kinds and under keys of their own, queues
what differs between the two, shape by shape in order: position, rotation unless it is a sphere,
colour and scale. The same frame again leaves the server as it is, unless some number is a NaN. -/
theorem rerender_writes_differences (s : Server) (k : Skeleton) (stem : String)
    (color : Option Vec3) (hkeys : ((k.entries stem).map (·.1)).Nodup) :
    let t := (s.change (.renderSkeleton k stem color)).2
    (∀ (k' : Skeleton) (color' : Option Vec3),
      (k'.entries stem).map (fun e => (e.1, e.2.geometry.kind)) =
        (k.entries stem).map (fun e => (e.1, e.2.geometry.kind)) →
      let u := (t.change (.renderSkeleton k' stem color')).2
      ∃ es, u.journal.toList = t.journal.toList ++ es ∧
        queuedIn es = ((k.entries stem).zip (k'.entries stem)).flatMap fun p =>
          p.1.2.changes p.1.1 p.2.2 (color.getD p.1.2.color) (color'.getD p.2.2.color)) ∧
      ((∀ e ∈ k.entries stem, e.2.IsNumeric) → (∀ c ∈ color, c.IsNumeric) →
        (t.change (.renderSkeleton k stem color)).2 = t) := by
  intro t
  have hshows : t.ShowsAll (k.entries stem) color := s.showsAll_renderSkeleton color hkeys
  refine ⟨fun k' color' hsame => ?_, fun hnumeric hcolor => ?_⟩
  · intro u
    rw [show u = _ from t.renderSkeleton_eq k' stem color']
    exact Server.queues_showAll hkeys hshows hsame
  · calc (t.change (.renderSkeleton k stem color)).2
        = (k.entries stem).foldl (Server.showEntry color) t := t.renderSkeleton_eq k stem color
      _ = t := Server.showAll_of_showsAll hshows hnumeric hcolor

/-- If the bone is moved and all shapes turn red, that is all there is to write, and if they stay as
they are, nothing happens. -/
theorem rerender_writes_differences_arm :
    (((Skeleton.arm Vec3.zero).entries "skel").map (·.1)).Nodup ∧
      let t := (Server.cluttered.change (.renderSkeleton (.arm Vec3.zero) "skel" none)).2
      let u := (t.change (.renderSkeleton (.arm Vec3.unitY) "skel" (some Vec3.unitX))).2
      (∃ es, u.journal.toList = t.journal.toList ++ es ∧
        queuedIn es = [.set .position "skel.arm.upper.bone" Vec3.unitY,
          .set .color "skel.arm.upper.bone" Vec3.unitX,
          .set .color "skel.arm.upper.joint" Vec3.unitX,
          .set .color "skel.arm.lower.hand" Vec3.unitX]) ∧
      (t.change (.renderSkeleton (.arm Vec3.zero) "skel" none)).2 = t := by
  have hkeys : (((Skeleton.arm Vec3.zero).entries "skel").map (·.1)).Nodup := by decide
  obtain ⟨hnext, hagain⟩ :=
    rerender_writes_differences .cluttered (.arm Vec3.zero) "skel" none hkeys
  obtain ⟨es, hes, hqueued⟩ := hnext (.arm Vec3.unitY) (some Vec3.unitX) rfl
  exact ⟨hkeys, ⟨es, hes, hqueued.trans (by decide)⟩, hagain (by decide) (by decide)⟩

end LiveScene
