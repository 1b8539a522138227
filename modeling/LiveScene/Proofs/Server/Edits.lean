import LiveScene.Proofs.Store.Keyed
import LiveScene.Server.Change

/-!
# Changes are made of edits

A change is made of edits of the scene, of which each puts an object there, writes a part of one,
removes some, or lets a key be dragged (`EditPair`). What a change does next depends on nothing but
the host and the store of the scene. So a relation between two servers that implies that they have
the same host and store, and that notices and edits keep (`KeptByEdits`), is kept by every change
(`KeptByEdits.change`). A change that registers no listener and is no clearing makes the same edits
on both servers, and of fewer sorts (`EditPart`), which is all that has to keep the relation then
(`KeptByParts.change`).

The relation is between two servers, which may make changes with different listeners: two changes
with listeners that correspond are a `ChangePair`. A property of one server is the case where both
are the same.
-/

namespace LiveScene

/-! ## Corresponding edits and changes -/

/-- Whether an object is a button or a slider, which take a listener along. -/
def SceneObject.isWidget : SceneObject → Bool
  | button _ | slider _ => true
  | _ => false

/-- Whether a command writes to an object, if there is one to write to. -/
def Command.isWrite : Command → Bool
  | set _ _ _ | setContents _ _ | setLabel _ _ | setSlider _ _ _ | setPlotData _ _
  | setLayout _ _ _ => true
  | _ => false

theorem Command.deletes?_of_isWrite {c : Command} (h : c.isWrite = true) : c.deletes? = none := by
  cases c <;> first | rfl | cases h

/-- An edit of a scene that registers no listener and is no clearing. -/
inductive EditPart : (Scene → Edit) → Prop
  | create (o : SceneObject) (ho : o.isWidget = false) : EditPart (·.create o)
  /-- takes over what a command that writes to an object makes of the store, if it has an effect -/
  | update (c : Command) (f : Store → Option Store) (h : ∀ s : Store, s.run c = (f s).getD s)
    (hc : c.isWrite = true) : EditPart (fun scene => scene.update (f scene.store) c)
  | delete (key : String) : EditPart (·.delete key)
  | deleteElement (key : String) : EditPart (·.deleteElement key)
  | deleteUnder (stem : String) : EditPart (·.deleteUnder stem)

/-- Two edits of a scene that differ at most in a listener, and there as `L` allows. -/
inductive EditPair (L : Listener → Listener → Prop) : (Scene → Edit) → (Scene → Edit) → Prop
  | create (o : SceneObject) (ho : o.isWidget = false) : EditPair L (·.create o) (·.create o)
  | createButton (b : Button) {l k : Listener} (h : L l k) :
    EditPair L (·.createButton b l) (·.createButton b k)
  | createSlider (b : Slider) {l k : Listener} (h : L l k) :
    EditPair L (·.createSlider b l) (·.createSlider b k)
  /-- takes over what a command that writes to an object makes of the store, if it has an effect -/
  | update (c : Command) (f : Store → Option Store) (h : ∀ s : Store, s.run c = (f s).getD s)
    (hc : c.isWrite = true) :
    EditPair L (fun scene => scene.update (f scene.store) c)
      (fun scene => scene.update (f scene.store) c)
  | delete (key : String) : EditPair L (·.delete key) (·.delete key)
  | deleteElement (key : String) : EditPair L (·.deleteElement key) (·.deleteElement key)
  | deleteUnder (stem : String) : EditPair L (·.deleteUnder stem) (·.deleteUnder stem)
  | clear : EditPair L (·.clear) (·.clear)
  | onDrag (key : String) {l k : Listener} (h : L l k) :
    EditPair L (·.onDrag key l) (·.onDrag key k)

theorem EditPart.pair {L : Listener → Listener → Prop} {f : Scene → Edit} (h : EditPart f) :
    EditPair L f f := by
  cases h with
  | create o ho => exact .create o ho
  | update c f h hc => exact .update c f h hc
  | delete key => exact .delete key
  | deleteElement key => exact .deleteElement key
  | deleteUnder stem => exact .deleteUnder stem

theorem EditPair.swap {L : Listener → Listener → Prop} {f g : Scene → Edit} (h : EditPair L f g) :
    EditPair (fun l k => L k l) g f := by
  cases h with
  | create o ho => exact .create o ho
  | createButton b h => exact .createButton b h
  | createSlider b h => exact .createSlider b h
  | update c f h hc => exact .update c f h hc
  | delete key => exact .delete key
  | deleteElement key => exact .deleteElement key
  | deleteUnder stem => exact .deleteUnder stem
  | clear => exact .clear
  | onDrag key h => exact .onDrag key h

/-- The listener that a change registers. -/
def Change.listener? {L : Type} : Change L → Option L
  | .createButton _ l => some l
  | .createSlider _ l => some l
  | .onDrag _ l => some l
  | _ => none

/-- Two changes that differ at most in the listener that they register, and there as `L` allows. -/
inductive ChangePair (L : Listener → Listener → Prop) : Change Listener → Change Listener → Prop
  | createButton (b : Button) {l k : Listener} (h : L l k) :
    ChangePair L (.createButton b l) (.createButton b k)
  | createSlider (b : Slider) {l k : Listener} (h : L l k) :
    ChangePair L (.createSlider b l) (.createSlider b k)
  | onDrag (key : String) {l k : Listener} (h : L l k) :
    ChangePair L (.onDrag key l) (.onDrag key k)
  | plain (c : Change Listener) (h : c.listener? = none) : ChangePair L c c

theorem ChangePair.refl (c : Change Listener) : ChangePair Eq c c := by
  cases hc : c.listener? with
  | none => exact .plain c hc
  | some l =>
    cases c <;> simp only [Change.listener?, reduceCtorEq] at hc
    · exact .createButton _ rfl
    · exact .createSlider _ rfl
    · exact .onDrag _ rfl

namespace Server

/-- A relation between servers that implies the same host and the same store and is kept by notices
and by edits that register no listener and are no clearing. -/
structure KeptByParts (R : Server → Server → Prop) : Prop where
  host : ∀ {s t}, R s t → s.host = t.host
  store : ∀ {s t}, R s t → s.scene.store = t.scene.store
  note : ∀ {s t} (n : Notice), R s t → R (s.note n) (t.note n)
  edit : ∀ {s t f}, EditPart f → R s t → R (s.edit f) (t.edit f)

namespace KeptByParts

variable {R : Server → Server → Prop} (hR : KeptByParts R) {s t : Server}

include hR

/-! ## Single edits -/

theorem create (o : SceneObject) (ho : o.isWidget = false) (h : R s t) :
    R (s.edit (·.create o)) (t.edit (·.create o)) :=
  hR.edit (.create o ho) h

theorem set (a : Attribute) (key : String) (v : Vec3) (h : R s t) :
    R (s.set a key v) (t.set a key v) :=
  hR.edit (.update (.set a key v) (·.set? a key v) (fun _ => rfl) rfl) h

theorem delete (key : String) (h : R s t) : R (s.delete key) (t.delete key) :=
  hR.edit (.delete key) h

theorem deleteUnder (stem : String) (h : R s t) : R (s.deleteUnder stem) (t.deleteUnder stem) :=
  hR.edit (.deleteUnder stem) h

theorem createLine (key : String) (points : List Vec3) (color : Vec3) (h : R s t) :
    R (s.createLine key points color) (t.createLine key points color) :=
  hR.create _ rfl h

theorem noteAll (ns : List Notice) (h : R s t) : R (s.noteAll ns) (t.noteAll ns) :=
  List.foldl_rel h fun n _ _ _ h => hR.note n h

/-! ## Textures and meshes -/

theorem createTexture (x : Texture) (h : R s t) : R (s.createTexture x) (t.createTexture x) :=
  hR.create _ rfl h

/-- Reading an image file succeeds on both servers or fails on both for the same reason. -/
theorem createTextureFromFile (key path : String) (h : R s t) :
    (∃ s' t', s.createTextureFromFile key path = .ok s' ∧
      t.createTextureFromFile key path = .ok t' ∧ R s' t') ∨
    ∃ e, s.createTextureFromFile key path = .error e ∧
      t.createTextureFromFile key path = .error e := by
  simp only [Server.createTextureFromFile, ← hR.host h]
  cases s.host.files.read path with
  | ok bytes => exact Or.inl ⟨_, _, rfl, rfl, hR.createTexture _ h⟩
  | error reason => exact Or.inr ⟨_, rfl, rfl⟩

theorem createSource (key : String) {p q : Server × List String} (source : String × TextureSource)
    (h : R p.1 q.1 ∧ p.2 = q.2) :
    R (createSource key p source).1 (createSource key q source).1 ∧
      (createSource key p source).2 = (createSource key q source).2 := by
  obtain ⟨s, lost⟩ := p
  obtain ⟨t, lost'⟩ := q
  obtain ⟨h, hl⟩ := h
  dsimp only at h hl
  subst hl
  unfold Server.createSource
  dsimp only
  rw [hR.store h]
  split
  · exact ⟨h, rfl⟩
  · cases source.2 with
    | embedded _ base64 => exact ⟨hR.createTexture _ h, rfl⟩
    | file path =>
      dsimp only
      rcases hR.createTextureFromFile source.1 path h with
        ⟨s', t', hs, ht, h'⟩ | ⟨e, hs, ht⟩
      · rw [hs, ht]
        exact ⟨h', rfl⟩
      · rw [hs, ht]
        exact ⟨hR.note _ h, rfl⟩

theorem createSources (key : String) (sources : List (String × TextureSource))
    {p q : Server × List String} (h : R p.1 q.1 ∧ p.2 = q.2) :
    R (sources.foldl (Server.createSource key) p).1 (sources.foldl (Server.createSource key) q).1 ∧
      (sources.foldl (Server.createSource key) p).2 =
        (sources.foldl (Server.createSource key) q).2 := by
  induction sources generalizing p q with
  | nil => exact h
  | cons source sources ih => exact ih (hR.createSource key source h)

theorem createMesh (key : String) (m : Mesh) (h : R s t) :
    R (s.createMesh key m) (t.createMesh key m) :=
  hR.create _ rfl h

theorem createMeshFromAsset (key : String) (a : Asset) (p : Placement) (h : R s t) :
    R (s.createMeshFromAsset key a p) (t.createMeshFromAsset key a p) := by
  obtain ⟨h', hlost⟩ := hR.createSources key a.flatten.sources (p := (s.noteAll _, []))
    (q := (t.noteAll _, [])) ⟨hR.noteAll (a.flatten.defects.map .assetDefect) h, rfl⟩
  unfold Server.createMeshFromAsset
  dsimp only
  rw [hlost]
  exact hR.createMesh key _ h'

/-! ## Rendering -/

theorem createShape (key : String) (sh : Shape) (color : Vec3) (h : R s t) :
    R (s.createShape key sh color) (t.createShape key sh color) := by
  unfold Server.createShape
  split
  · exact hR.create _ rfl h
  · exact hR.create _ rfl h
  · exact hR.create _ rfl h
  · exact hR.createMeshFromAsset key _ _ h

theorem updateAttribute (key : String) (sh : Shape) (color : Vec3) (a : Attribute) (h : R s t) :
    R (updateAttribute key sh color s a) (updateAttribute key sh color t a) := by
  unfold Server.updateAttribute
  rw [hR.store h]
  split
  · split
    · exact hR.set a key _ h
    · exact h
  · exact h

theorem renderShape (key : String) (sh : Shape) (color : Vec3) (h : R s t) :
    R (s.renderShape key sh color) (t.renderShape key sh color) := by
  unfold Server.renderShape
  rw [hR.store h]
  split
  · exact List.foldl_rel h fun a _ _ _ h => hR.updateAttribute key sh color a h
  · exact hR.createShape key sh color h

theorem renderSkeleton (k : Skeleton) (stem : String) (color : Option Vec3) (h : R s t) :
    R (s.renderSkeleton k stem color) (t.renderSkeleton k stem color) :=
  List.foldl_rel h fun _ _ _ _ h => List.foldl_rel h fun _ _ _ _ h => hR.renderShape _ _ _ h

theorem renderForce (stem skeleton : String) (magnitudes : Bool) (b : Body) (h : R s t) :
    R (renderForce stem skeleton magnitudes s b) (renderForce stem skeleton magnitudes t b) := by
  unfold Server.renderForce
  dsimp only
  split
  · exact hR.delete _ h
  · exact hR.createLine _ _ _ h

theorem renderWorld (w : World) (stem : String) (forces magnitudes : Bool) (h : R s t) :
    R (s.renderWorld w stem forces magnitudes) (t.renderWorld w stem forces magnitudes) := by
  refine List.foldl_rel h fun k _ s t h => ?_
  have h' := hR.renderSkeleton k stem none h
  dsimp only
  split
  · exact List.foldl_rel h' fun b _ _ _ h => hR.renderForce stem k.name magnitudes b h
  · exact h'

theorem renderBasis (scale : Float) (stem : String) (pos euler : Vec3) (h : R s t) :
    R (s.renderBasis scale stem pos euler) (t.renderBasis scale stem pos euler) := by
  unfold Server.renderBasis
  exact List.foldl_rel h fun _ _ _ _ h => hR.createLine _ _ _ h

theorem renderTrajectories (ts : List Trajectory) (stem : String) (h : R s t) :
    R (s.renderTrajectories ts stem) (t.renderTrajectories ts stem) :=
  List.foldl_rel h fun _ _ _ _ h => hR.createLine _ _ _ h

theorem renderWrench (b : Body) (w : Wrench) (scale : Float) (stem : String) (h : R s t) :
    R (s.renderWrench b w scale stem) (t.renderWrench b w scale stem) :=
  hR.createLine _ _ _ (hR.createLine _ _ _ h)

theorem renderVelocities (b : Body) (scale : Float) (stem : String) (h : R s t) :
    R (s.renderVelocities b scale stem) (t.renderVelocities b scale stem) :=
  List.foldl_rel h fun _ _ _ _ h => hR.createLine _ _ _ h

/-! ## All changes -/

/-- A change that registers no listener and is no clearing gets the same reply from both servers and
keeps the relation. -/
theorem change {c : Change Listener} (hc : c.listener? = none) (hclear : c ≠ .clear) (h : R s t) :
    (s.change c).1 = (t.change c).1 ∧ R (s.change c).2 (t.change c).2 := by
  cases c with
  | createTexture x => exact ⟨rfl, hR.createTexture x h⟩
  | createBox b => exact ⟨rfl, hR.create _ rfl h⟩
  | createSphere b => exact ⟨rfl, hR.create _ rfl h⟩
  | createCapsule b => exact ⟨rfl, hR.create _ rfl h⟩
  | createLine l => exact ⟨rfl, hR.create _ rfl h⟩
  | createMesh key m => exact ⟨rfl, hR.createMesh key m h⟩
  | createText x => exact ⟨rfl, hR.create _ rfl h⟩
  | createButton b l => simp [Change.listener?] at hc
  | createSlider b l => simp [Change.listener?] at hc
  | createPlot p => exact ⟨rfl, hR.create _ rfl h⟩
  | createTextureFromFile key path =>
    rcases hR.createTextureFromFile key path h with ⟨s', t', hs, ht, h'⟩ | ⟨e, hs, ht⟩
    · simpa only [Server.change, hs, ht, true_and] using h'
    · simpa only [Server.change, hs, ht, true_and] using h
  | createMeshFromAsset key a p => exact ⟨rfl, hR.createMeshFromAsset key a p h⟩
  | set a key v => exact ⟨rfl, hR.set a key v h⟩
  | setContents key contents =>
    exact ⟨rfl, hR.edit (.update (.setContents key contents) (·.setContents? key contents)
      (fun _ => rfl) rfl) h⟩
  | setLabel key label =>
    exact ⟨rfl, hR.edit (.update (.setLabel key label) (·.setLabel? key label) (fun _ => rfl)
      rfl) h⟩
  | setSlider p key x =>
    exact ⟨rfl, hR.edit (.update (.setSlider p key x) (·.setSlider? p key x) (fun _ => rfl)
      rfl) h⟩
  | setPlotData key data =>
    exact ⟨rfl, hR.edit (.update (.setPlotData key data) (·.setPlotData? key data)
      (fun _ => rfl) rfl) h⟩
  | setLayout p key v =>
    exact ⟨rfl, hR.edit (.update (.setLayout p key v) (·.setLayout? p key v) (fun _ => rfl)
      rfl) h⟩
  | delete key => exact ⟨rfl, hR.delete key h⟩
  | deleteElement key => exact ⟨rfl, hR.edit (.deleteElement key) h⟩
  | deleteUnder stem => exact ⟨rfl, hR.deleteUnder stem h⟩
  | clear => exact absurd rfl hclear
  | onDrag key l => simp [Change.listener?] at hc
  | renderWorld w stem forces magnitudes =>
    exact ⟨rfl, hR.renderWorld w stem forces magnitudes h⟩
  | renderSkeleton k stem color => exact ⟨rfl, hR.renderSkeleton k stem color h⟩
  | renderBasis scale stem pos euler =>
    have h' := hR.renderBasis scale stem pos euler h
    simpa only [Server.change, true_and] using h'
  | renderTrajectories ts stem => exact ⟨rfl, hR.renderTrajectories ts stem h⟩
  | renderWrench b w scale stem => exact ⟨rfl, hR.renderWrench b w scale stem h⟩
  | clearWrench b stem => exact ⟨rfl, hR.deleteUnder _ h⟩
  | renderVelocities b scale stem => exact ⟨rfl, hR.renderVelocities b scale stem h⟩

end KeptByParts

/-- A relation between servers that implies the same host and the same store and is kept by notices
and by edits. -/
structure KeptByEdits (L : Listener → Listener → Prop) (R : Server → Server → Prop) : Prop where
  host : ∀ {s t}, R s t → s.host = t.host
  store : ∀ {s t}, R s t → s.scene.store = t.scene.store
  note : ∀ {s t} (n : Notice), R s t → R (s.note n) (t.note n)
  edit : ∀ {s t f g}, EditPair L f g → R s t → R (s.edit f) (t.edit g)

theorem KeptByEdits.parts {L : Listener → Listener → Prop} {R : Server → Server → Prop}
    (hR : KeptByEdits L R) : KeptByParts R :=
  ⟨hR.host, hR.store, hR.note, fun hf h => hR.edit hf.pair h⟩

/-- Corresponding changes get the same reply and keep the relation. -/
theorem KeptByEdits.change {L : Listener → Listener → Prop} {R : Server → Server → Prop}
    (hR : KeptByEdits L R) {s t : Server} {c d : Change Listener} (hc : ChangePair L c d)
    (h : R s t) : (s.change c).1 = (t.change d).1 ∧ R (s.change c).2 (t.change d).2 := by
  cases hc with
  | createButton b hl => exact ⟨rfl, hR.edit (.createButton b hl) h⟩
  | createSlider b hl => exact ⟨rfl, hR.edit (.createSlider b hl) h⟩
  | onDrag key hl => exact ⟨rfl, hR.edit (.onDrag key hl) h⟩
  | plain c hc =>
    by_cases hclear : c = .clear
    · subst hclear
      exact ⟨rfl, hR.edit .clear h⟩
    · exact hR.parts.change hc hclear h

end Server

end LiveScene
