import LiveScene.Store.Basic

/-!
# Objects under their own keys

A store is determined by what stands under each key (`objects_ext`). In the stores that servers
build, every object stands under its own key (`Store.Keyed`): creating puts it there, and nothing
that writes to an object changes its key (`key_of_modified`). Every command keeps this
(`Keyed.run`), and so does what a viewer reports (`Keyed.recordPosition`,
`Keyed.recordSliderValue`).

With it the command that deletes an object deletes what stands under its key, whatever its kind
(`run_deleteCommand`), and removing several keys at once is the same as running the commands that
delete the objects that were there (`eraseAll_eq`). Each of these commands finds an object to
delete (`Store.Apt`, `apt_eraseAll`).
-/

namespace LiveScene

/-- The key whose object a command deletes. -/
def Command.deletes? : Command → Option String
  | deleteObject key | deleteElement key => some key
  | _ => none

namespace SceneObject

/-! ## What writing keeps -/

theorem key_of_withLayout? {o o' : SceneObject} {f : Layout → Layout}
    (h : o.withLayout? f = some o') : o'.key = o.key := by
  cases o <;> simp [withLayout?] at h <;> subst h <;> rfl

theorem key_of_withContents? {o o' : SceneObject} {contents : String}
    (h : o.withContents? contents = some o') : o'.key = o.key := by
  cases o <;> simp [withContents?] at h
  subst h
  rfl

theorem key_of_withLabel? {o o' : SceneObject} {label : String}
    (h : o.withLabel? label = some o') : o'.key = o.key := by
  cases o <;> simp [withLabel?] at h
  subst h
  rfl

theorem key_of_withPlotData? {o o' : SceneObject} {data : PlotData}
    (h : o.withPlotData? data = some o') : o'.key = o.key := by
  cases o <;> simp [withPlotData?] at h
  subst h
  rfl

theorem key_of_withSlider? {o o' : SceneObject} {x : Float} {p : SliderProperty}
    (h : o.withSlider? (·.write x p) = some o') : o'.key = o.key := by
  cases o <;> simp [withSlider?] at h
  subst h
  cases p <;> rfl

end SceneObject

namespace Store

/-! ## Stores by key -/

/-- Two stores hold the same objects if they hold the same under every key. -/
theorem objects_ext {s t : Store} (h : ∀ key, s.get? key = t.get? key) : s.objects = t.objects :=
  Std.ExtTreeMap.ext_getElem? fun key => h key

theorem get?_eq_of_objects_eq {s t : Store} (h : s.objects = t.objects) (key : String) :
    s.get? key = t.get? key := by
  simp [get?, h]

theorem get?_modify? {s s' : Store} {k : String} {f : SceneObject → Option SceneObject}
    (h : s.modify? k f = some s') (key : String) :
    s'.get? key = if k = key then (s.get? k).bind f else s.get? key := by
  obtain ⟨o, o', ho, ho', rfl⟩ := modify?_eq_some h
  rw [ho, Option.bind_some, ho']
  simp [get?, Std.ExtTreeMap.getElem?_insert]

theorem modify?_eq_none_iff {s : Store} {k : String} {f : SceneObject → Option SceneObject} :
    s.modify? k f = none ↔ (s.get? k).bind f = none := by
  cases h : s.get? k with
  | none => simp [modify?, h]
  | some o => cases h' : f o <;> simp [modify?, h, h']

/-- A change of the object under a key, where a change that does not apply leaves it alone. -/
theorem get?_modify?_getD (s : Store) (k : String) (f : SceneObject → Option SceneObject)
    (key : String) :
    ((s.modify? k f).getD s).get? key =
      if k = key then (s.get? key).map fun o => (f o).getD o else s.get? key := by
  cases h : s.modify? k f with
  | some s' =>
    obtain ⟨o, o', ho, ho', -⟩ := modify?_eq_some h
    rw [Option.getD_some, get?_modify? h]
    split
    · next hk => subst hk; simp [ho, ho']
    · rfl
  | none =>
    rw [modify?_eq_none_iff] at h
    rw [Option.getD_none]
    split
    · next hk =>
      subst hk
      cases ho : s.get? k with
      | none => rfl
      | some o =>
        rw [ho, Option.bind_some] at h
        simp [h]
    · rfl

/-! ## Own keys -/

/-- Every object stands under its own key. -/
def Keyed (s : Store) : Prop := ∀ key o, s.get? key = some o → o.key = key

theorem keyed_empty : empty.Keyed := by
  intro key o h
  simp at h

theorem Keyed.insert {s : Store} (h : s.Keyed) (o : SceneObject) : (s.insert o).Keyed := by
  intro key o' ho'
  rw [get?_insert] at ho'
  split at ho'
  · next hk =>
    obtain rfl := Option.some.inj ho'
    exact hk
  · exact h key o' ho'

theorem Keyed.enableMouse {s : Store} (h : s.Keyed) (key : String) : (s.enableMouse key).Keyed :=
  fun k o ho => h k o ho

theorem Keyed.erase {s : Store} (h : s.Keyed) (key : String) : (s.erase key).Keyed := by
  intro k o ho
  rw [get?_erase] at ho
  split at ho
  · simp at ho
  · exact h k o ho

/-- A change that keeps the key of the object it applies to. -/
theorem Keyed.modify?_getD {s : Store} (h : s.Keyed) (k : String)
    {f : SceneObject → Option SceneObject} (hf : ∀ o o', f o = some o' → o'.key = o.key) :
    ((s.modify? k f).getD s).Keyed := by
  intro key o' ho'
  rw [get?_modify?_getD] at ho'
  split at ho'
  · obtain ⟨o, ho, rfl⟩ := Option.map_eq_some_iff.mp ho'
    cases hfo : f o with
    | none => exact h key o ho
    | some o'' => exact (hf o o'' hfo).trans (h key o ho)
  · exact h key o' ho'

theorem Keyed.recordPosition {s : Store} (h : s.Keyed) (key : String) (v : Vec3) :
    (s.recordPosition key v).Keyed :=
  h.modify?_getD key fun _ _ => SceneObject.key_of_set?

theorem Keyed.recordSliderValue {s : Store} (h : s.Keyed) (key : String) (x : Float) :
    (s.recordSliderValue key x).Keyed :=
  h.modify?_getD key fun _ _ => SceneObject.key_of_withSlider?

/-- A command leaves every object under its own key. -/
theorem Keyed.run {s : Store} (h : s.Keyed) (c : Command) : (s.run c).Keyed := by
  cases c with
  | create o => exact h.insert o
  | set a key v => exact h.modify?_getD key fun _ _ => SceneObject.key_of_set?
  | enableMouse key => exact h.enableMouse key
  | deleteObject key => exact h.erase key
  | setContents key contents => exact h.modify?_getD key fun _ _ => SceneObject.key_of_withContents?
  | setLabel key label => exact h.modify?_getD key fun _ _ => SceneObject.key_of_withLabel?
  | setSlider p key x => exact h.modify?_getD key fun _ _ => SceneObject.key_of_withSlider?
  | setPlotData key data => exact h.modify?_getD key fun _ _ => SceneObject.key_of_withPlotData?
  | setLayout p key v => exact h.modify?_getD key fun _ _ => SceneObject.key_of_withLayout?
  | deleteElement key => exact h.erase key
  | clear => exact keyed_empty

theorem Keyed.runAll {s : Store} (h : s.Keyed) (cs : List Command) : (s.runAll cs).Keyed := by
  induction cs generalizing s with
  | nil => exact h
  | cons c cs ih => exact ih (h.run c)

/-! ## Removal -/

/-- Commands of which each that deletes an object finds one to delete, if they are run in order. -/
def Apt (s : Store) : List Command → Prop
  | [] => True
  | c :: cs => (∀ key ∈ c.deletes?, s.contains key) ∧ (s.run c).Apt cs

theorem apt_append {s : Store} {cs ds : List Command} :
    s.Apt (cs ++ ds) ↔ s.Apt cs ∧ (s.runAll cs).Apt ds := by
  induction cs generalizing s with
  | nil => simp [Apt]
  | cons c cs ih => simp [Apt, ih, and_assoc]

/-- A single command that deletes nothing. -/
theorem apt_singleton (s : Store) {c : Command} (h : c.deletes? = none) : s.Apt [c] := by
  simp [Apt, h]

theorem deletes?_deleteCommand (o : SceneObject) : o.deleteCommand.deletes? = some o.key := by
  unfold SceneObject.deleteCommand
  split <;> rfl

/-- The command that deletes an object removes what stands under its key, whatever its kind. -/
theorem run_deleteCommand (s : Store) (o : SceneObject) :
    s.run o.deleteCommand = s.erase o.key := by
  unfold SceneObject.deleteCommand
  split <;> rfl

theorem erase?_eq_some {s s' : Store} {key : String} {o : SceneObject}
    (h : s.erase? key = some (o, s')) : s.get? key = some o ∧ s' = s.erase key := by
  cases ho : s.get? key with
  | none => rw [erase?_eq_none_iff.2 ho] at h; simp at h
  | some o' =>
    rw [erase?_of_get? ho] at h
    simp only [Option.some.injEq, Prod.mk.injEq] at h
    exact ⟨by rw [h.1], h.2.symm⟩

/-- Removing several keys at once runs the commands that delete the objects that were there. -/
theorem eraseAll_eq {s : Store} (h : s.Keyed) (keys : List String) :
    (s.eraseAll keys).2 = s.runAll ((s.eraseAll keys).1.map (·.deleteCommand)) := by
  induction keys generalizing s with
  | nil => rfl
  | cons key keys ih =>
    cases he : s.erase? key with
    | none => simpa [eraseAll, he] using ih h
    | some p =>
      obtain ⟨o, s'⟩ := p
      obtain ⟨ho, rfl⟩ := erase?_eq_some he
      have hrun : s.run o.deleteCommand = s.erase key := by
        rw [run_deleteCommand, h key o ho]
      simp only [eraseAll, he, List.map_cons, runAll_cons, hrun]
      exact ih (h.erase key)

/-- An object that is there can be deleted. -/
theorem apt_deleteCommand {s : Store} {o : SceneObject} {cs : List Command}
    (h : s.get? o.key = some o) (hcs : (s.erase o.key).Apt cs) : s.Apt (o.deleteCommand :: cs) := by
  refine ⟨?_, by rwa [run_deleteCommand]⟩
  simp [deletes?_deleteCommand, contains, h]

/-- Each of them finds its object. -/
theorem apt_eraseAll {s : Store} (h : s.Keyed) (keys : List String) :
    s.Apt ((s.eraseAll keys).1.map (·.deleteCommand)) := by
  induction keys generalizing s with
  | nil => trivial
  | cons key keys ih =>
    cases he : s.erase? key with
    | none => simpa [eraseAll, he] using ih h
    | some p =>
      obtain ⟨o, s'⟩ := p
      obtain ⟨ho, rfl⟩ := erase?_eq_some he
      obtain rfl := h key o ho
      simp only [eraseAll, he, List.map_cons]
      exact apt_deleteCommand ho (ih (h.erase o.key))

end Store

end LiveScene
