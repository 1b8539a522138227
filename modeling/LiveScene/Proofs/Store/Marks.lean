import LiveScene.Proofs.Store.Rebuild

/-!
# Marks

Which keys may be dragged is independent of which keys have objects, but for one thing: a command
that deletes an object drops the mark of its key only if there is an object to delete
(`mem_draggable_run`). So two stores that have objects under the same keys (`Store.Alike`) treat
marks in the same way, whatever these objects are, and stay so (`Alike.runAll`).

A key that is marked in one of them and not in the other stays so until a command touches its mark
(`Alike.mem_draggable_runAll`). A replay makes such a difference: it leaves out the marks of keys
without objects (`mem_draggable_runAll_replay`).
-/

namespace LiveScene

/-- Whether a command may set or drop the mark of a key. -/
def Command.touchesMark (key : String) : Command → Bool
  | .enableMouse k | .deleteObject k | .deleteElement k => k == key
  | .clear => true
  | _ => false

namespace Store

variable {r s : Store} {key : String} {c : Command} {cs : List Command} {P : Prop}

/-! ## Marks and single commands -/

theorem draggable_modify?_getD (s : Store) (k : String) (f : SceneObject → Option SceneObject) :
    ((s.modify? k f).getD s).draggable = s.draggable := by
  cases h : s.modify? k f with
  | none => rfl
  | some s' =>
    obtain ⟨o, o', -, -, rfl⟩ := modify?_eq_some h
    rfl

theorem mem_draggable_erase (s : Store) {k : String} (h : key = k → s.contains k) :
    key ∈ (s.erase k).draggable ↔ key ∈ s.draggable ∧ k ≠ key := by
  cases ho : s.get? k with
  | none =>
    have hk : k ≠ key := by
      rintro rfl
      simp [contains, ho] at h
    simp [erase, erase?, ho, hk]
  | some o => simp [erase, erase?, ho, and_comm]

/-- What a command makes of a mark, if it finds the object that it is to delete under the key. -/
theorem mem_draggable_run (s : Store) (h : key ∈ c.deletes? → s.contains key) :
    key ∈ (s.run c).draggable ↔
      c = .enableMouse key ∨ key ∈ s.draggable ∧ c.touchesMark key = false := by
  cases c with
  | enableMouse k =>
    simp only [run, enableMouse, Std.ExtTreeSet.mem_insert, Std.compare_eq_iff_eq,
      Command.enableMouse.injEq, Command.touchesMark, beq_eq_false_iff_ne]
    grind
  | clear => simp [run, empty, Command.touchesMark]
  | deleteObject k | deleteElement k =>
    have hk : key = k → s.contains k := by
      rintro rfl
      exact h rfl
    simp [run, mem_draggable_erase s hk, Command.touchesMark]
  | create o => simp [run, insert, Command.touchesMark]
  | set _ _ _ | setContents _ _ | setLabel _ _ | setSlider _ _ _ | setPlotData _ _
  | setLayout _ _ _ =>
    simp [run, set?, setContents?, setLabel?, setSlider?, setPlotData?, setLayout?,
      draggable_modify?_getD, Command.touchesMark]

/-- The mark of a key after commands that drop no marks. -/
theorem mem_draggable_runAll (s : Store)
    (h : ∀ c ∈ cs, c.touchesMark key = true → c = .enableMouse key) :
    key ∈ (s.runAll cs).draggable ↔ .enableMouse key ∈ cs ∨ key ∈ s.draggable := by
  induction cs generalizing s with
  | nil => simp
  | cons c cs ih =>
    have hc := h c List.mem_cons_self
    have hdeletes : key ∈ c.deletes? → s.contains key := by
      intro hk
      cases c <;> simp_all [Command.deletes?, Command.touchesMark]
    rw [runAll_cons, ih _ fun d hd => h d (List.mem_cons_of_mem c hd), mem_draggable_run s hdeletes,
      List.mem_cons]
    cases ht : c.touchesMark key with
    | false => grind
    | true =>
      obtain rfl := hc ht
      simp

/-- The mark of a key after commands that each find what they are to delete, if they touch marks
only by that. -/
theorem mem_draggable_runAll_of_apt {s : Store} (hcs : s.Apt cs)
    (h : ∀ c ∈ cs, c.touchesMark key = true → c.deletes? = some key) :
    key ∈ (s.runAll cs).draggable ↔ key ∈ s.draggable ∧ key ∉ cs.filterMap Command.deletes? := by
  induction cs generalizing s with
  | nil => simp
  | cons c cs ih =>
    obtain ⟨hc, hrest⟩ := List.forall_mem_cons.1 h
    have htouches : c.deletes? = some key → c.touchesMark key = true := by
      cases c <;> simp [Command.deletes?, Command.touchesMark]
    have hmark : c ≠ .enableMouse key := by
      rintro rfl
      simpa [Command.deletes?] using hc (by simp [Command.touchesMark])
    rw [runAll_cons, ih hcs.2 hrest, mem_draggable_run s (hcs.1 key), List.mem_filterMap,
      List.mem_filterMap]
    simp only [hmark, false_or, List.mem_cons, exists_eq_or_imp, not_or]
    grind

/-- A replay marks the marked keys that have objects. -/
theorem mem_draggable_runAll_replay (s : Store) :
    key ∈ (empty.runAll s.replay).draggable ↔ key ∈ s.draggable ∧ s.contains key := by
  have hreplay : ∀ c ∈ s.replay, c.touchesMark key = true → c = .enableMouse key := by
    intro c hc ht
    rcases mem_replay.mp hc with ⟨k, o, -, rfl⟩ | ⟨k, -, rfl⟩
    · cases ht
    · simpa [Command.touchesMark] using ht
  rw [mem_draggable_runAll empty hreplay, mem_replay]
  simp [empty, draggableKeys]

/-! ## Stores with objects under the same keys -/

/-- The two stores have objects under the same keys. -/
def Alike (r s : Store) : Prop := ∀ key, r.contains key = s.contains key

theorem alike_of_objects_eq (h : r.objects = s.objects) : r.Alike s := fun key => by
  rw [contains, contains, get?_eq_of_objects_eq h]

theorem contains_run (s : Store) (c : Command) (key : String) :
    (s.run c).contains key = (c.effect key (s.get? key)).isSome := by
  rw [contains, get?_run]

theorem Alike.run (h : r.Alike s) (c : Command) : (r.run c).Alike (s.run c) := by
  intro key
  rw [contains_run, contains_run]
  rcases Command.effect_cases key c with hc | hc | hc
  · rw [hc (r.get? key) (s.get? key)]
  · rw [hc, hc]
    exact h key
  · rw [hc, hc, Option.isSome_map, Option.isSome_map]
    exact h key

theorem Alike.runAll (h : r.Alike s) (cs : List Command) : (r.runAll cs).Alike (s.runAll cs) := by
  induction cs generalizing r s with
  | nil => exact h
  | cons c cs ih => exact ih (h.run c)

theorem Alike.apt (h : r.Alike s) (hcs : s.Apt cs) : r.Apt cs := by
  induction cs generalizing r s with
  | nil => trivial
  | cons c cs ih => exact ⟨fun key hc => (h key).trans (hcs.1 key hc), ih (h.run c) hcs.2⟩

theorem Alike.mem_draggable_run (h : r.Alike s) (hc : ∀ k ∈ c.deletes?, s.contains k)
    (hm : key ∈ r.draggable ↔ key ∈ s.draggable ∧ ¬P) :
    key ∈ (r.run c).draggable ↔
      key ∈ (s.run c).draggable ∧ ¬(P ∧ c.touchesMark key = false) := by
  rw [Store.mem_draggable_run r fun hk => (h key).trans (hc key hk),
    Store.mem_draggable_run s (hc key), hm]
  by_cases hkey : c = .enableMouse key
  · simp [hkey, Command.touchesMark]
  · grind

/-- A mark that one of them has and the other has not stays so until a command touches it. -/
theorem Alike.mem_draggable_runAll (h : r.Alike s) (hcs : s.Apt cs)
    (hm : key ∈ r.draggable ↔ key ∈ s.draggable ∧ ¬P) :
    key ∈ (r.runAll cs).draggable ↔
      key ∈ (s.runAll cs).draggable ∧ ¬(P ∧ ∀ c ∈ cs, c.touchesMark key = false) := by
  induction cs generalizing r s P with
  | nil => simpa using hm
  | cons c cs ih =>
    have hrest := ih (h.run c) hcs.2 (h.mem_draggable_run hcs.1 hm)
    simpa only [runAll_cons, List.forall_mem_cons, and_assoc] using hrest

end Store

end LiveScene
