import LiveScene.Proofs.Store.Marks

/-!
# Stores key by key

All that a store has to do with a key is its `Slot`: the object under the key, and whether the key
may be dragged. A store is determined by its slots (`Store.ext_slot`).

Whatever is done to a store is done slot by slot. A command acts on each slot in a way that depends
on nothing but that slot (`Store.slot_run`), and on none but that of its key
(`Command.onSlot_of_ne`) unless it clears the store. Removing several keys empties their slots, but
for the marks of keys that have no object (`Store.slot_eraseAll`).
-/

namespace LiveScene

/-- The object under a key, and whether the key may be dragged. -/
@[ext] structure Slot where
  object : Option SceneObject
  marked : Bool

/-- The slot without its object. The mark goes with the object and stays where there is none. -/
def Slot.erase (x : Slot) : Slot := if x.object.isSome then ⟨none, false⟩ else x

@[simp] theorem Slot.object_erase (x : Slot) : x.erase.object = none := by
  obtain ⟨_ | o, b⟩ := x <;> rfl

@[simp] theorem Slot.erase_none (b : Bool) : erase ⟨none, b⟩ = ⟨none, b⟩ := rfl

@[simp] theorem Slot.erase_some (o : SceneObject) (b : Bool) : erase ⟨some o, b⟩ = ⟨none, false⟩ :=
  rfl

/-- The slot of a key after a command, given the slot before it. -/
def Command.onSlot (key : String) (c : Command) (x : Slot) : Slot where
  object := c.effect key x.object
  marked :=
    match c with
    | .enableMouse k => if k = key then true else x.marked
    | .deleteObject k | .deleteElement k => if k = key then x.erase.marked else x.marked
    | .clear => false
    | _ => x.marked

/-- A command leaves the slots of all keys but its own alone. -/
theorem Command.onSlot_of_ne {c : Command} {k key : String} (hc : c.key? = some k) (hk : k ≠ key)
    (x : Slot) : c.onSlot key x = x := by
  cases c <;> simp_all [onSlot, effect, key?]

namespace Store

/-- The slot of a key. -/
def slot (s : Store) (key : String) : Slot := ⟨s.get? key, s.draggable.contains key⟩

variable {s t : Store} {key : String}

theorem get?_of_slot (h : s.slot key = t.slot key) : s.get? key = t.get? key :=
  congrArg Slot.object h

theorem mem_draggable_of_slot (h : s.slot key = t.slot key) :
    key ∈ s.draggable ↔ key ∈ t.draggable := by
  have hmarked : s.draggable.contains key = t.draggable.contains key := congrArg Slot.marked h
  rw [← Std.ExtTreeSet.contains_iff_mem, hmarked, Std.ExtTreeSet.contains_iff_mem]

theorem contains_of_slot (h : s.slot key = t.slot key) : s.contains key = t.contains key :=
  congrArg Option.isSome (get?_of_slot h)

theorem kind?_of_slot (h : s.slot key = t.slot key) : s.kind? key = t.kind? key :=
  congrArg (Option.map SceneObject.kind) (get?_of_slot h)

theorem valueOf_of_slot (h : s.slot key = t.slot key) (a : Attribute) :
    s.valueOf a key = t.valueOf a key := by
  rw [valueOf, valueOf, get?_of_slot h]

/-- A store is determined by its slots. -/
theorem ext_slot (h : ∀ key, s.slot key = t.slot key) : s = t := by
  have hobjects : s.objects = t.objects := objects_ext fun key => congrArg Slot.object (h key)
  have hmarks : s.draggable = t.draggable :=
    Std.ExtTreeSet.ext_contains fun key => congrArg Slot.marked (h key)
  cases s
  cases t
  simp_all

/-! ## Slots after commands -/

theorem slot_insert (s : Store) (o : SceneObject) (key : String) :
    (s.insert o).slot key = if o.key = key then ⟨some o, (s.slot key).marked⟩ else s.slot key := by
  ext1
  · rw [slot, get?_insert]
    split <;> rfl
  · split <;> rfl

theorem marked_modify?_getD (s : Store) (k : String) (f : SceneObject → Option SceneObject)
    (key : String) : (((s.modify? k f).getD s).slot key).marked = (s.slot key).marked :=
  congrArg (·.contains key) (draggable_modify?_getD s k f)

theorem slot_erase (s : Store) (k key : String) :
    (s.erase k).slot key = if k = key then (s.slot key).erase else s.slot key := by
  have hmarks : (s.erase k).draggable.contains key =
      if k = key then (s.slot key).erase.marked else s.draggable.contains key := by
    cases ho : s.get? k with
    | none =>
      have hsame : s.erase k = s := by simp [erase, erase?, ho]
      rw [hsame]
      split
      · next hk => rw [← hk, slot, ho, Slot.erase_none]
      · rfl
    | some o =>
      simp only [erase, erase?, ho, bind, Option.bind_some, pure, Option.map_some, Option.getD_some,
        Std.ExtTreeSet.contains_erase]
      split
      · next hk => simp [← hk, slot, ho]
      · next hk => simp [hk]
  ext1
  · rw [slot, get?_erase]
    split
    · cases ho : s.get? key <;> simp [slot, ho]
    · rfl
  · rw [slot, hmarks]
    split <;> rfl

/-- A command acts on each slot for itself. -/
theorem slot_run (s : Store) (c : Command) (key : String) :
    (s.run c).slot key = c.onSlot key (s.slot key) := by
  have hobject : ((s.run c).slot key).object = (c.onSlot key (s.slot key)).object :=
    get?_run s c key
  refine Slot.ext hobject ?_
  cases c with
  | create o => rfl
  | enableMouse k =>
    simp only [run, enableMouse, slot, Command.onSlot, Std.ExtTreeSet.contains_insert]
    split <;> simp_all
  | deleteObject k | deleteElement k =>
    simp only [run, slot_erase, Command.onSlot]
    split <;> rfl
  | clear => simp [run, empty, slot, Command.onSlot]
  | set _ _ _ | setContents _ _ | setLabel _ _ | setSlider _ _ _ | setPlotData _ _
  | setLayout _ _ _ =>
    exact marked_modify?_getD s _ _ key

/-! ## Several objects -/

theorem slot_foldl_insert_congr (h : s.slot key = t.slot key) (os : List SceneObject) :
    (os.foldl insert s).slot key = (os.foldl insert t).slot key := by
  induction os generalizing s t with
  | nil => exact h
  | cons o os ih => exact ih (by rw [slot_insert, slot_insert, h])

theorem slot_foldl_insert_of_ne {os : List SceneObject} (h : ∀ o ∈ os, o.key ≠ key) :
    (os.foldl insert s).slot key = s.slot key := by
  induction os generalizing s with
  | nil => rfl
  | cons o os ih =>
    rw [List.forall_mem_cons] at h
    rw [List.foldl_cons, ih h.2, slot_insert, if_neg h.1]

theorem eraseAll_cons (s : Store) (k : String) (keys : List String) :
    (s.eraseAll (k :: keys)).2 = ((s.erase k).eraseAll keys).2 := by
  cases ho : s.get? k with
  | none =>
    have hsame : s.erase k = s := by simp [erase, erase?, ho]
    rw [eraseAll, erase?_eq_none_iff.2 ho, hsame]
  | some o => rw [eraseAll, erase?_of_get? ho]

/-- Removing some keys empties their slots. -/
theorem slot_eraseAll (s : Store) (keys : List String) (key : String) :
    (s.eraseAll keys).2.slot key = if key ∈ keys then (s.slot key).erase else s.slot key := by
  induction keys generalizing s with
  | nil => rfl
  | cons k keys ih =>
    have htwice : (s.slot key).erase.erase = (s.slot key).erase := by
      cases ho : s.get? key <;> simp [slot, ho]
    rw [eraseAll_cons, ih, slot_erase]
    by_cases hk : k = key
    · simp [hk, htwice]
    · simp [hk, Ne.symm hk]

/-- Removing everything under a stem empties the slots of all keys that begin with it. -/
theorem slot_eraseUnder (s : Store) (stem key : String) :
    (s.eraseUnder stem).2.slot key =
      if beginsWith stem key then (s.slot key).erase else s.slot key := by
  simp only [eraseUnder, slot_eraseAll, mem_keysUnder]
  cases ho : s.get? key <;> simp [contains, slot, ho]

end Store

end LiveScene
