import LiveScene.Proofs.Store.Keyed

/-!
# Backlogs

Commands that have changed a scene may reach a viewer that has already been sent the scene after
them. This file shows that such a backlog does no harm: commands run again over their own result
leave the objects as they are (`objects_runAll_runAll`).

What a command does to a store it does key by key (`get?_run`): `Command.effect` is its part under
one key. That is to put something fixed there (`Command.Settles`), to leave alone what is there, or
to rewrite a part of it (`Command.rewrite`). Commands of one opcode rewrite the same part, so the
later one hides the earlier (`rewrite_rewrite`); commands of different opcodes rewrite different
parts, so they commute (`rewrite_comm`). Hence a command that occurs in a list has no effect when it
is run before the list as well (`effects_effect_of_mem`).
-/

namespace LiveScene

namespace Command

variable {key : String} {c d : Command} {cs ds : List Command}

/-! ## Rewriting an object -/

/-- What a command that writes a part of an object makes of it; other commands keep it. -/
def rewrite : Command → SceneObject → SceneObject
  | .set a _ v, o => (o.set? v a).getD o
  | .setContents _ contents, o => (o.withContents? contents).getD o
  | .setLabel _ label, o => (o.withLabel? label).getD o
  | .setSlider p _ x, o => (o.withSlider? (·.write x p)).getD o
  | .setPlotData _ data, o => (o.withPlotData? data).getD o
  | .setLayout p _ v, o => (o.withLayout? (·.write v p)).getD o
  | _, o => o

/-- Of two commands with one opcode the later one hides the earlier. -/
theorem rewrite_rewrite (h : c.opcode = d.opcode) (o : SceneObject) :
    d.rewrite (c.rewrite o) = d.rewrite o := by
  rcases c with _ | ⟨_ | _ | _ | _⟩ | _ | _ | _ | _ | ⟨_ | _ | _⟩ | _ | ⟨_ | _⟩ | _ | _ <;>
    rcases d with _ | ⟨_ | _ | _ | _⟩ | _ | _ | _ | _ | ⟨_ | _ | _⟩ | _ | ⟨_ | _⟩ | _ | _ <;>
      first | rfl | (cases o <;> rfl) | cases h

/-- Commands with different opcodes write different parts of an object. -/
theorem rewrite_comm (h : c.opcode ≠ d.opcode) (o : SceneObject) :
    d.rewrite (c.rewrite o) = c.rewrite (d.rewrite o) := by
  rcases c with _ | ⟨_ | _ | _ | _⟩ | _ | _ | _ | _ | ⟨_ | _ | _⟩ | _ | ⟨_ | _⟩ | _ | _ <;>
    rcases d with _ | ⟨_ | _ | _ | _⟩ | _ | _ | _ | _ | ⟨_ | _ | _⟩ | _ | ⟨_ | _⟩ | _ | _ <;>
      first | rfl | exact absurd rfl h | (cases o <;> rfl)

/-! ## The effect under one key -/

/-- What stands under a key after a command, given what stands there before it. -/
def effect (key : String) : Command → Option SceneObject → Option SceneObject
  | .create o, x => if o.key = key then some o else x
  | .enableMouse _, x => x
  | .deleteObject k, x => if k = key then none else x
  | .deleteElement k, x => if k = key then none else x
  | .clear, _ => none
  | c, x => if c.key? = some key then x.map c.rewrite else x

/-- The command leaves something under the key that does not depend on what was there. -/
def Settles (key : String) (c : Command) : Prop := ∀ x y, c.effect key x = c.effect key y

/-- A command settles what stands under a key, leaves it alone, or rewrites it. -/
theorem effect_cases (key : String) (c : Command) :
    c.Settles key ∨ (∀ x, c.effect key x = x) ∨ ∀ x, c.effect key x = x.map c.rewrite := by
  cases c with
  | create o =>
    by_cases h : o.key = key
    · exact Or.inl fun x y => by simp [effect, h]
    · exact Or.inr (Or.inl fun x => by simp [effect, h])
  | deleteObject k =>
    by_cases h : k = key
    · exact Or.inl fun x y => by simp [effect, h]
    · exact Or.inr (Or.inl fun x => by simp [effect, h])
  | deleteElement k =>
    by_cases h : k = key
    · exact Or.inl fun x y => by simp [effect, h]
    · exact Or.inr (Or.inl fun x => by simp [effect, h])
  | clear => exact Or.inl fun x y => rfl
  | enableMouse k => exact Or.inr (Or.inl fun x => rfl)
  | set _ k _ | setContents k _ | setLabel k _ | setSlider _ k _ | setPlotData k _
  | setLayout _ k _ =>
    by_cases h : k = key
    · exact Or.inr (Or.inr fun x => by simp [effect, key?, h])
    · exact Or.inr (Or.inl fun x => by simp [effect, key?, h])

/-- A command run twice is a command run once. -/
theorem effect_effect (key : String) (c : Command) (x : Option SceneObject) :
    c.effect key (c.effect key x) = c.effect key x := by
  rcases effect_cases key c with h | h | h
  · exact h _ _
  · exact h _
  · simp only [h, Option.map_map]
    cases x with
    | none => rfl
    | some o => exact congrArg some (rewrite_rewrite rfl o)

/-- A command that does not settle what stands under a key is hidden by a later one or commutes
with it. -/
theorem effect_hidden_or_comm (hc : ¬c.Settles key) (d : Command) :
    (∀ x, d.effect key (c.effect key x) = d.effect key x) ∨
      ∀ x, d.effect key (c.effect key x) = c.effect key (d.effect key x) := by
  rcases effect_cases key c with h | hc | hc
  · contradiction
  · exact Or.inl fun x => by rw [hc]
  rcases effect_cases key d with hd | hd | hd
  · exact Or.inl fun x => hd _ _
  · exact Or.inr fun x => by rw [hd, hd]
  by_cases h : c.opcode = d.opcode
  · refine Or.inl fun x => ?_
    cases x with
    | none => simp [hc, hd]
    | some o => simpa [hc, hd] using rewrite_rewrite h o
  · refine Or.inr fun x => ?_
    cases x with
    | none => simp [hc, hd]
    | some o => simpa [hc, hd] using rewrite_comm h o

/-- What stands under a key after some commands, in order. -/
def effects (key : String) (cs : List Command) (x : Option SceneObject) : Option SceneObject :=
  cs.foldl (fun x c => c.effect key x) x

@[simp] theorem effects_nil (key : String) (x : Option SceneObject) : effects key [] x = x := rfl

@[simp] theorem effects_cons (key : String) (c : Command) (cs : List Command)
    (x : Option SceneObject) : effects key (c :: cs) x = effects key cs (c.effect key x) := rfl

/-- A list with a command that settles what stands under a key settles it. -/
theorem effects_eq_of_settles (hc : c ∈ cs) (h : c.Settles key) (x y : Option SceneObject) :
    effects key cs x = effects key cs y := by
  induction cs generalizing x y with
  | nil => simp at hc
  | cons d cs ih =>
    rcases List.mem_cons.mp hc with rfl | hc
    · rw [effects_cons, effects_cons, h x y]
    · exact ih hc _ _

/-- A command of a list has no effect when it is run before the list as well. -/
theorem effects_effect_of_mem (hc : c ∈ cs) (x : Option SceneObject) :
    effects key cs (c.effect key x) = effects key cs x := by
  by_cases hs : c.Settles key
  · exact effects_eq_of_settles hc hs _ _
  induction cs generalizing x with
  | nil => simp at hc
  | cons d cs ih =>
    rw [effects_cons, effects_cons]
    rcases List.mem_cons.mp hc with rfl | hc
    · rw [effect_effect]
    · rcases effect_hidden_or_comm hs d with h | h
      · rw [h]
      · rw [h, ih hc]

/-- Some commands of a list, in any order, have no effect when they are run before it. -/
theorem effects_effects_of_subset (h : ds ⊆ cs) (x : Option SceneObject) :
    effects key cs (effects key ds x) = effects key cs x := by
  induction ds generalizing x with
  | nil => rfl
  | cons d ds ih =>
    rw [effects_cons, ih fun c hc => h (List.mem_cons_of_mem d hc)]
    exact effects_effect_of_mem (h List.mem_cons_self) x

end Command

namespace Store

/-! ## Running commands -/

/-- A command acts on each key by its effect there. -/
theorem get?_run (s : Store) (c : Command) (key : String) :
    (s.run c).get? key = c.effect key (s.get? key) := by
  cases c with
  | create o => exact get?_insert s o key
  | enableMouse k => rfl
  | deleteObject k => exact get?_erase s k key
  | deleteElement k => exact get?_erase s k key
  | clear => exact get?_empty key
  | set _ k _ | setContents k _ | setLabel k _ | setSlider _ k _ | setPlotData k _
  | setLayout _ k _ =>
    refine (get?_modify?_getD s k _ key).trans ?_
    simp only [Command.effect, Command.key?, Option.some.injEq]
    split
    · next h => subst h; rfl
    · rfl

theorem get?_runAll (s : Store) (cs : List Command) (key : String) :
    (s.runAll cs).get? key = Command.effects key cs (s.get? key) := by
  induction cs generalizing s with
  | nil => rfl
  | cons c cs ih => rw [runAll_cons, ih, get?_run, Command.effects_cons]

/-- The objects after some commands depend on the objects before them alone. -/
theorem objects_runAll_congr {s t : Store} (h : s.objects = t.objects) (cs : List Command) :
    (s.runAll cs).objects = (t.runAll cs).objects :=
  objects_ext fun key => by rw [get?_runAll, get?_runAll, get?_eq_of_objects_eq h]

/-- A backlog that is run again over its own result leaves the objects as they are. -/
theorem objects_runAll_runAll (s : Store) (cs : List Command) :
    ((s.runAll cs).runAll cs).objects = (s.runAll cs).objects :=
  objects_ext fun key => by
    rw [get?_runAll, get?_runAll, Command.effects_effects_of_subset (List.Subset.refl cs)]

end Store

end LiveScene
