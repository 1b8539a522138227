import LiveScene.Proofs.Store.Backlog

/-!
# Edits that overtake commands

An edit that a viewer makes itself reaches the store of the server before commands that wait there
and were queued earlier, so the viewer and the server may run them in different orders. What stands
under a key may then differ, but not in an arbitrary way: the viewer lacks some of its own edits,
and has what the server has as soon as it makes them once more. `Command.Behind us x y` says that
about the values `x` of the viewer and `y` of the server and the edits `us`.

A command that is run on both sides keeps this, without the edits that it hides (`Behind.effect`,
`Behind.effects`). So does an edit that the server runs at once and the viewer before commands that
still have to come; it is one of the edits that the viewer lacks if it makes a difference which goes
first (`Behind.overtake`). As long as the viewer lacks an edit the two values differ, since a
command either hides an edit or leaves it open whether the edit has been made
(`eq_of_effect_effect`).
-/

namespace LiveScene.Command

variable {key : String} {c d u v : Command} {cs us vs : List Command} {x y : Option SceneObject}

/-- What `u` does under the key does not show after `d`. -/
def Hides (key : String) (d u : Command) : Prop :=
  ∀ x, d.effect key (u.effect key x) = d.effect key x

theorem effects_append (key : String) (cs ds : List Command) (x : Option SceneObject) :
    effects key (cs ++ ds) x = effects key ds (effects key cs x) :=
  List.foldl_append

/-- Commands that create nothing leave nothing where nothing is. -/
theorem effects_none (h : ∀ o, .create o ∉ cs) : effects key cs none = none := by
  induction cs with
  | nil => rfl
  | cons c cs ih =>
    have hc : c.effect key none = none := by
      cases c with
      | create o => exact absurd List.mem_cons_self (h o)
      | _ => simp [effect]
    rw [effects_cons, hc, ih fun o ho => h o (List.mem_cons_of_mem c ho)]

/-- A command that leaves something where something is and nothing where nothing is settles
nothing. -/
theorem not_settles_of_isSome (h : ∀ x, (c.effect key x).isSome = x.isSome) : ¬c.Settles key := by
  intro hs
  have hnone := h none
  rw [hs none (some (.text ⟨key, "", ⟨IVec2.zero, IVec2.zero⟩⟩)), h] at hnone
  cases hnone

/-! ## What a command leaves open -/

/-- Some command with the same opcode writes what the object has already. -/
theorem exists_rewrite_eq_self (d : Command) (o : SceneObject) :
    ∃ r : Command, r.opcode = d.opcode ∧ r.rewrite o = o := by
  cases d with
  | set a key v => exact ⟨.set a key ((o.get? a).getD v), rfl, by cases o <;> cases a <;> rfl⟩
  | setContents key contents =>
    cases o with
    | text t => exact ⟨.setContents key t.contents, rfl, rfl⟩
    | _ => exact ⟨.setContents key contents, rfl, rfl⟩
  | setLabel key label =>
    cases o with
    | button b => exact ⟨.setLabel key b.label, rfl, rfl⟩
    | _ => exact ⟨.setLabel key label, rfl, rfl⟩
  | setSlider p key x =>
    cases o with
    | slider s =>
      cases p with
      | value => exact ⟨.setSlider .value key s.value, rfl, rfl⟩
      | min => exact ⟨.setSlider .min key s.min, rfl, rfl⟩
      | max => exact ⟨.setSlider .max key s.max, rfl, rfl⟩
    | _ => exact ⟨.setSlider p key x, rfl, rfl⟩
  | setPlotData key data =>
    cases o with
    | plot p => exact ⟨.setPlotData key p.data, rfl, rfl⟩
    | _ => exact ⟨.setPlotData key data, rfl, rfl⟩
  | setLayout p key v =>
    have hself (l : Layout) : ∃ w, l.write w p = l := by
      cases p with
      | position => exact ⟨l.fromTopLeft, rfl⟩
      | size => exact ⟨l.size, rfl⟩
    cases o with
    | text t =>
      obtain ⟨w, hw⟩ := hself t.layout
      exact ⟨.setLayout p key w, rfl, by simp [rewrite, SceneObject.withLayout?, hw]⟩
    | button b =>
      obtain ⟨w, hw⟩ := hself b.layout
      exact ⟨.setLayout p key w, rfl, by simp [rewrite, SceneObject.withLayout?, hw]⟩
    | slider s =>
      obtain ⟨w, hw⟩ := hself s.layout
      exact ⟨.setLayout p key w, rfl, by simp [rewrite, SceneObject.withLayout?, hw]⟩
    | plot q =>
      obtain ⟨w, hw⟩ := hself q.layout
      exact ⟨.setLayout p key w, rfl, by simp [rewrite, SceneObject.withLayout?, hw]⟩
    | _ => exact ⟨.setLayout p key v, rfl, rfl⟩
  | create o' => exact ⟨.create o', rfl, rfl⟩
  | enableMouse key => exact ⟨.enableMouse key, rfl, rfl⟩
  | deleteObject key => exact ⟨.deleteObject key, rfl, rfl⟩
  | deleteElement key => exact ⟨.deleteElement key, rfl, rfl⟩
  | clear => exact ⟨.clear, rfl, rfl⟩

/-- A command with another opcode leaves it open whether the object has been rewritten. -/
theorem eq_of_rewrite_rewrite (h : c.opcode ≠ d.opcode) {o : SceneObject}
    (ho : d.rewrite (c.rewrite o) = d.rewrite o) : c.rewrite o = o := by
  obtain ⟨r, hr, hself⟩ := exists_rewrite_eq_self d o
  calc c.rewrite o
      = c.rewrite (r.rewrite o) := by rw [hself]
    _ = r.rewrite (c.rewrite o) := (rewrite_comm (hr ▸ h) o).symm
    _ = r.rewrite (d.rewrite (c.rewrite o)) := (rewrite_rewrite hr.symm _).symm
    _ = r.rewrite (d.rewrite o) := by rw [ho]
    _ = r.rewrite o := rewrite_rewrite hr.symm o
    _ = o := hself

theorem effect_comm (hc : ¬c.Settles key) (h : ¬d.Hides key c) (x : Option SceneObject) :
    d.effect key (c.effect key x) = c.effect key (d.effect key x) :=
  (effect_hidden_or_comm hc d).resolve_left h x

/-- A command that does not hide another leaves it open whether that one has been run. -/
theorem eq_of_effect_effect (hc : ¬c.Settles key) (h : ¬d.Hides key c)
    (hx : d.effect key (c.effect key x) = d.effect key x) : c.effect key x = x := by
  rcases effect_cases key c with hs | hc' | hc'
  · contradiction
  · exact hc' x
  rcases effect_cases key d with hd | hd | hd
  · exact absurd (fun x => hd _ _) h
  · rwa [hd, hd] at hx
  have hop : c.opcode ≠ d.opcode := by
    refine fun hop => h fun x => ?_
    cases x with
    | none => simp [hc', hd]
    | some o => simpa [hc', hd] using rewrite_rewrite hop o
  cases x with
  | none => simp [hc']
  | some o =>
    rw [hc', hd, hd, Option.map_some, Option.map_some, Option.map_some, Option.some.injEq] at hx
    rw [hc', Option.map_some, eq_of_rewrite_rewrite hop hx]

/-- A command goes before other ones that settle nothing if those that it hides are left out. -/
theorem exists_effects_effect (hus : ∀ u ∈ us, ¬u.Settles key) (d : Command) :
    ∃ vs, (∀ v, v ∈ vs ↔ v ∈ us ∧ ¬d.Hides key v) ∧
      ∀ x, d.effect key (effects key us x) = effects key vs (d.effect key x) := by
  induction us with
  | nil => exact ⟨[], by simp, fun x => rfl⟩
  | cons u us ih =>
    obtain ⟨hu, hus⟩ := List.forall_mem_cons.mp hus
    obtain ⟨vs, hvs, hcomm⟩ := ih hus
    by_cases hhide : d.Hides key u
    · refine ⟨vs, fun v => ?_, fun x => by rw [effects_cons, hcomm, hhide]⟩
      rw [hvs, List.mem_cons]
      constructor
      · exact fun h => ⟨Or.inr h.1, h.2⟩
      · rintro ⟨rfl | hv, hopen⟩
        · contradiction
        · exact ⟨hv, hopen⟩
    · refine ⟨u :: vs, fun v => ?_, fun x => ?_⟩
      · rw [List.mem_cons, hvs, List.mem_cons]
        constructor
        · rintro (rfl | h)
          · exact ⟨Or.inl rfl, hhide⟩
          · exact ⟨Or.inr h.1, h.2⟩
        · rintro ⟨rfl | hv, hopen⟩
          · exact Or.inl rfl
          · exact Or.inr ⟨hv, hopen⟩
      · rw [effects_cons, effects_cons, hcomm, effect_comm hu hhide]

/-! ## Being behind -/

/-- Run once more, the edits `us` make `x` to `y`. Each of them has been made in `y`, and would
change `x`. -/
structure Behind (key : String) (us : List Command) (x y : Option SceneObject) : Prop where
  unsettled : ∀ u ∈ us, ¬u.Settles key
  redone : y = effects key us x
  made : ∀ u ∈ us, u.effect key y = y
  lacking : ∀ u ∈ us, u.effect key x ≠ x

theorem behind_nil (key : String) (x : Option SceneObject) : Behind key [] x x where
  unsettled := by simp
  redone := rfl
  made := by simp
  lacking := by simp

/-- Nothing is lacking exactly where the two are the same. -/
theorem Behind.eq_iff (h : Behind key us x y) : x = y ↔ ∀ u, u ∉ us := by
  constructor
  · rintro rfl u hu
    exact h.lacking u hu (h.made u hu)
  · intro hus
    rw [h.redone, List.eq_nil_iff_forall_not_mem.mpr hus, effects_nil]

/-- A command is run on both sides. -/
theorem Behind.effect (h : Behind key us x y) (d : Command) :
    ∃ vs, (∀ v, v ∈ vs ↔ v ∈ us ∧ ¬d.Hides key v) ∧
      Behind key vs (d.effect key x) (d.effect key y) := by
  obtain ⟨vs, hvs, hcomm⟩ := exists_effects_effect h.unsettled d
  refine ⟨vs, hvs, fun v hv => h.unsettled v ((hvs v).mp hv).1, ?_, fun v hv => ?_,
    fun v hv => ?_⟩
  · rw [h.redone, hcomm]
  · obtain ⟨hv, hopen⟩ := (hvs v).mp hv
    rw [← effect_comm (h.unsettled v hv) hopen, h.made v hv]
  · obtain ⟨hv, hopen⟩ := (hvs v).mp hv
    intro hsame
    rw [← effect_comm (h.unsettled v hv) hopen] at hsame
    exact h.lacking v hv (eq_of_effect_effect (h.unsettled v hv) hopen hsame)

/-- Some commands are run on both sides. -/
theorem Behind.effects (h : Behind key us x y) (ds : List Command) :
    ∃ vs, (∀ v, v ∈ vs ↔ v ∈ us ∧ ∀ d ∈ ds, ¬d.Hides key v) ∧
      Behind key vs (effects key ds x) (effects key ds y) := by
  induction ds generalizing us x y with
  | nil => exact ⟨us, by simp, h⟩
  | cons d ds ih =>
    obtain ⟨vs, hvs, hd⟩ := h.effect d
    obtain ⟨ws, hws, hds⟩ := ih hd
    refine ⟨ws, fun w => ?_, hds⟩
    rw [hws, hvs, List.forall_mem_cons, and_assoc]

/-- An edit is run before some commands on one side and after them on the other. -/
theorem Behind.overtake {ps : List Command} (h : Behind key us (Command.effects key ps x) y)
    (hu : ¬u.Settles key) :
    ∃ vs, (∀ v, v ∈ vs ↔
        (v = u ∧ Command.effects key ps (u.effect key x) ≠
          u.effect key (Command.effects key ps x)) ∨ v ∈ us ∧ ¬u.Hides key v) ∧
      Behind key vs (Command.effects key ps (u.effect key x)) (u.effect key y) := by
  obtain ⟨vs, hvs, hbehind⟩ := h.effect u
  -- the commands that the edit has overtaken undo it or not, but they hide that it was made before
  have hredo : u.effect key (Command.effects key ps (u.effect key x)) =
      u.effect key (Command.effects key ps x) := by
    have hmem : u ∈ ps ++ [u] := by simp
    simpa [effects_append] using effects_effect_of_mem hmem x
  by_cases hcross : Command.effects key ps (u.effect key x) =
      u.effect key (Command.effects key ps x)
  · refine ⟨vs, fun v => by simp [hvs, hcross], ?_⟩
    rwa [hcross]
  · refine ⟨u :: vs, fun v => by simp [hvs, hcross], ?_⟩
    refine ⟨List.forall_mem_cons.mpr ⟨hu, hbehind.unsettled⟩, ?_,
      List.forall_mem_cons.mpr ⟨effect_effect key u y, hbehind.made⟩,
      List.forall_mem_cons.mpr ⟨fun hsame => hcross (hsame.symm.trans hredo), fun v hv hsame => ?_⟩⟩
    · rw [effects_cons, hredo]
      exact hbehind.redone
    · obtain ⟨hv', hopen⟩ := (hvs v).mp hv
      have hcomm := effect_comm (h.unsettled v hv') hopen
        (Command.effects key ps (u.effect key x))
      rw [hsame, hredo] at hcomm
      exact hbehind.lacking v hv hcomm.symm

end LiveScene.Command
