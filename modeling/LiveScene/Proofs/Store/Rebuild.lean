import LiveScene.Proofs.Store.Backlog
import LiveScene.Store.Replay

/-!
# Rebuilding a scene

The replay of a store creates exactly the objects that the store holds (`mem_replay`), each under
its own key. So it builds the objects of the store up from nothing (`objects_runAll_replay`).
-/

namespace LiveScene

namespace Command

/-- If each command leaves a key alone or puts `r` there, and one of them does put it there unless
it is there already, then `r` is there after all of them. -/
theorem effects_eq_of_forall {key : String} {cs : List Command} {x r : Option SceneObject}
    (h : ∀ c ∈ cs, (∀ y, c.effect key y = y) ∨ ∀ y, c.effect key y = r)
    (hr : x = r ∨ ∃ c ∈ cs, ∀ y, c.effect key y = r) : effects key cs x = r := by
  induction cs generalizing x with
  | nil => simpa using hr
  | cons c cs ih =>
    rw [effects_cons]
    apply ih fun d hd => h d (List.mem_cons_of_mem c hd)
    rcases h c List.mem_cons_self with hc | hc
    · rw [hc]
      rcases hr with hr | ⟨d, hd, hdr⟩
      · exact Or.inl hr
      · rcases List.mem_cons.mp hd with rfl | hd
        · exact Or.inl ((hc x).symm.trans (hdr x))
        · exact Or.inr ⟨d, hd, hdr⟩
    · exact Or.inl (hc x)

end Command

namespace Store

theorem mem_group {s : Store} {g : ReplayGroup} {o : SceneObject} :
    o ∈ s.group g ↔ (∃ key, s.get? key = some o) ∧ o.kind.replayGroup = g := by
  simp [group, get?, Std.ExtTreeMap.mem_toList_iff_getElem?_eq_some]

/-- A replay creates the objects there are and enables the mouse on draggable keys. -/
theorem mem_replay {s : Store} {c : Command} :
    c ∈ s.replay ↔ (∃ key o, s.get? key = some o ∧ c = .create o) ∨
      ∃ key ∈ s.draggableKeys, c = .enableMouse key := by
  simp only [replay, List.mem_append, List.mem_map, mem_group, SceneObject.createCommand]
  constructor
  · rintro (⟨o, ((⟨⟨key, h⟩, -⟩ | ⟨⟨key, h⟩, -⟩) | ⟨⟨key, h⟩, -⟩), rfl⟩ | ⟨key, h, rfl⟩)
    · exact Or.inl ⟨key, o, h, rfl⟩
    · exact Or.inl ⟨key, o, h, rfl⟩
    · exact Or.inl ⟨key, o, h, rfl⟩
    · exact Or.inr ⟨key, h, rfl⟩
  · rintro (⟨key, o, h, rfl⟩ | ⟨key, h, rfl⟩)
    · refine Or.inl ⟨o, ?_, rfl⟩
      cases hg : o.kind.replayGroup with
      | images => exact Or.inl (Or.inl ⟨⟨key, h⟩, rfl⟩)
      | solids => exact Or.inl (Or.inr ⟨⟨key, h⟩, rfl⟩)
      | elements => exact Or.inr ⟨⟨key, h⟩, rfl⟩
    · exact Or.inr ⟨key, h, rfl⟩

/-- The replay of a store builds its objects up from nothing. -/
theorem objects_runAll_replay {s : Store} (h : s.Keyed) :
    (empty.runAll s.replay).objects = s.objects := by
  refine objects_ext fun key => ?_
  rw [get?_runAll, get?_empty]
  apply Command.effects_eq_of_forall
  · intro c hc
    rcases mem_replay.mp hc with ⟨k, o, ho, rfl⟩ | ⟨k, -, rfl⟩
    · by_cases hk : o.key = key
      · rw [h k o ho] at hk
        subst hk
        exact Or.inr fun y => by simp [Command.effect, h k o ho, ho]
      · exact Or.inl fun y => by simp [Command.effect, hk]
    · exact Or.inl fun y => rfl
  · cases ho : s.get? key with
    | none => exact Or.inl rfl
    | some o =>
      refine Or.inr ⟨.create o, mem_replay.mpr (Or.inl ⟨key, o, ho, rfl⟩), fun y => ?_⟩
      simp [Command.effect, h key o ho]

end Store

end LiveScene
