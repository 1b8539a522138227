import LiveScene.Proofs.Server.Replica
import LiveScene.Proofs.Store.Marks

/-!
# What viewers may drag

A viewer that connects is sent the marks of the keys that have objects, and later every command that
sets or drops a mark. So its replica has the marks of the store, but for one sort of key
(`late_joiner_marks`): a key that was marked and had no object when the viewer connected is not
marked in the replica until a command touches its mark again, even if an object is put there in the
meantime. That happens when a listener for drags is registered before its object is created
(`early_viewer_misses_mark`).

The invariant is `Server.Marked`. It survives reports of viewers, since they move objects and never
put one there or take one away.
-/

namespace LiveScene

open Relation (ReflTransGen)

variable {config : Config} {host : Host} {m m₁ m₂ : Machine} {s t : Server} {es ds : List Event}
  {key : String} {r : Store} {P : Prop}

namespace Server

/-- What `r` becomes by all that has been broadcast in some events, and then by what waits, has
objects where the store has some, and the mark of the key if and only if the store has it, unless
`P` holds and nothing that has gone out touches the mark. -/
structure Marked (r : Store) (key : String) (P : Prop) (es : List Event) (s : Server) : Prop where
  alike : (r.runAll (s.outgoing es)).Alike s.scene.store
  mark : key ∈ (r.runAll (s.outgoing es)).draggable ↔ key ∈ s.scene.store.draggable ∧
    ¬(P ∧ ∀ c ∈ s.outgoing es, c.touchesMark key = false)

theorem Marked.told (h : Marked r key P ds s) (hd : s.Drained) (hl : s.lifecycle.link.isSome)
    (ht : Told s t es) : Marked r key P (ds ++ es) t where
  alike := by
    rw [ht.outgoing hd hl, Store.runAll_append, ht.store]
    exact h.alike.runAll _
  mark := by
    rw [ht.outgoing hd hl, Store.runAll_append, h.alike.mem_draggable_runAll ht.apt h.mark,
      ht.store]
    simp only [List.forall_mem_append, and_assoc]

theorem Marked.reported {c : Connection} {u : Command} {e : Event} (h : Marked r key P ds s)
    (hr : Reported s t c u e) : Marked r key P (ds ++ [e]) t := by
  have hcontains (k : String) : t.scene.store.contains k = s.scene.store.contains k := by
    rw [hr.store, Store.contains_run, hr.isSome_effect, Store.contains]
  have hdraggable : t.scene.store.draggable = s.scene.store.draggable := by
    rw [hr.store]
    obtain ⟨k', pos, rfl⟩ | ⟨k', x, rfl⟩ := hr.write <;> exact Store.draggable_modify?_getD _ _ _
  exact ⟨fun k => by rw [hr.outgoing, h.alike, hcontains], by rw [hr.outgoing, h.mark, hdraggable]⟩

end Server

/-- A viewer that connects while the server serves is sent a replay. Suppose that autoflush is on or
nothing waits, both when it connects and at some later point of the session. Then the replay and all
that has been broadcast since mark a key if and only if the store does, unless the key was marked
and had no object when the viewer connected and nothing that was broadcast has touched its mark
since. -/
theorem late_joiner_marks {c : Connection} {calls : List Call} {below : List Frame}
    (h : m.Reachable config host)
    (hstack : m.stack = .script (.hear (.connect c) :: calls) :: below)
    (hphase : m.server.lifecycle.phase = .serving) (hheld : m.server.held = true ∨ below ≠ [])
    (hreplay : m.server.config.replayOnConnect = true)
    (hempty : m.server.outbox.autoflush = true ∨ m.server.outbox.pending = [])
    (hstep : m.step? = some m₁) (hrun : ReflTransGen Machine.Next m₁ m₂)
    (hsession : m₂.server.lifecycle.link.map (·.session) = m.server.lifecycle.link.map (·.session))
    (hpending : m₂.server.outbox.autoflush = true ∨ m₂.server.outbox.pending = []) :
    ∃ es₁ es₂, m₁.server.journal.toList = m.server.journal.toList ++ es₁ ∧
      m₂.server.journal.toList = m₁.server.journal.toList ++ es₂ ∧
      ∀ key, key ∈ (Store.empty.runAll (sentIn c es₁ ++ broadcastIn es₂)).draggable ↔
        key ∈ m₂.server.scene.store.draggable ∧
          ¬((key ∈ m.server.scene.store.draggable ∧ m.server.scene.store.contains key = false) ∧
            ∀ d ∈ broadcastIn es₂, d.touchesMark key = false) := by
  have hsound := h.sound
  obtain ⟨hfirst, hduty⟩ := Machine.acts_of_step? h.onDuty hstep
  have hsound₁ := Server.sound_of_acts hsound hfirst
  have hrest := (Machine.acts_of_next hduty hrun).1
  have hwaits : m.server.outbox.pending = [] := hempty.elim hsound.drained id
  have hwaits₂ : m₂.server.outbox.pending = [] :=
    hpending.elim (Server.sound_of_acts hsound₁ hrest).drained id
  have hlinked := hsound.linked.mpr hphase
  obtain ⟨link, hlink⟩ := Option.isSome_iff_exists.mp hlinked
  obtain ⟨es₁, hes₁, hsent⟩ :=
    Machine.handed_connect hstack (hsound.opened (by simp [hphase])) hheld hreplay hstep
  have hsession₁ := Server.session_of_surroundings hes₁.surroundings
  rw [hlink, Option.map_some] at hsession hsession₁
  have hstart (key : String) : Server.Marked (.runAll .empty (sentIn c es₁)) key
      (key ∈ m.server.scene.store.draggable ∧ m.server.scene.store.contains key = false) []
      m₁.server := by
    have hout : m₁.server.outgoing [] = [] := by
      rw [Server.outgoing, hes₁.outbox, hwaits]
      rfl
    refine ⟨?_, ?_⟩
    · rw [hout, hsent hlinked, hes₁.scene]
      exact Store.alike_of_objects_eq (Store.objects_runAll_replay hsound.keyed)
    · rw [hout, hsent hlinked, hes₁.scene, Store.runAll_nil, Store.mem_draggable_runAll_replay]
      grind
  obtain ⟨es₂, hes₂, hmarked⟩ := Server.of_session
    (P := fun es s => ∀ key, Server.Marked (.runAll .empty (sentIn c es₁)) key
      (key ∈ m.server.scene.store.draggable ∧ m.server.scene.store.contains key = false) es s)
    hsound₁ hrest hsession₁ hsession hstart
    (fun _ _ _ _ hs hl ht hm key => (hm key).told hs.drained hl ht)
    (fun _ _ _ _ _ _ hr hm key => (hm key).reported hr)
  refine ⟨es₁, es₂, hes₁.journal, hes₂, fun key => ?_⟩
  have hfinal := (hmarked key).mark
  rwa [Server.outgoing, hwaits₂, List.append_nil, ← Store.runAll_append] at hfinal

/-! ## A key that is marked too early -/

/-- A sphere under the key of a crate. -/
def Sphere.crate : Sphere := ⟨"crate", 1, Vec3.zero, defaultObjectColor, {}⟩

namespace Machine

/-- It serves, with autoflush on, and listens to drags of the crate before there is one. -/
def expectant : Machine :=
  run (ofCall (run (ofCall (.new ⟨true, true⟩ .blank) (.serve 8080 .quiet)) 5).server
    (.change (.onDrag "crate" (.steady .null [] false)))) 3

/-- A viewer is connecting, still before there is a crate. -/
def early : Machine := ofCall expectant.server (.hear (.connect 7))

/-- The viewer has connected, and after that the crate has been created. -/
def crated : Machine := run (ofCall (early.run 4).server (.change (.createSphere .crate))) 3

theorem reachable_early : early.Reachable ⟨true, true⟩ .blank := by
  have h : expectant.Reachable ⟨true, true⟩ .blank :=
    (Reachable.callRun (m := ⟨.new ⟨true, true⟩ .blank, []⟩) .refl rfl (.serve 8080 .quiet)
      5).callRun rfl (.change (.onDrag "crate" (.steady .null [] false))) 3
  exact h.tail (.call _ _)

theorem next_crated : ReflTransGen Next (early.run 1) crated :=
  (next_run (early.run 1) 3).trans (.head (.call (early.run 4).server _) (next_run _ 3))

end Machine

theorem late_joiner_marks_crated :
    ∃ es₁ es₂, (Machine.early.run 1).server.journal.toList =
        Machine.early.server.journal.toList ++ es₁ ∧
      Machine.crated.server.journal.toList =
        (Machine.early.run 1).server.journal.toList ++ es₂ ∧
      ∀ key, key ∈ (Store.empty.runAll (sentIn 7 es₁ ++ broadcastIn es₂)).draggable ↔
        key ∈ Machine.crated.server.scene.store.draggable ∧
          ¬((key ∈ Machine.early.server.scene.store.draggable ∧
              Machine.early.server.scene.store.contains key = false) ∧
            ∀ d ∈ broadcastIn es₂, d.touchesMark key = false) :=
  late_joiner_marks Machine.reachable_early rfl rfl (Or.inl rfl) rfl (Or.inl rfl) rfl
    Machine.next_crated rfl (Or.inl rfl)

/-- With autoflush on all the time, a viewer connects while the server serves, and an object is
created under a key that is marked already: it can be dragged, and the viewer does not know. -/
theorem early_viewer_misses_mark :
    Machine.early.Reachable ⟨true, true⟩ .blank ∧
      Machine.early.stack = [.script [.hear (.connect 7)]] ∧
      Machine.early.server.lifecycle.phase = .serving ∧
      Machine.early.server.outbox.autoflush = true ∧
      Machine.crated.server.outbox.autoflush = true ∧
      ReflTransGen Machine.Next (Machine.early.run 1) Machine.crated ∧
      Machine.crated.server.lifecycle.link.map (·.session) =
        Machine.early.server.lifecycle.link.map (·.session) ∧
      ¬∃ es₁ es₂, (Machine.early.run 1).server.journal.toList =
          Machine.early.server.journal.toList ++ es₁ ∧
        Machine.crated.server.journal.toList =
          (Machine.early.run 1).server.journal.toList ++ es₂ ∧
        ∀ key, Machine.crated.server.scene.store.contains key →
          (key ∈ (Store.empty.runAll (sentIn 7 es₁ ++ broadcastIn es₂)).draggable ↔
            key ∈ Machine.crated.server.scene.store.draggable) := by
  refine ⟨Machine.reachable_early, rfl, rfl, rfl, rfl, Machine.next_crated, rfl, ?_⟩
  rintro ⟨es₁, es₂, hes₁, hes₂, hmarks⟩
  have hjoined : (Machine.early.run 1).server.journal.toList =
      Machine.early.server.journal.toList ++
        [.called (.hear (.connect 7)), .noted (.connected 7), .announced .connection] := rfl
  have hcreated : Machine.crated.server.journal.toList =
      (Machine.early.run 1).server.journal.toList ++
        [.returned .nothing, .called (.change (.createSphere .crate)),
          .queued (.create (.sphere .crate)), .broadcast 0 [.create (.sphere .crate)] true,
          .returned .nothing] := rfl
  obtain rfl := List.append_cancel_left (hes₁.symm.trans hjoined)
  obtain rfl := List.append_cancel_left (hes₂.symm.trans hcreated)
  have hstore : Machine.crated.server.scene.store =
      (Store.empty.enableMouse "crate").insert (.sphere .crate) := rfl
  have hcontains : Machine.crated.server.scene.store.contains "crate" := by
    simp [hstore, Store.contains, Store.get?_insert, SceneObject.key, Sphere.crate]
  have hmarked : "crate" ∈ Machine.crated.server.scene.store.draggable := by
    simp [hstore, Store.insert, Store.enableMouse]
  have hmissed : "crate" ∈ (Store.empty.runAll [.create (.sphere .crate)]).draggable :=
    (hmarks "crate" hcontains).mpr hmarked
  simp [Store.run, Store.insert, Store.empty] at hmissed

end LiveScene
