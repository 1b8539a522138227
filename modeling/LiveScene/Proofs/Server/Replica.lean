import LiveScene.Proofs.Server.Within
import LiveScene.Proofs.Store.Rebuild

/-!
# Replicas

A viewer keeps a replica of the scene: it runs the commands that reach it on a store of its own. The
commands that a change queues do to a copy of the store what the change does to the store, so a
viewer that gets all of them follows it.

A viewer that connects later gets the replay, and then also the commands that waited when it
connected and are in the replay already. Two facts make up for that. What waits always builds the
objects up from some store (`Server.Backed`), so it has no effect when it is run on them again. And
as long as the session lasts, the replica after all messages so far and what waits has the objects
of the store (`Server.Follows`). Acts keep both as long as no viewer reports an edit of its own
(`Act.backed`, `Act.follows`), since what goes on within a session is then told (`Act.within`).
-/

namespace LiveScene

open Relation (ReflTransGen)

variable {config : Config} {host : Host} {m m' m₁ m₂ : Machine} {s t : Server} {es fs : List Event}

/-! ## The command stream -/

/-- A change of a reachable server adds events to the journal, and the commands queued in them, run
in order on a copy of the store before, make up the store after: nothing is written that is not
queued. They go out in the same order, behind what waits already. -/
theorem change_refines_store (h : m.Reachable config host) (c : Change Listener) :
    ∃ es, (m.server.change c).2.journal.toList = m.server.journal.toList ++ es ∧
      (m.server.change c).2.scene.store = m.server.scene.store.runAll (queuedIn es) ∧
      (queuedIn es = [] → (m.server.change c).2.scene.store = m.server.scene.store) ∧
      (m.server.change c).2.outbox.pending =
        if m.server.outbox.autoflush then [] else m.server.outbox.pending ++ queuedIn es := by
  obtain ⟨es, he⟩ := Server.edited_change h.sound.keyed c
  refine ⟨es, he.journal, he.store, fun hq => ?_, ?_⟩
  · rw [he.store, hq, Store.runAll_nil]
  · rw [he.pending]
    split
    · next ha => exact h.sound.drained ha
    · rfl

theorem change_refines_store_delete :
    ∃ es, (Machine.greeting.server.change (.delete "greeting")).2.journal.toList =
        Machine.greeting.server.journal.toList ++ es ∧
      (Machine.greeting.server.change (.delete "greeting")).2.scene.store =
        Machine.greeting.server.scene.store.runAll (queuedIn es) ∧
      (queuedIn es = [] → (Machine.greeting.server.change (.delete "greeting")).2.scene.store =
        Machine.greeting.server.scene.store) ∧
      (Machine.greeting.server.change (.delete "greeting")).2.outbox.pending =
        if Machine.greeting.server.outbox.autoflush then []
        else Machine.greeting.server.outbox.pending ++ queuedIn es :=
  change_refines_store Machine.reachable_greeting (.delete "greeting")

/-! ## What waits -/

/-- Whether a message reports an edit that the viewer has made already. -/
def ViewerMessage.isEdit : ViewerMessage → Bool
  | .drag _ _ | .sliderSetValue _ _ => true
  | _ => false

/-- Whether an event takes up a message that reports an edit. -/
def Event.reportsEdit : Event → Bool
  | .called (.hear (.message _ text)) =>
    match ViewerMessage.parse text with
    | .ok m => m.isEdit
    | .error _ => false
  | _ => false

theorem Event.reportsEdit_of_edit? {e : Event} {c : Connection} {u : Command}
    (h : e.edit? = some (c, u)) : e.reportsEdit = true := by
  obtain ⟨⟨c', m⟩, hreport, hm⟩ := Option.bind_eq_some_iff.mp h
  obtain ⟨text, rfl, hparse⟩ := Event.eq_called_of_report? hreport
  cases m <;> simp_all [Event.reportsEdit, ViewerMessage.isEdit, ViewerMessage.edit?]

namespace Server

/-- No viewer has reported an edit. -/
def Unedited (s : Server) : Prop := ∀ e ∈ s.journal.toList, e.reportsEdit = false

theorem Unedited.of_append (hu : t.Unedited)
    (hj : t.journal.toList = s.journal.toList ++ es) : s.Unedited := by
  intro e he
  refine hu e ?_
  rw [hj]
  exact List.mem_append_left es he

/-- What waits builds the objects up from some store. -/
def Backed (s : Server) : Prop :=
  ∃ base : Store, (base.runAll s.outbox.pending).objects = s.scene.store.objects

theorem Told.backed (h : Told s t es) (hd : s.Drained) (hb : s.Backed) : t.Backed := by
  obtain ⟨base, hbase⟩ := hb
  obtain ⟨cs, hcs, -⟩ := h.told hd
  refine ⟨base.runAll cs, ?_⟩
  rw [← Store.runAll_append, hcs, Store.runAll_append, h.store]
  exact Store.objects_runAll_congr hbase _

/-- What waits has no effect on the objects when it is run again. -/
theorem Backed.objects_runAll (hb : s.Backed) {r : Store}
    (hr : r.objects = s.scene.store.objects) :
    (r.runAll s.outbox.pending).objects = s.scene.store.objects := by
  obtain ⟨base, hbase⟩ := hb
  calc (r.runAll s.outbox.pending).objects
      = ((base.runAll s.outbox.pending).runAll s.outbox.pending).objects :=
        Store.objects_runAll_congr (hr.trans hbase.symm) _
    _ = (base.runAll s.outbox.pending).objects := Store.objects_runAll_runAll base _
    _ = s.scene.store.objects := hbase

theorem Reported.not_unedited {c : Connection} {u : Command} {e : Event}
    (h : Reported s t c u e) : ¬t.Unedited := by
  intro hu
  have he := hu e (by simp [h.journal])
  simp [Event.reportsEdit_of_edit? h.edit] at he

theorem Act.backed (h : Act s t) (hs : s.Sound) (hu : t.Unedited) (hb : s.Backed) : t.Backed := by
  obtain ⟨es, htells⟩ := h.tells hs
  cases htells with
  | told h => exact h.backed hs.drained hb
  | reported h => exact absurd hu h.not_unedited
  | apart _ _ hstore houtbox _ =>
    rcases houtbox with houtbox | hpending
    · obtain ⟨base, hbase⟩ := hb
      exact ⟨base, by rw [houtbox, hstore, hbase]⟩
    · exact ⟨t.scene.store, by rw [hpending, Store.runAll_nil]⟩

/-! ## Late joiners -/

/-- As long as session `n` lasts, what `r` becomes by the messages broadcast since `s₁`, and then by
what waits, has the objects of the store. -/
structure Follows (r : Store) (n : Nat) (s₁ s : Server) : Prop where
  numbered : n < s.lifecycle.sessions
  follows : ∃ es, s.journal.toList = s₁.journal.toList ++ es ∧
    (s.lifecycle.link.map (·.session) = some n →
      ((r.runAll (broadcastIn es)).runAll s.outbox.pending).objects = s.scene.store.objects)

variable {r : Store} {n : Nat} {s₁ : Server}

theorem Follows.told (hf : Follows r n s₁ s) (hs : s.Sound) (h : Told s t es)
    (hn : n < t.lifecycle.sessions) : Follows r n s₁ t := by
  obtain ⟨-, ds, hds, hfollows⟩ := hf
  refine ⟨hn, ds ++ es, by rw [h.journal, hds, List.append_assoc], fun hsession => ?_⟩
  rw [h.session] at hsession
  have hlinked : s.lifecycle.link.isSome := by
    have := congrArg Option.isSome hsession
    simpa using this
  calc ((r.runAll (broadcastIn (ds ++ es))).runAll t.outbox.pending).objects
      = (((r.runAll (broadcastIn ds)).runAll s.outbox.pending).runAll (queuedIn es)).objects := by
        rw [← Store.runAll_append, ← Server.outgoing, h.outgoing hs.drained hlinked,
          Store.runAll_append, Server.outgoing, Store.runAll_append]
    _ = (s.scene.store.runAll (queuedIn es)).objects :=
        Store.objects_runAll_congr (hfollows hsession) _
    _ = t.scene.store.objects := by rw [h.store]

theorem Act.follows (h : Act s t) (hs : s.Sound) (hu : t.Unedited) (hf : Follows r n s₁ s) :
    Follows r n s₁ t := by
  have hn := Nat.lt_of_lt_of_le hf.numbered h.sessions_le
  by_cases hsession : t.lifecycle.link.map (·.session) = some n
  · obtain ⟨-, ⟨es, htold⟩ | ⟨c, u, e, he⟩⟩ := h.within hs hf.numbered hsession
    · exact hf.told hs htold hn
    · exact absurd hu he.not_unedited
  · -- session `n` is over
    obtain ⟨ds, hds, -⟩ := hf.follows
    obtain ⟨es, hes⟩ := h.tells hs
    exact ⟨hn, ds ++ es, by rw [hes.journal, hds, List.append_assoc], fun h => absurd h hsession⟩

theorem Act.unedited (h : Act s t) (hs : s.Sound) (hu : t.Unedited) : s.Unedited := by
  obtain ⟨es, hes⟩ := h.tells hs
  exact hu.of_append hes.journal

/-- What holds at first and is kept by acts, as long as no viewer reports an edit, holds at last. -/
theorem of_acts {P : Server → Prop} {s₀ : Server} (hs : s₀.Sound) (h : ReflTransGen Act s₀ s)
    (hP : P s₀) (hact : ∀ t u, Act t u → t.Sound → u.Unedited → P t → P u) (hu : s.Unedited) :
    P s := by
  induction h with
  | refl => exact hP
  | tail h ha ih =>
    have hs' := sound_of_acts hs h
    exact hact _ _ ha hs' hu (ih (ha.unedited hs' hu))

theorem unedited_of_acts {s₀ : Server} (hs : s₀.Sound) (h : ReflTransGen Act s₀ s)
    (hu : s.Unedited) : s₀.Unedited := by
  induction h with
  | refl => exact hu
  | tail h ha ih => exact ih (ha.unedited (sound_of_acts hs h) hu)

end Server

/-- A viewer that connects to a server that serves is sent the replay, and nothing else happens that
it could see. -/
theorem Machine.handed_connect {c : Connection} {calls : List Call} {below : List Frame}
    (hstack : m.stack = .script (.hear (.connect c) :: calls) :: below)
    (hopen : m.server.inboundOpen = true) (hheld : m.server.held = true ∨ below ≠ [])
    (hreplay : m.server.config.replayOnConnect = true) (hstep : m.step? = some m₁) :
    ∃ es, Server.Handed m.server m₁.server [] es ∧
      (m.server.lifecycle.link.isSome → sentIn c es = m.server.scene.store.replay) := by
  rw [step?_connect hstack hopen hheld] at hstep
  obtain rfl := Option.some.inj hstep
  obtain ⟨es, h, hsent⟩ := Server.handed_replayTo
    ((m.server.emit (.called (.hear (.connect c)))).note (.connected c)) c
  have hcalled : Server.Handed m.server _ [] _ :=
    Server.handed_emit (e := .called (.hear (.connect c))) m.server ⟨rfl, rfl, rfl, rfl, rfl⟩
  have hgreet : (m.server.emit (.called (.hear (.connect c)))).greet c =
      ((m.server.emit (.called (.hear (.connect c)))).note (.connected c)).replayTo c :=
    if_pos hreplay
  rw [hgreet]
  refine ⟨_, ((hcalled.trans (Server.handed_note _ (.connected c))).trans h).trans
    (Server.handed_emit _ ⟨rfl, rfl, rfl, rfl, rfl⟩), fun hl => ?_⟩
  simp only [sentIn_append, hsent hl]
  exact List.append_nil _

theorem Machine.connect_step? {c : Connection} {calls : List Call} {below : List Frame}
    (hstack : m.stack = .script (.hear (.connect c) :: calls) :: below)
    (hopen : m.server.inboundOpen = true) (hheld : m.server.held = true ∨ below ≠ [])
    (hreplay : m.server.config.replayOnConnect = true) (hstep : m.step? = some m₁) :
    ∃ es, m₁.server.journal.toList = m.server.journal.toList ++ es ∧
      m₁.server.scene = m.server.scene ∧
      m₁.server.lifecycle.link.map (·.session) = m.server.lifecycle.link.map (·.session) ∧
      (m.server.lifecycle.link.isSome → sentIn c es = m.server.scene.store.replay) := by
  obtain ⟨es, h, hsent⟩ := handed_connect hstack hopen hheld hreplay hstep
  exact ⟨es, h.journal, h.scene, Server.session_of_surroundings h.surroundings, hsent⟩

/-- A viewer that connects while the server serves is sent a replay, and from then on follows the
store: at every later point of the session at which nothing waits, the replay and all that has been
broadcast since make up the objects of the store. What waited when the viewer connected reaches it
twice, in the replay and as messages, and does no harm. -/
theorem late_joiner_converges {c : Connection} {calls : List Call} {below : List Frame}
    (h : m.Reachable config host)
    (hstack : m.stack = .script (.hear (.connect c) :: calls) :: below)
    (hphase : m.server.lifecycle.phase = .serving) (hheld : m.server.held = true ∨ below ≠ [])
    (hreplay : m.server.config.replayOnConnect = true) (hstep : m.step? = some m₁)
    (hrun : ReflTransGen Machine.Next m₁ m₂)
    (hsession : m₂.server.lifecycle.link.map (·.session) = m.server.lifecycle.link.map (·.session))
    (hunedited : m₂.server.Unedited) (hpending : m₂.server.outbox.pending = []) :
    ∃ es₁ es₂, m₁.server.journal.toList = m.server.journal.toList ++ es₁ ∧
      m₂.server.journal.toList = m₁.server.journal.toList ++ es₂ ∧
      (Store.empty.runAll (sentIn c es₁ ++ broadcastIn es₂)).objects =
        m₂.server.scene.store.objects := by
  have hsound := h.sound
  have hnew := (Machine.acts_of_next (Machine.onDuty_new config host) h).1
  obtain ⟨hfirst, hduty⟩ := Machine.acts_of_step? h.onDuty hstep
  have hsound₁ := Server.sound_of_acts hsound hfirst
  have hrest := (Machine.acts_of_next hduty hrun).1
  have hunedited₁ := Server.unedited_of_acts hsound₁ hrest hunedited
  have hbacked : m₁.server.Backed :=
    Server.of_acts (Server.sound_new config host) (hnew.trans hfirst) ⟨.empty, rfl⟩
      (fun _ _ ha hs hu hb => ha.backed hs hu hb) hunedited₁
  have hlinked := hsound.linked.mpr hphase
  obtain ⟨link, hlink⟩ := Option.isSome_iff_exists.mp hlinked
  obtain ⟨es₁, hes₁, hscene, hsession₁, hsent⟩ :=
    Machine.connect_step? hstack (hsound.opened (by simp [hphase])) hheld hreplay hstep
  rw [hlink, Option.map_some] at hsession hsession₁
  have hreplayed : (Store.empty.runAll (sentIn c es₁)).objects = m₁.server.scene.store.objects := by
    rw [hsent hlinked, hscene]
    exact Store.objects_runAll_replay hsound.keyed
  have hstart : Server.Follows (.runAll .empty (sentIn c es₁)) link.session m₁.server m₁.server :=
    ⟨hsound₁.numbered _ hsession₁, [], by simp, fun _ => hbacked.objects_runAll hreplayed⟩
  obtain ⟨-, es₂, hes₂, hfollows⟩ := Server.of_acts hsound₁ hrest hstart
    (fun _ _ ha hs hu hf => ha.follows hs hu hf) hunedited
  refine ⟨es₁, es₂, hes₁, hes₂, ?_⟩
  have hfinal := hfollows hsession
  rwa [hpending, Store.runAll_nil, ← Store.runAll_append] at hfinal

/-- A viewer is connecting while the note still waits. -/
def Machine.joining : Machine := ofCall greeting.server (.hear (.connect 7))

/-- The viewer has connected, and after that the note has been flushed. -/
def Machine.flushed : Machine := run (ofCall (joining.run 4).server .flush) 4

theorem late_joiner_converges_flushed :
    ∃ es₁ es₂, (Machine.joining.run 1).server.journal.toList =
        Machine.joining.server.journal.toList ++ es₁ ∧
      Machine.flushed.server.journal.toList =
        (Machine.joining.run 1).server.journal.toList ++ es₂ ∧
      (Store.empty.runAll (sentIn 7 es₁ ++ broadcastIn es₂)).objects =
        Machine.flushed.server.scene.store.objects := by
  have hrun : ReflTransGen Machine.Next (Machine.joining.run 1) Machine.flushed :=
    (Machine.next_run (Machine.joining.run 1) 3).trans
      (.head (.call (Machine.joining.run 4).server .flush) (Machine.next_run _ 4))
  refine late_joiner_converges (Machine.reachable_greeting.tail (.call _ _)) rfl rfl (Or.inl rfl)
    rfl rfl hrun rfl ?_ rfl
  unfold Server.Unedited
  decide

end LiveScene
