import LiveScene.Proofs.Server.Replica
import LiveScene.Proofs.Store.Crossing

/-!
# A viewer that edits

A viewer moves objects and sliders in its own replica, reports that, and is not told of it again. It
also runs all messages for all viewers (`seenBy`). While commands wait at the server, the store has
run them already and the replica has not, so the viewer's edit comes before them there and after
them here. The edit has overtaken them if that makes a difference under some key, until it is hidden
by a later command or a later edit (`Overtakes`).

Whenever nothing waits, the store has under each key what the replica gets if the edits that have
overtaken commands are made in it once more, and the two differ exactly where there are such edits
(`viewer_keeps_edits`). There are none if nothing ever waits when an edit is reported
(`not_overtakes_of_idle`).

The invariant is `Server.Tracks`: under the key, the replica is behind the store by these edits once
it has run what waits.
-/

namespace LiveScene

open Relation (ReflTransGen)

variable {config : Config} {host : Host} {m m₂ : Machine} {s t : Server} {es fs ds : List Event}
  {c : Connection} {key : String} {ws : List Command}

/-! ## What a viewer sees -/

/-- What a viewer runs on its replica at an event: an edit of its own that it reports then, or the
commands of a message for all viewers. -/
def Event.seen (c : Connection) (e : Event) : List Command :=
  (e.edit?.toList.filter (·.1 == c)).map (·.2) ++ e.toAll

/-- What a viewer runs on its replica in some events, in order. -/
def seenBy (c : Connection) (es : List Event) : List Command := es.flatMap (Event.seen c)

@[simp] theorem seenBy_append (c : Connection) (es fs : List Event) :
    seenBy c (es ++ fs) = seenBy c es ++ seenBy c fs := by
  simp [seenBy]

/-- Without a report, a viewer sees what all viewers do. -/
theorem seenBy_eq_broadcastIn (h : editsIn es = []) : seenBy c es = broadcastIn es := by
  induction es with
  | nil => rfl
  | cons e es ih =>
    obtain ⟨he, hes⟩ : e.edit? = none ∧ editsIn es = [] := by
      cases he : e.edit? <;> simp_all [editsIn]
    rw [seenBy, List.flatMap_cons, ← seenBy, ih hes, Event.seen, he]
    rfl

/-- The replica of a viewer that has started from nothing. -/
def replicaOf (c : Connection) (es : List Event) : Store := Store.empty.runAll (seenBy c es)

/-- What waits after some events, if `ws` waited before them. -/
def waitingAfter (ws : List Command) (es : List Event) : List Command :=
  (ws ++ queuedIn es).drop (broadcastIn es).length

/-- If the viewer makes an edit after the events, it makes a difference under the key whether that
comes before or after all that waits then. -/
def Crosses (c : Connection) (key : String) (ws : List Command) (es : List Event)
    (u : Command) : Prop :=
  (((replicaOf c es).run u).runAll (waitingAfter ws es)).get? key ≠
    (((replicaOf c es).runAll (waitingAfter ws es)).run u).get? key

/-- An edit that the viewer reports among the events has overtaken commands that waited, and is not
hidden by a command that is queued or an edit that is reported later. -/
def Overtakes (c : Connection) (key : String) (ws : List Command) (es : List Event)
    (u : Command) : Prop :=
  ∃ pre e post, es = pre ++ e :: post ∧ e.edit? = some (c, u) ∧ Crosses c key ws pre u ∧
    (∀ d ∈ queuedIn post, ¬d.Hides key u) ∧ ∀ p ∈ editsIn post, ¬p.2.Hides key u

theorem not_overtakes_nil (u : Command) : ¬Overtakes c key ws [] u := by
  rintro ⟨pre, e, post, h, -⟩
  simp at h

/-- Events without a report can only hide edits. -/
theorem overtakes_append {u : Command} (hedits : editsIn fs = []) :
    Overtakes c key ws (es ++ fs) u ↔
      Overtakes c key ws es u ∧ ∀ d ∈ queuedIn fs, ¬d.Hides key u := by
  constructor
  · rintro ⟨pre, e, post, h, he, hcross, hqueued, hlater⟩
    rcases split_append h with ⟨mid, rfl, rfl⟩ | ⟨mid, -, rfl⟩
    · rw [queuedIn_append, List.forall_mem_append] at hqueued
      rw [editsIn_append, List.forall_mem_append] at hlater
      exact ⟨⟨pre, e, mid, rfl, he, hcross, hqueued.1, hlater.1⟩, hqueued.2⟩
    · simp [editsIn, he] at hedits
  · rintro ⟨⟨pre, e, post, rfl, he, hcross, hqueued, hlater⟩, hfs⟩
    refine ⟨pre, e, post ++ fs, by simp, he, hcross, ?_, ?_⟩
    · rw [queuedIn_append]
      exact List.forall_mem_append.mpr ⟨hqueued, hfs⟩
    · rw [editsIn_append, hedits, List.append_nil]
      exact hlater

/-- An edit that is reported may overtake commands and may hide earlier edits. -/
theorem overtakes_concat {u v : Command} {e : Event} (he : e.edit? = some (c, u))
    (hqueued : queuedIn [e] = []) :
    Overtakes c key ws (es ++ [e]) v ↔
      (v = u ∧ Crosses c key ws es u) ∨ Overtakes c key ws es v ∧ ¬u.Hides key v := by
  have hedits : editsIn [e] = [(c, u)] := by simp [editsIn, he]
  constructor
  · rintro ⟨pre, e', post, h, he', hcross, hlater⟩
    rcases split_append h with ⟨mid, rfl, rfl⟩ | ⟨mid, rfl, hmid⟩
    · rw [queuedIn_append, hqueued, List.append_nil, editsIn_append, hedits,
        List.forall_mem_append, List.forall_mem_singleton] at hlater
      exact Or.inr ⟨⟨pre, e', mid, rfl, he', hcross, hlater.1, hlater.2.1⟩, hlater.2.2⟩
    · obtain ⟨rfl, rfl, rfl⟩ : mid = [] ∧ e = e' ∧ post = [] := by
        rcases List.append_eq_cons_iff.mp hmid.symm with ⟨rfl, h⟩ | ⟨mid', rfl, h⟩
        · simpa [eq_comm] using h
        · simp at h
      rw [he, Option.some.injEq, Prod.mk.injEq] at he'
      obtain rfl := he'.2
      exact Or.inl ⟨rfl, by simpa using hcross⟩
  · rintro (⟨rfl, hcross⟩ | ⟨⟨pre, e', post, rfl, he', hcross, hlater⟩, hopen⟩)
    · exact ⟨es, e, [], rfl, he, hcross, by simp [queuedIn], by simp [editsIn]⟩
    · refine ⟨pre, e', post ++ [e], by simp, he', hcross, ?_⟩
      rw [queuedIn_append, hqueued, List.append_nil, editsIn_append, hedits,
        List.forall_mem_append, List.forall_mem_singleton]
      exact ⟨hlater.1, hlater.2, hopen⟩

/-- No edit overtakes anything if nothing waits when it is reported. -/
theorem not_overtakes_of_idle {u : Command}
    (h : ∀ pre e post, es = pre ++ e :: post → e.edit? = some (c, u) → waitingAfter ws pre = []) :
    ¬Overtakes c key ws es u := by
  rintro ⟨pre, e, post, hes, he, hcross, -⟩
  rw [Crosses, h pre e post hes he] at hcross
  exact hcross rfl

namespace Server

/-! ## Following the store -/

/-- All that has gone out or waits is what waited before the events and was queued in them, and the
replica of the viewer is behind the store by the edits that have overtaken commands. -/
structure Tracks (c : Connection) (key : String) (ws : List Command) (es : List Event)
    (s : Server) : Prop where
  outgoing : s.outgoing es = ws ++ queuedIn es
  behind : ∃ us, (∀ u, u ∈ us ↔ Overtakes c key ws es u) ∧
    Command.Behind key us (((replicaOf c es).runAll s.outbox.pending).get? key)
      (s.scene.store.get? key)

theorem Tracks.waiting (h : Tracks c key ws es s) : waitingAfter ws es = s.outbox.pending := by
  rw [waitingAfter, ← h.outgoing, Server.outgoing, List.drop_left]

theorem Tracks.told (h : Tracks c key ws ds s) (hd : s.Drained) (hl : s.lifecycle.link.isSome)
    (ht : Told s t es) : Tracks c key ws (ds ++ es) t := by
  obtain ⟨us, hus, hbehind⟩ := h.behind
  obtain ⟨vs, hvs, hbehind'⟩ := hbehind.effects (queuedIn es)
  have hreplica : (replicaOf c (ds ++ es)).runAll t.outbox.pending =
      ((replicaOf c ds).runAll s.outbox.pending).runAll (queuedIn es) := by
    rw [replicaOf, seenBy_append, seenBy_eq_broadcastIn ht.edits, Store.runAll_append, ← replicaOf,
      ← Store.runAll_append, ht.flow hd hl, Store.runAll_append]
  refine ⟨?_, vs, fun v => by rw [hvs, hus, overtakes_append ht.edits], ?_⟩
  · rw [ht.outgoing hd hl, h.outgoing, queuedIn_append, List.append_assoc]
  · rwa [hreplica, Store.get?_runAll, ht.store, Store.get?_runAll s.scene.store]

theorem Tracks.reported {u : Command} {e : Event} (h : Tracks c key ws ds s)
    (hr : Reported s t c u e) : Tracks c key ws (ds ++ [e]) t := by
  obtain ⟨us, hus, hbehind⟩ := h.behind
  obtain ⟨hqueued, htoAll⟩ := hr.silent
  have hreplica : replicaOf c (ds ++ [e]) = (replicaOf c ds).run u := by
    simp [replicaOf, seenBy, Event.seen, hr.edit, htoAll, Store.runAll_append]
  rw [Store.get?_runAll] at hbehind
  obtain ⟨vs, hvs, hbehind'⟩ :=
    hbehind.overtake (Command.not_settles_of_isSome (hr.isSome_effect key))
  refine ⟨?_, vs, fun v => ?_, ?_⟩
  · rw [hr.outgoing, h.outgoing, queuedIn_append, hqueued, List.append_nil]
  · rw [hvs, hus, overtakes_concat hr.edit hqueued, Crosses, h.waiting, Store.get?_runAll,
      Store.get?_run, Store.get?_run, Store.get?_runAll]
  · rwa [hreplica, hr.outbox, hr.store, Store.get?_runAll, Store.get?_run, Store.get?_run]

/-! ## Before the first object -/

/-- Nothing has been created: there are no objects, and none is about to be told. -/
structure Bare (s : Server) : Prop where
  objects : ∀ key, s.scene.store.get? key = none
  pending : ∀ o, .create o ∉ s.outbox.pending

/-- As long as no command has been queued that creates an object, there is none. -/
theorem bare_of_acts {s₀ : Server} (hs : s₀.Sound) (h : ReflTransGen Act s₀ s) (hb : s₀.Bare)
    (hfirst : ∀ o, .create o ∉ queuedIn s.journal.toList) : s.Bare := by
  induction h with
  | refl => exact hb
  | tail h ha ih =>
    have hs' := sound_of_acts hs h
    obtain ⟨es, hes⟩ := ha.tells hs'
    rw [hes.journal, queuedIn_append] at hfirst
    have hb' := ih fun o ho => hfirst o (List.mem_append_left _ ho)
    cases hes with
    | told h =>
      refine ⟨fun key => ?_, fun o ho => ?_⟩
      · rw [h.store, Store.get?_runAll, hb'.objects]
        exact Command.effects_none fun o ho => hfirst o (List.mem_append_right _ ho)
      · obtain ⟨cs, hcs, -⟩ := h.told hs'.drained
        have ho' := List.mem_append_right cs ho
        rw [hcs] at ho'
        rcases List.mem_append.mp ho' with ho' | ho'
        · exact hb'.pending o ho'
        · exact hfirst o (List.mem_append_right _ ho')
    | reported h =>
      refine ⟨fun key => ?_, by rw [h.outbox]; exact hb'.pending⟩
      rw [h.store, Store.get?_run, ← Option.not_isSome_iff_eq_none, h.isSome_effect, hb'.objects]
      simp
    | apart _ _ hstore houtbox _ =>
      refine ⟨by rw [hstore]; exact hb'.objects, ?_⟩
      rcases houtbox with houtbox | hpending
      · rw [houtbox]
        exact hb'.pending
      · simp [hpending]

end Server

/-- A viewer is there before the first object is created, and is the only one that edits. At every
later point of the session at which nothing waits, what the store has under a key is what the
replica has there after the edits that have overtaken commands are made once more. These change what
they are made on, so the replica has what the store has under exactly those keys under which no edit
has overtaken commands. It has the objects of the store if nothing ever waited when an edit was
reported. What waited can be told from the events. -/
theorem viewer_keeps_edits (h : m.Reachable config host)
    (hphase : m.server.lifecycle.phase = .serving)
    (hfirst : ∀ o, .create o ∉ queuedIn m.server.journal.toList)
    (hrun : ReflTransGen Machine.Next m m₂)
    (hsession : m₂.server.lifecycle.link.map (·.session) = m.server.lifecycle.link.map (·.session))
    (hsingle : ∀ p ∈ editsIn m₂.server.journal.toList, p.1 = c) :
    ∃ es, m₂.server.journal.toList = m.server.journal.toList ++ es ∧
      waitingAfter m.server.outbox.pending es = m₂.server.outbox.pending ∧
      (m₂.server.outbox.pending = [] →
        (∀ key,
          (∃ us, (∀ u, u ∈ us ↔ Overtakes c key m.server.outbox.pending es u) ∧
            m₂.server.scene.store.get? key =
              Command.effects key us ((replicaOf c es).get? key)) ∧
          ((replicaOf c es).get? key = m₂.server.scene.store.get? key ↔
            ∀ u, ¬Overtakes c key m.server.outbox.pending es u)) ∧
        ((∀ pre e post u, es = pre ++ e :: post → e.edit? = some (c, u) →
            waitingAfter m.server.outbox.pending pre = []) →
          (replicaOf c es).objects = m₂.server.scene.store.objects)) := by
  have hsound := h.sound
  have hnew := (Machine.acts_of_next (Machine.onDuty_new config host) h).1
  have hbare : m.server.Bare := Server.bare_of_acts (Server.sound_new config host) hnew
    ⟨fun key => Store.get?_empty key, by simp [Server.new]⟩ hfirst
  have hrest := (Machine.acts_of_next h.onDuty hrun).1
  obtain ⟨link, hlink⟩ := Option.isSome_iff_exists.mp (hsound.linked.mpr hphase)
  rw [hlink, Option.map_some] at hsession
  have hstart (key : String) : Server.Tracks c key m.server.outbox.pending [] m.server := by
    have hnone : ((replicaOf c []).runAll m.server.outbox.pending).get? key = none := by
      rw [Store.get?_runAll, replicaOf]
      exact (congrArg _ (Store.get?_empty key)).trans (Command.effects_none hbare.pending)
    refine ⟨by simp [Server.outgoing, broadcastIn, queuedIn], [], fun u => ?_, ?_⟩
    · simp [not_overtakes_nil u]
    · rw [hbare.objects, hnone]
      exact Command.behind_nil key none
  obtain ⟨es, hes, htracks⟩ := Server.of_session
    (P := fun es s => (∀ p ∈ editsIn es, p.1 = c) →
      ∀ key, Server.Tracks c key m.server.outbox.pending es s)
    hsound hrest (by rw [hlink, Option.map_some]) hsession (fun _ => hstart)
    (fun ds _ _ es hs hl ht htracks hedits key => by
      rw [editsIn_append] at hedits
      exact (htracks (fun p hp => hedits p (List.mem_append_left _ hp)) key).told hs.drained hl ht)
    (fun ds _ _ c' u e hr htracks hedits key => by
      rw [editsIn_append] at hedits
      obtain rfl : c' = c := hedits (c', u) (List.mem_append_right _ (by simp [editsIn, hr.edit]))
      exact (htracks (fun p hp => hedits p (List.mem_append_left _ hp)) key).reported hr)
  rw [hes, editsIn_append] at hsingle
  replace htracks := htracks fun p hp => hsingle p (List.mem_append_right _ hp)
  refine ⟨es, hes, (htracks "").waiting, fun hpending => ?_⟩
  have hkeys (key : String) : ∃ us, (∀ u, u ∈ us ↔ Overtakes c key m.server.outbox.pending es u) ∧
      Command.Behind key us ((replicaOf c es).get? key) (m₂.server.scene.store.get? key) := by
    have hbehind := (htracks key).behind
    rwa [hpending] at hbehind
  have hagree (key : String) : (replicaOf c es).get? key = m₂.server.scene.store.get? key ↔
      ∀ u, ¬Overtakes c key m.server.outbox.pending es u := by
    obtain ⟨us, hus, hbehind⟩ := hkeys key
    simp only [hbehind.eq_iff, hus]
  refine ⟨fun key => ⟨?_, hagree key⟩, fun hidle => Store.objects_ext fun key =>
    (hagree key).mpr fun u => not_overtakes_of_idle fun pre e post => hidle pre e post u⟩
  obtain ⟨us, hus, hbehind⟩ := hkeys key
  exact ⟨us, hus, hbehind.redone⟩

/-! ## An edit that overtakes a command -/

/-- A ball at the origin. -/
def Sphere.ball : Sphere := ⟨"ball", 1, Vec3.zero, defaultObjectColor, {}⟩

/-- A slider for the size of the ball. -/
def Slider.size : Slider := ⟨"size", ⟨IVec2.zero, IVec2.zero⟩, 0, 2, 1, false, true⟩

/-- A listener that gives the ball the size to which a slider is set. -/
def Listener.resize : Listener where
  name := .str "resize"
  script occasion _ :=
    match occasion with
    | .message (.sliderSetValue _ x) => [.change (.set .scale "ball" (Vec3.splat x))]
    | _ => []
  fails _ _ := false

/-- The report of a viewer that has dragged the ball. -/
def ViewerMessage.dragged : String := (ViewerMessage.drag "ball" ⟨2, 0, 0⟩).encode

/-- The report of a viewer that has set the slider. -/
def ViewerMessage.slid : String := (ViewerMessage.sliderSetValue "size" 1.5).encode

namespace Machine

/-- A viewer has connected to a server that serves with autoflush on, before there is any object. -/
def seated : Machine :=
  run (ofCall (run (ofCall (.new ⟨true, true⟩ .blank) (.serve 8080 .quiet)) 5).server
    (.hear (.connect 7))) 5

/-- There are a ball and a slider for its size. -/
def arranged : Machine :=
  run (ofCall (run (ofCall seated.server (.change (.createSphere .ball))) 3).server
    (.change (.createSlider .size .resize))) 3

/-- A command that moves the ball waits. -/
def waiting : Machine :=
  run (ofCall (run (ofCall arranged.server (.setAutoflush false)) 3).server
    (.change (.set .position "ball" ⟨1, 0, 0⟩))) 3

/-- The viewer has dragged the ball, and then the command has been flushed. -/
def crossed : Machine :=
  run (ofCall (run (ofCall waiting.server (.hear (.message 7 ViewerMessage.dragged))) 5).server
    .flush) 5

/-- The viewer has dragged the ball and set the slider, and then the command has been flushed, and
the one that resizes the ball. -/
def mixed : Machine :=
  run (ofCall (run (ofCall (run (ofCall waiting.server
    (.hear (.message 7 ViewerMessage.dragged))) 5).server
    (.hear (.message 7 ViewerMessage.slid))) 9).server .flush) 5

/-- The viewer has done so while nothing waited. -/
def prompt : Machine :=
  run (ofCall (run (ofCall arranged.server (.hear (.message 7 ViewerMessage.dragged))) 5).server
    (.hear (.message 7 ViewerMessage.slid))) 9

theorem reachable_seated : seated.Reachable ⟨true, true⟩ .blank :=
  (Reachable.callRun (m := ⟨.new ⟨true, true⟩ .blank, []⟩) .refl rfl (.serve 8080 .quiet) 5).callRun
    rfl (.hear (.connect 7)) 5

theorem next_arranged : ReflTransGen Next seated arranged :=
  (next_callRun rfl _ 3).trans (next_callRun rfl _ 3)

theorem next_waiting : ReflTransGen Next seated waiting :=
  (next_arranged.trans (next_callRun rfl _ 3)).trans (next_callRun rfl _ 3)

/-- The report of the drag has been taken up. -/
theorem stack_dragged :
    (run (ofCall waiting.server (.hear (.message 7 ViewerMessage.dragged))) 5).stack = [] :=
  List.isEmpty_iff.mp (by decide +kernel)

theorem next_crossed : ReflTransGen Next seated crossed :=
  (next_waiting.trans (next_callRun rfl _ 5)).trans (next_callRun stack_dragged .flush 5)

theorem next_mixed : ReflTransGen Next seated mixed := by
  have hslid : (run (ofCall (run (ofCall waiting.server
      (.hear (.message 7 ViewerMessage.dragged))) 5).server
      (.hear (.message 7 ViewerMessage.slid))) 9).stack = [] :=
    List.isEmpty_iff.mp (by decide +kernel)
  exact ((next_waiting.trans (next_callRun rfl _ 5)).trans (next_callRun stack_dragged _ 9)).trans
    (next_callRun hslid .flush 5)

theorem next_prompt : ReflTransGen Next seated prompt := by
  have hdragged : (run (ofCall arranged.server
      (.hear (.message 7 ViewerMessage.dragged))) 5).stack = [] :=
    List.isEmpty_iff.mp (by decide +kernel)
  exact (next_arranged.trans (next_callRun rfl _ 5)).trans (next_callRun hdragged _ 9)

end Machine

/-- What has happened since the viewer has connected. -/
def Machine.later (m : Machine) : List Event :=
  m.server.journal.toList.drop seated.server.journal.toList.length

theorem Machine.later_eq {m : Machine} {es : List Event}
    (h : m.server.journal.toList = seated.server.journal.toList ++ es) : es = m.later := by
  rw [later, h, List.drop_left]

/-- Where an event stands in a list. -/
theorem eq_take_of_split {α : Type} {as pre post : List α} {a : α} (h : as = pre ++ a :: post) :
    pre.length ∈ List.range as.length ∧ pre = as.take pre.length ∧ as[pre.length]? = some a := by
  subst h
  simp

/-- Under the key of the slider the edit is kept on both sides, although a command waited. The ball
is elsewhere in the replica, but has its size and all else that the store has but its place. With
nothing waiting, all objects are the same. -/
theorem viewer_keeps_edits_mixed :
    (∃ es, Machine.mixed.server.journal.toList = Machine.seated.server.journal.toList ++ es ∧
      (∀ u, ¬Overtakes 7 "size" [] es u) ∧
      (replicaOf 7 es).get? "size" = some (.slider { Slider.size with value := 1.5 }) ∧
      Machine.mixed.server.scene.store.get? "size" =
        some (.slider { Slider.size with value := 1.5 }) ∧
      (replicaOf 7 es).get? "ball" =
        some (.sphere { Sphere.ball with pos := ⟨1, 0, 0⟩, radius := 1.5 }) ∧
      ∃ us, (∀ u, u ∈ us ↔ Overtakes 7 "ball" [] es u) ∧ us ≠ [] ∧
        Machine.mixed.server.scene.store.get? "ball" =
          Command.effects "ball" us ((replicaOf 7 es).get? "ball")) ∧
    ∃ es, Machine.prompt.server.journal.toList = Machine.seated.server.journal.toList ++ es ∧
      editsIn es = [(7, .set .position "ball" ⟨2, 0, 0⟩), (7, .setSlider .value "size" 1.5)] ∧
      (replicaOf 7 es).objects = Machine.prompt.server.scene.store.objects := by
  have hfirst : queuedIn Machine.seated.server.journal.toList = [] := rfl
  constructor
  · obtain ⟨hedits, hpending, hsession, hsize, hball, hother, hcheck⟩ :
        editsIn Machine.mixed.server.journal.toList =
          [(7, .set .position "ball" ⟨2, 0, 0⟩), (7, .setSlider .value "size" 1.5)] ∧
        Machine.mixed.server.outbox.pending = [] ∧
        Machine.mixed.server.lifecycle.link.map (·.session) =
          Machine.seated.server.lifecycle.link.map (·.session) ∧
        (replicaOf 7 Machine.mixed.later).get? "size" =
          some (.slider { Slider.size with value := 1.5 }) ∧
        (replicaOf 7 Machine.mixed.later).get? "ball" =
          some (.sphere { Sphere.ball with pos := ⟨1, 0, 0⟩, radius := 1.5 }) ∧
        Machine.mixed.server.scene.store.get? "ball" ≠
          some (.sphere { Sphere.ball with pos := ⟨1, 0, 0⟩, radius := 1.5 }) ∧
        ∀ i ∈ List.range Machine.mixed.later.length,
          ∀ p ∈ (Machine.mixed.later[i]?.bind Event.edit?).toList,
            (((replicaOf 7 (Machine.mixed.later.take i)).run p.2).runAll
                (waitingAfter [] (Machine.mixed.later.take i))).get? "size" =
              (((replicaOf 7 (Machine.mixed.later.take i)).runAll
                (waitingAfter [] (Machine.mixed.later.take i))).run p.2).get? "size" := by
      decide +kernel
    obtain ⟨es, hes, -, hkeys⟩ := viewer_keeps_edits (c := 7) Machine.reachable_seated rfl
      (by simp [hfirst]) Machine.next_mixed hsession (by simp [hedits])
    obtain ⟨hkeys, -⟩ := hkeys hpending
    rw [← Machine.later_eq hes] at hsize hball hcheck
    have hover : ∀ u, ¬Overtakes 7 "size" [] es u := by
      rintro u ⟨pre, e, post, hsplit, he, hcross, -⟩
      obtain ⟨hrange, hpre, hget⟩ := eq_take_of_split hsplit
      rw [hpre] at hcross
      exact hcross (hcheck _ hrange (7, u) (by simp [hget, he]))
    obtain ⟨us, hus, hredone⟩ := (hkeys "ball").1
    refine ⟨es, hes, hover, hsize, ((hkeys "size").2.mpr hover).symm.trans hsize, hball, us, hus,
      ?_, hredone⟩
    rintro rfl
    exact hother (hredone.trans hball)
  · obtain ⟨hedits, hpending, hsession, hnew, hcheck⟩ :
        editsIn Machine.prompt.server.journal.toList =
          [(7, .set .position "ball" ⟨2, 0, 0⟩), (7, .setSlider .value "size" 1.5)] ∧
        Machine.prompt.server.outbox.pending = [] ∧
        Machine.prompt.server.lifecycle.link.map (·.session) =
          Machine.seated.server.lifecycle.link.map (·.session) ∧
        editsIn Machine.prompt.later =
          [(7, .set .position "ball" ⟨2, 0, 0⟩), (7, .setSlider .value "size" 1.5)] ∧
        ∀ i ∈ List.range Machine.prompt.later.length,
          (Machine.prompt.later[i]?.bind Event.edit?).isSome →
            waitingAfter [] (Machine.prompt.later.take i) = [] := by
      decide +kernel
    obtain ⟨es, hes, -, hkeys⟩ := viewer_keeps_edits (c := 7) Machine.reachable_seated rfl
      (by simp [hfirst]) Machine.next_prompt hsession (by simp [hedits])
    obtain ⟨-, hobjects⟩ := hkeys hpending
    rw [← Machine.later_eq hes] at hnew hcheck
    refine ⟨es, hes, hnew, hobjects fun pre e post u hsplit he => ?_⟩
    obtain ⟨hrange, hpre, hget⟩ := eq_take_of_split hsplit
    rw [hpre]
    exact hcheck _ hrange (by simp [hget, he])

/-- An edit overtakes a command that waits: the viewer sees the command last, and ends up with the
ball in another place than the server. -/
theorem drag_undone_by_flush :
    Machine.seated.Reachable ⟨true, true⟩ .blank ∧
      Machine.seated.server.lifecycle.phase = .serving ∧
      queuedIn Machine.seated.server.journal.toList = [] ∧
      ReflTransGen Machine.Next Machine.seated Machine.crossed ∧
      Machine.crossed.server.lifecycle.link.map (·.session) =
        Machine.seated.server.lifecycle.link.map (·.session) ∧
      editsIn Machine.crossed.server.journal.toList = [(7, .set .position "ball" ⟨2, 0, 0⟩)] ∧
      Machine.crossed.server.outbox.pending = [] ∧
      ¬∃ es, Machine.crossed.server.journal.toList = Machine.seated.server.journal.toList ++ es ∧
        (replicaOf 7 es).objects = Machine.crossed.server.scene.store.objects := by
  obtain ⟨hsession, hedits, hpending, hreplica, hstore⟩ :
      Machine.crossed.server.lifecycle.link.map (·.session) =
        Machine.seated.server.lifecycle.link.map (·.session) ∧
      editsIn Machine.crossed.server.journal.toList = [(7, .set .position "ball" ⟨2, 0, 0⟩)] ∧
      Machine.crossed.server.outbox.pending = [] ∧
      (replicaOf 7 Machine.crossed.later).get? "ball" =
        some (.sphere { Sphere.ball with pos := ⟨1, 0, 0⟩ }) ∧
      Machine.crossed.server.scene.store.get? "ball" =
        some (.sphere { Sphere.ball with pos := ⟨2, 0, 0⟩ }) := by
    decide +kernel
  refine ⟨Machine.reachable_seated, rfl, rfl, Machine.next_crossed, hsession, hedits, hpending, ?_⟩
  rintro ⟨es, hes, hsame⟩
  have hball := Store.get?_eq_of_objects_eq hsame "ball"
  rw [Machine.later_eq hes, hreplica, hstore] at hball
  exact absurd hball (by decide)

end LiveScene
