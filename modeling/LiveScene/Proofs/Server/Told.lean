import LiveScene.Proofs.Server.Edits
import LiveScene.Proofs.Server.Turns

/-!
# What a server tells

The journal of a server only grows, and of the events that are added three sorts matter to viewers:
commands that are queued, messages for all viewers, and messages for one (`queuedIn`, `broadcastIn`,
`sentIn`). A fourth sort comes from viewers: they report edits that they have made themselves
(`editsIn`).

`Server.Told s t es` says that `t` comes from `s` with the events `es`, none of which is such a
report, that its store is what the queued commands make of the store of `s`, and that as long as
there is a link nothing is lost: what was broadcast, followed by what waits, is what waited before,
followed by what was queued. It holds of flushing (`told_flush`, `told_setAutoflush`) and of every
change (`edited_change`), where `Server.Edited` adds what becomes of the outbox. A change has the
effect of the commands it queues because every single edit has (`EditPair.store_eq`).
-/

namespace LiveScene

/-! ## Commands in the journal -/

/-- The command that does to a store what a viewer has done to its replica before the report. -/
def ViewerMessage.edit? : ViewerMessage → Option Command
  | .drag key pos => some (.set .position key pos)
  | .sliderSetValue key value => some (.setSlider .value key value)
  | _ => none

/-- A report is recorded by running its edit, if it reports one. -/
theorem Scene.store_record (scene : Scene) (m : ViewerMessage) :
    (scene.record m).store = scene.store.runAll m.edit?.toList := by
  cases m <;> rfl

namespace Event

/-- The command that an event queues. -/
def queued? : Event → Option Command
  | queued c => some c
  | _ => none

/-- The commands that an event hands to a transport for all viewers. -/
def toAll : Event → List Command
  | broadcast _ cs _ => cs
  | _ => []

/-- The commands that an event hands to a transport for one viewer. -/
def toOne (c : Connection) : Event → List Command
  | sent _ d cs _ => if d = c then cs else []
  | _ => []

/-- The message of a viewer that an event takes up. -/
def report? : Event → Option (Connection × ViewerMessage)
  | called (.hear (.message c text)) => (ViewerMessage.parse text).toOption.map (c, ·)
  | _ => none

/-- The viewer that reports an edit, and the edit. -/
def edit? (e : Event) : Option (Connection × Command) :=
  e.report?.bind fun (c, m) => m.edit?.map (c, ·)

/-- The reply that an event gives, if that says anything. -/
def answer? : Event → Option Reply
  | returned r => if r = .nothing then none else some r
  | _ => none

end Event

/-- The commands that are queued in some events, in order. -/
def queuedIn (es : List Event) : List Command := es.filterMap Event.queued?

/-- The commands that are broadcast in some events, all messages joined in order. -/
def broadcastIn (es : List Event) : List Command := es.flatMap Event.toAll

/-- The commands that are sent to one viewer in some events, all messages joined in order. -/
def sentIn (c : Connection) (es : List Event) : List Command := es.flatMap (Event.toOne c)

/-- The edits that viewers report in some events, in order. -/
def editsIn (es : List Event) : List (Connection × Command) := es.filterMap Event.edit?

/-- The replies in some events that say anything, in order. -/
def answersIn (es : List Event) : List Reply := es.filterMap Event.answer?

@[simp] theorem queuedIn_append (es fs : List Event) :
    queuedIn (es ++ fs) = queuedIn es ++ queuedIn fs := by
  simp [queuedIn]

@[simp] theorem broadcastIn_append (es fs : List Event) :
    broadcastIn (es ++ fs) = broadcastIn es ++ broadcastIn fs := by
  simp [broadcastIn]

@[simp] theorem sentIn_append (c : Connection) (es fs : List Event) :
    sentIn c (es ++ fs) = sentIn c es ++ sentIn c fs := by
  simp [sentIn]

@[simp] theorem editsIn_append (es fs : List Event) :
    editsIn (es ++ fs) = editsIn es ++ editsIn fs := by
  simp [editsIn]

@[simp] theorem answersIn_nil : answersIn [] = [] := rfl

@[simp] theorem answersIn_cons (e : Event) (es : List Event) :
    answersIn (e :: es) = e.answer?.toList ++ answersIn es := by
  cases h : e.answer? <;> simp [answersIn, h]

@[simp] theorem answersIn_append (es fs : List Event) :
    answersIn (es ++ fs) = answersIn es ++ answersIn fs := by
  simp [answersIn]

@[simp] theorem queuedIn_map_queued (cs : List Command) : queuedIn (cs.map .queued) = cs := by
  induction cs with
  | nil => rfl
  | cons c cs ih => exact congrArg (c :: ·) ih

@[simp] theorem broadcastIn_map_queued (cs : List Command) : broadcastIn (cs.map .queued) = [] := by
  simp [broadcastIn, Event.toAll]

@[simp] theorem sentIn_map_queued (c : Connection) (cs : List Command) :
    sentIn c (cs.map .queued) = [] := by
  simp [sentIn, Event.toOne]

@[simp] theorem editsIn_map_queued (cs : List Command) : editsIn (cs.map .queued) = [] := by
  simp [editsIn, Event.edit?, Event.report?]

@[simp] theorem answersIn_map_noted (ns : List Notice) : answersIn (ns.map .noted) = [] := by
  simp [answersIn, Event.answer?, List.filterMap_map, Function.comp_def]

@[simp] theorem answersIn_map_queued (cs : List Command) : answersIn (cs.map .queued) = [] := by
  simp [answersIn, Event.answer?, List.filterMap_map, Function.comp_def]

/-! ## What no change touches -/

/-- A state of the cycle without the counts of messages. -/
def Lifecycle.bare (l : Lifecycle) : Lifecycle :=
  { l with link := l.link.map fun link => { link with broadcasts := 0, sends := 0 } }

/-- What neither changes nor messages touch: how the server was set up, who holds it, where it is in
its cycle, how many listeners it has called, and by which turns it has come there. -/
def Server.surroundings (s : Server) : Config × Host × Bool × Bool × Nat × Lifecycle × List Turn :=
  (s.config, s.host, s.held, s.inboundOpen, s.firings, s.lifecycle.bare, turnsIn s.journal.toList)

namespace Lifecycle

variable {l k : Lifecycle}

theorem phase_of_bare (h : l.bare = k.bare) : l.phase = k.phase := congrArg (·.phase) h

theorem sessions_of_bare (h : l.bare = k.bare) : l.sessions = k.sessions := congrArg (·.sessions) h

theorem session_of_bare (h : l.bare = k.bare) :
    l.link.map (·.session) = k.link.map (·.session) := by
  have h' : l.bare.link.map (·.session) = k.bare.link.map (·.session) := by rw [h]
  simpa [bare, Function.comp_def] using h'

theorem linked_of_bare (h : l.bare = k.bare) : l.link.isSome = k.link.isSome := by
  have h' : l.bare.link.isSome = k.bare.link.isSome := by rw [h]
  simpa [bare] using h'

/-- Without a link there is nothing to count. -/
theorem bare_of_unlinked (h : l.link = none) : l.bare = l := by
  obtain ⟨phase, address, link, requested, fired, sessions⟩ := l
  obtain rfl : link = none := h
  rfl

theorem eq_of_bare (h : l.bare = k.bare) (hk : k.link = none) : l = k := by
  have hl : l.link = none := by
    rw [← Option.not_isSome_iff_eq_none, linked_of_bare h, hk]
    simp
  rwa [bare_of_unlinked hl, bare_of_unlinked hk] at h

end Lifecycle

namespace Server

variable {s t u : Server} {es fs : List Event}

theorem lifecycle_of_surroundings (h : t.surroundings = s.surroundings) :
    t.lifecycle.bare = s.lifecycle.bare :=
  congrArg (·.2.2.2.2.2.1) h

theorem turns_of_surroundings (h : t.surroundings = s.surroundings) :
    turnsIn t.journal.toList = turnsIn s.journal.toList :=
  congrArg (·.2.2.2.2.2.2) h

theorem linked_of_surroundings (h : t.surroundings = s.surroundings) :
    t.lifecycle.link.isSome = s.lifecycle.link.isSome :=
  Lifecycle.linked_of_bare (lifecycle_of_surroundings h)

@[simp] theorem toList_journal_emit (s : Server) (e : Event) :
    (s.emit e).journal.toList = s.journal.toList ++ [e] := by
  simp [emit]

@[simp] theorem toList_journal_note (s : Server) (n : Notice) :
    (s.note n).journal.toList = s.journal.toList ++ [.noted n] :=
  toList_journal_emit s _

/-- An event that is no turn leaves the surroundings alone. -/
theorem surroundings_emit (s : Server) {e : Event} (he : e.turn? = none) :
    (s.emit e).surroundings = s.surroundings := by
  simp [surroundings, emit, he]

/-! ## Messages -/

/-- `t` comes from `s` by handing the commands `cs` to the transport, as far as there is one. -/
structure Handed (s t : Server) (cs : List Command) (es : List Event) : Prop where
  journal : t.journal.toList = s.journal.toList ++ es
  scene : t.scene = s.scene
  outbox : t.outbox = s.outbox
  surroundings : t.surroundings = s.surroundings
  queued : queuedIn es = []
  edits : editsIn es = []
  answers : answersIn es = []
  broadcast : s.lifecycle.link.isSome → broadcastIn es = cs

theorem Handed.refl (s : Server) : Handed s s [] [] :=
  ⟨by simp, rfl, rfl, rfl, rfl, rfl, rfl, fun _ => rfl⟩

theorem Handed.trans {cs ds : List Command} (h : Handed s t cs es) (h' : Handed t u ds fs) :
    Handed s u (cs ++ ds) (es ++ fs) where
  journal := by rw [h'.journal, h.journal, List.append_assoc]
  scene := h'.scene.trans h.scene
  outbox := h'.outbox.trans h.outbox
  surroundings := h'.surroundings.trans h.surroundings
  queued := by simp [h.queued, h'.queued]
  edits := by simp [h.edits, h'.edits]
  answers := by simp [h.answers, h'.answers]
  broadcast hl := by
    rw [broadcastIn_append, h.broadcast hl,
      h'.broadcast ((linked_of_surroundings h.surroundings).trans hl)]

/-- An event that matters neither to viewers nor to sessions. -/
theorem handed_emit (s : Server) {e : Event} (h : e.turn? = none ∧ e.queued? = none ∧
    e.edit? = none ∧ e.answer? = none ∧ e.toAll = []) : Handed s (s.emit e) [] [e] where
  journal := by simp
  scene := rfl
  outbox := rfl
  surroundings := surroundings_emit s h.1
  queued := by simp [queuedIn, h.2.1]
  edits := by simp [editsIn, h.2.2.1]
  answers := by simp [h.2.2.2.1]
  broadcast _ := by simp [broadcastIn, h.2.2.2.2]

theorem handed_note (s : Server) (n : Notice) : Handed s (s.note n) [] [.noted n] :=
  handed_emit s ⟨rfl, rfl, rfl, rfl, rfl⟩

theorem handed_noteAll (s : Server) (ns : List Notice) :
    ∃ es, Handed s (s.noteAll ns) [] es := by
  induction ns generalizing s with
  | nil => exact ⟨[], Handed.refl s⟩
  | cons n ns ih =>
    obtain ⟨es, h⟩ := ih (s.note n)
    exact ⟨_, (handed_note s n).trans h⟩

theorem handed_transmit (s : Server) (cs : List Command) :
    ∃ es, Handed s (s.transmit cs) cs es := by
  cases hl : s.lifecycle.link with
  | none =>
    refine ⟨[.noted (.notServing (messageBytes cs))], ?_⟩
    have h := handed_note s (.notServing (messageBytes cs))
    simp only [transmit, hl]
    exact { h with broadcast := by simp [hl] }
  | some link =>
    have h : Handed s
        (emit { s with lifecycle.link := some { link with broadcasts := link.broadcasts + 1 } }
          (.broadcast link.session cs !link.transport.broadcastFails link.broadcasts)) cs
        [.broadcast link.session cs !link.transport.broadcastFails link.broadcasts] :=
      ⟨by simp, rfl, rfl, by simp [surroundings, emit, Lifecycle.bare, hl, Event.turn?], rfl, rfl,
        rfl, fun _ => by simp [broadcastIn, Event.toAll]⟩
    simp only [transmit, hl]
    split
    · have h' := h.trans (handed_note _ (.broadcastFailed (messageBytes cs)))
      rw [List.append_nil] at h'
      exact ⟨_, h'⟩
    · exact ⟨_, h⟩

theorem handed_transmitAll (s : Server) (ready : List (List Command)) :
    ∃ es, Handed s (ready.foldl transmit s) ready.flatten es := by
  induction ready generalizing s with
  | nil => exact ⟨[], Handed.refl s⟩
  | cons cs ready ih =>
    obtain ⟨es, h⟩ := handed_transmit s cs
    obtain ⟨fs, h'⟩ := ih (s.transmit cs)
    exact ⟨es ++ fs, h.trans h'⟩

theorem handed_release (s : Server) (taken : Option (List Command)) :
    ∃ es, Handed s (s.release taken) (taken.getD []) es := by
  cases taken with
  | none => exact ⟨[], Handed.refl s⟩
  | some cs =>
    obtain ⟨es, h⟩ := handed_transmit (s.note (.flushing cs.length)) cs
    exact ⟨_, (handed_note s _).trans h⟩

theorem handed_send (s : Server) {link : Link} (hl : s.lifecycle.link = some link) (c : Connection)
    (cs : List Command) : ∃ es, Handed s (s.send link c cs) [] es ∧ sentIn c es = cs := by
  have h : Handed s
      (emit { s with lifecycle.link := some { link with sends := link.sends + 1 } }
        (.sent link.session c cs !link.transport.sendFails link.sends)) []
      [.sent link.session c cs !link.transport.sendFails link.sends] :=
    ⟨by simp, rfl, rfl, by simp [surroundings, emit, Lifecycle.bare, hl, Event.turn?], rfl, rfl,
      rfl, fun _ => rfl⟩
  have hsent : sentIn c [.sent link.session c cs !link.transport.sendFails link.sends] = cs := by
    simp [sentIn, Event.toOne]
  unfold send
  dsimp only
  split
  · refine ⟨_, h.trans (handed_note _ (.replayFailed c)), ?_⟩
    rw [sentIn_append, hsent]
    exact List.append_nil cs
  · exact ⟨_, h, hsent⟩

/-- A viewer is sent the whole scene, if there is a session to send it in. -/
theorem handed_replayTo (s : Server) (c : Connection) :
    ∃ es, Handed s (s.replayTo c) [] es ∧
      (s.lifecycle.link.isSome → sentIn c es = s.scene.store.replay) := by
  cases hl : s.lifecycle.link with
  | none => exact ⟨[], by simpa [replayTo, hl] using Handed.refl s, by simp⟩
  | some link =>
    by_cases hempty : s.scene.store.replay.isEmpty
    · refine ⟨[], by simpa [replayTo, hl, hempty] using Handed.refl s, fun _ => ?_⟩
      exact (List.isEmpty_iff.mp hempty).symm
    · have hn := handed_note s (.replaying s.scene.store.replay.length c)
      obtain ⟨es, h, hsent⟩ := handed_send (s.note (.replaying s.scene.store.replay.length c)) hl c
        s.scene.store.replay
      simp only [replayTo, hl, if_neg hempty]
      refine ⟨_, hn.trans h, fun _ => ?_⟩
      rw [sentIn_append, hsent]
      rfl

/-- What comes of a viewer that connects, before the listeners are called. -/
def greet (s : Server) (c : Connection) : Server :=
  let s := s.note (.connected c)
  if s.config.replayOnConnect then s.replayTo c else s

theorem handed_greet (s : Server) (c : Connection) : ∃ es, Handed s (s.greet c) [] es := by
  have hnote := handed_note s (.connected c)
  unfold greet
  dsimp only
  split
  · obtain ⟨es, h, -⟩ := handed_replayTo (s.note (.connected c)) c
    exact ⟨_, hnote.trans h⟩
  · exact ⟨_, hnote⟩

/-! ## Changes and messages together -/

/-- With autoflush on, nothing waits. -/
def Drained (s : Server) : Prop := s.outbox.autoflush = true → s.outbox.pending = []

/-- `t` comes from `s` in the same session, with the events `es`, among which no viewer reports an
edit: its store is what the queued commands make of the store of `s`, each finding what it is to
delete, and of all that waited or was queued a first part is gone, which was broadcast if there is a
link, and the rest waits. -/
structure Told (s t : Server) (es : List Event) : Prop where
  journal : t.journal.toList = s.journal.toList ++ es
  session : t.lifecycle.link.map (·.session) = s.lifecycle.link.map (·.session)
  store : t.scene.store = s.scene.store.runAll (queuedIn es)
  apt : s.scene.store.Apt (queuedIn es)
  edits : editsIn es = []
  told : s.Drained → ∃ cs, cs ++ t.outbox.pending = s.outbox.pending ++ queuedIn es ∧
    (s.lifecycle.link.isSome → broadcastIn es = cs)
  drained : s.Drained → t.Drained

theorem Told.trans (h : Told s t es) (h' : Told t u fs) : Told s u (es ++ fs) where
  journal := by rw [h'.journal, h.journal, List.append_assoc]
  session := h'.session.trans h.session
  store := by rw [h'.store, h.store, queuedIn_append, Store.runAll_append]
  apt := by
    rw [queuedIn_append, Store.apt_append, ← h.store]
    exact ⟨h.apt, h'.apt⟩
  edits := by simp [h.edits, h'.edits]
  told hd := by
    obtain ⟨cs, hcs, hb⟩ := h.told hd
    obtain ⟨ds, hds, hb'⟩ := h'.told (h.drained hd)
    have hl : t.lifecycle.link.isSome = s.lifecycle.link.isSome := by
      simpa using congrArg Option.isSome h.session
    refine ⟨cs ++ ds, ?_, fun hs => ?_⟩
    · rw [List.append_assoc, hds, ← List.append_assoc, hcs, queuedIn_append, List.append_assoc]
    · rw [broadcastIn_append, hb hs, hb' (hl.trans hs)]
  drained hd := h'.drained (h.drained hd)

/-- What has been broadcast in some events, and what waits. -/
def outgoing (s : Server) (es : List Event) : List Command := broadcastIn es ++ s.outbox.pending

/-- As long as there is a link, nothing is lost. -/
theorem Told.flow (h : Told s t es) (hd : s.Drained) (hl : s.lifecycle.link.isSome) :
    broadcastIn es ++ t.outbox.pending = s.outbox.pending ++ queuedIn es := by
  obtain ⟨cs, hcs, hb⟩ := h.told hd
  rw [hb hl, hcs]

/-- What is queued is all that goes out more. -/
theorem Told.outgoing (h : Told s t es) (hd : s.Drained) (hl : s.lifecycle.link.isSome)
    (ds : List Event) : t.outgoing (ds ++ es) = s.outgoing ds ++ queuedIn es := by
  rw [Server.outgoing, broadcastIn_append, List.append_assoc, h.flow hd hl, ← List.append_assoc,
    ← Server.outgoing]

theorem Told.keyed (h : Told s t es) (hk : s.scene.store.Keyed) : t.scene.store.Keyed := by
  rw [h.store]
  exact hk.runAll _

/-- Nothing that matters to viewers has happened. -/
theorem told_of_eq (hj : t.journal.toList = s.journal.toList ++ es)
    (hl : t.lifecycle.link.map (·.session) = s.lifecycle.link.map (·.session))
    (hs : t.scene.store = s.scene.store) (ho : t.outbox = s.outbox) (hq : queuedIn es = [])
    (he : editsIn es = []) (hb : s.lifecycle.link.isSome → broadcastIn es = []) : Told s t es where
  journal := hj
  session := hl
  store := by rw [hq, hs, Store.runAll_nil]
  apt := by rw [hq]; trivial
  edits := he
  told _ := ⟨[], by rw [ho, hq, List.append_nil, List.nil_append], hb⟩
  drained hd := by rwa [Drained, ho]

theorem session_of_surroundings (h : t.surroundings = s.surroundings) :
    t.lifecycle.link.map (·.session) = s.lifecycle.link.map (·.session) :=
  Lifecycle.session_of_bare (lifecycle_of_surroundings h)

/-- Handing over what was taken from the outbox, where `q` is what is left of it. -/
theorem told_release (s : Server) {q : Outbox} (hq : q.pending = []) :
    ∃ es, Told s (release { s with outbox := q } s.outbox.take.1) es := by
  obtain ⟨es, h⟩ := handed_release { s with outbox := q } s.outbox.take.1
  have ht : s.outbox.take.1.getD [] = s.outbox.pending := by
    unfold Outbox.take
    split <;> simp_all
  refine ⟨es, h.journal, session_of_surroundings h.surroundings, ?_, ?_, h.edits, fun _ => ?_,
    fun _ _ => by rw [h.outbox, hq]⟩
  · rw [h.scene, h.queued, Store.runAll_nil]
  · rw [h.queued]
    trivial
  · exact ⟨s.outbox.pending, by rw [h.outbox, hq, h.queued], fun hl => by rw [h.broadcast hl, ht]⟩

theorem surroundings_release (s : Server) (taken : Option (List Command)) :
    (s.release taken).surroundings = s.surroundings := by
  obtain ⟨es, h⟩ := handed_release s taken
  exact h.surroundings

theorem told_flush (s : Server) : ∃ es, Told s s.flush es :=
  told_release s (Outbox.pending_take s.outbox)

theorem pending_flush (s : Server) : s.flush.outbox.pending = [] := by
  obtain ⟨es, h⟩ := handed_release { s with outbox := s.outbox.take.2 } s.outbox.take.1
  exact (congrArg Outbox.pending h.outbox).trans (Outbox.pending_take s.outbox)

theorem surroundings_flush (s : Server) : s.flush.surroundings = s.surroundings :=
  surroundings_release _ _

theorem told_setAutoflush (s : Server) (on : Bool) : ∃ es, Told s (s.setAutoflush on) es := by
  cases on with
  | false =>
    refine ⟨[], by simp [setAutoflush, Outbox.setAutoflush, release], rfl, rfl, trivial, rfl,
      fun _ => ?_, fun _ h => nomatch h⟩
    exact ⟨[], (List.append_nil _).symm, fun _ => rfl⟩
  | true =>
    have ht : ({ s.outbox with autoflush := true } : Outbox).take.1 = s.outbox.take.1 := by
      unfold Outbox.take
      split <;> rfl
    have h := told_release s (Outbox.pending_take { s.outbox with autoflush := true })
    rw [← ht] at h
    exact h

theorem surroundings_setAutoflush (s : Server) (on : Bool) :
    (s.setAutoflush on).surroundings = s.surroundings :=
  surroundings_release _ _

/-- `t` comes from `s` by edits of the scene: `Told`, and what is queued waits if autoflush is
off. -/
structure Edited (s t : Server) (es : List Event) : Prop extends Told s t es where
  autoflush : t.outbox.autoflush = s.outbox.autoflush
  pending : t.outbox.pending =
    if s.outbox.autoflush then s.outbox.pending else s.outbox.pending ++ queuedIn es

/-- Without a message for all viewers, nothing is queued and nothing is told. -/
theorem Handed.edited (h : Handed s t [] es) : Edited s t es where
  toTold := told_of_eq h.journal (session_of_surroundings h.surroundings) (by rw [h.scene]) h.outbox
    h.queued h.edits h.broadcast
  autoflush := by rw [h.outbox]
  pending := by rw [h.outbox, h.queued, List.append_nil, ite_self]

theorem Edited.trans (h : Edited s t es) (h' : Edited t u fs) : Edited s u (es ++ fs) where
  toTold := h.toTold.trans h'.toTold
  autoflush := h'.autoflush.trans h.autoflush
  pending := by
    rw [h'.pending, h.autoflush, h.pending]
    split <;> simp

/-! ## Edits -/

theorem pushAll_eq (s : Server) (cs : List Command) :
    s.pushAll cs =
      (if s.outbox.autoflush then cs.map ([·]) else [],
        { s with
          outbox.pending :=
            if s.outbox.autoflush then s.outbox.pending else s.outbox.pending ++ cs
          journal := s.journal ++ (cs.map Event.queued).toArray }) := by
  induction cs generalizing s with
  | nil => simp [pushAll]
  | cons c cs ih =>
    simp only [pushAll, ih]
    cases h : s.outbox.autoflush <;> simp [push, Outbox.push, emit, h]

theorem surroundings_pushAll (s : Server) (cs : List Command) :
    (s.pushAll cs).2.surroundings = s.surroundings := by
  simp [pushAll_eq, surroundings]

/-- An edit takes over the scene, leaves its notices, queues its commands, and hands over what is
ready. -/
theorem edit_shape (s : Server) (f : Scene → Edit) :
    ∃ t es fs, Handed { s with scene := (f s.scene).scene } t [] es ∧
      Handed (t.pushAll (f s.scene).commands).2 (s.edit f)
        (t.pushAll (f s.scene).commands).1.flatten fs := by
  obtain ⟨es, h⟩ := handed_noteAll { s with scene := (f s.scene).scene } (f s.scene).notices
  obtain ⟨fs, h'⟩ := handed_transmitAll _ _
  exact ⟨_, es, fs, h, h'⟩

theorem surroundings_edit (s : Server) (f : Scene → Edit) :
    (s.edit f).surroundings = s.surroundings := by
  obtain ⟨t, es, fs, h, h'⟩ := edit_shape s f
  exact h'.surroundings.trans ((surroundings_pushAll t _).trans h.surroundings)

theorem scene_edit (s : Server) (f : Scene → Edit) : (s.edit f).scene = (f s.scene).scene := by
  obtain ⟨t, es, fs, h, h'⟩ := edit_shape s f
  rw [pushAll_eq] at h'
  exact h'.scene.trans h.scene

/-- An edit whose commands do to the store what the edit does to it, each finding what it is to
delete. -/
theorem edited_edit (s : Server) {f : Scene → Edit}
    (hf : (f s.scene).scene.store = s.scene.store.runAll (f s.scene).commands)
    (ha : s.scene.store.Apt (f s.scene).commands) :
    ∃ es, Edited s (s.edit f) es ∧ queuedIn es = (f s.scene).commands ∧ answersIn es = [] := by
  obtain ⟨t, es, fs, h, h'⟩ := edit_shape s f
  rw [pushAll_eq] at h'
  have hq : queuedIn (es ++ ((f s.scene).commands.map .queued ++ fs)) = (f s.scene).commands := by
    simp [h.queued, h'.queued]
  have hjournal := h'.journal
  have hpending := congrArg Outbox.pending h'.outbox
  have hautoflush := congrArg Outbox.autoflush h'.outbox
  simp only [h.journal, h.outbox, Array.toList_append] at hjournal hpending hautoflush
  refine ⟨es ++ ((f s.scene).commands.map .queued ++ fs), ⟨⟨?_,
    session_of_surroundings (surroundings_edit s f), ?_, by rwa [hq], ?_, fun hd => ?_,
    fun hd ha => ?_⟩, hautoflush, ?_⟩, hq, ?_⟩
  · simpa using hjournal
  · rw [hq, ← hf, scene_edit]
  · simp [h.edits, h'.edits]
  · refine ⟨if s.outbox.autoflush then (f s.scene).commands else [], ?_, fun hl => ?_⟩
    · rw [hq, hpending]
      cases ha : s.outbox.autoflush with
      | false => simp
      | true => simp [hd ha]
    · have hlt := (linked_of_surroundings h.surroundings).trans hl
      rw [broadcastIn_append, broadcastIn_append, h.broadcast hl, h'.broadcast hlt,
        broadcastIn_map_queued, h.outbox]
      cases s.outbox.autoflush with
      | false => simp
      | true => simp [← List.flatMap_def]
  · rw [hautoflush] at ha
    rw [hpending, if_pos ha]
    exact hd ha
  · rw [hq]
    exact hpending
  · simp [h.answers, h'.answers]

end Server

/-! ## All changes -/

theorem Scene.store_delete (s : Scene) (hk : s.store.Keyed) (key : String) :
    (s.delete key).scene.store = s.store.runAll (s.delete key).commands := by
  unfold Scene.delete
  cases he : s.store.erase? key with
  | none => rfl
  | some p =>
    obtain ⟨o, store⟩ := p
    obtain ⟨ho, rfl⟩ := Store.erase?_eq_some he
    simp [Store.run_deleteCommand, hk key o ho]

theorem Scene.apt_delete (s : Scene) (hk : s.store.Keyed) (key : String) :
    s.store.Apt (s.delete key).commands := by
  unfold Scene.delete
  cases he : s.store.erase? key with
  | none => trivial
  | some p =>
    obtain ⟨o, store⟩ := p
    obtain ⟨ho, -⟩ := Store.erase?_eq_some he
    obtain rfl := hk key o ho
    exact Store.apt_deleteCommand ho trivial

theorem EditPair.eq {f g : Scene → Edit} (h : EditPair Eq f g) : f = g := by
  cases h <;> first | rfl | subst_vars; rfl

/-- A single edit has the effect of its commands. -/
theorem EditPair.store_eq {L : Listener → Listener → Prop} {f g : Scene → Edit}
    (h : EditPair L f g) {scene : Scene} (hk : scene.store.Keyed) :
    (f scene).scene.store = scene.store.runAll (f scene).commands := by
  cases h with
  | create o _ => rfl
  | createButton b h => rfl
  | createSlider b h => rfl
  | update c f h _ =>
    have hc := h scene.store
    cases hf : f scene.store with
    | none => simp [Scene.update, hf]
    | some store => simpa [Scene.update, hf] using hc.symm
  | delete key => exact scene.store_delete hk key
  | deleteElement key =>
    simp only [Scene.deleteElement]
    split
    · exact scene.store_delete hk key
    · rfl
  | deleteUnder stem => exact Store.eraseAll_eq hk _
  | clear => rfl
  | onDrag key h => rfl

/-- Each of its commands that deletes an object finds one to delete. -/
theorem EditPair.apt {L : Listener → Listener → Prop} {f g : Scene → Edit}
    (h : EditPair L f g) {scene : Scene} (hk : scene.store.Keyed) :
    scene.store.Apt (f scene).commands := by
  cases h with
  | create o _ => exact scene.store.apt_singleton rfl
  | createButton b h => exact scene.store.apt_singleton rfl
  | createSlider b h => exact scene.store.apt_singleton rfl
  | update c f h hc =>
    cases hf : f scene.store with
    | none => simp [Scene.update, hf, Store.Apt]
    | some store =>
      simpa [Scene.update, hf] using scene.store.apt_singleton (Command.deletes?_of_isWrite hc)
  | delete key => exact scene.apt_delete hk key
  | deleteElement key =>
    simp only [Scene.deleteElement]
    split
    · exact scene.apt_delete hk key
    · trivial
  | deleteUnder stem => exact Store.apt_eraseAll hk _
  | clear => exact scene.store.apt_singleton rfl
  | onDrag key h => exact scene.store.apt_singleton rfl

namespace Server

theorem surroundings_change (s : Server) (c : Change Listener) :
    (s.change c).2.surroundings = s.surroundings := by
  have hR : KeptByEdits Eq fun t u => t = u ∧ t.surroundings = s.surroundings := by
    refine ⟨fun h => by rw [h.1], fun h => by rw [h.1], fun {t u} n h => ?_,
      fun {t u f g} hf h => ?_⟩
    · obtain ⟨rfl, h⟩ := h
      exact ⟨rfl, (surroundings_emit t rfl).trans h⟩
    · obtain ⟨rfl, h⟩ := h
      exact ⟨congrArg t.edit hf.eq, (surroundings_edit t f).trans h⟩
  exact (hR.change (ChangePair.refl c) ⟨rfl, rfl⟩).2.2

/-- Every change is made of edits, so it has the effect of the commands it queues. -/
theorem edited_change {s : Server} (hk : s.scene.store.Keyed) (c : Change Listener) :
    ∃ es, Edited s (s.change c).2 es := by
  have hR : KeptByEdits Eq fun t u => t = u ∧ ∃ es, Edited s t es := by
    refine ⟨fun h => by rw [h.1], fun h => by rw [h.1], fun {t u} n h => ?_,
      fun {t u f g} hf h => ?_⟩
    · obtain ⟨rfl, es, h⟩ := h
      exact ⟨rfl, _, h.trans (handed_note t n).edited⟩
    · obtain ⟨rfl, es, h⟩ := h
      obtain ⟨fs, h', -⟩ := edited_edit t (hf.store_eq (h.keyed hk)) (hf.apt (h.keyed hk))
      exact ⟨congrArg t.edit hf.eq, _, h.trans h'⟩
  exact (hR.change (ChangePair.refl c) ⟨rfl, [], (Handed.refl s).edited⟩).2.2

end Server

end LiveScene
