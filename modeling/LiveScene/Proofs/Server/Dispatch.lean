import LiveScene.Proofs.Server.Messages
import LiveScene.Proofs.Server.Returns
import LiveScene.Proofs.Store.Marks

/-!
# Calling listeners

A report of a transport is recorded first (`Scene.Records`), and then the listeners to its occasion
are called from the list that was registered at that moment (`Server.audience`,
`Server.receives_hear`). The frame that calls them stands on the stack until it has called the last
one, and everything that a listener does goes on above it. So whatever listeners do to the registry
or by reports of their own, and whichever of them fail, those on the list are called once each and
in order, and no others (`Machine.CallsEach`, `Machine.callsEach_notify`). Both together are
`report_calls_listeners`; the shutdown listeners that a stop calls are called in the same way
(`Machine.Stops.callsEach`).
-/

namespace LiveScene

/-! ## Recording -/

/-- What a message reports of the object under a key: where it is, or the value of the slider it
is. -/
def ViewerMessage.moved (key : String) : ViewerMessage → SceneObject → SceneObject
  | .drag k pos, o => if k = key then (o.set? pos .position).getD o else o
  | .sliderSetValue k x, o => if k = key then (o.withSlider? (·.write x .value)).getD o else o
  | _, o => o

/-- `t` is `s` but for what the message reports: the keys that are down, the size of the screen, or
one number of one object, if it has that. -/
structure Scene.Records (s : Scene) (m : ViewerMessage) (t : Scene) : Prop where
  registry : t.registry = s.registry
  keysDown (key : String) : key ∈ t.input.keysDown ↔
    (m = .keydown key ∨ key ∈ s.input.keysDown) ∧ m ≠ .keyup key
  screenSize : t.input.screenSize = match m with
    | .screenResize size => size
    | _ => s.input.screenSize
  draggable : t.store.draggable = s.store.draggable
  object (key : String) : t.store.get? key = (s.store.get? key).map (m.moved key)

theorem Scene.records_record (s : Scene) (m : ViewerMessage) : s.Records m (s.record m) where
  registry := rfl
  keysDown key := by
    cases m with
    | keydown k => simp [record, Input.record]
    | keyup k =>
      simp only [record, Input.record, Std.ExtTreeSet.mem_erase, ne_eq, Std.compare_eq_iff_eq]
      simp [and_comm]
    | drag _ _ | screenResize _ | buttonClick _ | sliderSetValue _ _ => simp [record, Input.record]
  screenSize := by cases m <;> rfl
  draggable := by
    cases m with
    | drag key pos => exact Store.draggable_modify?_getD _ _ _
    | sliderSetValue key x => exact Store.draggable_modify?_getD _ _ _
    | keydown _ | keyup _ | screenResize _ | buttonClick _ => rfl
  object key := by
    cases m with
    | drag k _ | sliderSetValue k _ =>
      refine (Store.get?_modify?_getD _ _ _ key).trans ?_
      cases s.store.get? key <;> by_cases hk : k = key <;> simp [ViewerMessage.moved, hk]
    | keydown _ | keyup _ | screenResize _ | buttonClick _ =>
      exact Option.map_id'.symm

/-! ## Reports -/

namespace Inbound

/-- The message that a report brings, if its text denotes one. -/
def message? : Inbound → Option ViewerMessage
  | message _ text => (ViewerMessage.parse text).toOption
  | _ => none

/-- What is left to do about a report when its listeners have been called. -/
def sequel : Inbound → List Frame
  | shutdownSignal => [.requestShutdown]
  | _ => []

end Inbound

/-- Whether an event may come of a report itself, before any listener is called: that it is taken
up, what is noted, and a replay to the viewer that connects. -/
def Event.isReception (i : Inbound) : Event → Bool
  | called (.hear j) => j = i
  | announced _ | noted _ => true
  | sent _ c _ _ => i = .connect c
  | _ => false

theorem Event.isReception_of_isGreeting {c : Connection} {e : Event} (h : e.isGreeting c) :
    e.isReception (.connect c) := by
  cases e <;> simp_all [isGreeting, isReception]

namespace Server

variable {s : Server}

/-- The occasion that a report is, if it is one. A shutdown is one in a session in which the
shutdown listeners have not been called. -/
def occasion? (s : Server) : Inbound → Option Occasion
  | .connect _ => some .connection
  | .disconnect _ => none
  | .message c text => (Inbound.message c text).message?.map .message
  | .shutdownSignal => if s.lifecycle.claimShutdown?.isSome then some .shutdown else none

/-- The listeners that are registered for a report, with its occasion. -/
def audience (s : Server) (i : Inbound) : List (Listener × Occasion) :=
  (s.occasion? i).toList.flatMap fun o => (s.scene.registry.listeners o).map (·, o)

/-- What a report comes to before any listener is called. -/
structure Receives (s : Server) (i : Inbound) (t : Server) (frames : List Frame) : Prop where
  records : ∀ m ∈ i.message?, s.scene.Records m t.scene
  scene : i.message? = none → t.scene = s.scene
  outbox : t.outbox = s.outbox
  entered : Entered (Event.isReception i) s t
  frames : (frames = i.sequel ∧ s.audience i = []) ∨
    ∃ o ls, frames = .notify o 0 ls :: i.sequel ∧ s.audience i = ls.map (·, o)

/-- A message is recorded, and then its listeners are to be called. -/
theorem receives_dispatch (s : Server) {c : Connection} {text : String} {m : ViewerMessage}
    (h : ViewerMessage.parse text = .ok m) :
    Receives s (.message c text) (s.dispatch m).1 (s.dispatch m).2 := by
  have hm : (Inbound.message c text).message? = some m := by
    simp [Inbound.message?, h, Except.toOption]
  have haudience : s.audience (.message c text) =
      ((s.scene.record m).registry.listeners (.message m)).map (·, .message m) := by
    simp [audience, occasion?, hm, Scene.record]
  have hrecords (m' : ViewerMessage) (hm' : m' ∈ (Inbound.message c text).message?) :
      s.scene.Records m' (s.scene.record m) := by
    obtain rfl : m = m' := by simpa [hm] using hm'
    exact s.scene.records_record m
  have hnone : (Inbound.message c text).message? ≠ none := by simp [hm]
  unfold dispatch
  dsimp only
  split
  · next key hls =>
    exact ⟨hrecords, fun h => absurd h hnone, rfl, entered_emit _ rfl,
      Or.inl ⟨rfl, by rw [haudience, hls]; rfl⟩⟩
  · next key _ hls =>
    exact ⟨hrecords, fun h => absurd h hnone, rfl, entered_emit _ rfl,
      Or.inl ⟨rfl, by rw [haudience, hls]; rfl⟩⟩
  · exact ⟨hrecords, fun h => absurd h hnone, rfl, entered_emit _ rfl,
      Or.inr ⟨_, _, rfl, haudience⟩⟩

/-- A report that brings no message leaves the scene as it is. -/
theorem receives_of_scene {i : Inbound} {t : Server} {frames : List Frame} (hi : i.message? = none)
    (hscene : t.scene = s.scene) (houtbox : t.outbox = s.outbox)
    (hentered : Entered (Event.isReception i) s t)
    (hframes : (frames = i.sequel ∧ s.audience i = []) ∨
      ∃ o ls, frames = .notify o 0 ls :: i.sequel ∧ s.audience i = ls.map (·, o)) :
    Receives s i t frames :=
  ⟨by simp [hi], fun _ => hscene, houtbox, hentered, hframes⟩

theorem receives_hear (s : Server) (i : Inbound) : Receives s i (s.hear i).1 (s.hear i).2 := by
  cases i with
  | connect c =>
    obtain ⟨es, h⟩ := handed_greet s c
    have hgreeted : Entered (Event.isReception (.connect c)) s (s.greet c) :=
      (entered_greet s c).mono fun _ => Event.isReception_of_isGreeting
    refine receives_of_scene rfl h.scene h.outbox
      (hgreeted.trans (entered_emit _ (e := .announced .connection) rfl))
      (Or.inr ⟨.connection, (s.greet c).scene.registry.listeners .connection, rfl, ?_⟩)
    rw [h.scene]
    simp [audience, occasion?]
  | disconnect c => exact receives_of_scene rfl rfl rfl (entered_emit s rfl) (Or.inl ⟨rfl, rfl⟩)
  | message c text =>
    unfold hear
    dsimp only
    split
    · next m h => exact receives_dispatch s h
    · next e h =>
      have hm : (Inbound.message c text).message? = none := by
        simp [Inbound.message?, h, Except.toOption]
      exact receives_of_scene hm rfl rfl (entered_emit s rfl)
        (Or.inl ⟨rfl, by simp [audience, occasion?, hm]⟩)
  | shutdownSignal =>
    unfold hear
    dsimp only
    split
    · next l h =>
      exact receives_of_scene rfl rfl rfl (entered_emit _ rfl)
        (Or.inr ⟨.shutdown, _, rfl, by simp [audience, occasion?, h]⟩)
    · next h =>
      exact receives_of_scene rfl rfl rfl (.of_journal rfl)
        (Or.inl ⟨rfl, by simp [audience, occasion?, h]⟩)

/-- A report that does not reach the server is noted at most. -/
theorem receive_unheard {below : List Frame} (i : Inbound) (h : ¬s.Hears below) :
    ∃ (t : Server) (r : Reply), s.receive (!below.isEmpty) (.hear i) = (t, [.reply r]) ∧
      t = { s with journal := t.journal } := by
  simp only [receive]
  split
  · exact ⟨s, _, rfl, rfl⟩
  · next hopen =>
    have hheld : ¬(s.held || !below.isEmpty) = true := fun hheld =>
      h ⟨by simpa using hopen, by simpa using hheld⟩
    rw [if_neg hheld]
    cases i <;> exact ⟨_, _, rfl, rfl⟩

end Server

/-! ## Calling -/

namespace Machine

variable {m m₁ m' : Machine} {rest : List Frame} {called : List (Listener × Occasion)}
  {o : Occasion} {k : Nat} {ls : List Listener}

/-- Whatever goes on above `rest`, the frames that stand directly on it call these listeners, one
after the other, and no others: so far some first ones have been called, as the journal says, and
unless there is more to do above `rest`, all of them. -/
def CallsEach (m : Machine) (rest : List Frame) (ls : List (Listener × Occasion)) : Prop :=
  ∀ called m', m.Above rest called m' →
    called <+: ls ∧
    (∃ es, m'.server.journal.toList = m.server.journal.toList ++ es ∧
      (called.map fun p => Event.fired p.1 p.2).Sublist es) ∧
    (m'.stack = rest → called = ls) ∧
    (m'.stack ≠ rest → ∃ m'', m'.step? = some m'')

/-- A listener that is called is entered. -/
theorem journal_of_calls? {f : Frame} {below : List Frame} (hstack : m.stack = f :: below)
    (hstep : m.step? = some m₁) :
    ∃ es, m₁.server.journal.toList = m.server.journal.toList ++ es ∧
      (f.calls?.toList.map fun p => Event.fired p.1 p.2).Sublist es := by
  cases hcalls : f.calls? with
  | none =>
    obtain ⟨es, hes⟩ := Next.grows (.step hstep)
    exact ⟨es, hes, List.nil_sublist es⟩
  | some p =>
    obtain ⟨k, waiting, rfl⟩ : ∃ k waiting, f = .notify p.2 k (p.1 :: waiting) := by
      unfold Frame.calls? at hcalls
      split at hcalls
      · next o k l waiting =>
        cases hcalls
        exact ⟨k, waiting, rfl⟩
      · cases hcalls
    obtain rfl := Option.some.inj ((step?_of_stack hstack).symm.trans hstep)
    exact ⟨[.fired p.1 p.2], by simp [perform, Server.fire, Server.emit], .refl _⟩

theorem Above.fired (h : m.Above rest called m') :
    ∃ es, m'.server.journal.toList = m.server.journal.toList ++ es ∧
      (called.map fun p => Event.fired p.1 p.2).Sublist es := by
  induction h with
  | refl => exact ⟨[], by simp, List.nil_sublist _⟩
  | @head m m₁ m' f upper called hm hstep _ ih =>
    obtain ⟨ds, hds, hfirst⟩ := journal_of_calls? hm hstep
    obtain ⟨es, hes, hrest⟩ := ih
    refine ⟨ds ++ es, by rw [hes, hds, List.append_assoc], ?_⟩
    rw [List.map_append]
    refine List.Sublist.append ?_ hrest
    split
    · exact hfirst
    · exact List.nil_sublist ds

theorem Above.of_stack (h : m.Above rest called m') (hstack : m.stack = rest) :
    called = [] ∧ m'.stack = rest := by
  cases h with
  | refl => exact ⟨rfl, hstack⟩
  | head hm _ _ =>
    have hlength := congrArg List.length (hm.symm.trans hstack)
    simp only [List.length_cons, List.length_append] at hlength
    omega

/-- While a frame stands on `rest` that calls listeners, it calls those that wait, in order. -/
theorem Above.calls (h : m.Above rest called m') (upper : List Frame)
    (hstack : m.stack = upper ++ .notify o k ls :: rest) :
    called <+: ls.map (·, o) ∧ (m'.stack = rest → called = ls.map (·, o)) := by
  induction h generalizing upper k ls with
  | refl m =>
    refine ⟨List.nil_prefix, fun hend => ?_⟩
    have hlength := congrArg List.length (hstack.symm.trans hend)
    simp only [List.length_cons, List.length_append] at hlength
    omega
  | @head m m₁ m' f above called hm hstep h ih =>
    cases upper with
    | nil =>
      rw [List.nil_append] at hstack
      obtain ⟨rfl, habove⟩ := List.cons.inj (hm.symm.trans hstack)
      obtain rfl : above = [] := List.append_left_eq_self.mp habove
      obtain rfl := Option.some.inj ((step?_of_stack hstack).symm.trans hstep)
      cases ls with
      | nil =>
        obtain ⟨rfl, -⟩ := h.of_stack rfl
        exact ⟨List.nil_prefix, fun _ => rfl⟩
      | cons l ls =>
        obtain ⟨hpre, hend⟩ := ih [.script (l.script o _), .heard o k (l.fails o _)] rfl
        exact ⟨List.prefix_cons_inj _ |>.mpr hpre, fun h => congrArg _ (hend h)⟩
    | cons g upper =>
      -- what is done above the frame does not count
      rw [List.cons_append] at hstack
      obtain ⟨rfl, habove⟩ := List.cons.inj (hm.symm.trans hstack)
      have hne : above.isEmpty = false := by
        cases above with
        | nil =>
          have hlength := congrArg List.length habove
          simp only [List.nil_append, List.length_cons, List.length_append] at hlength
          omega
        | cons _ _ => rfl
      obtain ⟨upper', hm₁⟩ := stack_of_step? hstack hstep
      rw [hne]
      exact ih _ hm₁

theorem callsEach_of_stack (hstack : m.stack = rest) : m.CallsEach rest [] := by
  intro called m' h
  have hfired := h.fired
  obtain ⟨rfl, hend⟩ := h.of_stack hstack
  exact ⟨List.nil_prefix, hfired, fun _ => rfl, fun hne => absurd hend hne⟩

/-- The listeners on the list of a frame are called once each and in order, and no others,
whatever they do. -/
theorem callsEach_notify (hstack : m.stack = .notify o 0 ls :: rest) :
    m.CallsEach rest (ls.map (·, o)) := by
  intro called m' h
  obtain ⟨hpre, hend⟩ := h.calls [] hstack
  refine ⟨hpre, h.fired, hend, fun hne => ?_⟩
  obtain ⟨upper, hupper⟩ := h.stack (show m.stack = [.notify o 0 ls] ++ rest from hstack)
  cases upper with
  | nil => exact absurd hupper hne
  | cons f upper => exact ⟨_, step?_of_stack hupper⟩

variable {i : Inbound} {calls : List Call} {below : List Frame}

theorem step?_unheard (hstack : m.stack = .script (.hear i :: calls) :: below)
    (hhears : ¬m.server.Hears below) :
    ∃ m₁ r, m.step? = some m₁ ∧ m₁.server = { m.server with journal := m₁.server.journal } ∧
      m₁.stack = .reply r :: .script calls :: below := by
  obtain ⟨t, r, hreceive, ht⟩ := Server.receive_unheard i hhears
  refine ⟨⟨t, .reply r :: .script calls :: below⟩, r, ?_, ht, rfl⟩
  rw [step?_of_stack hstack]
  simp [perform, hreceive]

/-- When a session is stopped, the shutdown listeners are called in the same way, unless they have
been called in it before. -/
theorem Stops.callsEach {link : Link} (h : m.Stops rest)
    (hlink : m.server.lifecycle.link = some link) :
    ∃ m₁ r, m.step? = some m₁ ∧ m₁.server.scene = m.server.scene ∧
      m₁.server.outbox = m.server.outbox ∧
      m₁.CallsEach (.close link :: .reply r :: rest) (if m.server.lifecycle.shutdownFired then []
        else (m.server.scene.registry.listeners .shutdown).map (·, .shutdown)) := by
  obtain ⟨m₁, r, hstep, hstack, hscene, houtbox⟩ := h.step? hlink
  refine ⟨m₁, r, hstep, hscene, houtbox, ?_⟩
  unfold Server.farewell at hstack
  split at hstack
  · next hfired =>
    rw [if_pos hfired]
    exact callsEach_of_stack hstack
  · next hfired =>
    rw [if_neg hfired]
    exact callsEach_notify hstack

end Machine

/-- Whatever a transport reports, and whatever is registered: in the first step the report is
recorded, and nothing else changes of the scene, the listeners, the input and what waits, nor is
anything sent but a replay to a viewer that connects. After that, the listeners that were registered
for the report are called once each and in order, with what was reported, and no others, whatever
any of them does and whether it fails. A text that denotes no message is noted, and that is all; and
a report that does not reach the server is noted at most. -/
theorem report_calls_listeners {m : Machine} {i : Inbound} {calls : List Call} {below : List Frame}
    (hstack : m.stack = .script (.hear i :: calls) :: below) :
    (m.server.Hears below → ∃ m₁ es, m.step? = some m₁ ∧
      m₁.server.journal.toList = m.server.journal.toList ++ es ∧ (∀ e ∈ es, e.isReception i) ∧
      (∀ msg ∈ i.message?, m.server.scene.Records msg m₁.server.scene) ∧
      (i.message? = none → m₁.server.scene = m.server.scene) ∧
      m₁.server.outbox = m.server.outbox ∧
      m₁.CallsEach (i.sequel ++ .reply .nothing :: .script calls :: below)
        (m.server.audience i) ∧
      (∀ c text e, i = .message c text → ViewerMessage.parse text = .error e →
        m₁ = ⟨(m.server.emit (.called (.hear i))).note (.messageDropped c e),
          .reply .nothing :: .script calls :: below⟩)) ∧
    (¬m.server.Hears below → ∃ m₁ r, m.step? = some m₁ ∧
      m₁.server = { m.server with journal := m₁.server.journal } ∧
      m₁.stack = .reply r :: .script calls :: below) := by
  refine ⟨fun hhears => ?_, Machine.step?_unheard hstack⟩
  have h := Server.receives_hear (m.server.emit (.called (.hear i))) i
  have hcalled : Server.Entered (Event.isReception i) m.server
      (m.server.emit (.called (.hear i))) :=
    Server.entered_emit m.server (by simp [Event.isReception])
  obtain ⟨es, hes, hall⟩ := hcalled.trans h.entered
  refine ⟨_, es, Machine.step?_hear hstack hhears, hes, hall, h.records, h.scene, h.outbox, ?_, ?_⟩
  · rcases h.frames with ⟨hframes, haudience⟩ | ⟨o, ls, hframes, haudience⟩
    · have haudience' : m.server.audience i = [] := haudience
      rw [haudience', hframes]
      exact Machine.callsEach_of_stack rfl
    · have haudience' : m.server.audience i = ls.map (·, o) := haudience
      rw [haudience', hframes]
      exact Machine.callsEach_notify rfl
  · rintro c text e rfl he
    simp [Server.hear, he]

/-- A listener that registers another one, gives the same signal again, removes everything, stops
the server, and fails after that. -/
def Listener.meddler : Listener :=
  .steady (.str "meddler") [.on .shutdown (.steady (.str "late") [] false), .hear .shutdownSignal,
    .change .clear, .stop] true

/-- A listener that does nothing. -/
def Listener.patient : Listener := .steady (.str "patient") [] false

namespace Machine

/-- A signal comes, to which both of them listen. -/
def interrupted : Machine :=
  let meddled := run (ofCall serving.server (.on .shutdown .meddler)) 3
  ofCall (run (ofCall meddled.server (.on .shutdown .patient)) 3).server (.hear .shutdownSignal)

end Machine

/-- Both are called, and no more. -/
theorem report_calls_listeners_interrupted :
    ∃ m₁, Machine.interrupted.step? = some m₁ ∧
      m₁.Returns [.requestShutdown, .reply .nothing, .script []] (m₁.run 19) ∧
      m₁.CallsEach [.requestShutdown, .reply .nothing, .script []]
        [(.meddler, .shutdown), (.patient, .shutdown)] := by
  obtain ⟨m₁, es, hstep, -, -, -, -, -, hcalls, -⟩ :=
    (report_calls_listeners (m := Machine.interrupted) rfl).1 ⟨rfl, Or.inl rfl⟩
  have hfirst : Machine.interrupted.step? = some (Machine.interrupted.run 1) := rfl
  obtain rfl := Option.some.inj (hstep.symm.trans hfirst)
  exact ⟨_, hstep, Machine.returns_run [_] rfl (by decide) rfl, hcalls⟩

end LiveScene
