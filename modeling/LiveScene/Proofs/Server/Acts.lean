import LiveScene.Proofs.Server.Told
import LiveScene.Server.Machine
import Mathlib.Logic.Relation

/-!
# What a step does to a server

A step of a machine does to its server a few of the things listed as `Server.Act`
(`Machine.acts_of_step?`). So whatever these keep, calls keep as well (`Machine.acts_of_next`), and
it is true of every machine that calls can bring about (`Machine.Reachable`). Some acts are done in
one phase of the cycle only, for the sake of a frame on the stack that goes with the phase:
`Frame.duty` is the phase that a frame is there to end, and the duties on the stack of a machine are
always those of the phase of its server (`Machine.Reachable.onDuty`).

Acts alone do not tell which of them go together. `Server.Course` is what matters to the sessions of
a server, and `Turned` lists what a frame without a duty can make of it and which frames it pushes
to go on with it (`Machine.moves_perform`).

With this, `Server.Sound` holds of every reachable server (`Machine.Reachable.sound`): there is a
link exactly while it serves, everything stands under its own key, and with autoflush on nothing
waits.
-/

namespace LiveScene

open Relation (ReflTransGen)

/-- Whether an event goes along with no change of the server. -/
def Event.isRemark : Event → Bool
  | .called (.change _) | .called (.on _ _) | .called (.hear (.connect _)) => false
  | .called c => (Event.called c).report?.isNone
  | .announced _ | .returned _ | .noted _ => true
  | _ => false

/-- Only a call takes up a message of a viewer. -/
theorem Event.eq_called_of_report? {e : Event} {c : Connection} {m : ViewerMessage}
    (h : e.report? = some (c, m)) :
    ∃ text, e = .called (.hear (.message c text)) ∧ ViewerMessage.parse text = .ok m := by
  unfold Event.report? at h
  split at h
  · next c' text =>
    cases hm : ViewerMessage.parse text with
    | ok m' =>
      rw [hm] at h
      cases h
      exact ⟨text, rfl, hm⟩
    | error e =>
      rw [hm] at h
      cases h
  · cases h

/-- No message of a viewer is taken up by a remark. -/
theorem Event.report?_of_isRemark {e : Event} (h : e.isRemark) : e.report? = none := by
  cases hr : e.report? with
  | none => rfl
  | some p =>
    obtain ⟨text, rfl, -⟩ := eq_called_of_report? hr
    simp [isRemark, hr] at h

/-- A call that is no remark is a change, registers a listener, or takes up that a viewer connects
or a message of one. -/
theorem Event.isRemark_called (c : Call) :
    (called c).isRemark ∨ (∃ d, c = .change d) ∨ (∃ signal l, c = .on signal l) ∨
      (∃ k, c = .hear (.connect k)) ∨
      ∃ k text m, c = .hear (.message k text) ∧ ViewerMessage.parse text = .ok m := by
  cases c with
  | change d => exact Or.inr (Or.inl ⟨d, rfl⟩)
  | hear i =>
    cases i with
    | connect k => exact Or.inr (Or.inr (Or.inr (Or.inl ⟨k, rfl⟩)))
    | message k text =>
      cases hm : ViewerMessage.parse text with
      | ok m => exact Or.inr (Or.inr (Or.inr (Or.inr ⟨k, text, m, rfl, hm⟩)))
      | error e => exact Or.inl (by simp [isRemark, report?, hm, Except.toOption])
    | disconnect _ | shutdownSignal => exact Or.inl rfl
  | on signal l => exact Or.inr (Or.inr (Or.inl ⟨signal, l, rfl⟩))
  | ask _ | setAutoflush _ | flush | serve _ _ | stop | block _ | drop => exact Or.inl rfl

namespace Server

/-- What is done to a server in a single step of a machine, or in a part of one. -/
inductive Act (s : Server) : Server → Prop
  | remark (e : Event) (h : e.isRemark) : Act s (s.emit e)
  | fire (l : Listener) (o : Occasion) : Act s (s.fire l o)
  | change (c : Change Listener) : Act s ((s.emit (.called (.change c))).change c).2
  | register (signal : Signal) (l : Listener) :
    Act s { s.emit (.called (.on signal l)) with
      scene.registry := s.scene.registry.add signal l }
  | report (c : Connection) (m : ViewerMessage) (e : Event) (h : e.report? = some (c, m)) :
    Act s { s.emit e with scene := s.scene.record m }
  | flush : Act s s.flush
  | setAutoflush (on : Bool) : Act s (s.setAutoflush on)
  | connect (c : Connection) : Act s ((s.emit (.called (.hear (.connect c)))).greet c)
  | listen (port : UInt16) (h : s.lifecycle.phase = .idle) : Act s (s.emit (.listening port))
  | start (h : s.lifecycle.phase = .idle) :
    Act s { s with lifecycle := s.lifecycle.start, inboundOpen := true }
  | accept (port : UInt16) (t : Transport) (address : Option SocketAddress)
    (h : s.lifecycle.phase = .starting) : Act s (s.accept port t address)
  | refuse (opened : Bool) (h : s.lifecycle.phase = .starting) : Act s (s.refuse opened)
  | claim {l : Lifecycle} (h : s.lifecycle.claimShutdown? = some l) :
    Act s { s with lifecycle := l }
  | request {l : Lifecycle} (h : s.lifecycle.requestShutdown? = some l) :
    Act s { s with lifecycle := l }
  | wake : Act s { s with lifecycle := s.lifecycle.wake.2 }
  | detach {link : Link} {l : Lifecycle} (h : s.lifecycle.detach? = some (link, l)) :
    Act s { s with lifecycle := l }
  | close (session : Nat) (h : s.lifecycle.phase = .stopping) : Act s (s.emit (.closed session))
  | finish (session : Nat) (h : s.lifecycle.phase = .stopping) : Act s (s.finish session)
  | giveUp : Act s { s with held := false }

end Server

/-! ## Duties -/

/-- The phases that a frame is there to end. -/
def Frame.duty : Frame → List Phase
  | .listened _ _ _ | .refused _ => [.starting]
  | .close _ | .closed _ => [.stopping]
  | _ => []

/-- Whether a frame has a duty. -/
def Frame.isDuty (f : Frame) : Bool := !f.duty.isEmpty

theorem Frame.flatMap_duty_filter (frames : List Frame) :
    (frames.filter isDuty).flatMap duty = frames.flatMap duty := by
  induction frames with
  | nil => rfl
  | cons f frames ih =>
    cases hf : f.duty <;> simp [isDuty, hf, ih]

/-- The phases that some frame has to end: the phase itself, if it is on the way to another. -/
def Phase.duty : Phase → List Phase
  | .starting => [.starting]
  | .stopping => [.stopping]
  | _ => []

theorem Phase.eq_starting_of_duty {p : Phase} {ps : List Phase} (h : .starting :: ps = p.duty) :
    p = .starting ∧ ps = [] := by
  cases p <;> simp_all [Phase.duty]

theorem Phase.eq_stopping_of_duty {p : Phase} {ps : List Phase} (h : .stopping :: ps = p.duty) :
    p = .stopping ∧ ps = [] := by
  cases p <;> simp_all [Phase.duty]

namespace Lifecycle

/-! ## The cycle -/

/-- Refusing takes back what starting did. -/
theorem refuse_start {l : Lifecycle} (h : l.phase = .idle) : l.start.refuse = l := by
  simp [start, refuse, ← h]

/-- What claims, requests and waits leave alone. -/
def cycle (l : Lifecycle) : Phase × Option Link × Nat :=
  (l.phase, l.link, l.sessions)

theorem serving_of_claimShutdown? {l l' : Lifecycle} (h : l.claimShutdown? = some l') :
    l.phase = .serving ∧ l.shutdownFired = false ∧ l' = { l with shutdownFired := true } := by
  unfold claimShutdown? at h
  split at h
  · next hl =>
    cases h
    exact ⟨hl.1, hl.2, rfl⟩
  · cases h

theorem cycle_of_claimShutdown? {l l' : Lifecycle} (h : l.claimShutdown? = some l') :
    l'.cycle = l.cycle := by
  obtain ⟨-, -, rfl⟩ := serving_of_claimShutdown? h
  rfl

theorem cycle_of_requestShutdown? {l l' : Lifecycle} (h : l.requestShutdown? = some l') :
    l'.cycle = l.cycle := by
  unfold requestShutdown? at h
  split at h <;> cases h
  rfl

theorem cycle_wake (l : Lifecycle) : l.wake.2.cycle = l.cycle := by
  unfold wake
  split
  · rfl
  · rfl
  · rfl
  · split <;> rfl

theorem serving_of_detach? {l : Lifecycle} {link : Link} {l' : Lifecycle}
    (h : l.detach? = some (link, l')) :
    l.phase = .serving ∧ l.link = some link ∧ l' = { l with phase := .stopping, link := none } := by
  unfold detach? at h
  split at h
  · next hphase =>
    obtain ⟨k, hk, he⟩ := Option.map_eq_some_iff.mp h
    cases he
    exact ⟨hphase, hk, rfl⟩
  · cases h

end Lifecycle

/-! ## The course of sessions -/

/-- Where a server is with its sessions, and by which turns it has come there. -/
structure Course where
  phase : Phase
  /-- the number of the session and its transport -/
  handle : Option (Nat × Transport)
  shutdownFired : Bool
  /-- how many sessions have begun -/
  sessions : Nat
  turns : List Turn

/-- The course of a server with these turns. -/
def Lifecycle.course (l : Lifecycle) (turns : List Turn) : Course where
  phase := l.phase
  handle := l.link.map fun link => (link.session, link.transport)
  shutdownFired := l.shutdownFired
  sessions := l.sessions
  turns

/-- Where a server is with its sessions. -/
def Server.course (s : Server) : Course := s.lifecycle.course (turnsIn s.journal.toList)

namespace Lifecycle

variable {l l' : Lifecycle} {ts : List Turn}

@[simp] theorem course_bare : l.bare.course ts = l.course ts := by
  simp [course, bare, Function.comp_def]

theorem course_of_requestShutdown? (h : l.requestShutdown? = some l') :
    l'.course ts = l.course ts := by
  unfold requestShutdown? at h
  split at h <;> cases h
  rfl

theorem course_wake : l.wake.2.course ts = l.course ts := by
  unfold wake
  split
  · rfl
  · rfl
  · rfl
  · split <;> rfl

end Lifecycle

/-- What becomes of a course, and the frames with duties that are pushed for that: nothing changes,
a transport is asked and is to begin a session or to refuse, or the shutdown listeners start to be
called because of a signal or, if they have not been before, because the session is to end. -/
inductive Turned (k : Course) : Course → List Frame → Prop
  | calm : Turned k k []
  | start (port : UInt16) {f : Frame} (hf : f.duty = [.starting]) (h : k.phase = .idle) :
    Turned k { k with phase := .starting, turns := k.turns ++ [.asked port] } [f]
  | fire (h : k.phase = .serving) (hfired : k.shutdownFired = false) :
    Turned k { k with shutdownFired := true, turns := k.turns ++ [.fired] } []
  | stop (link : Link) (h : k.phase = .serving)
    (hlink : k.handle = some (link.session, link.transport)) :
    Turned k { k with
      phase := .stopping
      handle := none
      turns := k.turns ++ if k.shutdownFired then [] else [.fired] } [.close link]

namespace Server

/-- What `s` comes to, and the frames that are pushed: some acts have been done, and they and the
frames that have duties are a turn of the course. -/
structure Moves (s : Server) (p : Server × List Frame) : Prop where
  acts : ReflTransGen Act s p.1
  turned : Turned s.course p.1.course (p.2.filter Frame.isDuty)

variable {s t u : Server} {frames : List Frame}

theorem phase_of_surroundings (h : t.surroundings = s.surroundings) :
    t.lifecycle.phase = s.lifecycle.phase :=
  Lifecycle.phase_of_bare (lifecycle_of_surroundings h)

theorem course_of_surroundings (h : t.surroundings = s.surroundings) : t.course = s.course := by
  rw [course, ← Lifecycle.course_bare, lifecycle_of_surroundings h, Lifecycle.course_bare,
    turns_of_surroundings h, course]

theorem course_emit (s : Server) {e : Event} (he : e.turn? = none) : (s.emit e).course = s.course :=
  course_of_surroundings (surroundings_emit s he)

/-- The frames that are pushed have the duties of phases that have been entered. -/
theorem Moves.duty {p : Server × List Frame} (h : Moves s p) :
    p.2.flatMap Frame.duty ++ s.lifecycle.phase.duty = p.1.lifecycle.phase.duty := by
  have key {k k' : Course} {frames : List Frame} (h : Turned k k' frames) :
      frames.flatMap Frame.duty ++ k.phase.duty = k'.phase.duty := by
    cases h with
    | start port hf h => simp [hf, h, Phase.duty]
    | calm | fire _ _ | stop _ _ _ => simp [Frame.duty, Phase.duty, *]
  rw [← Frame.flatMap_duty_filter]
  exact key h.turned

/-- An act that leaves the course alone, and frames without duties. -/
theorem Act.moves (h : Act s t) (hcourse : t.course = s.course)
    (hframes : frames.filter Frame.isDuty = []) : Moves s (t, frames) :=
  ⟨.single h, by rw [hframes, hcourse]; exact .calm⟩

theorem moves_refl (s : Server) (hframes : frames.filter Frame.isDuty = []) :
    Moves s (s, frames) :=
  ⟨.refl, by rw [hframes]; exact .calm⟩

/-- An act that leaves the course alone goes before. -/
theorem Moves.head {p : Server × List Frame} (h : Act s t) (hcourse : t.course = s.course)
    (hp : Moves t p) : Moves s p :=
  ⟨.head h hp.acts, by rw [← hcourse]; exact hp.turned⟩

/-- Frames without duties may be added. -/
theorem Moves.append {more : List Frame} (h : Moves s (t, frames))
    (hmore : more.filter Frame.isDuty = []) : Moves s (t, frames ++ more) :=
  ⟨h.acts, by rw [List.filter_append, hmore, List.append_nil]; exact h.turned⟩

theorem act_note (s : Server) (n : Notice) : Act s (s.note n) := .remark (.noted n) rfl

theorem course_note (s : Server) (n : Notice) : (s.note n).course = s.course := course_emit s rfl

theorem moves_note (s : Server) (n : Notice) (hframes : frames.filter Frame.isDuty = []) :
    Moves s (s.note n, frames) :=
  (act_note s n).moves (course_note s n) hframes

theorem acts_noteAll (s : Server) (ns : List Notice) : ReflTransGen Act s (s.noteAll ns) := by
  induction ns generalizing s with
  | nil => exact .refl
  | cons n ns ih => exact .head (act_note s n) (ih _)

theorem noteAll_eq (s : Server) (ns : List Notice) :
    s.noteAll ns = { s with journal := s.journal ++ (ns.map Event.noted).toArray } := by
  induction ns generalizing s with
  | nil => simp [noteAll]
  | cons n ns ih =>
    refine (ih (s.note n)).trans ?_
    simp [note, emit]

theorem moves_announce (s : Server) {o : Occasion} (ho : (Event.announced o).turn? = none) :
    Moves s (s.announce o) :=
  Act.moves (.remark (.announced o) rfl) (course_emit s ho) rfl

/-! ## The cycle -/

/-- Whatever the transport answers, one frame has the duty to end the phase. -/
theorem duty_afterListen (s : Server) (port : UInt16) (t : Transport) :
    ∃ f, (s.afterListen port t).filter Frame.isDuty = [f] ∧ f.duty = [.starting] := by
  unfold afterListen
  split <;> exact ⟨_, rfl, rfl⟩

theorem moves_serve (s : Server) (port : UInt16) (t : Transport) : Moves s (s.serve port t) := by
  cases hphase : s.lifecycle.phase with
  | idle =>
    have hl : ReflTransGen Act s ((s.emit (.listening port)).noteAll (t.listenNotices port)) :=
      .head (.listen port hphase) (acts_noteAll _ _)
    have hidle : ((s.emit (.listening port)).noteAll (t.listenNotices port)).lifecycle.phase =
        .idle := by
      rw [noteAll_eq]
      exact hphase
    have h := hl.tail (.start hidle)
    simp only [serve, hphase]
    rw [noteAll_eq] at h ⊢
    refine ⟨h, ?_⟩
    obtain ⟨f, hduty, hf⟩ := s.duty_afterListen port t
    have hduties : (.script t.duringListen :: s.afterListen port t).filter Frame.isDuty = [f] :=
      hduty
    have hturned := Turned.start (k := s.course) port hf hphase
    rw [hduties]
    simpa [course, Lifecycle.course, Lifecycle.start, emit, Event.turn?] using hturned
  | starting | serving | stopping =>
    simp only [serve, hphase]
    exact moves_note s _ rfl

theorem moves_stop (s : Server) : Moves s s.stop := by
  unfold stop
  split
  · next link lifecycle h =>
    obtain ⟨hphase, hlink, rfl⟩ := Lifecycle.serving_of_detach? h
    have hd := ReflTransGen.tail (.single (.detach h)) (act_note _ .stopping)
    have hturned :=
      Turned.stop (k := s.course) link hphase (by simp [course, Lifecycle.course, hlink])
    dsimp only
    split
    · next hfired =>
      refine ⟨hd, ?_⟩
      simpa [course, Lifecycle.course, hfired, note, emit, Event.turn?, Frame.isDuty,
        Frame.duty] using hturned
    · next hfired =>
      refine ⟨hd.tail (.remark (.announced .shutdown) rfl), ?_⟩
      simpa [course, Lifecycle.course, hfired, announce, note, emit, Event.turn?,
        Frame.isDuty, Frame.duty] using hturned
  · exact moves_note s _ rfl

theorem moves_requestShutdown (s : Server) : Moves s (s.requestShutdown, []) := by
  unfold requestShutdown
  split
  · next l h =>
    exact Act.moves (.request h) (Lifecycle.course_of_requestShutdown? h) rfl
  · exact moves_note s _ rfl

theorem moves_wait (s : Server) (checks : List Check) (made : Nat) :
    Moves s (s.wait checks made) := by
  refine Moves.head .wake Lifecycle.course_wake ?_
  unfold wait
  dsimp only
  split
  · exact moves_refl _ rfl
  · exact Moves.append (Moves.head (act_note _ .shutdownReceived) (course_note _ _) (moves_stop _))
      rfl
  · split <;> exact moves_refl _ rfl

/-- What waits is dropped when a session has ended. -/
theorem finish_eq (s : Server) (session : Nat) :
    ∃ es, s.finish session = { s with
        outbox.pending := []
        lifecycle := s.lifecycle.finish
        journal := s.journal ++ es.toArray } ∧ queuedIn es = [] ∧ broadcastIn es = [] := by
  by_cases h : s.outbox.pending.isEmpty
  · refine ⟨[.discarded s.outbox.pending, .ended session, .noted .stopped], ?_, rfl, rfl⟩
    simp [finish, discard, Outbox.discard, h, emit, note, ← Array.toList_inj]
  · refine ⟨[.discarded s.outbox.pending, .noted (.discarded s.outbox.pending.length),
      .ended session, .noted .stopped], ?_, rfl, rfl⟩
    simp [finish, discard, Outbox.discard, h, emit, note, ← Array.toList_inj]

/-! ## Reports and calls -/

/-- A message of a viewer is taken up. -/
theorem moves_dispatch (s : Server) {c : Connection} {text : String} {m : ViewerMessage}
    (h : ViewerMessage.parse text = .ok m) :
    Moves s ((s.emit (.called (.hear (.message c text)))).dispatch m) := by
  refine Moves.head (.report c m (.called (.hear (.message c text))) ?_)
    (course_emit s rfl) ?_
  · rw [Event.report?, h]
    rfl
  unfold dispatch
  dsimp only
  split
  · exact moves_note _ _ rfl
  · exact moves_note _ _ rfl
  · exact moves_announce _ rfl

theorem surroundings_greet (s : Server) (c : Connection) :
    (s.greet c).surroundings = s.surroundings := by
  obtain ⟨es, h⟩ := handed_greet s c
  exact h.surroundings

/-- A viewer connects. -/
theorem moves_connect (s : Server) (c : Connection) :
    Moves s ((s.emit (.called (.hear (.connect c)))).hear (.connect c)) := by
  have hcourse := course_of_surroundings
    (surroundings_greet (s.emit (.called (.hear (.connect c)))) c)
  exact Moves.head (.connect c) (hcourse.trans (course_emit s rfl)) (moves_announce _ rfl)

/-- Whatever else a transport reports. -/
theorem moves_hear (s : Server) (i : Inbound) (hi : (Event.called (.hear i)).isRemark) :
    Moves s (s.hear i) := by
  cases i with
  | connect c => cases hi
  | disconnect c => exact moves_note s _ rfl
  | message c text =>
    unfold hear
    dsimp only
    split
    · next m h => simp [Event.isRemark, Event.report?, h, Except.toOption] at hi
    · exact moves_note s _ rfl
  | shutdownSignal =>
    unfold hear
    dsimp only
    split
    · next l h =>
      obtain ⟨hphase, hfired, rfl⟩ := Lifecycle.serving_of_claimShutdown? h
      have hturned := Turned.fire (k := s.course) hphase hfired
      refine ⟨.tail (.single (.claim h)) (.remark (.announced .shutdown) rfl), ?_⟩
      simpa [course, Lifecycle.course, announce, emit, Event.turn?, Frame.isDuty,
        Frame.duty] using hturned
    · exact moves_refl s rfl

theorem moves_make (s : Server) (c : Call) (hc : (Event.called c).isRemark) :
    Moves s (s.make c) := by
  cases c with
  | change c => cases hc
  | on signal l => cases hc
  | ask q => exact moves_refl s rfl
  | setAutoflush on =>
    exact Act.moves (.setAutoflush on) (course_of_surroundings (surroundings_setAutoflush s on)) rfl
  | flush =>
    exact Act.moves .flush (course_of_surroundings (surroundings_flush s)) rfl
  | serve port t => exact moves_serve s port t
  | stop => exact Moves.append (moves_stop s) rfl
  | block checks => exact moves_refl s rfl
  | drop => exact Act.moves .giveUp rfl rfl
  | hear i => exact Moves.append (moves_hear s i hc) rfl

theorem moves_call (s : Server) (c : Call) : Moves s (s.call c) := by
  rcases Event.isRemark_called c with
    hc | ⟨ch, rfl⟩ | ⟨signal, l, rfl⟩ | ⟨k, rfl⟩ | ⟨k, text, m, rfl, hm⟩
  · exact Moves.head (.remark (.called c) hc) (course_emit s rfl) (moves_make _ c hc)
  · have hcourse := course_of_surroundings (surroundings_change (s.emit (.called (.change ch))) ch)
    exact Act.moves (.change ch) (hcourse.trans (course_emit s rfl)) rfl
  · exact Act.moves (.register signal l) (course_emit s rfl) rfl
  · exact Moves.append (moves_connect s k) rfl
  · simp only [call, make, hear, hm]
    exact Moves.append (moves_dispatch s hm) rfl

theorem moves_receive (s : Server) (nested : Bool) (c : Call) : Moves s (s.receive nested c) := by
  cases c with
  | hear i =>
    simp only [receive]
    split
    · exact moves_refl s rfl
    · split
      · exact moves_call s _
      · cases i <;> exact moves_note s _ rfl
  | drop =>
    simp only [receive]
    split
    · exact moves_call s _
    · exact moves_refl s rfl
  | change _ | on _ _ | ask _ | setAutoflush _ | flush | serve _ _ | stop | block _ =>
    simp only [receive]
    split
    · exact moves_call s _
    · exact moves_refl s rfl

/-- Whether a report reaches the server, with these frames waiting: some transport has listened that
could report anything, and the server is held, by the application or by a call that is under way. -/
structure Hears (s : Server) (below : List Frame) : Prop where
  opened : s.inboundOpen = true
  held : s.held = true ∨ below ≠ []

end Server

namespace Machine

open Server (Act Moves)

/-- Taking up a frame without a duty. -/
theorem moves_perform (s : Server) (below : List Frame) {f : Frame} (hf : f.isDuty = false) :
    Moves s (perform s below f) := by
  cases f with
  | script calls =>
    cases calls with
    | nil => exact Server.moves_refl s rfl
    | cons c calls => exact Moves.append (Server.moves_receive s _ c) rfl
  | notify o called waiting =>
    cases waiting with
    | nil => exact Server.moves_refl s rfl
    | cons l waiting => exact Act.moves (.fire l o) (Server.course_emit _ rfl) rfl
  | heard o index fails =>
    simp only [perform]
    split
    · exact Server.moves_note s _ rfl
    · exact Server.moves_refl s rfl
  | listened port t address => cases hf
  | refused opened => cases hf
  | close link => cases hf
  | closed session => cases hf
  | requestShutdown => exact Server.moves_requestShutdown s
  | wait checks made => exact Server.moves_wait s checks made
  | checked failure checks made => cases failure <;> exact Server.moves_refl s rfl
  | reply r => exact Act.moves (.remark (.returned r) rfl) (Server.course_emit s rfl) rfl

/-- Taking up a frame does some acts. If the duties of the stack were those of the phase before,
they are so after it. -/
theorem acts_perform {s : Server} {below : List Frame} {f : Frame}
    (h : f.duty ++ below.flatMap Frame.duty = s.lifecycle.phase.duty) :
    ReflTransGen Act s (perform s below f).1 ∧
      (perform s below f).2.flatMap Frame.duty ++ below.flatMap Frame.duty =
        (perform s below f).1.lifecycle.phase.duty := by
  cases hf : f.isDuty with
  | false =>
    have hm := moves_perform s below hf
    have hduty : f.duty = [] := by simpa [Frame.isDuty] using hf
    rw [hduty, List.nil_append] at h
    exact ⟨hm.acts, by rw [h, hm.duty]⟩
  | true =>
    cases f with
    | listened port t address =>
      obtain ⟨hphase, hbelow⟩ := Phase.eq_starting_of_duty h
      exact ⟨.single (.accept port t address hphase), hbelow⟩
    | refused opened =>
      obtain ⟨hphase, hbelow⟩ := Phase.eq_starting_of_duty h
      exact ⟨.single (.refuse opened hphase), hbelow⟩
    | close link =>
      obtain ⟨hphase, hbelow⟩ := Phase.eq_stopping_of_duty h
      have hc := (ReflTransGen.single (Act.close link.session hphase)).trans
        (Server.acts_noteAll _ link.transport.closeNotices)
      simp only [perform, Server.close]
      refine ⟨hc, ?_⟩
      rw [Server.noteAll_eq]
      exact h
    | closed session =>
      obtain ⟨hphase, hbelow⟩ := Phase.eq_stopping_of_duty h
      exact ⟨.single (.finish session hphase), hbelow⟩
    | script _ | notify _ _ _ | heard _ _ _ | requestShutdown | wait _ _ | checked _ _ _
    | reply _ => cases hf

/-- The stack has the duties of the phase. -/
def OnDuty (m : Machine) : Prop := m.stack.flatMap Frame.duty = m.server.lifecycle.phase.duty

theorem acts_of_step? {m m' : Machine} (hd : m.OnDuty) (h : m.step? = some m') :
    ReflTransGen Act m.server m'.server ∧ m'.OnDuty := by
  obtain ⟨s, stack⟩ := m
  cases stack with
  | nil => cases h
  | cons f below =>
    have hd' : f.duty ++ below.flatMap Frame.duty = s.lifecycle.phase.duty := by
      simpa [OnDuty] using hd
    obtain ⟨hacts, hduty⟩ := acts_perform hd'
    cases h
    refine ⟨hacts, ?_⟩
    rw [OnDuty, List.flatMap_append]
    exact hduty

/-- As long as a frame is left, there is a step. -/
theorem step?_of_stack {m : Machine} {f : Frame} {below : List Frame}
    (hstack : m.stack = f :: below) :
    m.step? =
      some ⟨(perform m.server below f).1, (perform m.server below f).2 ++ below⟩ := by
  simp only [step?, hstack]

/-- A report that reaches the server is taken up. -/
theorem step?_hear {m : Machine} {i : Inbound} {calls : List Call} {below : List Frame}
    (hstack : m.stack = .script (.hear i :: calls) :: below) (hhears : m.server.Hears below) :
    m.step? = some ⟨((m.server.emit (.called (.hear i))).hear i).1,
      ((m.server.emit (.called (.hear i))).hear i).2 ++
        .reply .nothing :: .script calls :: below⟩ := by
  have hheld : (m.server.held || !below.isEmpty) = true := by simpa using hhears.held
  rw [step?_of_stack hstack]
  simp [perform, Server.receive, hhears.opened, hheld, Server.call, Server.make]

/-- A viewer connects: it is greeted, and then the listeners to connections are to be called. -/
theorem step?_connect {m : Machine} {c : Connection} {calls : List Call} {below : List Frame}
    (hstack : m.stack = .script (.hear (.connect c) :: calls) :: below)
    (hopen : m.server.inboundOpen = true) (hheld : m.server.held = true ∨ below ≠ []) :
    m.step? = some ⟨((m.server.emit (.called (.hear (.connect c)))).greet c).emit
        (.announced .connection),
      .notify .connection 0 (m.server.scene.registry.listeners .connection) :: .reply .nothing ::
        .script calls :: below⟩ := by
  have hscene : ((m.server.emit (.called (.hear (.connect c)))).greet c).scene =
      m.server.scene := by
    obtain ⟨es, h⟩ := Server.handed_greet (m.server.emit (.called (.hear (.connect c)))) c
    exact h.scene
  rw [step?_hear hstack ⟨hopen, hheld⟩, ← hscene]
  rfl

/-! ## Reachable machines -/

/-- What a machine may do next: a step, or, with nothing left to do, a call. -/
inductive Next : Machine → Machine → Prop
  | step {m m' : Machine} (h : m.step? = some m') : Next m m'
  | call (s : Server) (c : Call) : Next ⟨s, []⟩ (ofCall s c)

/-- The machines that come about by calls on a new server. -/
def Reachable (config : Config) (host : Host) (m : Machine) : Prop :=
  ReflTransGen Next ⟨Server.new config host, []⟩ m

theorem Next.acts {m m' : Machine} (hd : m.OnDuty) (h : Next m m') :
    ReflTransGen Act m.server m'.server ∧ m'.OnDuty := by
  cases h with
  | step h => exact acts_of_step? hd h
  | call s c => exact ⟨.refl, hd⟩

/-- Whatever calls bring about comes about by acts. -/
theorem acts_of_next {m m' : Machine} (hd : m.OnDuty) (h : ReflTransGen Next m m') :
    ReflTransGen Act m.server m'.server ∧ m'.OnDuty := by
  induction h with
  | refl => exact ⟨.refl, hd⟩
  | tail _ hn ih =>
    obtain ⟨hacts, hduty⟩ := hn.acts ih.2
    exact ⟨ih.1.trans hacts, hduty⟩

theorem next_run (m : Machine) (n : Nat) : ReflTransGen Next m (m.run n) := by
  induction n generalizing m with
  | zero => exact .refl
  | succ n ih =>
    unfold run
    split
    · next m' h => exact .head (.step h) (ih m')
    · exact .refl

/-- A call that is run, with nothing left to do before it. -/
theorem next_callRun {m : Machine} (hm : m.stack = []) (c : Call) (n : Nat) :
    ReflTransGen Next m ((ofCall m.server c).run n) := by
  obtain ⟨s, stack⟩ := m
  subst hm
  exact .head (.call s c) (next_run _ n)

theorem Reachable.callRun {config : Config} {host : Host} {m : Machine}
    (h : m.Reachable config host) (hm : m.stack = []) (c : Call) (n : Nat) :
    ((ofCall m.server c).run n).Reachable config host :=
  h.trans (next_callRun hm c n)

theorem onDuty_new (config : Config) (host : Host) : OnDuty ⟨Server.new config host, []⟩ := rfl

theorem Reachable.onDuty {config : Config} {host : Host} {m : Machine}
    (h : m.Reachable config host) : m.OnDuty :=
  (acts_of_next (onDuty_new config host) h).2

end Machine

namespace Server

/-- What holds of every server between acts. -/
structure Sound (s : Server) : Prop where
  keyed : s.scene.store.Keyed
  drained : s.Drained
  linked : s.lifecycle.link.isSome = true ↔ s.lifecycle.phase = .serving
  opened : s.lifecycle.phase ≠ .idle → s.inboundOpen = true
  numbered : ∀ n ∈ s.lifecycle.link.map (·.session), n < s.lifecycle.sessions

variable {s t : Server} {es : List Event}

theorem sound_new (config : Config) (host : Host) : (new config host).Sound where
  keyed := Store.keyed_empty
  drained _ := rfl
  linked := by simp [new]
  opened h := absurd rfl h
  numbered := by simp [new]

/-- Nothing of it depends on more than the store, what waits, and what surrounds them. -/
theorem Sound.congr (hs : s.Sound) (hk : t.scene.store.Keyed) (hd : t.Drained)
    (h : t.surroundings = s.surroundings) : t.Sound where
  keyed := hk
  drained := hd
  linked := by rw [linked_of_surroundings h, phase_of_surroundings h, hs.linked]
  opened hp := by
    rw [phase_of_surroundings h] at hp
    exact (congrArg (·.2.2.2.1) h).trans (hs.opened hp)
  numbered := by
    rw [Lifecycle.session_of_bare (lifecycle_of_surroundings h),
      Lifecycle.sessions_of_bare (lifecycle_of_surroundings h)]
    exact hs.numbered

theorem Sound.emit (hs : s.Sound) (e : Event) : (s.emit e).Sound :=
  ⟨hs.keyed, hs.drained, hs.linked, hs.opened, hs.numbered⟩

theorem Sound.cycle (hs : s.Sound) {l : Lifecycle}
    (h : l.cycle = s.lifecycle.cycle) : Sound { s with lifecycle := l } := by
  simp only [Lifecycle.cycle, Prod.mk.injEq] at h
  obtain ⟨hphase, hlink, hsessions⟩ := h
  exact ⟨hs.keyed, hs.drained, by simpa only [hphase, hlink] using hs.linked,
    by simpa only [hphase] using hs.opened, by simpa only [hlink, hsessions] using hs.numbered⟩

theorem Sound.told (hs : s.Sound) (h : Told s t es) (hr : t.surroundings = s.surroundings) :
    t.Sound :=
  hs.congr (h.keyed hs.keyed) (h.drained hs.drained) hr

theorem keyed_record {scene : Scene} (h : scene.store.Keyed) (m : ViewerMessage) :
    (scene.record m).store.Keyed := by
  cases m with
  | drag key pos => exact h.recordPosition key pos
  | sliderSetValue key value => exact h.recordSliderValue key value
  | keydown _ | keyup _ | screenResize _ | buttonClick _ => exact h

theorem Act.sound (h : Act s t) (hs : s.Sound) : t.Sound := by
  cases h with
  | remark e h => exact hs.emit e
  | fire l o => exact ⟨hs.keyed, hs.drained, hs.linked, hs.opened, hs.numbered⟩
  | change c =>
    have hs' := hs.emit (.called (.change c))
    obtain ⟨es, h⟩ := edited_change hs'.keyed c
    exact hs'.told h.toTold (surroundings_change _ c)
  | register signal l => exact hs.congr hs.keyed hs.drained (surroundings_emit s rfl)
  | report c m e h =>
    obtain ⟨text, rfl, -⟩ := Event.eq_called_of_report? h
    exact hs.congr (keyed_record hs.keyed m) hs.drained (surroundings_emit s rfl)
  | flush =>
    obtain ⟨es, h⟩ := told_flush s
    exact hs.told h (surroundings_flush s)
  | setAutoflush on =>
    obtain ⟨es, h⟩ := told_setAutoflush s on
    exact hs.told h (surroundings_setAutoflush s on)
  | connect c =>
    have hs' := hs.emit (.called (.hear (.connect c)))
    obtain ⟨es, h⟩ := handed_greet (s.emit (.called (.hear (.connect c)))) c
    exact hs'.told h.edited.toTold h.surroundings
  | listen port h => exact hs.emit _
  | start h =>
    have hl : s.lifecycle.link.isSome ≠ true := by simp [hs.linked, h]
    exact ⟨hs.keyed, hs.drained, by simpa [Lifecycle.start] using hl, fun _ => rfl, hs.numbered⟩
  | accept port t address h =>
    refine ⟨hs.keyed, hs.drained, ?_, fun _ => hs.opened (by simp [h]), ?_⟩
    · simp [Server.accept, Server.note, Server.emit, Lifecycle.accept]
    · simp [Server.accept, Server.note, Server.emit, Lifecycle.accept]
  | refuse opened h =>
    have hl : s.lifecycle.link.isSome ≠ true := by simp [hs.linked, h]
    exact ⟨hs.keyed, hs.drained, by simpa [Server.refuse, Lifecycle.refuse] using hl,
      fun hp => absurd rfl hp, hs.numbered⟩
  | claim h => exact hs.cycle (Lifecycle.cycle_of_claimShutdown? h)
  | request h => exact hs.cycle (Lifecycle.cycle_of_requestShutdown? h)
  | wake => exact hs.cycle (Lifecycle.cycle_wake s.lifecycle)
  | detach h =>
    obtain ⟨hphase, hlink, rfl⟩ := Lifecycle.serving_of_detach? h
    exact ⟨hs.keyed, hs.drained, by simp, fun _ => hs.opened (by simp [hphase]), by simp⟩
  | close n h => exact hs.emit _
  | finish n h =>
    obtain ⟨es, he, -⟩ := finish_eq s n
    have hl : s.lifecycle.link.isSome ≠ true := by simp [hs.linked, h]
    rw [he]
    exact ⟨hs.keyed, fun _ => rfl, by simpa [Lifecycle.finish] using hl, fun hp => absurd rfl hp,
      hs.numbered⟩
  | giveUp => exact ⟨hs.keyed, hs.drained, hs.linked, hs.opened, hs.numbered⟩

end Server

theorem Server.sound_of_acts {s t : Server} (hs : s.Sound) (h : ReflTransGen Server.Act s t) :
    t.Sound := by
  induction h with
  | refl => exact hs
  | tail _ h ih => exact h.sound ih

theorem Machine.Reachable.sound {config : Config} {host : Host} {m : Machine}
    (h : m.Reachable config host) : m.server.Sound :=
  Server.sound_of_acts (Server.sound_new config host)
    (acts_of_next (Machine.onDuty_new config host) h).1

/-! ## A machine to look at -/

/-- A host without files, on which every port is free. -/
def Host.blank : Host := ⟨.none, .isolated (fun _ _ => false) 8080⟩

/-- A transport that delivers everything and makes no calls. -/
def Transport.quiet : Transport :=
  .custom ⟨none, false, none, [], [], fun _ => false, fun _ => false⟩

/-- A listener that does the same every time. -/
def Listener.steady (name : Json) (calls : List Call) (fails : Bool) : Listener :=
  ⟨name, fun _ _ => calls, fun _ _ => fails⟩

/-- A note on the screen. -/
def Text.greeting : Text := ⟨"greeting", "hello", ⟨IVec2.zero, IVec2.zero⟩⟩

namespace Machine

/-- It serves, with autoflush off. -/
def serving : Machine := run (ofCall (.new ⟨false, true⟩ .blank) (.serve 8080 .quiet)) 5

/-- It has created a note, which waits to be sent. -/
def greeting : Machine := run (ofCall serving.server (.change (.createText .greeting))) 3

theorem reachable_greeting : greeting.Reachable ⟨false, true⟩ .blank := by
  have h : serving.Reachable ⟨false, true⟩ .blank :=
    Reachable.callRun (m := ⟨.new ⟨false, true⟩ .blank, []⟩) .refl rfl _ 5
  exact h.callRun rfl _ 3

end Machine

end LiveScene
