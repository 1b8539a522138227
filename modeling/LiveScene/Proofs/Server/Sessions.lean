import LiveScene.Proofs.Server.Within

/-!
# Sessions

A step of a machine changes the course of its server in one of a few ways, together with the duties
that are left on the stack (`Course.Step`, `Machine.course_of_step?`). `Course.At` says at which
stage a course is, given those duties: it looks at the phase, at the flag that tells whether the
shutdown listeners have been fired, at the session there is, and at the frames that wait to begin,
to close or to end one. Steps of the course are steps of the stage (`Course.Step.at`), so the turns
of a reachable server are a path to the stage it is at (`Machine.Reachable.onCourse`).

The shutdown listeners of a session are fired once in it, and never without one
(`shutdown_fires_once`); this is read off that path. And a session has the transport that had been
asked to listen when it began (`Machine.Reachable.began`). Both hold for any nesting of calls, and
no matter which listeners fail.
-/

namespace LiveScene

open Relation (ReflTransGen)

variable {config : Config} {host : Host} {m m' : Machine} {s : Server} {k k' : Course}
  {ds ds' : List Frame} {st : Stage}

/-! ## Steps of the course -/

/-- What a step makes of a course and of the duties that are left. -/
inductive Course.Step : Course → List Frame → Course → List Frame → Prop
  | turned {k k' : Course} {new : List Frame} (ds : List Frame) (h : Turned k k' new) :
    Step k ds k' (new ++ ds)
  /-- a session begins -/
  | accept (k : Course) (port : UInt16) (t : Transport) (address : Option SocketAddress)
    (ds : List Frame) :
    Step k (.listened port t address :: ds)
      { phase := .serving
        handle := some (k.sessions, t)
        shutdownFired := false
        sessions := k.sessions + 1
        turns := k.turns ++ [.begun k.sessions] } ds
  /-- nothing comes of asking a transport -/
  | refuse (k : Course) (opened : Bool) (ds : List Frame) :
    Step k (.refused opened :: ds) { k with phase := .idle } ds
  /-- the transport of a session is closed -/
  | close (k : Course) (link : Link) (ds : List Frame) :
    Step k (.close link :: ds) { k with turns := k.turns ++ [.closed link.session] }
      (.closed link.session :: ds)
  /-- a session ends -/
  | finish (k : Course) (n : Nat) (ds : List Frame) :
    Step k (.closed n :: ds) { k with phase := .idle, turns := k.turns ++ [.ended n] } ds

theorem Server.course_finish (s : Server) (n : Nat) :
    (s.finish n).course =
      { s.course with phase := .idle, turns := s.course.turns ++ [.ended n] } := by
  by_cases h : s.outbox.pending.isEmpty <;>
    simp [course, Lifecycle.course, Lifecycle.finish, finish, discard, Outbox.discard, h, emit,
      note, Event.turn?]

namespace Machine

/-- The frames with duties that are left. -/
def duties (m : Machine) : List Frame := m.stack.filter Frame.isDuty

theorem course_of_step? (h : m.step? = some m') :
    Course.Step m.server.course m.duties m'.server.course m'.duties := by
  obtain ⟨s, stack⟩ := m
  cases stack with
  | nil => cases h
  | cons f below =>
  obtain rfl : ⟨(perform s below f).1, (perform s below f).2 ++ below⟩ = m' := Option.some.inj h
  cases hf : f.isDuty with
  | false =>
    have hturned := (moves_perform s below hf).turned
    simpa [duties, hf] using Course.Step.turned (below.filter Frame.isDuty) hturned
  | true =>
    cases f with
    | listened port t address =>
      have hstep := Course.Step.accept s.course port t address (below.filter Frame.isDuty)
      simpa [duties, Frame.isDuty, Frame.duty, perform, Server.accept, Server.course,
        Lifecycle.course, Lifecycle.accept, Server.emit, Server.note, Event.turn?] using hstep
    | refused opened =>
      have hstep := Course.Step.refuse s.course opened (below.filter Frame.isDuty)
      simpa [duties, Frame.isDuty, Frame.duty, perform, Server.refuse, Server.course,
        Lifecycle.course, Lifecycle.refuse] using hstep
    | close link =>
      have hstep := Course.Step.close s.course link (below.filter Frame.isDuty)
      simpa [duties, Frame.isDuty, Frame.duty, perform, Server.close, Server.noteAll_eq,
        Server.course, Server.emit, Lifecycle.course, Event.turn?] using hstep
    | closed n =>
      have hstep := Course.Step.finish s.course n (below.filter Frame.isDuty)
      simpa [duties, Frame.isDuty, Frame.duty, perform, Server.course_finish] using hstep
    | script _ | notify _ _ _ | heard _ _ _ | requestShutdown | wait _ _ | checked _ _ _
    | reply _ => cases hf

end Machine

namespace Course

/-- The stage at which a course is, given the duties that are left. -/
inductive At (k : Course) : List Frame → Stage → Prop
  | idle (h : k.phase = .idle) : At k [] (.idle k.sessions)
  | starting {f : Frame} (hf : f.duty = [.starting]) (h : k.phase = .starting) :
    At k [f] (.idle k.sessions)
  | live (n : Nat) (t : Transport) (h : k.phase = .serving) (hfired : k.shutdownFired = false)
    (hhandle : k.handle = some (n, t)) (hn : k.sessions = n + 1) : At k [] (.live n)
  | fired (n : Nat) (t : Transport) (h : k.phase = .serving) (hfired : k.shutdownFired = true)
    (hhandle : k.handle = some (n, t)) (hn : k.sessions = n + 1) : At k [] (.fired n)
  | closing (link : Link) (h : k.phase = .stopping) (hn : k.sessions = link.session + 1) :
    At k [.close link] (.fired link.session)
  | closed (n : Nat) (h : k.phase = .stopping) (hn : k.sessions = n + 1) :
    At k [.closed n] (.closed n)

theorem At.of_idle (ha : k.At ds st) (h : k.phase = .idle) :
    ds = [] ∧ st = .idle k.sessions := by
  cases ha <;> simp_all

theorem At.of_serving (ha : k.At ds st) (h : k.phase = .serving) :
    ds = [] ∧ ∃ n t, k.handle = some (n, t) ∧ k.sessions = n + 1 ∧
      st = if k.shutdownFired then .fired n else .live n := by
  cases ha <;> simp_all

/-- A turn of the course at some stage leads to another stage. -/
theorem At.turned {new : List Frame} (ha : k.At ds st) (h : Turned k k' new) :
    ∃ ts st', k'.turns = k.turns ++ ts ∧ Stage.Path st ts st' ∧ k'.At (new ++ ds) st' := by
  cases h with
  | calm => exact ⟨[], st, by simp, .nil st, ha⟩
  | start port hf h =>
    obtain ⟨rfl, rfl⟩ := ha.of_idle h
    exact ⟨[.asked port], _, rfl, .cons (.ask _ port) (.nil _), .starting hf rfl⟩
  | fire h hfired =>
    obtain ⟨rfl, n, t, hhandle, hn, rfl⟩ := ha.of_serving h
    rw [hfired]
    exact ⟨[.fired], _, rfl, .cons (.fire n) (.nil _), .fired n t h rfl hhandle hn⟩
  | stop link h hlink =>
    obtain ⟨rfl, n, t, hhandle, hn, rfl⟩ := ha.of_serving h
    obtain ⟨rfl, -⟩ : n = link.session ∧ t = link.transport := by simpa [hhandle] using hlink
    cases hfired : k.shutdownFired with
    | false => exact ⟨[.fired], _, rfl, .cons (.fire _) (.nil _), .closing link rfl hn⟩
    | true => exact ⟨[], _, rfl, .nil _, .closing link rfl hn⟩

/-- A step of the course at some stage leads to another stage. -/
theorem Step.at (h : Step k ds k' ds') (ha : k.At ds st) :
    ∃ ts st', k'.turns = k.turns ++ ts ∧ Stage.Path st ts st' ∧ k'.At ds' st' := by
  cases h with
  | turned ds h => exact ha.turned h
  | accept port t address ds =>
    cases ha with
    | starting _ h =>
      exact ⟨[.begun k.sessions], _, rfl, .cons (.start _) (.nil _),
        .live k.sessions t rfl rfl rfl rfl⟩
  | refuse opened ds =>
    cases ha with
    | starting _ h => exact ⟨[], _, by simp, .nil _, .idle rfl⟩
  | close link ds =>
    cases ha with
    | starting hf _ => cases hf
    | closing _ h hn =>
      exact ⟨[.closed link.session], _, rfl, .cons (.close _) (.nil _), .closed _ h hn⟩
  | finish n ds =>
    cases ha with
    | starting hf _ => cases hf
    | closed _ h hn =>
      refine ⟨[.ended n], .idle (n + 1), rfl, .cons (.finish n) (.nil _), ?_⟩
      rw [← hn]
      exact .idle rfl

/-- A session is open while the server serves and while it stops. -/
theorem At.open_iff (ha : k.At ds st) :
    (∃ n, st.open? = some n) ↔ k.phase = .serving ∨ k.phase = .stopping := by
  cases ha <;> simp_all [Stage.open?]

/-- Without a duty left, no session is about to begin or to end. -/
theorem At.settled (ha : k.At [] st) : k.phase = .idle ∨ k.phase = .serving := by
  cases ha <;> simp_all

end Course

/-- Whatever calls bring about, the turns lead from one stage to another. -/
theorem Machine.course_of_next (ha : m.server.course.At m.duties st)
    (h : ReflTransGen Machine.Next m m') :
    ∃ ts st', turnsIn m'.server.journal.toList = turnsIn m.server.journal.toList ++ ts ∧
      Stage.Path st ts st' ∧ m'.server.course.At m'.duties st' := by
  induction h with
  | refl => exact ⟨[], st, by simp, .nil st, ha⟩
  | tail _ hn ih =>
    cases hn with
    | call s c => exact ih
    | step h =>
      obtain ⟨ts, st', hts, hpath, hat⟩ := ih
      obtain ⟨us, st'', hus, hpath', hat'⟩ := (Machine.course_of_step? h).at hat
      have hturns : turnsIn _ = turnsIn _ ++ us := hus
      refine ⟨ts ++ us, st'', ?_, Stage.path_append.mpr ⟨st', hpath, hpath'⟩, hat'⟩
      rw [hturns, hts, List.append_assoc]

/-- The turns of a reachable server lead to the stage it is at. -/
theorem Machine.Reachable.onCourse (h : m.Reachable config host) :
    ∃ st, Stage.Path (.idle 0) (turnsIn m.server.journal.toList) st ∧
      m.server.course.At m.duties st := by
  obtain ⟨ts, st, hts, hpath, hat⟩ :=
    course_of_next (m := ⟨Server.new config host, []⟩) (.idle rfl) h
  obtain rfl : turnsIn m.server.journal.toList = ts := by simpa [Server.new] using hts
  exact ⟨st, hpath, hat⟩

/-! ## Shutdown listeners -/

/-- Whatever calls are made, in whatever order and nesting, the shutdown listeners are fired exactly
once in a session that has ended and at most once in one that has not, and only ever in a session
that has begun and not ended; such a session there is while the server serves or stops. -/
theorem shutdown_fires_once (h : m.Reachable config host) :
    (∀ pre n mid post,
      turnsIn m.server.journal.toList = pre ++ .begun n :: (mid ++ .ended n :: post) →
        mid.count .fired = 1) ∧
    (∀ pre n mid, turnsIn m.server.journal.toList = pre ++ .begun n :: mid → .ended n ∉ mid →
      mid.count .fired ≤ 1) ∧
    (∀ pre post, turnsIn m.server.journal.toList = pre ++ .fired :: post →
      ∃ n, .begun n ∈ pre ∧ .ended n ∉ pre) ∧
    ((∃ n, .begun n ∈ turnsIn m.server.journal.toList ∧
        .ended n ∉ turnsIn m.server.journal.toList) ↔
      m.server.lifecycle.phase = .serving ∨ m.server.lifecycle.phase = .stopping) := by
  obtain ⟨st, hpath, hat⟩ := h.onCourse
  refine ⟨fun pre n mid post hts => ?_, fun pre n mid hts => ?_, fun pre post hts => ?_, ?_⟩
  · rw [hts] at hpath
    exact hpath.count_fired_of_ended
  · rw [hts] at hpath
    exact hpath.count_fired_le
  · rw [hts] at hpath
    exact hpath.begun_of_fired
  · refine Iff.trans (exists_congr fun n => ?_) hat.open_iff
    rw [hpath.open_iff]
    simp [Stage.open?]

/-- A listener that tries to serve again, stops the server, and fails after that. -/
def Listener.frail : Listener := .steady .null [.serve 9 .quiet, .stop] true

namespace Machine

/-- A signal has come, which the frail listener has been told. -/
def signalled : Machine :=
  run (ofCall (run (ofCall serving.server (.on .shutdown .frail)) 3).server
    (.hear .shutdownSignal)) 20

/-- It has begun to serve again after the signal. -/
def resumed : Machine := run (ofCall signalled.server (.serve 8080 .quiet)) 5

theorem reachable_resumed : resumed.Reachable ⟨false, true⟩ .blank := by
  have h : serving.Reachable ⟨false, true⟩ .blank :=
    Reachable.callRun (m := ⟨.new ⟨false, true⟩ .blank, []⟩) .refl rfl _ 5
  have h' := (h.callRun rfl (.on .shutdown .frail) 3).callRun rfl (.hear .shutdownSignal) 20
  exact h'.callRun rfl _ 5

end Machine

theorem shutdown_fires_once_resumed :
    turnsIn Machine.resumed.server.journal.toList =
        [.asked 8080, .begun 0, .fired, .closed 0, .ended 0, .asked 8080, .begun 1] ∧
      [Turn.fired, .closed 0].count .fired = 1 ∧ ([] : List Turn).count .fired ≤ 1 :=
  have h := shutdown_fires_once Machine.reachable_resumed
  ⟨rfl, h.1 [.asked 8080] 0 [.fired, .closed 0] [.asked 8080, .begun 1] rfl,
    h.2.1 [.asked 8080, .begun 0, .fired, .closed 0, .ended 0, .asked 8080] 1 [] rfl (by simp)⟩

/-! ## The transport of a session -/

/-- The session that a frame closes, and its transport. -/
def Frame.handle? : Frame → Option (Nat × Transport)
  | .close link => some (link.session, link.transport)
  | _ => none

theorem Frame.handle?_of_starting {f : Frame} (hf : f.duty = [.starting]) : f.handle? = none := by
  cases f <;> first | rfl | cases hf

/-- The session that is open and has not been closed, with its transport: it is in the course, or
some frame waits to close it. -/
def Course.handles (k : Course) (ds : List Frame) : List (Nat × Transport) :=
  k.handle.toList ++ ds.filterMap Frame.handle?

/-- A session gets its transport when it begins: the one that has been asked to listen. -/
theorem Course.Step.handles {p : Nat × Transport} (h : Step k ds k' ds')
    (hp : p ∈ k'.handles ds') :
    p ∈ k.handles ds ∨
      ∃ port address, .listened port p.2 address ∈ ds ∧ k'.turns = k.turns ++ [.begun p.1] := by
  cases h with
  | turned ds h =>
    refine Or.inl ?_
    cases h with
    | calm => exact hp
    | start _ hf _ => simpa [Course.handles, Frame.handle?_of_starting hf] using hp
    | fire _ _ => exact hp
    | stop link _ hlink => simpa [Course.handles, Frame.handle?, hlink] using hp
  | accept port t address ds =>
    rcases List.mem_append.mp hp with hp | hp
    · obtain rfl : p = (k.sessions, t) := by simpa using hp
      exact Or.inr ⟨port, address, List.mem_cons_self, rfl⟩
    · exact Or.inl (List.mem_append_right _ (by simpa [Frame.handle?] using hp))
  | refuse opened ds => exact Or.inl (by simpa [Course.handles, Frame.handle?] using hp)
  | close link ds =>
    refine Or.inl ?_
    simp only [Course.handles, List.mem_append] at hp ⊢
    exact hp.imp_right fun hp => by simp_all [Frame.handle?]
  | finish n ds => exact Or.inl (by simpa [Course.handles, Frame.handle?] using hp)

/-- The machine has come about after a step with which a session began, over a transport that had
been asked to listen. -/
def Machine.Began (config : Config) (host : Host) (session : Nat) (t : Transport) (m : Machine) :
    Prop :=
  ∃ (m₀ m₁ : Machine) (port : UInt16) (address : Option SocketAddress),
    m₀.Reachable config host ∧ .listened port t address ∈ m₀.stack ∧ m₀.step? = some m₁ ∧
    turnsIn m₁.server.journal.toList = turnsIn m₀.server.journal.toList ++ [.begun session] ∧
    ReflTransGen Machine.Next m₁ m

theorem Machine.Began.tail {n : Nat} {t : Transport} (h : m.Began config host n t)
    (hn : Machine.Next m m') : m'.Began config host n t := by
  obtain ⟨m₀, m₁, port, address, h₀, hmem, hstep, hturns, hrun⟩ := h
  exact ⟨m₀, m₁, port, address, h₀, hmem, hstep, hturns, hrun.tail hn⟩

/-- The transport of a session is the one that had been asked to listen when it began. -/
theorem Machine.Reachable.began {p : Nat × Transport} (h : m.Reachable config host)
    (hp : p ∈ m.server.course.handles m.duties) : m.Began config host p.1 p.2 := by
  induction h with
  | refl => cases hp
  | tail h hn ih =>
    cases hn with
    | call s c => exact (ih hp).tail (.call s c)
    | step hs =>
      rcases (Machine.course_of_step? hs).handles hp with hp | ⟨port, address, hmem, hturns⟩
      · exact (ih hp).tail (.step hs)
      · exact ⟨_, _, port, address, h, (List.mem_filter.mp hmem).1, hs, hturns, .refl⟩

end LiveScene
