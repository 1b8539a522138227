import LiveScene.Proofs.Server.Messages
import LiveScene.Proofs.Server.Returns

/-!
# Transports

Transports are opened and closed in turn, each closed after the shutdown listeners have been fired,
and it is the transport that listened in the beginning that is closed in the end
(`transports_alternate`).

While a transport is asked to listen the server is starting, and whatever is called then, the cycle
stays as it is until the transport has answered (`Machine.Reachable.lifecycle_of_starting`). So a
transport that refuses leaves the cycle as it was before it was asked, no matter what it called in
the meantime (`Machine.Reachable.serve_refused`).
-/

namespace LiveScene

open Relation (ReflTransGen)

variable {config : Config} {host : Host} {m m' : Machine} {s : Server} {k k' : Course}
  {ds ds' : List Frame}

/-! ## Asking -/

/-- Only an idle server asks a transport to listen. -/
theorem Course.Step.idle_of_asked {ts : List Turn} {port : UInt16} (h : Step k ds k' ds')
    (hts : k'.turns = k.turns ++ ts) (hport : .asked port ∈ ts) : k.phase = .idle := by
  cases h with
  | turned ds h =>
    cases h with
    | start _ _ h => exact h
    | calm => simp_all
    | fire _ _ =>
      obtain rfl := List.append_cancel_left hts
      simp at hport
    | stop link _ _ =>
      obtain rfl := List.append_cancel_left hts
      cases hfired : k.shutdownFired <;> simp [hfired] at hport
  | accept _ _ _ _ | close _ _ | finish _ _ =>
    obtain rfl := List.append_cancel_left hts
    simp at hport
  | refuse _ _ => simp_all

theorem Machine.idle_of_listening {es : List Event} {port : UInt16} (h : m.step? = some m')
    (hes : m'.server.journal.toList = m.server.journal.toList ++ es)
    (hport : .listening port ∈ es) :
    m.server.lifecycle.phase = .idle := by
  have hturns : m'.server.course.turns = m.server.course.turns ++ turnsIn es := by
    simp [Server.course, Lifecycle.course, hes]
  exact (course_of_step? h).idle_of_asked hturns
    (List.mem_filterMap.mpr ⟨.listening port, hport, rfl⟩)

namespace Server

/-- Before a session begins, an act leaves the cycle as it is, asks a transport, or takes that
back. -/
theorem Act.lifecycle_of_unlinked {t : Server} (h : Act s t) (hlink : s.lifecycle.link = none)
    (hphase : s.lifecycle.phase = .idle ∨ s.lifecycle.phase = .starting) :
    t.lifecycle = s.lifecycle ∨ t.lifecycle = s.lifecycle.start ∨
      t.lifecycle = s.lifecycle.refuse ∨ s.lifecycle.sessions < t.lifecycle.sessions := by
  have of_surroundings {t : Server} (h : t.surroundings = s.surroundings) :
      t.lifecycle = s.lifecycle :=
    Lifecycle.eq_of_bare (lifecycle_of_surroundings h) hlink
  cases h with
  | remark _ _ | fire _ _ | register _ _ | report _ _ _ _ | listen _ _ | close _ _ | giveUp =>
    exact .inl rfl
  | change c =>
    exact .inl (of_surroundings ((surroundings_change _ c).trans (surroundings_emit s rfl)))
  | flush => exact .inl (of_surroundings (surroundings_flush s))
  | setAutoflush on => exact .inl (of_surroundings (surroundings_setAutoflush s on))
  | connect c =>
    exact .inl (of_surroundings ((surroundings_greet _ c).trans (surroundings_emit s rfl)))
  | start _ => exact .inr (.inl rfl)
  | refuse _ _ => exact .inr (.inr (.inl rfl))
  | accept _ _ _ _ => exact .inr (.inr (.inr (Nat.lt_succ_self _)))
  | wake => rcases hphase with h | h <;> exact .inl (by simp [Lifecycle.wake, h])
  | request h => rcases hphase with h' | h' <;> simp [Lifecycle.requestShutdown?, h'] at h
  | claim h => rcases hphase with h' | h' <;> simp [Lifecycle.claimShutdown?, h'] at h
  | detach h => rcases hphase with h' | h' <;> simp [Lifecycle.detach?, h'] at h
  | finish _ h => simp [h] at hphase

/-- While the server starts, acts leave the cycle as it is, take back that a transport was asked, or
begin a session. -/
theorem lifecycle_of_starting {t : Server} (h : ReflTransGen Act s t) (hs : s.Sound)
    (hphase : s.lifecycle.phase = .starting) :
    t.lifecycle = s.lifecycle ∨ t.lifecycle = s.lifecycle.refuse ∨
      s.lifecycle.sessions < t.lifecycle.sessions := by
  have hlink : s.lifecycle.link = none := by
    rw [← Option.not_isSome_iff_eq_none, hs.linked, hphase]
    simp
  have hstart : s.lifecycle.start = s.lifecycle := by simp [Lifecycle.start, ← hphase]
  induction h with
  | refl => exact .inl rfl
  | tail _ ha ih =>
    rcases ih with hsame | hrefused | hlt
    · have h := ha.lifecycle_of_unlinked (by rw [hsame, hlink]) (by simp [hsame, hphase])
      rw [hsame, hstart] at h
      exact h.elim .inl id
    · have h := ha.lifecycle_of_unlinked (by rw [hrefused]; exact hlink)
        (.inl (by rw [hrefused]; rfl))
      have hback : s.lifecycle.refuse.start = s.lifecycle := by
        simp [Lifecycle.start, Lifecycle.refuse, ← hphase]
      rw [hrefused, hback] at h
      rcases h with h | h | h | h
      · exact .inr (.inl h)
      · exact .inl h
      · exact .inr (.inl h)
      · exact .inr (.inr h)
    · exact .inr (.inr (Nat.lt_of_lt_of_le hlt ha.sessions_le))

end Server

theorem Turned.eq_of_starting {frames : List Frame} (h : Turned k k' frames)
    (hphase : k.phase = .starting) : k' = k := by
  cases h <;> simp_all

/-- While the server starts, a frame without a duty leaves the cycle as it is and makes no turn. -/
theorem Machine.Reachable.idle_of_starting {f : Frame} {below : List Frame}
    (h : m.Reachable config host) (hstack : m.stack = f :: below) (hf : f.duty = [])
    (hstep : m.step? = some m') (hphase : m.server.lifecycle.phase = .starting) :
    m'.server.lifecycle = m.server.lifecycle ∧
      turnsIn m'.server.journal.toList = turnsIn m.server.journal.toList := by
  have hacts := (acts_of_step? h.onDuty hstep).1
  obtain ⟨s, stack⟩ := m
  dsimp only at hstack hphase
  subst hstack
  have hturned := (moves_perform s below (by simpa [Frame.isDuty] using hf)).turned
  obtain rfl := Option.some.inj ((step?_of_stack rfl).symm.trans hstep)
  have hcourse := hturned.eq_of_starting hphase
  refine ⟨?_, congrArg Course.turns hcourse⟩
  -- the cycle cannot have gone on, since then the course would have
  have hgone : (perform s below f).1.lifecycle.phase = .starting :=
    (congrArg Course.phase hcourse).trans hphase
  have hsessions : (perform s below f).1.lifecycle.sessions = s.lifecycle.sessions :=
    congrArg Course.sessions hcourse
  rcases Server.lifecycle_of_starting hacts h.sound hphase with hsame | hrefused | hbegun
  · exact hsame
  · rw [hrefused] at hgone
    cases hgone
  · exact absurd hbegun (by simp [hsessions])

/-- Whatever a transport does while it is asked to listen, the cycle stays as it is until it has
answered. -/
theorem Machine.Reachable.lifecycle_of_starting (h : m.Reachable config host)
    (hstep : m.step? = some m') (hphase : m.server.lifecycle.phase = .starting) :
    m'.server.lifecycle = m.server.lifecycle ∨
      (∃ port t address below, m.stack = .listened port t address :: below) ∨
      ∃ opened below, m.stack = .refused opened :: below := by
  have hduty := h.onDuty
  cases hstack : m.stack with
  | nil => simp [step?, hstack] at hstep
  | cons f below =>
    cases f with
    | listened port t address => exact .inr (.inl ⟨port, t, address, below, rfl⟩)
    | refused opened => exact .inr (.inr ⟨opened, below, rfl⟩)
    | close _ | closed _ => simp [OnDuty, hstack, Frame.duty, hphase, Phase.duty] at hduty
    | script _ | notify _ _ _ | heard _ _ _ | requestShutdown | wait _ _ | checked _ _ _
    | reply _ => exact .inl (h.idle_of_starting hstack rfl hstep hphase).1

namespace Machine

variable {port : UInt16} {t : Transport} {calls : List Call} {below : List Frame} {e : ServerError}

/-- To serve is to do nothing, successfully, while the server is not idle. -/
theorem serve_ignored (hstack : m.stack = .script (.serve port t :: calls) :: below)
    (hheld : m.server.held = true) (hphase : m.server.lifecycle.phase ≠ .idle) :
    ∃ es, (m.run 2).stack = .script calls :: below ∧
      (m.run 2).server.lifecycle = m.server.lifecycle ∧
      (m.run 2).server.journal.toList = m.server.journal.toList ++ es ∧
      answersIn es = [.ok] ∧ turnsIn es = [] := by
  obtain ⟨s, stack⟩ := m
  dsimp only at hstack hheld hphase
  subst hstack
  refine ⟨[.called (.serve port t), .noted (.serveIgnored port s.lifecycle.phase), .returned .ok],
    ?_⟩
  cases hp : s.lifecycle.phase <;>
    simp_all [run, step?, perform, Server.receive, Server.call, Server.make, Server.serve,
      Server.emit, Server.note, Event.answer?, Event.turn?]

/-- A transport that is going to refuse is asked like any other, and may make calls first. -/
theorem step?_serve_refused (hstack : m.stack = .script (.serve port t :: calls) :: below)
    (hheld : m.server.held = true) (hphase : m.server.lifecycle.phase = .idle)
    (hrefused : t.listen m.server.host.network port = .error e) :
    ∃ m₁ opened, m.step? = some m₁ ∧
      m₁.stack = .script t.duringListen ::
        .refused opened :: .reply (.failed e) :: .script calls :: below ∧
      m₁.server.lifecycle = m.server.lifecycle.start ∧
      turnsIn m₁.server.journal.toList = turnsIn m.server.journal.toList ++ [.asked port] := by
  obtain ⟨s, stack⟩ := m
  dsimp only at hstack hheld hphase hrefused
  subst hstack
  refine ⟨_, s.inboundOpen || t.reportsRefused, step?_of_stack rfl, ?_⟩
  simp [perform, Server.receive, Server.call, Server.make, Server.serve, Server.afterListen, hheld,
    hphase, hrefused, Server.emit, Server.noteAll_eq, Event.turn?]

/-- Whatever goes on above a frame that ends the start, the cycle stays as it is. -/
theorem Above.starting {f : Frame} {called : List (Listener × Occasion)}
    (h : m.Above (f :: below) called m') (hm : m.Reachable config host)
    (hf : f.duty = [.starting]) (upper : List Frame) (hstack : m.stack = upper ++ f :: below) :
    m'.server.lifecycle = m.server.lifecycle ∧
      turnsIn m'.server.journal.toList = turnsIn m.server.journal.toList := by
  induction h generalizing upper with
  | refl => exact ⟨rfl, rfl⟩
  | @head m m₁ m' g above called hg hstep h ih =>
    -- the phase has one duty, so the frame on top has none
    have hduty := hm.onDuty
    rw [OnDuty, hg, List.flatMap_cons, List.flatMap_append, List.flatMap_cons, hf] at hduty
    obtain ⟨hphase, hnone⟩ : m.server.lifecycle.phase = .starting ∧ g.duty = [] := by
      cases hp : m.server.lifecycle.phase <;> simp_all [Phase.duty, List.append_eq_cons_iff]
    obtain ⟨hsame, hturns⟩ := hm.idle_of_starting hg hnone hstep hphase
    obtain ⟨upper', hstack₁⟩ := stack_of_step? hg hstep
    obtain ⟨hsame', hturns'⟩ := ih (hm.tail (.step hstep)) upper' hstack₁
    exact ⟨hsame'.trans hsame, hturns'.trans hturns⟩

/-- A transport that refuses leaves the cycle as it was, and no turn but that it was asked, whatever
is called while it listens; and the call gives back the error. -/
theorem Reachable.serve_refused (h : m.Reachable config host)
    (hstack : m.stack = .script (.serve port t :: calls) :: below)
    (hheld : m.server.held = true) (hphase : m.server.lifecycle.phase = .idle)
    (hrefused : t.listen m.server.host.network port = .error e) :
    ∃ m₁ opened, m.step? = some m₁ ∧
      m₁.stack = .script t.duringListen ::
        .refused opened :: .reply (.failed e) :: .script calls :: below ∧
      m₁.server.lifecycle.phase = .starting ∧
      ∀ m₂, m₁.Returns (.refused opened :: .reply (.failed e) :: .script calls :: below) m₂ →
        (m₂.run 2).stack = .script calls :: below ∧
        (m₂.run 2).server.lifecycle = m.server.lifecycle ∧
        ∃ es, (m₂.run 2).server.journal.toList =
            m.server.journal.toList ++ es ++ [.returned (.failed e)] ∧
          turnsIn es = [.asked port] := by
  obtain ⟨m₁, opened, hstep, hstack₁, hstart, hasked⟩ :=
    step?_serve_refused hstack hheld hphase hrefused
  refine ⟨m₁, opened, hstep, hstack₁, by rw [hstart]; rfl, fun m₂ hreturn => ?_⟩
  have h₁ := h.tail (.step hstep)
  obtain ⟨⟨called, habove⟩, hstack₂⟩ := id hreturn
  obtain ⟨hsame, hturns⟩ := habove.starting h₁ rfl [_] hstack₁
  obtain ⟨es, hes⟩ := grows_of_next ((ReflTransGen.single (.step hstep)).trans hreturn.next)
  obtain ⟨s₂, stack₂⟩ := m₂
  dsimp only at hstack₂ hsame hturns hes
  subst hstack₂
  refine ⟨rfl, ?_, es, ?_, ?_⟩
  · show s₂.lifecycle.refuse = m.server.lifecycle
    rw [hsame, hstart, Lifecycle.refuse_start hphase]
  · simp [run, step?, perform, Server.refuse, Server.emit, hes]
  · rw [hes, turnsIn_append, hasked] at hturns
    exact List.append_cancel_left hturns

end Machine

/-- Whatever calls are made, in whatever order and nesting, a transport is asked to listen only
while the server is idle. From one session to the next the listeners are fired, the transport is
closed, and the session ends, once each; before a transport is closed its session has begun and the
listeners have been fired. What is closed is the transport that listened when the session began, and
no session is left half closed when all calls are done. Whatever is called while a transport is
asked, the cycle stays as it is until the transport has answered. A server that is not idle answers
a call to serve with success and does nothing else. If the transport is going to refuse, it listens
first, and when it is done with that, whatever it has called, the call passes on the error and
leaves the cycle as it was before. -/
theorem transports_alternate (h : m.Reachable config host) :
    (∀ m' es port, m.step? = some m' →
      m'.server.journal.toList = m.server.journal.toList ++ es → .listening port ∈ es →
        m.server.lifecycle.phase = .idle) ∧
    (∀ pre n mid k post,
      turnsIn m.server.journal.toList = pre ++ .begun n :: (mid ++ .begun k :: post) →
      (∀ j, .begun j ∉ mid) →
        k = n + 1 ∧ ∃ rest, mid = .fired :: .closed n :: .ended n :: rest ∧
          ∀ turn ∈ rest, ∃ port, turn = .asked port) ∧
    (∀ pre n post, turnsIn m.server.journal.toList = pre ++ .closed n :: post →
      ∃ pre', pre = pre' ++ [.begun n, .fired]) ∧
    (∀ link, .close link ∈ m.stack → m.Began config host link.session link.transport) ∧
    (m.stack = [] → m.server.lifecycle.phase = .idle ∨ m.server.lifecycle.phase = .serving) ∧
    (∀ m', m.step? = some m' → m.server.lifecycle.phase = .starting →
      m'.server.lifecycle = m.server.lifecycle ∨
        (∃ port t address below, m.stack = .listened port t address :: below) ∨
        ∃ opened below, m.stack = .refused opened :: below) ∧
    (∀ port t calls below, m.stack = .script (.serve port t :: calls) :: below →
      m.server.held = true → m.server.lifecycle.phase ≠ .idle →
        ∃ es, (m.run 2).stack = .script calls :: below ∧
          (m.run 2).server.lifecycle = m.server.lifecycle ∧
          (m.run 2).server.journal.toList = m.server.journal.toList ++ es ∧
          answersIn es = [.ok] ∧ turnsIn es = []) ∧
    (∀ port t calls below e, m.stack = .script (.serve port t :: calls) :: below →
      m.server.held = true → m.server.lifecycle.phase = .idle →
      t.listen m.server.host.network port = .error e →
        ∃ m₁ opened, m.step? = some m₁ ∧
          m₁.stack = .script t.duringListen ::
            .refused opened :: .reply (.failed e) :: .script calls :: below ∧
          m₁.server.lifecycle.phase = .starting ∧
          ∀ m₂, m₁.Returns (.refused opened :: .reply (.failed e) :: .script calls :: below) m₂ →
            (m₂.run 2).stack = .script calls :: below ∧
            (m₂.run 2).server.lifecycle = m.server.lifecycle ∧
            ∃ es, (m₂.run 2).server.journal.toList =
                m.server.journal.toList ++ es ++ [.returned (.failed e)] ∧
              turnsIn es = [.asked port]) := by
  obtain ⟨st, hpath, hat⟩ := h.onCourse
  refine ⟨fun m' es port => Machine.idle_of_listening, fun pre n mid k post hts => ?_,
    fun pre n post hts => ?_, fun link hlink => ?_, fun hstack => ?_,
    fun m' hstep => h.lifecycle_of_starting hstep, fun port t calls below => Machine.serve_ignored,
    fun port t calls below e => h.serve_refused⟩
  · rw [hts] at hpath
    exact hpath.between_begun
  · rw [hts] at hpath
    exact hpath.before_closed
  · refine h.began (p := (link.session, link.transport)) (List.mem_append_right _ ?_)
    exact List.mem_filterMap.mpr ⟨.close link, List.mem_filter.mpr ⟨hlink, rfl⟩, rfl⟩
  · rw [Machine.duties, hstack] at hat
    exact hat.settled

/-- A transport that tries to serve over another one and to stop the server, and reports a viewer
and a signal, while it listens and again while it closes. -/
def Transport.unruly (refusal : Option Refusal) : Transport :=
  let calls : List Call := [.serve 9 .quiet, .stop, .hear (.connect 7), .hear .shutdownSignal]
  .custom ⟨refusal, false, none, calls, calls, fun _ => false, fun _ => false⟩

namespace Machine

/-- It has served over an unruly transport and stopped, with a frail listener. -/
def settled : Machine :=
  let served := run (ofCall (.new {} .blank) (.serve 8080 (.unruly none))) 15
  run (ofCall (run (ofCall served.server (.on .shutdown .frail)) 3).server .stop) 24

/-- An unruly transport is to be asked, which is going to refuse. -/
def asking : Machine := ofCall settled.server (.serve 8081 (.unruly (some .detached)))

/-- The unruly transport has done what it does while it listens. -/
def unheeded : Machine := run (run asking 1) 11

/-- It serves again after that. -/
def reopened : Machine := run (ofCall (run unheeded 3).server (.serve 8080 .quiet)) 5

theorem reachable_asking : asking.Reachable {} .blank := by
  have h : Reachable {} .blank (run (ofCall (.new {} .blank) (.serve 8080 (.unruly none))) 15) :=
    Reachable.callRun (m := ⟨.new {} .blank, []⟩) .refl rfl _ 15
  exact ((h.callRun rfl (.on .shutdown .frail) 3).callRun rfl .stop 24).tail (.call _ _)

theorem reachable_reopened : reopened.Reachable {} .blank :=
  Reachable.callRun (m := run unheeded 3)
    (((reachable_asking.trans (next_run _ 1)).trans (next_run _ 11)).trans (next_run _ 3)) rfl _ 5

end Machine

/-- The transport that refuses calls the server while it listens, and the one that is closed called
it while it listened and while it closed. -/
theorem transports_alternate_unruly :
    turnsIn Machine.reopened.server.journal.toList =
        [.asked 8080, .begun 0, .fired, .closed 0, .ended 0, .asked 8081, .asked 8080, .begun 1] ∧
      (∃ rest, [Turn.fired, .closed 0, .ended 0, .asked 8081, .asked 8080] =
        .fired :: .closed 0 :: .ended 0 :: rest ∧ ∀ turn ∈ rest, ∃ port, turn = .asked port) ∧
      (∃ pre, [Turn.asked 8080, .begun 0, .fired] = pre ++ [.begun 0, .fired]) ∧
      (∃ es, ((Machine.ofCall Machine.reopened.server (.serve 9 .quiet)).run 2).server.lifecycle =
          Machine.reopened.server.lifecycle ∧
        ((Machine.ofCall Machine.reopened.server (.serve 9 .quiet)).run 2).server.journal.toList =
          Machine.reopened.server.journal.toList ++ es ∧ answersIn es = [.ok] ∧ turnsIn es = []) ∧
      (Machine.unheeded.run 2).server.lifecycle = Machine.asking.server.lifecycle ∧
      ∃ es, (Machine.unheeded.run 2).server.journal.toList =
          Machine.asking.server.journal.toList ++ es ++ [.returned (.failed .transportDetached)] ∧
        turnsIn es = [.asked 8081] := by
  obtain ⟨-, hbetween, hbefore, -, -, -, hignored, -⟩ := transports_alternate
    (m := Machine.ofCall Machine.reopened.server (.serve 9 .quiet))
    (Machine.reachable_reopened.tail (.call _ _))
  obtain ⟨-, -, -, -, -, -, -, hrefused⟩ := transports_alternate Machine.reachable_asking
  obtain ⟨fs, -, hfs⟩ := hignored 9 .quiet [] [] rfl rfl (by decide)
  obtain ⟨m₁, opened, hstep, hstack, -, hlistened⟩ :=
    hrefused 8081 (.unruly (some .detached)) [] [] .transportDetached rfl rfl rfl rfl
  obtain rfl : m₁ = Machine.run Machine.asking 1 := by
    rw [Machine.run_succ hstep]
    rfl
  obtain rfl : opened = true := by
    have htrue : (Machine.run Machine.asking 1).stack[1]? = some (.refused true) := rfl
    rw [hstack] at htrue
    simpa using htrue
  have hreturn : (Machine.run Machine.asking 1).Returns
      [.refused true, .reply (.failed .transportDetached), .script []] Machine.unheeded :=
    Machine.returns_run (n := 11) [_] rfl (by decide) rfl
  obtain ⟨-, hsame, es, hes, hturns⟩ := hlistened _ hreturn
  exact ⟨rfl, (hbetween [.asked 8080] 0 _ 1 [] rfl (by simp)).2,
    hbefore [.asked 8080, .begun 0, .fired] 0 _ rfl, ⟨fs, hfs⟩, hsame, es, hes, hturns⟩

end LiveScene
