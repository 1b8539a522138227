import LiveScene.Proofs.Server.Requests
import LiveScene.Proofs.Server.Returns

/-!
# Waiting

A wait is a loop that makes a check each time it comes round. What it does then depends only on what
it finds (`Machine.ComesRound`): without a session to wait for it returns; if a shutdown has been
requested it stops the session (`Machine.EndsSession`); else it makes its next check. Checks are
scripts, so from one round to the next anything may happen to the cycle, and also while listeners
are called for the stop. The turns of the session are nevertheless known, since there is but one way
from where it serves to where its transport is closed (`Machine.Reachable.turns_of_closed`).

A wait that has returned has gone through rounds of which all but the last made a check that
succeeded (`Machine.Waited`, `Machine.Returns.waited`). What is said of it as a whole
(`Machine.Concludes`) is by induction over these rounds.
-/

namespace LiveScene

open Relation (ReflTransGen)

namespace Machine

variable {config : Config} {host : Host} {m m' k : Machine} {rest : List Frame} {f : Frame}
  {r : Reply} {link : Link} {c : Check} {checks left cs : List Check} {made : Nat} {how : WaitEnd}
  {e : String}

/-! ## A round -/

/-- It returns at once with a reply, and nothing else is done. -/
def Answers (m : Machine) (r : Reply) (rest : List Frame) : Prop :=
  ∀ m', m.Returns rest m' ↔ m' = ⟨m.server.emit (.returned r), rest⟩

theorem answers_of_perform (hstack : m.stack = f :: rest)
    (hf : perform m.server rest f = (m.server, [.reply r])) : m.Answers r rest := by
  intro m'
  have hstep := step?_of_stack hstack
  rw [hf] at hstep
  exact (returns_iff_of_step? [] hstack hstep).trans (returns_reply_iff rfl)

/-- The session there is, over the transport of `link`, is stopped, and then a reply is given. -/
structure EndsSession (m : Machine) (link : Link) (r : Reply) (rest : List Frame) : Prop where
  /-- the shutdown listeners are called, unless they have been, and then the transport is closed -/
  stack : (m.run 1).stack = m.server.farewell ++ (.close link :: .reply r :: rest)
  /-- it returns when they have returned and the transport has -/
  returns_iff : ∀ m', m.Returns rest m' ↔
    ∃ k₁ k₂, (m.run 1).Returns (.close link :: .reply r :: rest) k₁ ∧
      (k₁.run 1).Returns (.closed link.session :: .reply r :: rest) k₂ ∧
      m' = ⟨(k₂.server.finish link.session).emit (.returned r), rest⟩
  idle : ∀ m', m.Returns rest m' →
    m'.server.lifecycle.phase = .idle ∧ m'.server.lifecycle.shutdownRequested = false
  /-- the listeners have been fired once since the session began, and the transport is closed -/
  turns : ∀ m', m.Returns rest m' →
    ∃ pre, turnsIn m.server.journal.toList = pre ++ .begun link.session ::
        (if m.server.lifecycle.shutdownFired then [.fired] else []) ∧
      turnsIn m'.server.journal.toList =
        pre ++ [.begun link.session, .fired, .closed link.session, .ended link.session]

/-- What a wait does when it comes round, having made some checks. -/
structure ComesRound (m : Machine) (left : List Check) (made : Nat) (rest : List Frame) : Prop where
  /-- without a session to wait for, it returns -/
  settled : m.server.lifecycle.Settled → m.Answers (.waited made .stopped) rest
  /-- on request, it stops the session and returns -/
  requested : m.server.lifecycle.Requested →
    ∃ link, m.server.lifecycle.link = some link ∧ m.EndsSession link (.waited made .stopped) rest
  /-- it makes its next check -/
  check : m.server.lifecycle.Polled → ∀ c left', left = c :: left' →
    m.run 1 = ⟨m.server, .script c.script :: .checked c.failure left' (made + 1) :: rest⟩
  /-- there is no check left to make -/
  outOfChecks : m.server.lifecycle.Polled → left = [] →
    m.Answers (.waited made .outOfChecks) rest

/-- From where a server serves to where the transport of that session is closed, the shutdown
listeners are fired unless they have been, whatever else happens. -/
theorem Reachable.turns_of_closed {below : List Frame} (h : m.Reachable config host)
    (hphase : m.server.lifecycle.phase = .serving) (hlink : m.server.lifecycle.link = some link)
    (hnext : ReflTransGen Next m k) (hstack : k.stack = .closed link.session :: below) :
    ∃ pre, turnsIn m.server.journal.toList = pre ++ .begun link.session ::
        (if m.server.lifecycle.shutdownFired then [.fired] else []) ∧
      turnsIn k.server.journal.toList =
        pre ++ [.begun link.session, .fired, .closed link.session] := by
  obtain ⟨st, hpath, hat⟩ := h.onCourse
  obtain ⟨ts, st', hts, hpath', hat'⟩ := course_of_next hat hnext
  have hduties : k.duties = .closed link.session :: below.filter Frame.isDuty := by
    rw [duties, hstack]
    rfl
  rw [hduties] at hat'
  obtain ⟨rfl, -⟩ := hat'.of_closed
  obtain ⟨-, n, t, hhandle, -, hst⟩ := hat.of_serving hphase
  obtain ⟨rfl, -⟩ : link.session = n ∧ link.transport = t := by
    simpa [Server.course, Lifecycle.course, hlink] using hhandle
  subst hst
  obtain ⟨pre, hpre, hclosed⟩ := Stage.Path.closed_of_open hpath hpath'
  exact ⟨pre, hpre, hts.trans hclosed⟩

/-- A wait that finds a request stops the session there is. -/
theorem Reachable.endsSession (h : m.Reachable config host)
    (hstack : m.stack = .wait left made :: rest) (hrequested : m.server.lifecycle.Requested) :
    ∃ link, m.server.lifecycle.link = some link ∧
      m.EndsSession link (.waited made .stopped) rest := by
  obtain ⟨hphase, hflag⟩ := hrequested
  obtain ⟨link, hlink⟩ := Option.isSome_iff_exists.mp (h.sound.linked.mpr hphase)
  obtain ⟨m₁, hstep, hstack₁, -, -⟩ := step?_of_requested hstack hflag hphase hlink
  obtain rfl : m.run 1 = m₁ := run_succ hstep 0
  have hreturns (m' : Machine) : m.Returns rest m' ↔ _ :=
    (returns_iff_of_step? [] hstack hstep).trans (returns_close_iff hstack₁)
  refine ⟨link, hlink, hstack₁, hreturns, fun m' hreturn => ?_, fun m' hreturn => ?_⟩
  all_goals obtain ⟨k₁, k₂, h₁, h₂, rfl⟩ := (hreturns m').1 hreturn
  · obtain ⟨es, hfinish, -⟩ := Server.finish_eq k₂.server link.session
    rw [hfinish]
    exact ⟨rfl, rfl⟩
  · have hnext : ReflTransGen Next m k₂ :=
      .head (.step hstep) (h₁.next.trans ((next_run k₁ 1).trans h₂.next))
    obtain ⟨pre, hpre, hturns⟩ := h.turns_of_closed hphase hlink hnext h₂.stack
    have hended : turnsIn (k₂.server.finish link.session).journal.toList = _ :=
      congrArg Course.turns (Server.course_finish k₂.server link.session)
    refine ⟨pre, hpre, ?_⟩
    simp [Server.emit, Event.turn?, hended, Server.course, Lifecycle.course, hturns]

/-- A wait that finds something to wait for makes its next check. -/
theorem step?_of_polled (hstack : m.stack = .wait (c :: left) made :: rest)
    (hpolled : m.server.lifecycle.Polled) :
    m.step? =
      some ⟨m.server, .script c.script :: .checked c.failure left (made + 1) :: rest⟩ := by
  rw [step?_of_stack hstack]
  simp [perform, Server.wait, Lifecycle.wake_of_polled hpolled]

theorem Reachable.comesRound (h : m.Reachable config host)
    (hstack : m.stack = .wait left made :: rest) : m.ComesRound left made rest where
  settled hsettled := answers_of_perform hstack (by
    simp [perform, Server.wait, Lifecycle.wake_of_settled hsettled])
  requested := h.endsSession hstack
  check hpolled c left' hleft := by
    subst hleft
    exact run_succ (step?_of_polled hstack hpolled) 0
  outOfChecks hpolled hleft := by
    subst hleft
    exact answers_of_perform hstack (by
      simp [perform, Server.wait, Lifecycle.wake_of_polled hpolled])

/-- A check that fails ends the wait, with nothing done after it. -/
theorem answers_of_failed (hstack : m.stack = .checked (some e) left made :: rest) :
    m.Answers (.waited made (.failed e)) rest :=
  answers_of_perform hstack rfl

/-- After a check that has succeeded the wait comes round. -/
theorem step?_of_succeeded (hstack : m.stack = .checked none left made :: rest) :
    m.step? = some ⟨m.server, .wait left made :: rest⟩ :=
  step?_of_stack hstack

/-! ## All rounds -/

/-- A wait makes a check, which is done at `k`. -/
structure Checks (m : Machine) (c : Check) (left : List Check) (made : Nat) (rest : List Frame)
    (k : Machine) : Prop where
  stack : m.stack = .wait (c :: left) made :: rest
  polled : m.server.lifecycle.Polled
  returns : Returns (.checked c.failure left (made + 1) :: rest)
    ⟨m.server, .script c.script :: .checked c.failure left (made + 1) :: rest⟩ k

/-- The rounds of a wait that has returned: the checks made, how it ended, and what the machine has
come to. -/
inductive Waited (rest : List Frame) : Machine → List Check → WaitEnd → Machine → Prop
  /-- there is no session to wait for -/
  | settled {m : Machine} {left : List Check} {made : Nat}
    (hstack : m.stack = .wait left made :: rest) (h : m.server.lifecycle.Settled) :
    Waited rest m [] .stopped ⟨m.server.emit (.returned (.waited made .stopped)), rest⟩
  /-- the session is stopped on request -/
  | requested {m m' : Machine} {left : List Check} {made : Nat}
    (hstack : m.stack = .wait left made :: rest) (h : m.server.lifecycle.Requested)
    (hreturn : m.Returns rest m') : Waited rest m [] .stopped m'
  /-- there is no check left to make -/
  | outOfChecks {m : Machine} {made : Nat} (hstack : m.stack = .wait [] made :: rest)
    (h : m.server.lifecycle.Polled) :
    Waited rest m [] .outOfChecks ⟨m.server.emit (.returned (.waited made .outOfChecks)), rest⟩
  /-- a check fails -/
  | failed {m k : Machine} {c : Check} {left : List Check} {made : Nat} {e : String}
    (h : m.Checks c left made rest k) (he : c.failure = some e) :
    Waited rest m [c] (.failed e)
      ⟨k.server.emit (.returned (.waited (made + 1) (.failed e))), rest⟩
  /-- a check succeeds, and the wait comes round -/
  | again {m k m' : Machine} {c : Check} {left cs : List Check} {made : Nat} {how : WaitEnd}
    (h : m.Checks c left made rest k) (he : c.failure = none)
    (hwaited : Waited rest ⟨k.server, .wait left (made + 1) :: rest⟩ cs how m') :
    Waited rest m (c :: cs) how m'

theorem Checks.next (h : m.Checks c left made rest k) : ReflTransGen Next m k :=
  .head (.step (step?_of_polled h.stack h.polled)) h.returns.next

/-- After a check that has succeeded the wait comes round at a reachable machine. -/
theorem Checks.next_again (h : m.Checks c left made rest k) (he : c.failure = none) :
    ReflTransGen Next m ⟨k.server, .wait left (made + 1) :: rest⟩ :=
  h.next.tail (.step (step?_of_succeeded (he ▸ h.returns.stack)))

/-- A wait that returns and finds something to wait for has made its next check before. -/
theorem Returns.next_check (hreturn : m.Returns rest m')
    (hstack : m.stack = .wait (c :: left) made :: rest) (hpolled : m.server.lifecycle.Polled) :
    ∃ k, m.Checks c left made rest k ∧ k.Returns rest m' := by
  obtain ⟨m₁, hstep, hreturn⟩ := hreturn.step [] hstack
  obtain rfl := Option.some.inj (hstep.symm.trans (step?_of_polled hstack hpolled))
  obtain ⟨k, hk, hreturn⟩ :=
    hreturn.through [_] [.checked c.failure left (made + 1)] rfl
  exact ⟨k, ⟨hstack, hpolled, hk⟩, hreturn⟩

/-- A wait that makes no check any more has gone through its last round. -/
theorem Returns.waited_or_polled (hreturn : m.Returns rest m') (h : m.Reachable config host)
    (hstack : m.stack = .wait left made :: rest) :
    (∃ cs how, m.Waited rest cs how m') ∨ m.server.lifecycle.Polled := by
  rcases m.server.lifecycle.settled_or_requested_or_polled with hsettled | hrequested | hpolled
  · obtain rfl := ((h.comesRound hstack).settled hsettled m').1 hreturn
    exact .inl ⟨_, _, .settled hstack hsettled⟩
  · exact .inl ⟨_, _, .requested hstack hrequested hreturn⟩
  · exact .inr hpolled

/-- Every wait that has returned has gone through rounds. -/
theorem Returns.waited (hreturn : m.Returns rest m') (h : m.Reachable config host)
    (hstack : m.stack = .wait left made :: rest) : ∃ cs how, m.Waited rest cs how m' := by
  induction left generalizing m made with
  | nil =>
    rcases hreturn.waited_or_polled h hstack with hwaited | hpolled
    · exact hwaited
    · obtain rfl := ((h.comesRound hstack).outOfChecks hpolled rfl m').1 hreturn
      exact ⟨_, _, .outOfChecks hstack hpolled⟩
  | cons c left ih =>
    rcases hreturn.waited_or_polled h hstack with hwaited | hpolled
    · exact hwaited
    obtain ⟨k, hchecks, hreturn⟩ := hreturn.next_check hstack hpolled
    have hkstack := hchecks.returns.stack
    cases he : c.failure with
    | some e =>
      rw [he] at hkstack
      obtain rfl := (answers_of_failed hkstack m').1 hreturn
      exact ⟨_, _, .failed hchecks he⟩
    | none =>
      rw [he] at hkstack
      have hagain := (returns_iff_of_step? [] hkstack (step?_of_succeeded hkstack)).1 hreturn
      obtain ⟨cs, how, hwaited⟩ := ih hagain (h.trans (hchecks.next_again he)) rfl
      exact ⟨_, _, .again hchecks he hwaited⟩

namespace Waited

/-- A wait makes its checks in order, none twice and none left out. -/
theorem isPrefix (h : m.Waited rest cs how m') (hstack : m.stack = .wait left made :: rest) :
    cs <+: left := by
  induction h generalizing left made with
  | settled _ _ | requested _ _ _ | outOfChecks _ _ => exact List.nil_prefix
  | failed hchecks _ =>
    cases hchecks.stack.symm.trans hstack
    exact List.prefix_iff_eq_append.mpr rfl
  | again hchecks _ _ ih =>
    cases hchecks.stack.symm.trans hstack
    exact List.cons_prefix_cons.mpr ⟨rfl, ih rfl⟩

/-- The reply of a wait tells how many checks it has made, and how it ended. -/
theorem reply (h : m.Waited rest cs how m') (hm : m.Reachable config host)
    (hstack : m.stack = .wait left made :: rest) :
    ∃ s : Server, m' = ⟨s.emit (.returned (.waited (made + cs.length) how)), rest⟩ := by
  induction h generalizing left made with
  | settled hround _ | outOfChecks hround _ =>
    cases hround.symm.trans hstack
    exact ⟨_, rfl⟩
  | requested hround hrequested hreturn =>
    cases hround.symm.trans hstack
    obtain ⟨link, -, hends⟩ := hm.endsSession hround hrequested
    obtain ⟨-, k, -, -, rfl⟩ := (hends.returns_iff _).1 hreturn
    exact ⟨_, rfl⟩
  | failed hchecks _ =>
    cases hchecks.stack.symm.trans hstack
    exact ⟨_, rfl⟩
  | again hchecks he _ ih =>
    cases hchecks.stack.symm.trans hstack
    rw [List.length_cons, Nat.add_comm _ 1, ← Nat.add_assoc]
    exact ih (hm.trans (hchecks.next_again he)) rfl

/-- A wait that returns without an error does so when the server is idle or stops. -/
theorem settled_of_stopped (h : m.Waited rest cs .stopped m') (hm : m.Reachable config host) :
    m'.server.lifecycle.Settled := by
  generalize hhow : WaitEnd.stopped = how at h
  induction h with
  | settled _ hsettled => exact hsettled
  | requested hstack hrequested hreturn =>
    obtain ⟨link, -, hends⟩ := hm.endsSession hstack hrequested
    exact .inl (hends.idle _ hreturn).1
  | outOfChecks _ _ | failed _ _ => cases hhow
  | again hchecks he _ ih => exact ih (hm.trans (hchecks.next_again he)) hhow

/-- A wait returns an error exactly when a check has failed with it. -/
theorem failed_iff (h : m.Waited rest cs how m') :
    how = .failed e ↔ ∃ c ∈ cs, c.failure = some e := by
  induction h with
  | settled _ _ | requested _ _ _ | outOfChecks _ _ => simp
  | failed _ he => simp [he]
  | again _ he _ ih => simp [ih, he]

/-- The check that has failed is the last one, and nothing is changed after it. -/
theorem of_failed (h : m.Waited rest cs (.failed e) m')
    (hstack : m.stack = .wait left made :: rest) :
    ∃ init c left' k, cs = init ++ [c] ∧ (∀ d ∈ init, d.failure = none) ∧ c.failure = some e ∧
      ReflTransGen Next m k ∧ k.stack = .checked (some e) left' (made + cs.length) :: rest ∧
      m' = ⟨k.server.emit (.returned (.waited (made + cs.length) (.failed e))), rest⟩ := by
  generalize hhow : WaitEnd.failed e = how at h
  induction h generalizing left made with
  | settled _ _ | requested _ _ _ | outOfChecks _ _ => cases hhow
  | @failed m k c left₁ made₁ e₁ hchecks he =>
    cases hhow
    cases hchecks.stack.symm.trans hstack
    exact ⟨[], c, left₁, k, rfl, by simp, he, hchecks.next, he ▸ hchecks.returns.stack, rfl⟩
  | @again m k m' c left₁ cs made₁ how hchecks he hwaited ih =>
    cases hchecks.stack.symm.trans hstack
    obtain ⟨init, d, left', k', rfl, hinit, hd, hnext, hk', rfl⟩ := ih rfl hhow
    have hlength : made₁ + (c :: (init ++ [d])).length = made₁ + 1 + (init ++ [d]).length := by
      rw [List.length_cons, Nat.add_comm _ 1, ← Nat.add_assoc]
    rw [hlength]
    exact ⟨c :: init, d, left', k', rfl, List.forall_mem_cons.mpr ⟨he, hinit⟩, hd,
      (hchecks.next_again he).trans hnext, hk', rfl⟩

/-- A wait that is out of checks has made them all. -/
theorem eq_of_outOfChecks (h : m.Waited rest cs .outOfChecks m')
    (hstack : m.stack = .wait left made :: rest) : cs = left := by
  generalize hhow : WaitEnd.outOfChecks = how at h
  induction h generalizing left made with
  | settled _ _ | requested _ _ _ | failed _ _ => cases hhow
  | outOfChecks hround _ =>
    cases hround.symm.trans hstack
    rfl
  | again hchecks _ _ ih =>
    cases hchecks.stack.symm.trans hstack
    rw [ih rfl hhow]

end Waited

/-- What a wait has come to when it returns: of the checks that were left it has made `cs`. -/
structure Concludes (m : Machine) (left : List Check) (made : Nat) (rest : List Frame)
    (cs : List Check) (how : WaitEnd) (m' : Machine) : Prop where
  waited : m.Waited rest cs how m'
  first : cs <+: left
  reply : ∃ s : Server, m' = ⟨s.emit (.returned (.waited (made + cs.length) how)), rest⟩
  /-- it returns without an error only when the server is idle or stops -/
  stopped : how = .stopped → m'.server.lifecycle.Settled
  /-- it returns an error exactly when a check has failed with it -/
  failed_iff : ∀ e, how = .failed e ↔ ∃ c ∈ cs, c.failure = some e
  /-- that check is the last one, and nothing is changed after it -/
  failed : ∀ e, how = .failed e → ∃ init c left' k,
    cs = init ++ [c] ∧ (∀ d ∈ init, d.failure = none) ∧ c.failure = some e ∧
      ReflTransGen Next m k ∧ k.stack = .checked (some e) left' (made + cs.length) :: rest ∧
      m' = ⟨k.server.emit (.returned (.waited (made + cs.length) (.failed e))), rest⟩
  /-- it is out of checks when it has made them all -/
  outOfChecks : how = .outOfChecks → cs = left

theorem Returns.concludes (hreturn : m.Returns rest m') (h : m.Reachable config host)
    (hstack : m.stack = .wait left made :: rest) :
    ∃ cs how, m.Concludes left made rest cs how m' := by
  obtain ⟨cs, how, hwaited⟩ := hreturn.waited h hstack
  exact ⟨cs, how,
    { waited := hwaited
      first := hwaited.isPrefix hstack
      reply := hwaited.reply h hstack
      stopped hhow := (hhow ▸ hwaited).settled_of_stopped h
      failed_iff _ := hwaited.failed_iff
      failed _ hhow := (hhow ▸ hwaited).of_failed hstack
      outOfChecks hhow := (hhow ▸ hwaited).eq_of_outOfChecks hstack }⟩

/-- A call to wait comes round first with all its checks left. -/
theorem run_block {calls : List Call} {below : List Frame}
    (hstack : m.stack = .script (.block checks :: calls) :: below) (hheld : m.server.held = true) :
    m.run 1 =
      ⟨m.server.emit (.called (.block checks)), .wait checks 0 :: .script calls :: below⟩ := by
  rw [run_succ (step?_of_stack hstack)]
  simp [run, perform, Server.receive, Server.call, Server.make, hheld]

end Machine

/-- At every reachable machine, whatever its checks, listeners and transports do: a call to wait
goes into its loop; where the loop comes round it returns, stops the session on request or makes the
next check, as it finds the cycle; after a check it comes round again, or returns the error with
which the check has failed; and when it has returned, it was without an error only if the server was
idle or stopped then, and with an error exactly if its last check has failed with it and nothing has
been changed since. A request that is pending stays, but for a wait that takes it up and the end of
the session. -/
theorem wait_honours_signals {config : Config} {host : Host} {m : Machine}
    (h : m.Reachable config host) :
    (∀ checks calls below, m.stack = .script (.block checks :: calls) :: below →
      m.server.held = true → m.run 1 =
        ⟨m.server.emit (.called (.block checks)), .wait checks 0 :: .script calls :: below⟩) ∧
    (∀ left made rest, m.stack = .wait left made :: rest → m.ComesRound left made rest) ∧
    (∀ e left made rest, m.stack = .checked (some e) left made :: rest →
      m.Answers (.waited made (.failed e)) rest) ∧
    (∀ left made rest, m.stack = .checked none left made :: rest →
      m.run 1 = ⟨m.server, .wait left made :: rest⟩) ∧
    (∀ left made rest m', m.stack = .wait left made :: rest → m.Returns rest m' →
      ∃ cs how, m.Concludes left made rest cs how m') ∧
    (m.server.lifecycle.shutdownRequested = true →
      (m.server.lifecycle.phase = .serving ∨ m.server.lifecycle.phase = .stopping) ∧
      ∀ m', m.Next m' →
        m'.server.lifecycle.sessions = m.server.lifecycle.sessions ∧
          (m'.server.lifecycle.shutdownRequested = true ∨
            (∃ left made rest, m.stack = .wait left made :: rest ∧
              m.server.lifecycle.phase = .serving) ∨
            ∃ n rest, m.stack = .closed n :: rest ∧ m.server.lifecycle.sessions = n + 1)) :=
  ⟨fun _ _ _ => Machine.run_block, fun _ _ _ => h.comesRound,
    fun _ _ _ _ => Machine.answers_of_failed,
    fun _ _ _ hstack => Machine.run_succ (Machine.step?_of_succeeded hstack) 0,
    fun _ _ _ _ hstack hreturn => hreturn.concludes h hstack,
    fun hrequested => ⟨h.timely hrequested, fun _ => h.request_next hrequested⟩⟩

/-- A check during which the process is asked to stop. -/
def Check.signalled : Check := ⟨[.hear .shutdownSignal], none⟩

namespace Machine

/-- It serves and is about to wait, with one check to make. -/
def awaiting : Machine := run (ofCall serving.server (.block [.signalled])) 1

/-- The check is done, and a shutdown has been requested. -/
def told : Machine := run awaiting 7

/-- The wait has returned. -/
def awoken : Machine := run told 5

theorem reachable_awaiting : awaiting.Reachable ⟨false, true⟩ .blank :=
  (Reachable.callRun (m := ⟨.new ⟨false, true⟩ .blank, []⟩) .refl rfl _ 5).callRun rfl _ 1

end Machine

theorem wait_honours_signals_awoken :
    (∃ link, Machine.told.server.lifecycle.link = some link ∧
      Machine.told.EndsSession link (.waited 1 .stopped) [.script []]) ∧
    Machine.told.server.lifecycle.shutdownRequested = true ∧
    (Machine.run Machine.told 1).server.lifecycle.sessions = 1 ∧
    Machine.awaiting.Concludes [.signalled] 0 [.script []] [.signalled] .stopped
      Machine.awoken := by
  have htold : Machine.told.Reachable ⟨false, true⟩ .blank :=
    Machine.reachable_awaiting.trans (Machine.next_run _ 7)
  have hreturn : Machine.awaiting.Returns [.script []] Machine.awoken :=
    Machine.returns_run (n := 12) [_] rfl (by decide) rfl
  obtain ⟨-, -, -, -, hconcludes, -⟩ := wait_honours_signals Machine.reachable_awaiting
  obtain ⟨-, hround, -, -, -, hpending⟩ := wait_honours_signals htold
  obtain ⟨cs, how, h⟩ := hconcludes [.signalled] 0 [.script []] _ rfl hreturn
  refine ⟨(hround [] 1 [.script []] rfl).requested ⟨rfl, rfl⟩, rfl,
    ((hpending rfl).2 _ (.step rfl)).1, ?_⟩
  obtain ⟨s, hs⟩ := h.reply
  have hlast : some (Event.returned (.waited 1 .stopped)) =
      some (.returned (.waited (0 + cs.length) how)) :=
    (congrArg (·.server.journal.back?) hs).trans Array.back?_push
  obtain ⟨hlength, rfl⟩ : cs.length = 1 ∧ how = .stopped := by simpa using hlast.symm
  rwa [h.first.eq_of_length hlength] at h

end LiveScene
