import LiveScene.Proofs.Server.Entries
import LiveScene.Proofs.Server.Sessions

/-!
# Messages within their session

A message is handed to the transport of the session there is, which says whether it is delivered
(`Event.CarriedBy`). Whatever is done to a server either hands over messages and leaves alone
what surrounds the server, its session included (`Server.Spoken`), or hands over none (`isMute`). So
a step that hands over a message is taken in a session and does not leave it
(`Machine.Reachable.spoken_of_step?`), every message in the journal stands after the beginning of
its session with no turn in between but the firing of its shutdown listeners, and no message of a
session comes after its link is gone (`messages_within_session`).
-/

namespace LiveScene

open Relation (ReflTransGen)

namespace Event

/-- The session in which an event hands over a message. -/
def session? : Event → Option Nat
  | broadcast n _ _ | sent n _ _ _ => some n
  | _ => none

/-- Whether an event hands over no message. -/
def isMute (e : Event) : Bool := e.session?.isNone

/-- A message of the session `n`, delivered if the transport `t` says so of the message with this
number. -/
inductive CarriedBy (n : Nat) (t : Transport) : Event → Prop where
  | broadcast (cs : List Command) (count : Nat) :
    CarriedBy n t (.broadcast n cs !t.broadcastFails count)
  | sent (c : Connection) (cs : List Command) (count : Nat) :
    CarriedBy n t (.sent n c cs !t.sendFails count)

theorem isMute_of_isRemark {e : Event} (h : e.isRemark) : e.isMute := by
  cases e <;> simp_all [isRemark, isMute, session?]

end Event

namespace Server

variable {s t u : Server}

/-- `t` comes from `s` in the same surroundings, and every message that has been entered was handed
to the transport of the session there is. -/
structure Spoken (s t : Server) : Prop where
  surroundings : t.surroundings = s.surroundings
  entered : ∃ es, t.journal.toList = s.journal.toList ++ es ∧
    ∀ e ∈ es, e.isMute = false → ∃ n x, s.course.handle = some (n, x) ∧ e.CarriedBy n x

theorem Spoken.trans (h : Spoken s t) (h' : Spoken t u) : Spoken s u := by
  obtain ⟨es, hes, hall⟩ := h.entered
  obtain ⟨fs, hfs, hall'⟩ := h'.entered
  rw [course_of_surroundings h.surroundings] at hall'
  exact ⟨h'.surroundings.trans h.surroundings, es ++ fs, by rw [hfs, hes, List.append_assoc],
    List.forall_mem_append.2 ⟨hall, hall'⟩⟩

/-- Without a message, it is enough that the surroundings stay. -/
theorem Entered.spoken (h : Entered Event.isMute s t) (hr : t.surroundings = s.surroundings) :
    Spoken s t := by
  obtain ⟨es, hes, hall⟩ := h
  exact ⟨hr, es, hes, fun e he hno => absurd (hall e he) (by simp [hno])⟩

theorem spoken_note (s : Server) (n : Notice) : Spoken s (s.note n) :=
  (entered_emit s rfl).spoken (surroundings_emit s rfl)

/-! ## Messages -/

/-- A message has been handed over, and perhaps some notices left. -/
theorem spoken_of_message {link : Link} {e : Event} (hlink : s.lifecycle.link = some link)
    (he : e.CarriedBy link.session link.transport) (hr : t.surroundings = s.surroundings)
    (ns : List Notice) (hj : t.journal.toList = s.journal.toList ++ e :: ns.map .noted) :
    Spoken s t := by
  have hhandle : s.course.handle = some (link.session, link.transport) := by
    simp [course, Lifecycle.course, hlink]
  refine ⟨hr, _, hj, List.forall_mem_cons.2 ⟨fun _ => ⟨_, _, hhandle, he⟩, ?_⟩⟩
  simp [Event.isMute, Event.session?]

theorem spoken_transmit (s : Server) (cs : List Command) : Spoken s (s.transmit cs) := by
  obtain ⟨es, h⟩ := handed_transmit s cs
  have hr := h.surroundings
  cases hlink : s.lifecycle.link with
  | none =>
    simp only [transmit, hlink]
    exact spoken_note s _
  | some link =>
    have hmessage := Event.CarriedBy.broadcast (n := link.session) (t := link.transport) cs
      link.broadcasts
    simp only [transmit, hlink] at hr ⊢
    split
    · next hfails =>
      rw [if_pos hfails] at hr
      exact spoken_of_message hlink hmessage hr [.broadcastFailed (messageBytes cs)]
        (by simp [note, emit])
    · next hfails =>
      rw [if_neg hfails] at hr
      exact spoken_of_message hlink hmessage hr [] (by simp [emit])

theorem spoken_send (s : Server) {link : Link} (hlink : s.lifecycle.link = some link)
    (c : Connection) (cs : List Command) : Spoken s (s.send link c cs) := by
  obtain ⟨es, h, -⟩ := handed_send s hlink c cs
  have hr := h.surroundings
  have hmessage := Event.CarriedBy.sent (n := link.session) (t := link.transport) c cs link.sends
  simp only [send] at hr ⊢
  split
  · next hfails =>
    rw [if_pos hfails] at hr
    exact spoken_of_message hlink hmessage hr [.replayFailed c] (by simp [note, emit])
  · next hfails =>
    rw [if_neg hfails] at hr
    exact spoken_of_message hlink hmessage hr [] (by simp [emit])

theorem spoken_transmitAll (s : Server) (ready : List (List Command)) :
    Spoken s (ready.foldl transmit s) := by
  induction ready generalizing s with
  | nil => exact (Entered.of_journal rfl).spoken rfl
  | cons cs ready ih => exact (spoken_transmit s cs).trans (ih _)

theorem spoken_release (s : Server) (taken : Option (List Command)) :
    Spoken s (s.release taken) := by
  cases taken with
  | none => exact (Entered.of_journal rfl).spoken rfl
  | some cs => exact (spoken_note s _).trans (spoken_transmit _ cs)

/-- Nothing of it depends on the outbox. -/
theorem Spoken.of_outbox {q : Outbox} (h : Spoken { s with outbox := q } t) : Spoken s t :=
  ⟨h.surroundings, h.entered⟩

theorem spoken_flush (s : Server) : Spoken s s.flush := (spoken_release _ _).of_outbox

theorem spoken_setAutoflush (s : Server) (on : Bool) : Spoken s (s.setAutoflush on) :=
  (spoken_release _ _).of_outbox

theorem spoken_replayTo (s : Server) (c : Connection) : Spoken s (s.replayTo c) := by
  unfold replayTo
  dsimp only
  split
  · next link hlink =>
    split
    · exact (Entered.of_journal rfl).spoken rfl
    · exact (spoken_note s _).trans (spoken_send (s.note _) hlink c _)
  · exact (Entered.of_journal rfl).spoken rfl

theorem spoken_greet (s : Server) (c : Connection) : Spoken s (s.greet c) := by
  unfold greet
  dsimp only
  split
  · exact (spoken_note s _).trans (spoken_replayTo _ c)
  · exact spoken_note s _

/-! ## Changes -/

theorem spoken_edit (s : Server) (f : Scene → Edit) : Spoken s (s.edit f) := by
  have hnotes : Spoken s (noteAll { s with scene := (f s.scene).scene } (f s.scene).notices) := by
    rw [noteAll_eq]
    refine Entered.spoken ⟨(f s.scene).notices.map .noted, by simp, ?_⟩ (by simp [surroundings])
    simp [Event.isMute, Event.session?]
  refine hnotes.trans (Spoken.trans ?_ (spoken_transmitAll _ _))
  refine Entered.spoken ?_ (surroundings_pushAll _ _)
  rw [pushAll_eq]
  exact ⟨(f s.scene).commands.map .queued, by simp, by simp [Event.isMute, Event.session?]⟩

theorem spoken_change (s : Server) (c : Change Listener) : Spoken s (s.change c).2 := by
  have hR : KeptByEdits Eq fun t u => t = u ∧ Spoken s t := by
    refine ⟨fun h => by rw [h.1], fun h => by rw [h.1], fun {t u} n h => ?_,
      fun {t u f g} hf h => ?_⟩
    · obtain ⟨rfl, h⟩ := h
      exact ⟨rfl, h.trans (spoken_note t n)⟩
    · obtain ⟨rfl, h⟩ := h
      exact ⟨congrArg t.edit hf.eq, h.trans (spoken_edit t f)⟩
  exact (hR.change (ChangePair.refl c) ⟨rfl, (Entered.of_journal rfl).spoken rfl⟩).2.2

/-! ## Whatever else is done -/

theorem mute_noteAll (s : Server) (ns : List Notice) :
    Entered Event.isMute s (s.noteAll ns) := by
  rw [noteAll_eq]
  exact ⟨ns.map .noted, by simp, by simp [Event.isMute, Event.session?]⟩

theorem mute_serve (s : Server) (port : UInt16) (t : Transport) :
    Entered Event.isMute s (s.serve port t).1 := by
  unfold serve
  split
  · exact Entered.trans (entered_emit _ rfl) (mute_noteAll _ _)
  · exact entered_emit s rfl

theorem mute_stop (s : Server) : Entered Event.isMute s s.stop.1 := by
  unfold stop
  split
  · next link l _ =>
    have hnoted : Entered Event.isMute s (note { s with lifecycle := l } .stopping) :=
      entered_emit _ rfl
    dsimp only
    split
    · exact hnoted
    · exact hnoted.trans (entered_emit _ rfl)
  · exact entered_emit s rfl

theorem mute_finish (s : Server) (n : Nat) : Entered Event.isMute s (s.finish n) := by
  have hdiscarded : Entered Event.isMute s s.discard := by
    have hdropped : Entered Event.isMute s
        (emit { s with outbox := s.outbox.discard.2 } (.discarded s.outbox.discard.1)) :=
      entered_emit _ rfl
    unfold discard
    dsimp only
    split
    · exact hdropped
    · exact hdropped.trans (entered_emit _ rfl)
  exact (hdiscarded.trans (entered_emit _ (e := .ended n) rfl)).trans (entered_emit _ rfl)

theorem mute_requestShutdown (s : Server) : Entered Event.isMute s s.requestShutdown := by
  unfold requestShutdown
  split
  · exact .of_journal rfl
  · exact entered_emit s rfl

theorem mute_wait (s : Server) (checks : List Check) (made : Nat) :
    Entered Event.isMute s (s.wait checks made).1 := by
  unfold wait
  dsimp only
  split
  · exact .of_journal rfl
  · exact Entered.trans (entered_emit _ rfl) (mute_stop _)
  · split <;> exact .of_journal rfl

theorem mute_dispatch (s : Server) (m : ViewerMessage) :
    Entered Event.isMute s (s.dispatch m).1 := by
  unfold dispatch
  dsimp only
  split <;> exact entered_emit _ rfl

/-! ## Calls -/

/-- `t` comes from `s` by handing over messages in the session there is, or none. -/
def Speaks (s t : Server) : Prop := Spoken s t ∨ Entered Event.isMute s t

theorem Speaks.head {e : Event} (h : Speaks (s.emit e) t) (he : e.isMute)
    (hturn : e.turn? = none) : Speaks s t := by
  have hemit : Entered Event.isMute s (s.emit e) := entered_emit s he
  rcases h with h | h
  · exact .inl ((hemit.spoken (surroundings_emit s hturn)).trans h)
  · exact .inr (hemit.trans h)

theorem speaks_hear (s : Server) (i : Inbound) : Speaks s (s.hear i).1 := by
  cases i with
  | connect c =>
    have hannounced : Entered Event.isMute (s.greet c) ((s.greet c).announce .connection).1 :=
      entered_emit _ rfl
    exact .inl ((spoken_greet s c).trans (hannounced.spoken (surroundings_emit _ rfl)))
  | disconnect c => exact .inr (entered_emit s rfl)
  | message c text =>
    simp only [hear]
    split
    · exact .inr (mute_dispatch s _)
    · exact .inr (entered_emit s rfl)
  | shutdownSignal =>
    simp only [hear]
    split
    · exact .inr (entered_emit _ rfl)
    · exact .inr (.of_journal rfl)

theorem speaks_make (s : Server) (c : Call) : Speaks s (s.make c).1 := by
  cases c with
  | change c => exact .inl (spoken_change s c)
  | on signal l => exact .inr (.of_journal rfl)
  | ask q => exact .inr (.of_journal rfl)
  | setAutoflush on => exact .inl (spoken_setAutoflush s on)
  | flush => exact .inl (spoken_flush s)
  | serve port t => exact .inr (mute_serve s port t)
  | stop => exact .inr (mute_stop s)
  | block checks => exact .inr (.of_journal rfl)
  | drop => exact .inr (.of_journal rfl)
  | hear i => exact speaks_hear s i

theorem speaks_call (s : Server) (c : Call) : Speaks s (s.call c).1 :=
  (speaks_make (s.emit (.called c)) c).head rfl rfl

theorem speaks_receive (s : Server) (nested : Bool) (c : Call) :
    Speaks s (s.receive nested c).1 := by
  have hsilent : Speaks s s := .inr (.of_journal rfl)
  cases c with
  | hear i =>
    simp only [receive]
    split
    · exact hsilent
    · split
      · exact speaks_call s _
      · cases i <;> exact .inr (entered_emit s rfl)
  | drop =>
    simp only [receive]
    split
    · exact speaks_call s _
    · exact hsilent
  | change _ | on _ _ | ask _ | setAutoflush _ | flush | serve _ _ | stop | block _ =>
    simp only [receive]
    split
    · exact speaks_call s _
    · exact hsilent

/-- An act hands over messages in the session there is, or none. -/
theorem Act.speaks (h : Act s t) : Speaks s t := by
  cases h with
  | remark e he => exact .inr (entered_emit s (Event.isMute_of_isRemark he))
  | fire l o => exact .inr (entered_emit _ rfl)
  | change c => exact Speaks.head (.inl (spoken_change _ c)) rfl rfl
  | register signal l => exact .inr (entered_emit s rfl)
  | report c m e he =>
    obtain ⟨text, rfl, -⟩ := Event.eq_called_of_report? he
    exact .inr (entered_emit s rfl)
  | flush => exact .inl (spoken_flush s)
  | setAutoflush on => exact .inl (spoken_setAutoflush s on)
  | connect c => exact Speaks.head (.inl (spoken_greet _ c)) rfl rfl
  | listen port _ => exact .inr (entered_emit s rfl)
  | accept port t address _ => exact .inr (Entered.trans (entered_emit _ rfl) (entered_emit _ rfl))
  | close n _ => exact .inr (entered_emit s rfl)
  | finish n _ => exact .inr (mute_finish s n)
  | start _ | refuse _ _ | claim _ | request _ | wake | detach _ | giveUp =>
    exact .inr (.of_journal rfl)

end Server

namespace Machine

open Server (Speaks Entered)

/-- A step hands over messages in the session there is, or none. -/
theorem speaks_of_step? {m m' : Machine} (h : m.step? = some m') :
    Speaks m.server m'.server := by
  obtain ⟨s, stack⟩ := m
  cases stack with
  | nil => cases h
  | cons f below =>
    cases h
    have hsilent : Speaks s s := .inr (.of_journal rfl)
    cases f with
    | script calls =>
      cases calls with
      | nil => exact hsilent
      | cons c calls => exact Server.speaks_receive s _ c
    | notify o called waiting =>
      cases waiting with
      | nil => exact hsilent
      | cons l waiting => exact .inr (Server.entered_emit _ rfl)
    | heard o index fails =>
      cases fails with
      | false => exact hsilent
      | true => exact .inr (Server.entered_emit s rfl)
    | listened port t address =>
      exact .inr (Entered.trans (Server.entered_emit _ rfl) (Server.entered_emit _ rfl))
    | refused opened => exact .inr (.of_journal rfl)
    | close link =>
      exact .inr (Entered.trans (Server.entered_emit _ rfl) (Server.mute_noteAll _ _))
    | closed n => exact .inr (Server.mute_finish s n)
    | requestShutdown => exact .inr (Server.mute_requestShutdown s)
    | wait checks made => exact .inr (Server.mute_wait s checks made)
    | checked failure checks made => cases failure <;> exact hsilent
    | reply r => exact .inr (Server.entered_emit s rfl)

end Machine

namespace Server

variable {s t : Server}

/-- The server serves, in the session with this number and over this transport. -/
structure Serves (s : Server) (n : Nat) (t : Transport) : Prop where
  phase : s.lifecycle.phase = .serving
  link : ∃ link, s.lifecycle.link = some link ∧ link.session = n ∧ link.transport = t

theorem Serves.session {n : Nat} {x : Transport} (h : s.Serves n x) :
    s.lifecycle.link.map (·.session) = some n := by
  obtain ⟨link, hlink, rfl, -⟩ := h.link
  simp [hlink]

theorem serves_of_handle {n : Nat} {x : Transport} (hs : s.Sound)
    (h : s.course.handle = some (n, x)) : s.Serves n x := by
  obtain ⟨link, hlink, hpair⟩ := Option.map_eq_some_iff.mp h
  cases hpair
  exact ⟨hs.linked.mp (by simp [hlink]), link, hlink, rfl, rfl⟩

/-- A link is one there was before, or that of a new session. -/
theorem link_of_acts {n : Nat} (h : ReflTransGen Act s t)
    (hn : t.lifecycle.link.map (·.session) = some n) :
    s.lifecycle.link.map (·.session) = some n ∨ s.lifecycle.sessions ≤ n := by
  induction h with
  | refl => exact Or.inl hn
  | tail h ha ih =>
    rcases ha.session with ⟨hsame, -⟩ | ⟨hnone, -⟩ | ⟨hnew, -⟩
    · exact ih (hsame.symm.trans hn)
    · simp [hnone] at hn
    · rw [hnew, Option.some.injEq] at hn
      exact Or.inr (hn ▸ sessions_le_of_acts h)

end Server

namespace Machine

open Server (Serves)

variable {config : Config} {host : Host} {m m' : Machine} {es : List Event} {e : Event} {n : Nat}

/-- A message is handed over in a step that is taken in its session and does not leave it, and to
the transport of that session. -/
theorem Reachable.spoken_of_step? (h : m.Reachable config host) (hstep : m.step? = some m')
    (hes : m'.server.journal.toList = m.server.journal.toList ++ es) (he : e ∈ es)
    (hn : e.session? = some n) :
    turnsIn es = [] ∧
      ∃ t, m.server.Serves n t ∧ m'.server.Serves n t ∧ e.CarriedBy n t := by
  have h' : m'.Reachable config host := h.tail (.step hstep)
  have hmessage : e.isMute = false := by simp [Event.isMute, hn]
  rcases speaks_of_step? hstep with hspoken | ⟨fs, hfs, hmute⟩
  · obtain ⟨fs, hfs, hall⟩ := hspoken.entered
    obtain rfl := List.append_cancel_left (hes.symm.trans hfs)
    have hturns := Server.turns_of_surroundings hspoken.surroundings
    rw [hes, turnsIn_append] at hturns
    obtain ⟨k, t, hhandle, hcarried⟩ := hall e he hmessage
    have hhandle' := (Server.course_of_surroundings hspoken.surroundings).symm ▸ hhandle
    obtain rfl : k = n := by
      cases hcarried <;> simpa [Event.session?] using hn
    exact ⟨List.append_right_eq_self.mp hturns, t, Server.serves_of_handle h.sound hhandle,
      Server.serves_of_handle h'.sound hhandle', hcarried⟩
  · obtain rfl := List.append_cancel_left (hes.symm.trans hfs)
    exact absurd (hmute e he) (by simp [hmessage])

/-- What a machine does next adds to its journal. -/
theorem Next.grows (h : Next m m') :
    ∃ es, m'.server.journal.toList = m.server.journal.toList ++ es := by
  cases h with
  | call s c => exact ⟨[], by simp [ofCall]⟩
  | step h =>
    rcases speaks_of_step? h with h | ⟨es, hes, -⟩
    · obtain ⟨es, hes, -⟩ := h.entered
      exact ⟨es, hes⟩
    · exact ⟨es, hes⟩

theorem grows_of_next (h : ReflTransGen Next m m') :
    ∃ es, m'.server.journal.toList = m.server.journal.toList ++ es := by
  induction h with
  | refl => exact ⟨[], by simp⟩
  | tail _ hnext ih =>
    obtain ⟨es, hes⟩ := ih
    obtain ⟨fs, hfs⟩ := hnext.grows
    exact ⟨es ++ fs, by rw [hfs, hes, List.append_assoc]⟩

/-- While there is a link, its session has begun, and no turn has followed but the firing. -/
theorem Reachable.journal_of_serves {t : Transport} (h : m.Reachable config host)
    (hn : m.server.Serves n t) :
    ∃ before within, m.server.journal.toList = before ++ .accepted n :: within ∧
      ∀ turn ∈ turnsIn within, turn = .fired := by
  obtain ⟨st, hpath, hat⟩ := h.onCourse
  obtain ⟨-, k, t', hhandle, -, hst⟩ := hat.of_serving hn.phase
  obtain ⟨link, hlink, rfl, -⟩ := hn.link
  obtain ⟨rfl, -⟩ : link.session = k ∧ link.transport = t' := by
    simpa [Server.course, Lifecycle.course, hlink] using hhandle
  obtain ⟨pre, mid, hturns, hmid⟩ : ∃ pre mid, turnsIn m.server.journal.toList =
      pre ++ .begun link.session :: mid ∧ ∀ turn ∈ mid, turn = .fired := by
    rw [hst] at hpath
    split at hpath
    · obtain ⟨pre, hpre⟩ := hpath.last_of_fired
      exact ⟨pre, [.fired], hpre, by simp⟩
    · obtain ⟨pre, hpre⟩ := hpath.last_of_live
      exact ⟨pre, [], hpre, by simp⟩
  obtain ⟨before, within, hjournal, rfl⟩ := split_of_turnsIn hturns
  exact ⟨before, within, hjournal, hmid⟩

/-- Every message in the journal comes after the beginning of its session, and before its end. -/
theorem Reachable.journal_of_message (h : m.Reachable config host) {pre post : List Event}
    (hjournal : m.server.journal.toList = pre ++ e :: post) (hn : e.session? = some n) :
    ∃ before within, pre = before ++ .accepted n :: within ∧
      ∀ turn ∈ turnsIn within, turn = .fired := by
  induction h generalizing pre post with
  | refl => simp [Server.new] at hjournal
  | @tail m₀ m₁ h hnext ih =>
    cases hnext with
    | call s c => exact ih hjournal
    | step hstep =>
    obtain ⟨es, hes⟩ := Next.grows (.step hstep)
    rcases split_append (hes.symm.trans hjournal) with ⟨bs, hold, -⟩ | ⟨as, rfl, hcons⟩
    · exact ih hold
    · -- the message is new: its session is the one there is
      have he : e ∈ es := hcons ▸ by simp
      obtain ⟨hturns, t, hserves, -⟩ := Reachable.spoken_of_step? h hstep hes he hn
      obtain ⟨before, within, hbefore, hwithin⟩ := Reachable.journal_of_serves h hserves
      refine ⟨before, within ++ as, by rw [hbefore]; simp, ?_⟩
      rw [hcons, turnsIn_append, List.append_eq_nil_iff] at hturns
      simpa [hturns.1] using hwithin

/-- A session without a link hands over no more messages. -/
theorem Reachable.session_of_message {m₂ : Machine} (h : m.Reachable config host)
    (hrun : ReflTransGen Next m m₂)
    (hes : m₂.server.journal.toList = m.server.journal.toList ++ es) (he : e ∈ es)
    (hn : e.session? = some n) :
    m.server.lifecycle.link.map (·.session) = some n ∨ m.server.lifecycle.sessions ≤ n := by
  induction hrun generalizing es with
  | refl =>
    obtain rfl : es = [] := by simpa using hes
    cases he
  | @tail m₁ m₂ hrun hnext ih =>
    cases hnext with
    | call s c => exact ih hes he
    | step hstep =>
      obtain ⟨ds, hds⟩ := grows_of_next hrun
      obtain ⟨fs, hfs⟩ := Next.grows (.step hstep)
      obtain rfl : es = ds ++ fs := by
        rw [hfs, hds, List.append_assoc] at hes
        exact (List.append_cancel_left hes).symm
      rcases List.mem_append.mp he with he | he
      · exact ih hds he
      · have h₁ : m₁.Reachable config host := h.trans hrun
        obtain ⟨-, t, hserves, -⟩ := h₁.spoken_of_step? hstep hfs he hn
        exact Server.link_of_acts (acts_of_next h.onDuty hrun).1 hserves.session

end Machine

open Machine (Next) in
/-- Whatever calls are made, in whatever order and nesting, there is a link exactly while the server
serves, and it is that of the session that began last, to the transport that was asked to listen for
it. A message is handed over only in a step that is taken in its session and does not leave it, and
to the transport of that session. So in the journal the message comes after the beginning of the
session, with no turn in between but the firing of its shutdown listeners; and a session that has
lost its link, as it does when it begins to stop, hands over nothing any more. -/
theorem messages_within_session {config : Config} {host : Host} {m : Machine}
    (h : m.Reachable config host) :
    (m.server.lifecycle.link.isSome ↔ m.server.lifecycle.phase = .serving) ∧
    (∀ link, m.server.lifecycle.link = some link →
      m.server.lifecycle.sessions = link.session + 1 ∧
        m.Began config host link.session link.transport) ∧
    (∀ m' es e n, m.step? = some m' →
      m'.server.journal.toList = m.server.journal.toList ++ es → e ∈ es → e.session? = some n →
        ∃ t, m.server.Serves n t ∧ m'.server.Serves n t ∧ e.CarriedBy n t) ∧
    (∀ pre e post n, m.server.journal.toList = pre ++ e :: post → e.session? = some n →
      ∃ before within, pre = before ++ .accepted n :: within ∧
        ∀ turn ∈ turnsIn within, turn = .fired) ∧
    (∀ m' es e n, ReflTransGen Next m m' →
      m'.server.journal.toList = m.server.journal.toList ++ es → e ∈ es → e.session? = some n →
        m.server.lifecycle.link.map (·.session) = some n ∨ m.server.lifecycle.sessions ≤ n) := by
  refine ⟨h.sound.linked, fun link hlink => ?_, fun m' es e n hstep hes he hn => ?_,
    fun pre e post n => h.journal_of_message, fun m' es e n => h.session_of_message⟩
  · have hhandle : m.server.course.handle = some (link.session, link.transport) := by
      simp [Server.course, Lifecycle.course, hlink]
    have hbegan := h.began (p := (link.session, link.transport))
      (List.mem_append_left _ (by simp [hhandle]))
    obtain ⟨st, -, hat⟩ := h.onCourse
    obtain ⟨-, n, t, hhandle', hsessions, -⟩ := hat.of_serving
      (h.sound.linked.mp (by simp [hlink]))
    obtain ⟨rfl, -⟩ : link.session = n ∧ link.transport = t := by simpa [hhandle] using hhandle'
    exact ⟨hsessions, hbegan⟩
  · exact (h.spoken_of_step? hstep hes he hn).2

/-- The note that waits is to be flushed. -/
def Machine.flushing : Machine := ofCall greeting.server .flush

theorem messages_within_session_flushing :
    ∃ t, Machine.flushing.server.Serves 0 t ∧ (Machine.flushing.run 1).server.Serves 0 t ∧
      Event.CarriedBy 0 t (.broadcast 0 [.create (.text .greeting)] true) := by
  obtain ⟨-, -, hstep, -, -⟩ := messages_within_session (m := Machine.flushing)
    (Machine.reachable_greeting.tail (.call _ _))
  exact hstep (Machine.flushing.run 1)
    [.called .flush, .noted (.flushing 1), .broadcast 0 [.create (.text .greeting)] true]
    _ 0 rfl rfl (by simp) rfl

end LiveScene
