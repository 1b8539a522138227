import LiveScene.Proofs.Server.Acts

/-!
# What is entered in the journal

Each act enters events of a few sorts only. A change that is called enters its call and then nothing
but commands, broadcasts and notices (`Server.entered_change`); a viewer that connects has the call
and what is sent to that viewer entered (`Server.entered_greet`); and whatever else is done to a
server leaves its scene alone, but for listeners to signals and what viewers report, and enters
events of which none is queued, sent to one viewer or the call of a change (`Server.Calm`,
`Server.Act.sorts`).
-/

namespace LiveScene

open Relation (ReflTransGen)

namespace Event

/-- Whether an event may come of handing a message over: the message, for all viewers, or a
notice. -/
def isDispatch : Event → Bool
  | broadcast _ _ _ | noted _ => true
  | _ => false

/-- Whether an event may come of a change: a command that is queued, or what comes of handing it
over. -/
def isTraffic : Event → Bool
  | queued _ => true
  | e => e.isDispatch

/-- Whether an event may come of greeting a viewer: a message for that viewer or a notice. -/
def isGreeting (c : Connection) : Event → Bool
  | sent _ d _ _ => d = c
  | noted _ => true
  | _ => false

/-- Whether an event may come of the end of a session: commands that are dropped, the end itself or
a notice. -/
def isEnding : Event → Bool
  | discarded _ | ended _ | noted _ => true
  | _ => false

/-- Whether an event is none of what changes and greetings enter, a notice or broadcast apart. -/
def isCalm : Event → Bool
  | queued _ | sent _ _ _ _ | called (.change _) => false
  | _ => true

theorem isTraffic_of_isDispatch {e : Event} (h : e.isDispatch) : e.isTraffic := by
  cases e <;> simp_all [isDispatch, isTraffic]

theorem isCalm_of_isDispatch {e : Event} (h : e.isDispatch) : e.isCalm := by
  cases e <;> simp_all [isDispatch, isCalm]

theorem isCalm_of_isEnding {e : Event} (h : e.isEnding) : e.isCalm := by
  cases e <;> simp_all [isEnding, isCalm]

theorem uncalled_of_isCalm {e : Event} (h : e.isCalm) :
    e.queued? = none ∧ ∀ d, e ≠ called (.change d) := by
  refine ⟨?_, fun d hd => ?_⟩
  · cases e <;> simp_all [isCalm, queued?]
  · subst hd
    cases h

theorem uncalled_of_isGreeting {c : Connection} {e : Event} (h : e.isGreeting c) :
    e.queued? = none ∧ ∀ d, e ≠ called (.change d) := by
  refine ⟨?_, fun d hd => ?_⟩
  · cases e <;> simp_all [isGreeting, queued?]
  · subst hd
    cases h

theorem isCalm_of_isRemark {e : Event} (h : e.isRemark) : e.isCalm := by
  cases e with
  | called c => cases c <;> simp_all [isRemark, isCalm]
  | _ => simp_all [isRemark, isCalm]

end Event

namespace Server

variable {s t u : Server} {p q : Event → Bool}

/-- `t` has entered events in the journal of `s`, all of a sort. -/
def Entered (p : Event → Bool) (s t : Server) : Prop :=
  ∃ es, t.journal.toList = s.journal.toList ++ es ∧ ∀ e ∈ es, p e

theorem Entered.of_journal (h : t.journal = s.journal) : Entered p s t :=
  ⟨[], by simp [h], fun _ he => nomatch he⟩

theorem Entered.trans (h : Entered p s t) (h' : Entered p t u) : Entered p s u := by
  obtain ⟨es, hes, hall⟩ := h
  obtain ⟨fs, hfs, hall'⟩ := h'
  exact ⟨es ++ fs, by rw [hfs, hes, List.append_assoc], List.forall_mem_append.mpr ⟨hall, hall'⟩⟩

theorem Entered.mono (h : Entered p s t) (hpq : ∀ e, p e → q e) : Entered q s t := by
  obtain ⟨es, hes, hall⟩ := h
  exact ⟨es, hes, fun e he => hpq e (hall e he)⟩

theorem entered_emit (s : Server) {e : Event} (h : p e) : Entered p s (s.emit e) :=
  ⟨[e], by simp, by simpa using h⟩

/-! ## Messages for all viewers -/

theorem entered_transmit (s : Server) (cs : List Command) :
    Entered Event.isDispatch s (s.transmit cs) := by
  unfold transmit
  split
  · exact entered_emit s rfl
  · next link _ =>
    have h : Entered Event.isDispatch s
        (emit { s with lifecycle.link := some { link with broadcasts := link.broadcasts + 1 } }
          (.broadcast link.session cs !link.transport.broadcastFails link.broadcasts)) :=
      ⟨[.broadcast link.session cs !link.transport.broadcastFails link.broadcasts], by simp [emit],
        by simp [Event.isDispatch]⟩
    dsimp only
    split
    · exact h.trans (entered_emit _ rfl)
    · exact h

theorem entered_transmitAll (s : Server) (ready : List (List Command)) :
    Entered Event.isDispatch s (ready.foldl transmit s) := by
  induction ready generalizing s with
  | nil => exact .of_journal rfl
  | cons cs ready ih => exact (entered_transmit s cs).trans (ih _)

theorem entered_release (s : Server) (taken : Option (List Command)) :
    Entered Event.isDispatch s (s.release taken) := by
  cases taken with
  | none => exact .of_journal rfl
  | some cs => exact (entered_emit s rfl).trans (entered_transmit _ cs)

/-! ## Changes -/

theorem entered_noteAll (s : Server) (ns : List Notice) :
    Entered Event.isTraffic s (s.noteAll ns) := by
  rw [noteAll_eq]
  refine ⟨ns.map .noted, by simp, ?_⟩
  simp [Event.isTraffic, Event.isDispatch]

theorem entered_pushAll (s : Server) (cs : List Command) :
    Entered Event.isTraffic s (s.pushAll cs).2 := by
  rw [pushAll_eq]
  refine ⟨cs.map .queued, by simp, ?_⟩
  simp [Event.isTraffic]

theorem entered_edit (s : Server) (f : Scene → Edit) :
    Entered Event.isTraffic s (s.edit f) := by
  have hnotes := entered_noteAll { s with scene := (f s.scene).scene } (f s.scene).notices
  have hpushed := hnotes.trans (entered_pushAll _ (f s.scene).commands)
  exact hpushed.trans ((entered_transmitAll _ _).mono fun _ => Event.isTraffic_of_isDispatch)

/-- Of what an edit enters, its commands are all that is queued. -/
theorem journal_edit (s : Server) (f : Scene → Edit) :
    ∃ es, (s.edit f).journal.toList = s.journal.toList ++ es ∧ (∀ e ∈ es, e.isTraffic) ∧
      queuedIn es = (f s.scene).commands := by
  obtain ⟨es, hes, hall⟩ := entered_edit s f
  obtain ⟨t, ns, ms, hnotes, hmessages⟩ := edit_shape s f
  rw [pushAll_eq] at hmessages
  have hsame : s.journal.toList ++ es =
      s.journal.toList ++ (ns ++ ((f s.scene).commands.map .queued ++ ms)) := by
    rw [← hes, hmessages.journal]
    simp [hnotes.journal]
  refine ⟨es, hes, hall, ?_⟩
  rw [List.append_cancel_left hsame]
  simp [hnotes.queued, hmessages.queued]

theorem entered_change (s : Server) (c : Change Listener) :
    Entered Event.isTraffic s (s.change c).2 := by
  have hR : KeptByEdits Eq fun t u => t = u ∧ Entered Event.isTraffic s t := by
    refine ⟨fun h => by rw [h.1], fun h => by rw [h.1], fun {t u} n h => ?_,
      fun {t u f g} hf h => ?_⟩
    · obtain ⟨rfl, h⟩ := h
      exact ⟨rfl, h.trans (entered_emit t rfl)⟩
    · obtain ⟨rfl, h⟩ := h
      exact ⟨congrArg t.edit hf.eq, h.trans (entered_edit t f)⟩
  exact (hR.change (ChangePair.refl c) ⟨rfl, .of_journal rfl⟩).2.2

/-! ## Messages for one viewer -/

/-- The message is entered, and a notice if it is not delivered. -/
theorem journal_send (s : Server) (link : Link) (c : Connection) (cs : List Command) :
    ∃ delivered, ∃ ns : List Notice, (s.send link c cs).journal.toList =
      s.journal.toList ++ .sent link.session c cs delivered :: ns.map .noted := by
  refine ⟨!link.transport.sendFails link.sends, ?_⟩
  unfold send
  dsimp only
  split
  · exact ⟨[.replayFailed c], by simp [note, emit]⟩
  · exact ⟨[], by simp [emit]⟩

theorem entered_send (s : Server) (link : Link) (c : Connection) (cs : List Command) :
    Entered (Event.isGreeting c) s (s.send link c cs) := by
  obtain ⟨delivered, ns, hsend⟩ := journal_send s link c cs
  exact ⟨_, hsend, by simp [Event.isGreeting]⟩

theorem entered_replayTo (s : Server) (c : Connection) :
    Entered (Event.isGreeting c) s (s.replayTo c) := by
  unfold replayTo
  dsimp only
  split
  · split
    · exact .of_journal rfl
    · exact (entered_emit s rfl).trans (entered_send _ _ c _)
  · exact .of_journal rfl

theorem entered_greet (s : Server) (c : Connection) :
    Entered (Event.isGreeting c) s (s.greet c) := by
  unfold greet
  dsimp only
  split
  · exact (entered_emit s rfl).trans (entered_replayTo _ c)
  · exact entered_emit s rfl

/-! ## Acts -/

/-- `t` comes from `s` without a change and without a greeting: its scene differs at most in
listeners to signals and in what a viewer has reported. -/
structure Calm (s t : Server) : Prop where
  scene : t.scene = s.scene ∨
    (∃ signal l, t.scene = { s.scene with registry := s.scene.registry.add signal l }) ∨
    ∃ m, t.scene = s.scene.record m
  entered : Entered Event.isCalm s t

theorem Calm.of_scene (hscene : t.scene = s.scene) (h : Entered Event.isCalm s t) : Calm s t :=
  ⟨Or.inl hscene, h⟩

/-- An act without events that leaves the scene alone. -/
theorem Calm.of_silent (hscene : t.scene = s.scene) (h : t.journal = s.journal) : Calm s t :=
  .of_scene hscene (.of_journal h)

theorem calm_release (s : Server) (q : Outbox) (taken : Option (List Command)) :
    Calm s (release { s with outbox := q } taken) := by
  obtain ⟨es, h⟩ := handed_release { s with outbox := q } taken
  exact .of_scene h.scene ((entered_release _ taken).mono fun _ => Event.isCalm_of_isDispatch)

theorem entered_finish (s : Server) (session : Nat) :
    Entered Event.isEnding s (s.finish session) := by
  have hdiscard : Entered Event.isEnding s s.discard := by
    have h : Entered Event.isEnding s
        (emit { s with outbox := s.outbox.discard.2 } (.discarded s.outbox.discard.1)) :=
      entered_emit s rfl
    unfold discard
    dsimp only
    split
    · exact h
    · exact h.trans (entered_emit _ rfl)
  exact (hdiscard.trans (entered_emit _ (e := .ended session) rfl)).trans
    (entered_emit _ (e := .noted .stopped) rfl)

theorem calm_finish (s : Server) (session : Nat) : Calm s (s.finish session) := by
  have hscene : (s.finish session).scene = s.scene := by
    obtain ⟨es, he, -⟩ := finish_eq s session
    rw [he]
  exact .of_scene hscene ((entered_finish s session).mono fun _ => Event.isCalm_of_isEnding)

/-- Every act is a change that is called, the greeting of a viewer, or calm. -/
theorem Act.sorts (h : Act s t) :
    (∃ c, t = ((s.emit (.called (.change c))).change c).2) ∨
      (∃ c, t = (s.emit (.called (.hear (.connect c)))).greet c) ∨ Calm s t := by
  cases h with
  | change c => exact Or.inl ⟨c, rfl⟩
  | connect c => exact Or.inr (Or.inl ⟨c, rfl⟩)
  | _ => ?_
  all_goals refine Or.inr (Or.inr ?_)
  case remark e h => exact .of_scene rfl (entered_emit s (Event.isCalm_of_isRemark h))
  case fire l o => exact .of_scene rfl (entered_emit _ rfl)
  case register signal l => exact ⟨Or.inr (Or.inl ⟨signal, l, rfl⟩), entered_emit s rfl⟩
  case report c m e h =>
    obtain ⟨text, rfl, -⟩ := Event.eq_called_of_report? h
    exact ⟨Or.inr (Or.inr ⟨m, rfl⟩), entered_emit s rfl⟩
  case flush => exact calm_release s _ _
  case setAutoflush on => exact calm_release s _ _
  case listen port h => exact .of_scene rfl (entered_emit s rfl)
  case accept port t address h =>
    exact .of_scene rfl ((entered_emit s rfl).trans (entered_emit _ rfl))
  case close n h => exact .of_scene rfl (entered_emit s rfl)
  case finish n h => exact calm_finish s n
  all_goals exact .of_silent rfl rfl

end Server

end LiveScene
