import LiveScene.Proofs.Server.Entries
import LiveScene.Proofs.Store.Rebuild

/-!
# Joining

What a viewer is handed on its own account, and when. The messages for one viewer are those that the
server has handed to a transport for it, whether they were delivered or not (`messagesTo`). There
are no others than the greetings it gets when it connects (`Server.OnlyGreets`,
`Server.Act.onlyGreets`), and a greeting is at most one message (`Server.greeting`): the replay of
the store, if there is a link to send it over. A server that serves has a link and one that is
starting has none, so a viewer that connects while a transport still is about to listen is handed
nothing, then or later (`joining_viewer_handed`).
-/

namespace LiveScene

open Relation (ReflTransGen)

/-- The message that an event hands to a transport for one viewer. -/
def Event.messageTo? (c : Connection) : Event → Option (List Command)
  | sent _ d cs _ => if d = c then some cs else none
  | _ => none

/-- The messages that are handed to a transport for one viewer in some events, in order. -/
def messagesTo (c : Connection) (es : List Event) : List (List Command) :=
  es.filterMap (Event.messageTo? c)

/-- Whether a listener is called by an event. -/
def Event.isFiring : Event → Bool
  | fired _ _ => true
  | _ => false

namespace Event

variable {c d : Connection} {e : Event}

theorem messageTo?_of_isTraffic (h : e.isTraffic) : e.messageTo? c = none := by
  cases e <;> simp_all [isTraffic, isDispatch, messageTo?]

theorem messageTo?_of_isCalm (h : e.isCalm) : e.messageTo? c = none := by
  cases e <;> simp_all [isCalm, messageTo?]

/-- What another viewer is handed is not for this one. -/
theorem messageTo?_of_isGreeting (h : e.isGreeting d) (hd : d ≠ c) : e.messageTo? c = none := by
  cases e <;> simp_all [isGreeting, messageTo?]

theorem not_isFiring_of_isGreeting (h : e.isGreeting c) : !e.isFiring := by
  cases e <;> simp_all [isGreeting, isFiring]

end Event

@[simp] theorem messagesTo_append (c : Connection) (es fs : List Event) :
    messagesTo c (es ++ fs) = messagesTo c es ++ messagesTo c fs := by
  simp [messagesTo]

/-- A message creates every object that is stored, and enables the mouse on every stored key that
may be dragged. -/
structure Store.CarriedBy (s : Store) (cs : List Command) : Prop where
  objects : ∀ key o, s.get? key = some o → .create o ∈ cs
  marks : ∀ key ∈ s.draggable, (s.get? key).isSome → .enableMouse key ∈ cs

theorem Store.carriedBy_replay (s : Store) : s.CarriedBy s.replay where
  objects key o ho := mem_replay.mpr (Or.inl ⟨key, o, ho, rfl⟩)
  marks key hkey hstored := by
    refine mem_replay.mpr (Or.inr ⟨key, ?_, rfl⟩)
    simp [draggableKeys, contains, hkey, hstored]

namespace Server

variable {s t u : Server} {c : Connection} {ms ns : List (List Command)} {p : Event → Bool}

/-! ## Greetings -/

/-- `t` has entered events in the journal of `s` by which a viewer is handed these messages. -/
def Hands (c : Connection) (ms : List (List Command)) (s t : Server) : Prop :=
  ∃ es, t.journal.toList = s.journal.toList ++ es ∧ messagesTo c es = ms

theorem Hands.trans (h : Hands c ms s t) (h' : Hands c ns t u) : Hands c (ms ++ ns) s u := by
  obtain ⟨es, hes, rfl⟩ := h
  obtain ⟨fs, hfs, rfl⟩ := h'
  exact ⟨es ++ fs, by rw [hfs, hes, List.append_assoc], messagesTo_append c es fs⟩

theorem Entered.hands (h : Entered p s t) (hp : ∀ e, p e → e.messageTo? c = none) :
    Hands c [] s t := by
  obtain ⟨es, hes, hall⟩ := h
  exact ⟨es, hes, List.filterMap_eq_nil_iff.mpr fun e he => hp e (hall e he)⟩

theorem hands_emit (s : Server) {e : Event} (h : e.messageTo? c = none) :
    Hands c [] s (s.emit e) :=
  ⟨[e], by simp, by simp [messagesTo, h]⟩

/-- A message is handed over whether it is delivered or not. -/
theorem hands_send (s : Server) (link : Link) (c : Connection) (cs : List Command) :
    Hands c [cs] s (s.send link c cs) := by
  obtain ⟨delivered, ns, hsend⟩ := journal_send s link c cs
  refine ⟨_, hsend, ?_⟩
  simp [messagesTo, Event.messageTo?]

theorem hands_replayTo (s : Server) (c : Connection) :
    Hands c (if s.lifecycle.link.isSome ∧ s.scene.store.replay ≠ [] then [s.scene.store.replay]
      else []) s (s.replayTo c) := by
  cases hl : s.lifecycle.link with
  | none => exact ⟨[], by simp [replayTo, hl], by simp [messagesTo]⟩
  | some link =>
    by_cases hempty : s.scene.store.replay = []
    · exact ⟨[], by simp [replayTo, hl, hempty], by simp [messagesTo, hempty]⟩
    · have hsend := (hands_emit (c := c) s rfl).trans (hands_send
        (s.note (.replaying s.scene.store.replay.length c)) link c s.scene.store.replay)
      simpa [replayTo, hl, hempty] using hsend

/-- The messages for a viewer that connects now. -/
def greeting (s : Server) : List (List Command) :=
  if s.config.replayOnConnect ∧ s.lifecycle.link.isSome ∧ s.scene.store.replay ≠ [] then
    [s.scene.store.replay]
  else []

theorem hands_greet (s : Server) (c : Connection) : Hands c s.greeting s (s.greet c) := by
  have hnoted : Hands c [] s (s.note (.connected c)) := hands_emit s rfl
  by_cases hreplay : s.config.replayOnConnect
  · have hgreet : s.greet c = (s.note (.connected c)).replayTo c := if_pos hreplay
    have hgreeting : s.greeting = if s.lifecycle.link.isSome ∧ s.scene.store.replay ≠ [] then
        [s.scene.store.replay] else [] := by
      simp [greeting, hreplay]
    rw [hgreet, hgreeting]
    exact hnoted.trans (hands_replayTo (s.note (.connected c)) c)
  · have hgreet : s.greet c = s.note (.connected c) := if_neg hreplay
    rw [hgreet]
    simpa [greeting, hreplay] using hnoted

/-- A viewer that connects before a session has begun is handed nothing. -/
theorem greeting_of_starting (hs : s.Sound) (h : s.lifecycle.phase = .starting) :
    s.greeting = [] := by
  have hlink : ¬s.lifecycle.link.isSome := by simp [hs.linked, h]
  exact if_neg fun hgreets => hlink hgreets.2.1

/-- A viewer that connects in a session is handed the replay, unless that is empty. -/
theorem greeting_of_serving (hs : s.Sound) (h : s.lifecycle.phase = .serving)
    (hreplay : s.config.replayOnConnect = true) {key : String}
    (hstored : (s.scene.store.get? key).isSome) : s.greeting = [s.scene.store.replay] := by
  obtain ⟨o, ho⟩ := Option.isSome_iff_exists.mp hstored
  have hmem := s.scene.store.carriedBy_replay.objects key o ho
  exact if_pos ⟨hreplay, hs.linked.mpr h, List.ne_nil_of_mem hmem⟩

/-- No listener is called before a viewer that connects has been greeted. -/
theorem unfired_greet (s : Server) (c : Connection) :
    Entered (!·.isFiring) s
      (((s.emit (.called (.hear (.connect c)))).greet c).emit (.announced .connection)) := by
  have hcalled : Entered (!·.isFiring) s (s.emit (.called (.hear (.connect c)))) :=
    entered_emit s rfl
  have hgreet := (entered_greet (s.emit (.called (.hear (.connect c)))) c).mono
    (q := (!·.isFiring)) fun _ => Event.not_isFiring_of_isGreeting
  exact (hcalled.trans hgreet).trans (entered_emit _ rfl)

/-! ## Nothing else -/

/-- From `s` to `t` the viewer is handed no message unless it connects. -/
def OnlyGreets (c : Connection) (s t : Server) : Prop :=
  ∃ es, t.journal.toList = s.journal.toList ++ es ∧
    (.called (.hear (.connect c)) ∉ es → messagesTo c es = [])

theorem OnlyGreets.trans (h : OnlyGreets c s t) (h' : OnlyGreets c t u) : OnlyGreets c s u := by
  obtain ⟨es, hes, hsilent⟩ := h
  obtain ⟨fs, hfs, hsilent'⟩ := h'
  refine ⟨es ++ fs, by rw [hfs, hes, List.append_assoc], fun hcall => ?_⟩
  rw [List.mem_append, not_or] at hcall
  rw [messagesTo_append, hsilent hcall.1, hsilent' hcall.2, List.append_nil]

theorem Hands.onlyGreets (h : Hands c [] s t) : OnlyGreets c s t := by
  obtain ⟨es, hes, hnone⟩ := h
  exact ⟨es, hes, fun _ => hnone⟩

theorem Act.onlyGreets (h : Act s t) (c : Connection) : OnlyGreets c s t := by
  rcases h.sorts with ⟨d, rfl⟩ | ⟨d, rfl⟩ | hcalm
  · have hchange := (entered_change (s.emit (.called (.change d))) d).hands (c := c)
      fun _ => Event.messageTo?_of_isTraffic
    exact ((hands_emit s rfl).trans hchange).onlyGreets
  · have hgreet := entered_greet (s.emit (.called (.hear (.connect d)))) d
    by_cases hd : d = c
    · -- the viewer itself connects, and that is entered
      subst hd
      obtain ⟨es, hes, -⟩ := hgreet
      exact ⟨.called (.hear (.connect d)) :: es, by simp [hes],
        fun h => absurd List.mem_cons_self h⟩
    · have hother := hgreet.hands fun _ he => Event.messageTo?_of_isGreeting he hd
      exact ((hands_emit s rfl).trans hother).onlyGreets
  · exact (hcalm.entered.hands fun _ => Event.messageTo?_of_isCalm).onlyGreets

theorem onlyGreets_of_acts (h : ReflTransGen Act s t) (c : Connection) : OnlyGreets c s t := by
  induction h with
  | refl => exact ⟨[], by simp, fun _ => rfl⟩
  | tail _ ha ih => exact ih.trans (ha.onlyGreets c)

end Server

/-- What a viewer is handed that connects while the server starts or serves. In the step in which it
connects, before any listener is called, it is handed exactly one message if the server serves, and
that carries the scene; if the server is still starting it is handed nothing. From then on it is
handed nothing unless it connects again. -/
theorem joining_viewer_handed {config : Config} {host : Host} {m m₁ m₂ : Machine} {c : Connection}
    {calls : List Call} {below : List Frame} {key : String} (h : m.Reachable config host)
    (hstack : m.stack = .script (.hear (.connect c) :: calls) :: below)
    (hphase : m.server.lifecycle.phase = .starting ∨ m.server.lifecycle.phase = .serving)
    (hheld : m.server.held = true ∨ below ≠ [])
    (hreplay : m.server.config.replayOnConnect = true)
    (hstored : (m.server.scene.store.get? key).isSome) (hstep : m.step? = some m₁)
    (hrun : ReflTransGen Machine.Next m₁ m₂) :
    ∃ es₁ es₂, m₁.server.journal.toList = m.server.journal.toList ++ es₁ ∧
      m₂.server.journal.toList = m₁.server.journal.toList ++ es₂ ∧
      (m.server.lifecycle.phase = .serving →
        ∃ cs, messagesTo c es₁ = [cs] ∧ m.server.scene.store.CarriedBy cs) ∧
      (m.server.lifecycle.phase = .starting → messagesTo c es₁ = []) ∧
      (∀ l o, .fired l o ∉ es₁) ∧
      m₁.stack = .notify .connection 0 (m.server.scene.registry.listeners .connection) ::
        .reply .nothing :: .script calls :: below ∧
      (.called (.hear (.connect c)) ∉ es₂ → messagesTo c es₂ = []) := by
  have hsound := h.sound
  have hopen := hsound.opened (by rcases hphase with hphase | hphase <;> simp [hphase])
  obtain ⟨-, hduty⟩ := Machine.acts_of_step? h.onDuty hstep
  obtain ⟨es₂, hes₂, hsilent⟩ :=
    Server.onlyGreets_of_acts (Machine.acts_of_next hduty hrun).1 c
  rw [Machine.step?_connect hstack hopen hheld] at hstep
  obtain rfl := Option.some.inj hstep
  have hcalled : Server.Hands c [] m.server (m.server.emit (.called (.hear (.connect c)))) :=
    Server.hands_emit _ rfl
  obtain ⟨es₁, hes₁, hgreeting⟩ := (hcalled.trans (Server.hands_greet _ c)).trans
    (Server.hands_emit _ (e := .announced .connection) rfl)
  rw [List.append_nil, List.nil_append] at hgreeting
  refine ⟨es₁, es₂, hes₁, hes₂, fun hserving => ?_, fun hstarting => ?_, ?_, rfl, hsilent⟩
  · rw [hgreeting, Server.greeting_of_serving (hsound.emit _) hserving hreplay hstored]
    exact ⟨_, rfl, m.server.scene.store.carriedBy_replay⟩
  · rw [hgreeting, Server.greeting_of_starting (hsound.emit _) hstarting]
  · obtain ⟨es, hes, hunfired⟩ := Server.unfired_greet m.server c
    obtain rfl := List.append_cancel_left (hes.symm.trans hes₁)
    exact fun l o hfired => nomatch hunfired _ hfired

/-! ## A viewer that comes early -/

/-- A transport that has a viewer before it has done listening. -/
def Transport.eager : Transport :=
  .custom ⟨none, false, none, [.hear (.connect 7)], [], fun _ => false, fun _ => false⟩

namespace Machine

/-- It has created a note. -/
def prepared : Machine := run (ofCall (.new {} .blank) (.change (.createText .greeting))) 3

/-- It starts to serve, and the first viewer is connecting. -/
def admitting : Machine := run (ofCall prepared.server (.serve 8080 .eager)) 1

/-- It serves. -/
def admitted : Machine := run admitting 8

/-- The second viewer is connecting. -/
def readmitting : Machine := ofCall admitted.server (.hear (.connect 8))

theorem reachable_admitting : admitting.Reachable {} .blank := by
  have hprepared : prepared.Reachable {} .blank :=
    Reachable.callRun (m := ⟨.new {} .blank, []⟩) .refl rfl _ 3
  exact hprepared.callRun rfl _ 1

theorem reachable_readmitting : readmitting.Reachable {} .blank :=
  (reachable_admitting.trans (next_run admitting 8)).tail (.call _ _)

end Machine

/-- The second viewer is handed the scene. -/
theorem joining_viewer_handed_second :
    Machine.readmitting.Reachable {} .blank ∧
      ∃ es₁ es₂, (Machine.readmitting.run 1).server.journal.toList =
          Machine.readmitting.server.journal.toList ++ es₁ ∧
        (Machine.readmitting.run 4).server.journal.toList =
          (Machine.readmitting.run 1).server.journal.toList ++ es₂ ∧
        ∃ cs, messagesTo 8 es₁ = [cs] ∧ Machine.readmitting.server.scene.store.CarriedBy cs := by
  have hstored : (Machine.readmitting.server.scene.store.get? "greeting").isSome := by
    decide +kernel
  obtain ⟨es₁, es₂, hes₁, hes₂, hserving, -⟩ := joining_viewer_handed
    Machine.reachable_readmitting rfl (Or.inr rfl) (Or.inl rfl) rfl hstored rfl
    (Machine.next_run (Machine.readmitting.run 1) 3)
  exact ⟨Machine.reachable_readmitting, es₁, es₂, hes₁, hes₂, hserving rfl⟩

/-- The first viewer connects while the server starts, and when the server serves and every call has
returned it has been handed nothing. -/
theorem first_viewer_handed_nothing :
    Machine.admitting.Reachable {} .blank ∧
      Machine.admitting.stack = [.script [.hear (.connect 7)], .listened 8080 .eager none,
        .reply .ok, .script []] ∧
      Machine.admitting.server.lifecycle.phase = .starting ∧
      (Machine.admitting.server.scene.store.get? "greeting").isSome ∧
      ReflTransGen Machine.Next Machine.admitting Machine.admitted ∧
      Machine.admitted.stack = [] ∧ Machine.admitted.server.lifecycle.phase = .serving ∧
      messagesTo 7 Machine.admitted.server.journal.toList = [] :=
  ⟨Machine.reachable_admitting, rfl, rfl, by decide +kernel, Machine.next_run Machine.admitting 8,
    rfl, rfl, rfl⟩

end LiveScene
