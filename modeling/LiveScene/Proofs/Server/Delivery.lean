import LiveScene.Proofs.Server.Acts
import LiveScene.Proofs.Server.Scenes

/-!
# Failing transports

Whether a transport delivers what it is handed makes no difference to the server. Two transports are
`TwinTransport`s when they differ at most in which messages they fail to deliver; two calls are
`TwinCall`s when they differ at most in such transports, at any depth: within listeners and checks,
and within what transports do themselves.

A failed message leaves a notice in the log, and that is all. Two servers are `Server.Twin`s when
they are the same but for that: their journals, with these notices left out, enter the same events
one by one, messages being the same whether they are delivered or not (`TwinEvent`). Every message
that one server attempts the other attempts too (`Server.Twin.transmit`, `Server.Twin.send`), so
every step of one machine is the same step of its twin (`Machine.Twin.step`), and each run of
one is that of the other, step by step (`Machine.Twin.run`, `failures_disturb_nothing`).
-/

namespace LiveScene

/-- Of two options that correspond, either none has a value or both have. -/
theorem eq_none_or_eq_some_of_rel {α β : Type} {R : α → β → Prop} {x : Option α} {y : Option β}
    (h : Option.Rel R x y) :
    (x = none ∧ y = none) ∨ ∃ a b, x = some a ∧ y = some b ∧ R a b := by
  cases h with
  | none => exact Or.inl ⟨rfl, rfl⟩
  | some hab => exact Or.inr ⟨_, _, rfl, rfl, hab⟩

/-! ## What differs in delivery alone -/

mutual

/-- Two calls that differ at most in what transports deliver. -/
inductive TwinCall : Call → Call → Prop
  | change {c d : Change Listener} (h : ChangePair TwinListener c d) :
    TwinCall (.change c) (.change d)
  | on (s : Signal) {l k : Listener} (h : TwinListener l k) : TwinCall (.on s l) (.on s k)
  | ask (q : Query) : TwinCall (.ask q) (.ask q)
  | setAutoflush (on : Bool) : TwinCall (.setAutoflush on) (.setAutoflush on)
  | flush : TwinCall .flush .flush
  | serve (port : UInt16) {t u : Transport} (h : TwinTransport t u) :
    TwinCall (.serve port t) (.serve port u)
  | stop : TwinCall .stop .stop
  | block {cs ds : List Check} (h : List.Forall₂ TwinCheck cs ds) :
    TwinCall (.block cs) (.block ds)
  | drop : TwinCall .drop .drop
  | hear (i : Inbound) : TwinCall (.hear i) (.hear i)

/-- Two listeners that differ at most in what transports deliver. -/
inductive TwinListener : Listener → Listener → Prop
  | mk (name : Json) (fails : Occasion → Nat → Bool) {cs ds : Occasion → Nat → List Call}
    (h : ∀ o n, List.Forall₂ TwinCall (cs o n) (ds o n)) :
    TwinListener ⟨name, cs, fails⟩ ⟨name, ds, fails⟩

/-- Two checks that differ at most in what transports deliver. -/
inductive TwinCheck : Check → Check → Prop
  | mk (failure : Option String) {cs ds : List Call} (h : List.Forall₂ TwinCall cs ds) :
    TwinCheck ⟨cs, failure⟩ ⟨ds, failure⟩

/-- Two transports that differ at most in what they deliver. -/
inductive TwinTransport : Transport → Transport → Prop
  | custom (refusal : Option Refusal) (reportsRefused : Bool) (address : Option SocketAddress)
    {cs ds es fs : List Call} (hlisten : List.Forall₂ TwinCall cs ds)
    (hclose : List.Forall₂ TwinCall es fs)
    (broadcastFails broadcastFails' sendFails sendFails' : Nat → Bool) :
    TwinTransport
      (.custom ⟨refusal, reportsRefused, address, cs, es, broadcastFails, sendFails⟩)
      (.custom ⟨refusal, reportsRefused, address, ds, fs, broadcastFails', sendFails'⟩)
  | websocket (c : WebsocketConfig) : TwinTransport (.websocket c) (.websocket c)

end

namespace TwinTransport

variable {t u : Transport}

theorem listen (h : TwinTransport t u) (network : Network) (port : UInt16) :
    t.listen network port = u.listen network port := by
  cases h <;> rfl

theorem listenNotices (h : TwinTransport t u) (port : UInt16) :
    t.listenNotices port = u.listenNotices port := by
  cases h <;> rfl

theorem closeNotices (h : TwinTransport t u) : t.closeNotices = u.closeNotices := by
  cases h <;> rfl

theorem reportsRefused (h : TwinTransport t u) : t.reportsRefused = u.reportsRefused := by
  cases h <;> rfl

theorem duringListen (h : TwinTransport t u) :
    List.Forall₂ TwinCall t.duringListen u.duringListen := by
  cases h with
  | custom _ _ _ hlisten _ => exact hlisten
  | websocket c => exact .nil

theorem duringClose (h : TwinTransport t u) :
    List.Forall₂ TwinCall t.duringClose u.duringClose := by
  cases h with
  | custom _ _ _ _ hclose => exact hclose
  | websocket c => exact .nil

end TwinTransport

/-- Two links that differ at most in what their transports deliver. As many messages have been
attempted on one as on the other. -/
inductive TwinLink : Link → Link → Prop
  | mk (session : Nat) {t u : Transport} (h : TwinTransport t u) (broadcasts sends : Nat) :
    TwinLink ⟨session, t, broadcasts, sends⟩ ⟨session, u, broadcasts, sends⟩

/-- Two states of the cycle that differ at most in what the transport of the session delivers. -/
structure Lifecycle.Twin (l k : Lifecycle) : Prop where
  phase : l.phase = k.phase
  address : l.address = k.address
  link : Option.Rel TwinLink l.link k.link
  shutdownRequested : l.shutdownRequested = k.shutdownRequested
  shutdownFired : l.shutdownFired = k.shutdownFired
  sessions : l.sessions = k.sessions

/-- Two events that are the same, of which a message may be delivered in one and not in the
other. -/
inductive TwinEvent : Event → Event → Prop
  | called {c d : Call} (h : TwinCall c d) : TwinEvent (.called c) (.called d)
  | fired {l k : Listener} (h : TwinListener l k) (o : Occasion) :
    TwinEvent (.fired l o) (.fired k o)
  | broadcast (session : Nat) (cs : List Command) (delivered delivered' : Bool) :
    TwinEvent (.broadcast session cs delivered) (.broadcast session cs delivered')
  | sent (session : Nat) (c : Connection) (cs : List Command) (delivered delivered' : Bool) :
    TwinEvent (.sent session c cs delivered) (.sent session c cs delivered')
  | same (e : Event) : TwinEvent e e

namespace Event

/-- Whether an event notes that a message was not delivered. -/
def isFailure : Event → Bool
  | noted (.broadcastFailed _) | noted (.replayFailed _) => true
  | _ => false

/-- Events without the notices that a message was not delivered. -/
def deeds (es : List Event) : List Event := es.filter (!·.isFailure)

/-- The message that an event hands to a transport, delivered or not: the session, the viewer it is
for unless it is for all, and the commands. -/
def attempt? : Event → Option (Nat × Option Connection × List Command)
  | broadcast session cs _ => some (session, none, cs)
  | sent session c cs _ => some (session, some c, cs)
  | _ => none

/-- Whether a message that an event hands to a transport is delivered. -/
def delivered? : Event → Option Bool
  | broadcast _ _ delivered | sent _ _ _ delivered => some delivered
  | _ => none

theorem isFailure_of_twin {e e' : Event} (h : TwinEvent e e') : e.isFailure = e'.isFailure := by
  cases h <;> rfl

theorem attempt?_of_twin {e e' : Event} (h : TwinEvent e e') : e.attempt? = e'.attempt? := by
  cases h <;> rfl

theorem attempt?_of_isFailure {e : Event} (h : e.isFailure) : e.attempt? = none := by
  unfold isFailure at h
  split at h
  · rfl
  · rfl
  · cases h

end Event

/-- The messages that some events hand to a transport, delivered or not, in order. -/
def attemptsIn (es : List Event) : List (Nat × Option Connection × List Command) :=
  es.filterMap Event.attempt?

theorem attemptsIn_deeds (es : List Event) : attemptsIn (Event.deeds es) = attemptsIn es := by
  rw [attemptsIn, Event.deeds, List.filterMap_filter]
  refine List.filterMap_congr fun e _ => ?_
  cases h : e.isFailure with
  | true => exact (Event.attempt?_of_isFailure h).symm
  | false => rfl

theorem attemptsIn_of_twin {es fs : List Event} (h : List.Forall₂ TwinEvent es fs) :
    attemptsIn es = attemptsIn fs := by
  induction h with
  | nil => rfl
  | cons he _ ih =>
    simp only [attemptsIn, List.filterMap_cons, Event.attempt?_of_twin he] at ih ⊢
    rw [ih]

/-! ## Twin servers -/

namespace Server

/-- Two servers that are the same, but for what transports deliver and for what is noted of that. -/
structure Twin (s t : Server) : Prop where
  config : s.config = t.config
  host : s.host = t.host
  scene : s.scene.Corresponds TwinListener t.scene
  outbox : s.outbox = t.outbox
  lifecycle : s.lifecycle.Twin t.lifecycle
  held : s.held = t.held
  inboundOpen : s.inboundOpen = t.inboundOpen
  firings : s.firings = t.firings
  deeds : List.Forall₂ TwinEvent (Event.deeds s.journal.toList) (Event.deeds t.journal.toList)

namespace Twin

variable {s t : Server}

theorem new (config : Config) (host : Host) : Twin (new config host) (new config host) :=
  ⟨rfl, rfl, ⟨rfl, rfl, Registry.alike_empty⟩, rfl, ⟨rfl, rfl, .none, rfl, rfl, rfl⟩, rfl, rfl,
    rfl, .nil⟩

theorem emit (h : Twin s t) {e e' : Event} (he : TwinEvent e e') : Twin (s.emit e) (t.emit e') := by
  refine { h with deeds := ?_ }
  simp only [toList_journal_emit, Event.deeds, List.filter_append]
  refine List.rel_append h.deeds ?_
  simp only [List.filter_singleton, Event.isFailure_of_twin he]
  cases e'.isFailure with
  | true => exact .nil
  | false => exact .cons he .nil

theorem note (h : Twin s t) (n : Notice) : Twin (s.note n) (t.note n) := h.emit (.same _)

/-- Both servers call corresponding listeners. -/
theorem fire (h : Twin s t) {l k : Listener} (hlk : TwinListener l k) (o : Occasion) :
    Twin (s.fire l o) (t.fire k o) := by
  have hcounted : Twin { s with firings := s.firings + 1 } { t with firings := t.firings + 1 } :=
    { h with firings := congrArg (· + 1) h.firings }
  exact hcounted.emit (.fired hlk o)

theorem noteAll (h : Twin s t) (ns : List Notice) : Twin (s.noteAll ns) (t.noteAll ns) :=
  List.foldl_rel h fun n _ _ _ h => h.note n

/-- Either server may note that a message was not delivered. -/
theorem noteFailure (h : Twin s t) (n : Notice) (hn : (Event.noted n).isFailure)
    (fails fails' : Bool) :
    Twin (if fails then s.note n else s) (if fails' then t.note n else t) := by
  have hnote (u : Server) : Event.deeds (u.note n).journal.toList =
      Event.deeds u.journal.toList := by
    simp [Event.deeds, hn]
  cases fails <;> cases fails'
  · exact h
  · exact { h with deeds := (hnote t).symm ▸ h.deeds }
  · exact { h with deeds := (hnote s).symm ▸ h.deeds }
  · exact { h with deeds := (hnote s).symm ▸ (hnote t).symm ▸ h.deeds }

/-! ## Sending -/

theorem cycle (h : Twin s t) {l k : Lifecycle} (hlk : l.Twin k) :
    Twin { s with lifecycle := l } { t with lifecycle := k } :=
  { h with lifecycle := hlk }

theorem relink (h : Twin s t) {a b : Link} (hab : TwinLink a b) :
    Twin { s with lifecycle.link := some a } { t with lifecycle.link := some b } :=
  h.cycle { h.lifecycle with link := .some hab }

theorem transmit (h : Twin s t) (cs : List Command) : Twin (s.transmit cs) (t.transmit cs) := by
  unfold Server.transmit
  rcases eq_none_or_eq_some_of_rel h.lifecycle.link with ⟨hs, ht⟩ | ⟨a, b, hs, ht, hab⟩
  · rw [hs, ht]
    exact h.note _
  · rw [hs, ht]
    cases hab with
    | mk session hxy broadcasts sends =>
      have hcounted := h.relink (.mk session hxy (broadcasts + 1) sends)
      exact (hcounted.emit (.broadcast session cs _ _)).noteFailure (.broadcastFailed _) rfl _ _

theorem send (h : Twin s t) {a b : Link} (hab : TwinLink a b) (c : Connection)
    (cs : List Command) : Twin (s.send a c cs) (t.send b c cs) := by
  cases hab with
  | mk session hxy broadcasts sends =>
    have hcounted := h.relink (.mk session hxy broadcasts (sends + 1))
    exact (hcounted.emit (.sent session c cs _ _)).noteFailure (.replayFailed c) rfl _ _

theorem transmitAll (h : Twin s t) (ready : List (List Command)) :
    Twin (ready.foldl Server.transmit s) (ready.foldl Server.transmit t) :=
  List.foldl_rel h fun cs _ _ _ h => h.transmit cs

theorem release (h : Twin s t) (taken : Option (List Command)) :
    Twin (s.release taken) (t.release taken) := by
  cases taken with
  | none => exact h
  | some cs => exact (h.note _).transmit cs

/-- Both go on with the same commands waiting. -/
theorem withOutbox (h : Twin s t) (q : Outbox) :
    Twin { s with outbox := q } { t with outbox := q } :=
  { h with outbox := rfl }

theorem flush (h : Twin s t) : Twin s.flush t.flush := by
  unfold Server.flush
  rw [h.outbox]
  exact (h.withOutbox _).release _

theorem setAutoflush (h : Twin s t) (on : Bool) : Twin (s.setAutoflush on) (t.setAutoflush on) := by
  unfold Server.setAutoflush
  rw [h.outbox]
  exact (h.withOutbox _).release _

theorem discard (h : Twin s t) : Twin s.discard t.discard := by
  have h' := (h.withOutbox t.outbox.discard.2).emit (.same (.discarded t.outbox.discard.1))
  unfold Server.discard
  rw [h.outbox]
  dsimp only
  split
  · exact h'
  · exact h'.note _

theorem replayTo (h : Twin s t) (c : Connection) : Twin (s.replayTo c) (t.replayTo c) := by
  unfold Server.replayTo
  rw [h.scene.store]
  rcases eq_none_or_eq_some_of_rel h.lifecycle.link with ⟨hs, ht⟩ | ⟨a, b, hs, ht, hab⟩
  · rw [hs, ht]
    exact h
  · rw [hs, ht]
    dsimp only
    split
    · exact h
    · exact (h.note _).send hab c _

/-! ## Changes -/

theorem withScene (h : Twin s t) {x y : Scene} (hxy : x.Corresponds TwinListener y) :
    Twin { s with scene := x } { t with scene := y } :=
  { h with scene := hxy }

theorem pushAll (h : Twin s t) (cs : List Command) :
    (s.pushAll cs).1 = (t.pushAll cs).1 ∧ Twin (s.pushAll cs).2 (t.pushAll cs).2 := by
  induction cs generalizing s t with
  | nil => exact ⟨rfl, h⟩
  | cons c cs ih =>
    have hpush : (s.push c).1 = (t.push c).1 ∧ Twin (s.push c).2 (t.push c).2 := by
      unfold Server.push
      rw [h.outbox]
      exact ⟨rfl, (h.withOutbox _).emit (.same _)⟩
    obtain ⟨hready, hrest⟩ := ih hpush.2
    simp only [Server.pushAll, hpush.1, hready, true_and]
    exact hrest

theorem edit (h : Twin s t) {f g : Scene → Edit} (hfg : EditPair TwinListener f g) :
    Twin (s.edit f) (t.edit g) := by
  obtain ⟨hscene, hcommands, hnotices⟩ := hfg.corresponds h.scene
  obtain ⟨hready, hpushed⟩ :=
    ((h.withScene hscene).noteAll (g t.scene).notices).pushAll (g t.scene).commands
  unfold Server.edit
  dsimp only
  rw [hcommands, hnotices, hready]
  exact hpushed.transmitAll _

theorem keptByEdits : KeptByEdits TwinListener Twin where
  host h := h.host
  store h := h.scene.store
  note n h := h.note n
  edit hfg h := h.edit hfg

end Twin

end Server

/-! ## The cycle -/

namespace Lifecycle.Twin

variable {l k : Lifecycle}

theorem start (h : l.Twin k) : l.start.Twin k.start := { h with phase := rfl }

theorem refuse (h : l.Twin k) : l.refuse.Twin k.refuse := { h with phase := rfl }

theorem accept (h : l.Twin k) {t u : Transport} (htu : TwinTransport t u)
    (address : Option SocketAddress) : (l.accept t address).Twin (k.accept u address) where
  phase := rfl
  address := rfl
  link := by
    simp only [Lifecycle.accept, h.sessions]
    exact .some (.mk _ htu 0 0)
  shutdownRequested := rfl
  shutdownFired := rfl
  sessions := congrArg (· + 1) h.sessions

theorem finish (h : l.Twin k) : l.finish.Twin k.finish :=
  { h with phase := rfl, address := rfl, shutdownRequested := rfl }

/-- The same sessions can be ended, with twin links. -/
theorem detach? (h : l.Twin k) :
    Option.Rel (fun p q => TwinLink p.1 q.1 ∧ p.2.Twin q.2) l.detach? k.detach? := by
  unfold Lifecycle.detach?
  rw [h.phase]
  split
  · rcases eq_none_or_eq_some_of_rel h.link with ⟨hl, hk⟩ | ⟨a, b, hl, hk, hab⟩
    · rw [hl, hk]
      exact .none
    · rw [hl, hk]
      exact .some ⟨hab, { h with phase := rfl, link := .none }⟩
  · exact .none

theorem claimShutdown? (h : l.Twin k) :
    Option.Rel Lifecycle.Twin l.claimShutdown? k.claimShutdown? := by
  unfold Lifecycle.claimShutdown?
  rw [h.phase, h.shutdownFired]
  split
  · exact .some ⟨rfl, h.address, h.link, h.shutdownRequested, rfl, h.sessions⟩
  · exact .none

theorem requestShutdown? (h : l.Twin k) :
    Option.Rel Lifecycle.Twin l.requestShutdown? k.requestShutdown? := by
  unfold Lifecycle.requestShutdown?
  rw [h.phase]
  split
  · exact .some ⟨rfl, h.address, h.link, rfl, h.shutdownFired, h.sessions⟩
  · exact .none

theorem wake (h : l.Twin k) : l.wake.1 = k.wake.1 ∧ l.wake.2.Twin k.wake.2 := by
  unfold Lifecycle.wake
  rw [h.phase, h.shutdownRequested]
  split
  · exact ⟨rfl, h⟩
  · exact ⟨rfl, h⟩
  · exact ⟨rfl, h⟩
  · split
    · exact ⟨rfl, rfl, h.address, h.link, rfl, h.shutdownFired, h.sessions⟩
    · exact ⟨rfl, h⟩

end Lifecycle.Twin

/-! ## Steps -/

/-- Two frames that differ at most in what transports deliver. -/
inductive TwinFrame : Frame → Frame → Prop
  | script {cs ds : List Call} (h : List.Forall₂ TwinCall cs ds) :
    TwinFrame (.script cs) (.script ds)
  | notify (o : Occasion) (called : Nat) {ls ks : List Listener}
    (h : List.Forall₂ TwinListener ls ks) : TwinFrame (.notify o called ls) (.notify o called ks)
  | heard (o : Occasion) (index : Nat) (fails : Bool) :
    TwinFrame (.heard o index fails) (.heard o index fails)
  | listened (port : UInt16) {t u : Transport} (h : TwinTransport t u)
    (address : Option SocketAddress) :
    TwinFrame (.listened port t address) (.listened port u address)
  | refused (opened : Bool) : TwinFrame (.refused opened) (.refused opened)
  | close {a b : Link} (h : TwinLink a b) : TwinFrame (.close a) (.close b)
  | closed (session : Nat) : TwinFrame (.closed session) (.closed session)
  | requestShutdown : TwinFrame .requestShutdown .requestShutdown
  | wait {cs ds : List Check} (h : List.Forall₂ TwinCheck cs ds) (made : Nat) :
    TwinFrame (.wait cs made) (.wait ds made)
  | checked (failure : Option String) {cs ds : List Check} (h : List.Forall₂ TwinCheck cs ds)
    (made : Nat) : TwinFrame (.checked failure cs made) (.checked failure ds made)
  | reply (r : Reply) : TwinFrame (.reply r) (.reply r)

namespace Server

variable {s t : Server}

/-- Twin servers, with frames that differ at most in what transports deliver. -/
structure TwinMoves (p q : Server × List Frame) : Prop where
  server : Twin p.1 q.1
  frames : List.Forall₂ TwinFrame p.2 q.2

theorem TwinMoves.append {p q : Server × List Frame} (h : TwinMoves p q) {f g : Frame}
    (hfg : TwinFrame f g) : TwinMoves (p.1, p.2 ++ [f]) (q.1, q.2 ++ [g]) :=
  ⟨h.server, List.rel_append h.frames (.cons hfg .nil)⟩

namespace Twin

theorem replies (h : Twin s t) (r : Reply) : TwinMoves (s, [.reply r]) (t, [.reply r]) :=
  ⟨h, .cons (.reply r) .nil⟩

theorem announce (h : Twin s t) (o : Occasion) : TwinMoves (s.announce o) (t.announce o) :=
  ⟨h.emit (.same _), .cons (.notify o 0 (h.scene.registry o)) .nil⟩

theorem afterListen (h : Twin s t) (port : UInt16) {x y : Transport} (hxy : TwinTransport x y) :
    List.Forall₂ TwinFrame (s.afterListen port x) (t.afterListen port y) := by
  unfold Server.afterListen
  rw [hxy.listen, hxy.reportsRefused, h.host, h.inboundOpen]
  split
  · exact .cons (.listened port hxy _) (.cons (.reply .ok) .nil)
  · exact .cons (.refused _) (.cons (.reply _) .nil)

theorem serve (h : Twin s t) (port : UInt16) {x y : Transport} (hxy : TwinTransport x y) :
    TwinMoves (s.serve port x) (t.serve port y) := by
  have hasked : Twin { s with lifecycle := s.lifecycle.start, inboundOpen := true }
      { t with lifecycle := t.lifecycle.start, inboundOpen := true } :=
    { h.cycle h.lifecycle.start with inboundOpen := rfl }
  unfold Server.serve
  rw [h.lifecycle.phase]
  split
  · rw [hxy.listenNotices]
    exact ⟨(hasked.emit (.same (.listening port))).noteAll _,
      .cons (.script hxy.duringListen) (h.afterListen port hxy)⟩
  · exact (h.note _).replies _

theorem refuse (h : Twin s t) (opened : Bool) : Twin (s.refuse opened) (t.refuse opened) :=
  { h.cycle h.lifecycle.refuse with inboundOpen := rfl }

theorem accept (h : Twin s t) (port : UInt16) {x y : Transport} (hxy : TwinTransport x y)
    (address : Option SocketAddress) :
    Twin (s.accept port x address) (t.accept port y address) := by
  unfold Server.accept
  rw [h.lifecycle.sessions]
  exact ((h.cycle (h.lifecycle.accept hxy address)).emit (.same _)).note _

theorem stop (h : Twin s t) : TwinMoves s.stop t.stop := by
  unfold Server.stop
  rcases eq_none_or_eq_some_of_rel h.lifecycle.detach? with
    ⟨hs, ht⟩ | ⟨p, q, hs, ht, hlink, hlifecycle⟩
  · rw [hs, ht]
    exact ⟨h.note _, .nil⟩
  · have h' := (h.cycle hlifecycle).note .stopping
    rw [hs, ht]
    dsimp only
    rw [hlifecycle.shutdownFired]
    split
    · exact ⟨h', .cons (.close hlink) .nil⟩
    · exact (h'.announce .shutdown).append (.close hlink)

theorem close (h : Twin s t) {a b : Link} (hab : TwinLink a b) :
    TwinMoves (s.close a) (t.close b) := by
  cases hab with
  | mk session hxy broadcasts sends =>
    simp only [Server.close, hxy.closeNotices]
    exact ⟨(h.emit (.same _)).noteAll _,
      .cons (.script hxy.duringClose) (.cons (.closed session) .nil)⟩

theorem finish (h : Twin s t) (session : Nat) : Twin (s.finish session) (t.finish session) :=
  ((h.discard.cycle h.discard.lifecycle.finish).emit (.same _)).note _

theorem requestShutdown (h : Twin s t) : Twin s.requestShutdown t.requestShutdown := by
  unfold Server.requestShutdown
  rw [h.lifecycle.phase]
  rcases eq_none_or_eq_some_of_rel h.lifecycle.requestShutdown? with
    ⟨hs, ht⟩ | ⟨l, k, hs, ht, hlk⟩
  · rw [hs, ht]
    exact h.note _
  · rw [hs, ht]
    exact h.cycle hlk

theorem wait (h : Twin s t) {cs ds : List Check} (hcd : List.Forall₂ TwinCheck cs ds)
    (made : Nat) : TwinMoves (s.wait cs made) (t.wait ds made) := by
  obtain ⟨hwake, hlifecycle⟩ := h.lifecycle.wake
  have h' := h.cycle hlifecycle
  unfold Server.wait
  dsimp only
  rw [hwake]
  cases t.lifecycle.wake.1 with
  | stopped => exact h'.replies _
  | shutdownRequested => exact (h'.note .shutdownReceived).stop.append (.reply _)
  | poll =>
    cases hcd with
    | nil => exact h'.replies _
    | cons hc hrest =>
      cases hc with
      | mk failure hscript =>
        exact ⟨h', .cons (.script hscript) (.cons (.checked failure hrest _) .nil)⟩

theorem dispatch (h : Twin s t) (m : ViewerMessage) : TwinMoves (s.dispatch m) (t.dispatch m) := by
  have h' := h.withScene (h.scene.record m)
  have hlisteners := h'.scene.registry (.message m)
  unfold Server.dispatch
  cases m with
  | keydown _ | keyup _ | drag _ _ | screenResize _ => exact h'.announce _
  | buttonClick key | sliderSetValue key _ =>
    dsimp only at hlisteners ⊢
    generalize Registry.listeners _ _ = ls at hlisteners
    generalize Registry.listeners _ _ = ks at hlisteners
    cases hlisteners with
    | nil => exact ⟨h'.note _, .nil⟩
    | cons _ _ => exact h'.announce _

theorem hear (h : Twin s t) (i : Inbound) : TwinMoves (s.hear i) (t.hear i) := by
  cases i with
  | connect c =>
    unfold Server.hear
    dsimp only
    rw [(h.note _).config]
    split
    · exact ((h.note _).replayTo c).announce _
    · exact (h.note _).announce _
  | disconnect c => exact ⟨h.note _, .nil⟩
  | message c text =>
    unfold Server.hear
    dsimp only
    split
    · exact h.dispatch _
    · exact ⟨h.note _, .nil⟩
  | shutdownSignal =>
    unfold Server.hear
    rcases eq_none_or_eq_some_of_rel h.lifecycle.claimShutdown? with
      ⟨hs, ht⟩ | ⟨l, k, hs, ht, hlk⟩
    · rw [hs, ht]
      exact ⟨h, .cons .requestShutdown .nil⟩
    · rw [hs, ht]
      exact ((h.cycle hlk).announce .shutdown).append .requestShutdown

theorem hearAfterDrop (h : Twin s t) (i : Inbound) :
    Twin (s.hearAfterDrop i) (t.hearAfterDrop i) := by
  cases i <;> exact h.note _

theorem answer (h : Twin s t) (q : Query) : s.answer q = t.answer q := by
  have hglance := Scene.glance_of_store h.scene.store
  cases q <;> simp only [Server.answer, h.lifecycle.phase, h.lifecycle.address, h.outbox,
    h.scene.input, hglance]

theorem make (h : Twin s t) {c d : Call} (hcd : TwinCall c d) :
    TwinMoves (s.make c) (t.make d) := by
  cases hcd with
  | change hc =>
    obtain ⟨hreply, h'⟩ := keptByEdits.change hc h
    simp only [Server.make, hreply]
    exact h'.replies _
  | on signal hl =>
    exact (h.withScene (h.scene.withRegistry (h.scene.registry.add signal hl))).replies _
  | ask q =>
    simp only [Server.make, h.answer q]
    exact h.replies _
  | setAutoflush on => exact (h.setAutoflush on).replies _
  | flush => exact h.flush.replies _
  | serve port hxy => exact h.serve port hxy
  | stop => exact h.stop.append (.reply _)
  | block hchecks => exact ⟨h, .cons (.wait hchecks 0) .nil⟩
  | drop => exact ⟨{ h with held := rfl }, .cons (.reply _) .nil⟩
  | hear i => exact (h.hear i).append (.reply _)

theorem call (h : Twin s t) {c d : Call} (hcd : TwinCall c d) : TwinMoves (s.call c) (t.call d) :=
  (h.emit (.called hcd)).make hcd

theorem receive (h : Twin s t) (nested : Bool) {c d : Call} (hcd : TwinCall c d) :
    TwinMoves (s.receive nested c) (t.receive nested d) := by
  have hcall := h.call hcd
  cases hcd with
  | hear i =>
    simp only [Server.receive, h.held, h.inboundOpen]
    split
    · exact h.replies _
    · split
      · exact hcall
      · exact (h.hearAfterDrop i).replies _
  | change _ | on _ _ | ask _ | setAutoflush _ | flush | serve _ _ | stop | block _ | drop =>
    simp only [Server.receive, h.held]
    split
    · exact hcall
    · exact h.replies _

end Twin

end Server

namespace Machine

/-- What takes the place of a frame and of its twin. -/
theorem perform_twin {s t : Server} (h : s.Twin t) {below below' : List Frame}
    (hbelow : List.Forall₂ TwinFrame below below') {f g : Frame} (hfg : TwinFrame f g) :
    Server.TwinMoves (perform s below f) (perform t below' g) := by
  cases hfg with
  | script hcd =>
    cases hcd with
    | nil => exact ⟨h, .nil⟩
    | cons hc hrest =>
      have hnested : below.isEmpty = below'.isEmpty := by cases hbelow <;> rfl
      simp only [perform, hnested]
      exact (h.receive _ hc).append (.script hrest)
  | notify o called hls =>
    cases hls with
    | nil => exact ⟨h, .nil⟩
    | cons hl hrest =>
      have hfired := h.fire hl o
      cases hl with
      | mk name fails hscript =>
        simp only [perform, h.firings]
        exact ⟨hfired, .cons (.script (hscript o _))
          (.cons (.heard o called _) (.cons (.notify o (called + 1) hrest) .nil))⟩
  | heard o index fails =>
    cases fails with
    | true => exact ⟨h.note _, .nil⟩
    | false => exact ⟨h, .nil⟩
  | listened port hxy address => exact ⟨h.accept port hxy address, .nil⟩
  | refused opened => exact ⟨h.refuse opened, .nil⟩
  | close hab => exact h.close hab
  | closed session => exact ⟨h.finish session, .nil⟩
  | requestShutdown => exact ⟨h.requestShutdown, .nil⟩
  | wait hcd made => exact h.wait hcd made
  | checked failure hcd made =>
    cases failure with
    | some reason => exact h.replies _
    | none => exact ⟨h, .cons (.wait hcd made) .nil⟩
  | reply r => exact ⟨h.emit (.same _), .nil⟩

/-- Two machines that are the same, but for what transports deliver. -/
structure Twin (m m' : Machine) : Prop where
  server : m.server.Twin m'.server
  stack : List.Forall₂ TwinFrame m.stack m'.stack

namespace Twin

variable {m m' : Machine}

/-- A step of one machine is a step of its twin. -/
theorem step (h : m.Twin m') : Option.Rel Machine.Twin m.step? m'.step? := by
  obtain ⟨s, stack⟩ := m
  obtain ⟨t, stack'⟩ := m'
  obtain ⟨hserver, hstack⟩ := h
  dsimp only at hserver hstack
  cases hstack with
  | nil => exact .none
  | cons hfg hbelow =>
    obtain ⟨hserver', hframes⟩ := perform_twin hserver hbelow hfg
    exact .some ⟨hserver', List.rel_append hframes hbelow⟩

/-- Runs of twin machines are twins, step by step. -/
theorem run (h : m.Twin m') (n : Nat) : (m.run n).Twin (m'.run n) := by
  induction n generalizing m m' with
  | zero => exact h
  | succ n ih =>
    unfold Machine.run
    rcases eq_none_or_eq_some_of_rel h.step with ⟨hm, hm'⟩ | ⟨a, b, hm, hm', hnext⟩
    · rw [hm, hm']
      exact h
    · rw [hm, hm']
      exact ih hnext

end Twin

end Machine

/-- A failing transport cannot disturb the server. Two runs of scripts that differ at most in which
messages transports deliver are at every step in the same state: the same store, input and waiting
commands, the same state of the cycle, corresponding listeners on every occasion, and the same still
to do. They have handed the same messages to transports in the same order; and but for the notices
of failures they have done the same, given the same replies and called corresponding listeners. -/
theorem failures_disturb_nothing {cs ds : List Call} (h : List.Forall₂ TwinCall cs ds)
    (config : Config) (host : Host) (n : Nat) :
    let m := Machine.run ⟨.new config host, [.script cs]⟩ n
    let m' := Machine.run ⟨.new config host, [.script ds]⟩ n
    m.server.scene.store = m'.server.scene.store ∧
      m.server.scene.input = m'.server.scene.input ∧
      m.server.scene.registry.Alike TwinListener m'.server.scene.registry ∧
      m.server.outbox = m'.server.outbox ∧
      m.server.lifecycle.Twin m'.server.lifecycle ∧
      m.server.held = m'.server.held ∧
      List.Forall₂ TwinFrame m.stack m'.stack ∧
      attemptsIn m.server.journal.toList = attemptsIn m'.server.journal.toList ∧
      List.Forall₂ TwinEvent (Event.deeds m.server.journal.toList)
        (Event.deeds m'.server.journal.toList) := by
  intro m m'
  have hstart : Machine.Twin ⟨.new config host, [.script cs]⟩ ⟨.new config host, [.script ds]⟩ :=
    ⟨.new config host, .cons (.script h) .nil⟩
  obtain ⟨hserver, hstack⟩ := hstart.run n
  have hattempts : attemptsIn m.server.journal.toList = attemptsIn m'.server.journal.toList := by
    rw [← attemptsIn_deeds, ← attemptsIn_deeds m'.server.journal.toList]
    exact attemptsIn_of_twin hserver.deeds
  exact ⟨hserver.scene.store, hserver.scene.input, hserver.scene.registry, hserver.outbox,
    hserver.lifecycle, hserver.held, hstack, hattempts, hserver.deeds⟩

/-- A transport that delivers nothing and makes no calls. -/
def Transport.deaf : Transport :=
  .custom ⟨none, false, none, [], [], fun _ => true, fun _ => true⟩

/-- Serves over a transport, creates a note and lets a viewer connect. -/
def Call.hosting (t : Transport) : List Call :=
  [.serve 8080 t, .change (.createText .greeting), .hear (.connect 7)]

theorem failures_disturb_nothing_deaf :
    List.Forall₂ TwinCall (Call.hosting .quiet) (Call.hosting .deaf) ∧
      attemptsIn (Machine.run ⟨.new {} .blank, [.script (Call.hosting .quiet)]⟩
          20).server.journal.toList =
        attemptsIn (Machine.run ⟨.new {} .blank, [.script (Call.hosting .deaf)]⟩
          20).server.journal.toList ∧
      (Machine.run ⟨.new {} .blank, [.script (Call.hosting .quiet)]⟩
        20).server.journal.toList.filterMap Event.delivered? = [true, true] ∧
      (Machine.run ⟨.new {} .blank, [.script (Call.hosting .deaf)]⟩
        20).server.journal.toList.filterMap Event.delivered? = [false, false] := by
  have h : List.Forall₂ TwinCall (Call.hosting .quiet) (Call.hosting .deaf) :=
    .cons (.serve 8080 (.custom none false none .nil .nil _ _ _ _))
      (.cons (.change (.plain _ rfl)) (.cons (.hear (.connect 7)) .nil))
  obtain ⟨-, -, -, -, -, -, -, hattempts, -⟩ := failures_disturb_nothing h {} .blank 20
  exact ⟨h, hattempts, rfl, rfl⟩

end LiveScene
