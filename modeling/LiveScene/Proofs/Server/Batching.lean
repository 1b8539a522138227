import LiveScene.Proofs.Server.Acts
import LiveScene.Proofs.Server.Scenes

/-!
# Batching

When commands are sent makes no difference to what is said. Two scripts are a `SameScript` when they
differ only in calls that flush what waits or switch autoflush, on either side, at any place, and
also within the listeners that they register.

Such calls are `Server.Silent`: they change how commands are put together to messages, while all
commands that were broadcast or wait, taken together, stay what they are (`Server.ledger`). Two
servers are `Server.Alike` when they differ at most in that, and corresponding calls keep them so,
for changes by `KeptByEdits`. Two machines are `Machine.Matches` when their servers are alike and
their stacks differ only in batching. Then each step of one is matched by some steps of the other
(`Machine.Matches.step`), which may have batching calls of its own to make first or nothing to do at
all, and so is each run to the end (`Machine.Matches.steps`).
-/

namespace LiveScene

open Relation (ReflTransGen)

/-! ## Scripts that differ in batching -/

/-- A call that sends what waits, or decides when that is done, and nothing else. -/
inductive Call.IsBatching : Call → Prop
  | flush : IsBatching .flush
  | setAutoflush (on : Bool) : IsBatching (.setAutoflush on)

/-- Two lists that correspond item by item, but for items that are passed over on either side. -/
inductive Interleaved {α : Type} (passed : α → Prop) (R : α → α → Prop) : List α → List α → Prop
  | nil : Interleaved passed R [] []
  | left {x : α} {xs ys : List α} (hx : passed x) (h : Interleaved passed R xs ys) :
    Interleaved passed R (x :: xs) ys
  | right {y : α} {xs ys : List α} (hy : passed y) (h : Interleaved passed R xs ys) :
    Interleaved passed R xs (y :: ys)
  | both {x y : α} {xs ys : List α} (hxy : R x y) (h : Interleaved passed R xs ys) :
    Interleaved passed R (x :: xs) (y :: ys)

mutual

/-- Two calls on a scene that differ at most in batching within listeners. -/
inductive SameCall : Call → Call → Prop
  | change {c d : Change Listener} (h : ChangePair SameListener c d) :
    SameCall (.change c) (.change d)
  | on (s : Signal) {l k : Listener} (h : SameListener l k) : SameCall (.on s l) (.on s k)
  | ask (q : Query) (h : q ≠ .autoflush) : SameCall (.ask q) (.ask q)
  | hear (i : Inbound) : SameCall (.hear i) (.hear i)

/-- Two listeners that differ at most in batching. -/
inductive SameListener : Listener → Listener → Prop
  | mk (name : Json) (fails : Occasion → Nat → Bool) {cs ds : Occasion → Nat → List Call}
    (h : ∀ o n, Interleaved Call.IsBatching SameCall (cs o n) (ds o n)) :
    SameListener ⟨name, cs, fails⟩ ⟨name, ds, fails⟩

end

/-- Two scripts that differ at most in batching, also within listeners. -/
def SameScript (cs ds : List Call) : Prop := Interleaved Call.IsBatching SameCall cs ds

/-! ## Scenes with corresponding listeners -/

/-- Two scenes that are the same but for corresponding listeners. -/
structure Scene.Alike (x y : Scene) : Prop where
  store : x.store = y.store
  input : x.input = y.input
  registry : x.registry.Alike SameListener y.registry

/-- Corresponding edits queue the same commands. -/
theorem EditPair.alike {f g : Scene → Edit} (h : EditPair SameListener f g) {x y : Scene}
    (hxy : x.Alike y) : (f x).commands = (g y).commands ∧ (f x).scene.Alike (g y).scene := by
  obtain ⟨hscene, hcommands, -⟩ := h.corresponds ⟨hxy.store, hxy.input, hxy.registry⟩
  exact ⟨hcommands, hscene.store, hscene.input, hscene.registry⟩

/-! ## Servers that differ in what waits -/

namespace Server

variable {s t s' t' : Server} {es : List Event}

/-- All commands that have been broadcast or wait to be. -/
def ledger (s : Server) : List Command := broadcastIn s.journal.toList ++ s.outbox.pending

/-- What surrounds a server, but for whether it was set up with autoflush. -/
def context (s : Server) : Bool × Host × Bool × Bool × Nat × Lifecycle :=
  (s.config.replayOnConnect, s.host, s.held, s.inboundOpen, s.firings, s.lifecycle.bare)

theorem context_of_surroundings (h : t.surroundings = s.surroundings) : t.context = s.context := by
  simp only [surroundings, context, Prod.mk.injEq] at h ⊢
  obtain ⟨hconfig, hhost, hheld, hinbound, hfirings, hlifecycle, -⟩ := h
  exact ⟨by rw [hconfig], hhost, hheld, hinbound, hfirings, hlifecycle⟩

/-- `t` comes from `s` by things that viewers cannot tell, apart from how commands are put together
to messages. -/
structure Silent (s t : Server) : Prop where
  context : t.context = s.context
  scene : t.scene = s.scene
  ledger : t.ledger = s.ledger
  answers : answersIn t.journal.toList = answersIn s.journal.toList
  drained : s.Drained → t.Drained

theorem Handed.silent (h : Handed s t [] es) (hl : s.lifecycle.link.isSome) : Silent s t where
  context := context_of_surroundings h.surroundings
  scene := h.scene
  ledger := by simp [Server.ledger, h.journal, h.outbox, h.broadcast hl]
  answers := by simp [h.journal, h.answers]
  drained hd := by rwa [Drained, h.outbox]

theorem silent_emit (s : Server) {e : Event} (hb : e.toAll = []) (ha : e.answer? = none) :
    Silent s (s.emit e) where
  context := rfl
  scene := rfl
  ledger := by simp [Server.ledger, broadcastIn, hb, emit]
  answers := by simp [answersIn, ha]
  drained := id

theorem silent_release (hl : s.lifecycle.link.isSome) {q : Outbox} (hq : q.pending = []) :
    Silent s (release { s with outbox := q } s.outbox.take.1) := by
  obtain ⟨es, h⟩ := handed_release { s with outbox := q } s.outbox.take.1
  have ht : s.outbox.take.1.getD [] = s.outbox.pending := by
    unfold Outbox.take
    split <;> simp_all
  refine ⟨context_of_surroundings h.surroundings, h.scene, ?_, ?_, fun _ _ => by rw [h.outbox, hq]⟩
  · simp [ledger, h.journal, h.outbox, h.broadcast hl, hq, ht]
  · simp [h.journal, h.answers]

theorem silent_flush (hl : s.lifecycle.link.isSome) : Silent s s.flush :=
  silent_release hl (Outbox.pending_take s.outbox)

theorem silent_setAutoflush (hl : s.lifecycle.link.isSome) (on : Bool) :
    Silent s (s.setAutoflush on) := by
  cases on with
  | false => exact ⟨rfl, rfl, rfl, rfl, fun _ h => nomatch h⟩
  | true =>
    have ht : ({ s.outbox with autoflush := true } : Outbox).take.1 = s.outbox.take.1 := by
      unfold Outbox.take
      split <;> rfl
    have h := silent_release hl (Outbox.pending_take { s.outbox with autoflush := true })
    rw [← ht] at h
    exact h

/-- Two servers of which viewers can tell no difference, but for how commands are put together to
messages. Both are in a session, and hold what every reachable server holds. -/
structure Alike (s t : Server) : Prop where
  context : s.context = t.context
  linked : s.lifecycle.link.isSome
  opened : s.inboundOpen
  held : s.held
  keyed : s.scene.store.Keyed
  drained : s.Drained ∧ t.Drained
  scene : s.scene.Alike t.scene
  ledger : s.ledger = t.ledger
  answers : answersIn s.journal.toList = answersIn t.journal.toList

theorem linked_of_context (h : s.context = t.context) :
    s.lifecycle.link.isSome = t.lifecycle.link.isSome :=
  Lifecycle.linked_of_bare (congrArg (·.2.2.2.2.2) h)

theorem Alike.linked_right (h : Alike s t) : t.lifecycle.link.isSome :=
  (linked_of_context h.context).symm.trans h.linked

theorem Alike.opened_right (h : Alike s t) : t.inboundOpen :=
  (congrArg (·.2.2.2.1) h.context).symm.trans h.opened

theorem Alike.held_right (h : Alike s t) : t.held :=
  (congrArg (·.2.2.1) h.context).symm.trans h.held

theorem Alike.silent (h : Alike s t) (hs : Silent s s') (ht : Silent t t') : Alike s' t' where
  context := (hs.context.trans h.context).trans ht.context.symm
  linked := (linked_of_context hs.context).trans h.linked
  opened := (congrArg (·.2.2.2.1) hs.context).trans h.opened
  held := (congrArg (·.2.2.1) hs.context).trans h.held
  keyed := by rw [hs.scene]; exact h.keyed
  drained := ⟨hs.drained h.drained.1, ht.drained h.drained.2⟩
  scene := by rw [hs.scene, ht.scene]; exact h.scene
  ledger := (hs.ledger.trans h.ledger).trans ht.ledger.symm
  answers := (hs.answers.trans h.answers).trans ht.answers.symm

theorem Silent.refl (s : Server) : Silent s s := ⟨rfl, rfl, rfl, rfl, id⟩

theorem Silent.trans {u : Server} (h : Silent s t) (h' : Silent t u) : Silent s u where
  context := h'.context.trans h.context
  scene := h'.scene.trans h.scene
  ledger := h'.ledger.trans h.ledger
  answers := h'.answers.trans h.answers
  drained hd := h'.drained (h.drained hd)

/-- Both servers give the same reply. -/
theorem Alike.reply (h : Alike s t) (r : Reply) :
    Alike (s.emit (.returned r)) (t.emit (.returned r)) :=
  { h with
    ledger := by simpa [Server.ledger, broadcastIn, Event.toAll, emit] using h.ledger
    answers := by simp [h.answers] }

/-! ## Changes -/

theorem Told.ledger (h : Told s t es) (hd : s.Drained) (hl : s.lifecycle.link.isSome) :
    t.ledger = s.ledger ++ queuedIn es := by
  obtain ⟨cs, hcs, hb⟩ := h.told hd
  rw [Server.ledger, Server.ledger, h.journal, broadcastIn_append, hb hl, List.append_assoc, hcs,
    List.append_assoc]

theorem Alike.edit (h : Alike s t) {f g : Scene → Edit} (hfg : EditPair SameListener f g) :
    Alike (s.edit f) (t.edit g) := by
  obtain ⟨hcommands, hscene⟩ := hfg.alike h.scene
  have hkeyed : t.scene.store.Keyed := by
    rw [← h.scene.store]
    exact h.keyed
  obtain ⟨es, hes, hqueued, hanswers⟩ := edited_edit s (hfg.store_eq h.keyed) (hfg.apt h.keyed)
  obtain ⟨fs, hfs, hqueued', hanswers'⟩ := edited_edit t (hfg.swap.store_eq hkeyed)
    (hfg.swap.apt hkeyed)
  have hcontext := context_of_surroundings (surroundings_edit s f)
  have hcontext' := context_of_surroundings (surroundings_edit t g)
  refine ⟨(hcontext.trans h.context).trans hcontext'.symm,
    (linked_of_context hcontext).trans h.linked,
    (congrArg (·.2.2.2.1) hcontext).trans h.opened, (congrArg (·.2.2.1) hcontext).trans h.held,
    hes.keyed h.keyed, ⟨hes.drained h.drained.1, hfs.drained h.drained.2⟩, ?_, ?_, ?_⟩
  · rw [scene_edit, scene_edit]
    exact hscene
  · rw [hes.toTold.ledger h.drained.1 h.linked, hfs.toTold.ledger h.drained.2 h.linked_right,
      h.ledger, hqueued, hqueued', hcommands]
  · rw [hes.journal, hfs.journal, answersIn_append, answersIn_append, hanswers, hanswers',
      h.answers]

theorem keptByEdits_alike : KeptByEdits SameListener Alike where
  host h := congrArg (·.2.1) h.context
  store h := h.scene.store
  note _ h := h.silent (silent_emit _ rfl rfl) (silent_emit _ rfl rfl)
  edit hfg h := h.edit hfg

end Server

/-! ## Steps -/

/-- Two frames that differ at most in batching. -/
inductive SameFrame : Frame → Frame → Prop
  | script {cs ds : List Call} (h : SameScript cs ds) : SameFrame (.script cs) (.script ds)
  | notify (o : Occasion) (called : Nat) {ls ks : List Listener}
    (h : List.Forall₂ SameListener ls ks) : SameFrame (.notify o called ls) (.notify o called ks)
  | heard (o : Occasion) (index : Nat) (fails : Bool) :
    SameFrame (.heard o index fails) (.heard o index fails)
  | requestShutdown : SameFrame .requestShutdown .requestShutdown
  | reply (r : Reply) : SameFrame (.reply r) (.reply r)

/-- Two stacks that differ at most in batching. The reply to a batching call may stand on either. -/
def SameStack (fs gs : List Frame) : Prop := Interleaved (· = .reply .nothing) SameFrame fs gs

theorem SameStack.append {fs gs fs' gs' : List Frame} (h : List.Forall₂ SameFrame fs gs)
    (h' : SameStack fs' gs') : SameStack (fs ++ fs') (gs ++ gs') := by
  induction h with
  | nil => exact h'
  | cons hxy _ ih => exact .both hxy ih

namespace Server

variable {s t : Server}

/-- Two servers that are alike, with frames that differ at most in batching. -/
structure AlikeMoves (p q : Server × List Frame) : Prop where
  server : Alike p.1 q.1
  frames : List.Forall₂ SameFrame p.2 q.2

theorem AlikeMoves.append {p q : Server × List Frame} (h : AlikeMoves p q) {fs gs : List Frame}
    (hframes : List.Forall₂ SameFrame fs gs) : AlikeMoves (p.1, p.2 ++ fs) (q.1, q.2 ++ gs) :=
  ⟨h.server, List.rel_append h.frames hframes⟩

theorem Alike.emit (h : Alike s t) {e e' : Event} (hb : e.toAll = []) (ha : e.answer? = none)
    (hb' : e'.toAll = []) (ha' : e'.answer? = none) : Alike (s.emit e) (t.emit e') :=
  h.silent (silent_emit s hb ha) (silent_emit t hb' ha')

theorem Alike.note (h : Alike s t) (n n' : Notice) : Alike (s.note n) (t.note n') :=
  h.emit rfl rfl rfl rfl

theorem Alike.announce (h : Alike s t) (o : Occasion) : AlikeMoves (s.announce o) (t.announce o) :=
  ⟨h.emit rfl rfl rfl rfl, .cons (.notify o 0 (h.scene.registry o)) .nil⟩

theorem Alike.lifecycle (h : Alike s t) : s.lifecycle.bare = t.lifecycle.bare :=
  congrArg (·.2.2.2.2.2) h.context

theorem Alike.firings (h : Alike s t) : s.firings = t.firings :=
  congrArg (·.2.2.2.2.1) h.context

/-- Both servers call a listener. -/
theorem Alike.fire (h : Alike s t) (l k : Listener) (o : Occasion) :
    Alike (s.fire l o) (t.fire k o) := by
  have hcontext := h.context
  simp only [Server.context, Prod.mk.injEq] at hcontext
  obtain ⟨h₁, h₂, h₃, h₄, h₅, h₆⟩ := hcontext
  have hcounted :
      Alike { s with firings := s.firings + 1 } { t with firings := t.firings + 1 } := by
    refine { h with context := ?_ }
    simp only [Server.context, h₁, h₂, h₃, h₄, h₅, h₆]
  exact hcounted.emit rfl rfl rfl rfl

/-- Both servers go on to states of the cycle that are the same but for counts of messages. -/
theorem Alike.cycle (h : Alike s t) {l k : Lifecycle} (hlk : l.bare = k.bare)
    (hl : l.link.isSome) : Alike { s with lifecycle := l } { t with lifecycle := k } := by
  have hcontext := h.context
  simp only [Server.context, Prod.mk.injEq] at hcontext
  obtain ⟨h₁, h₂, h₃, h₄, h₅, -⟩ := hcontext
  refine { h with context := ?_, linked := hl }
  simp only [Server.context, h₁, h₂, h₃, h₄, h₅, hlk]

/-- Either both servers claim the shutdown listeners or neither does. -/
theorem Alike.claim (h : Alike s t) :
    (s.lifecycle.claimShutdown? = none ∧ t.lifecycle.claimShutdown? = none) ∨
      ∃ l k, s.lifecycle.claimShutdown? = some l ∧ t.lifecycle.claimShutdown? = some k ∧
        Alike { s with lifecycle := l } { t with lifecycle := k } := by
  have hphase := Lifecycle.phase_of_bare h.lifecycle
  have hfired : s.lifecycle.shutdownFired = t.lifecycle.shutdownFired :=
    congrArg (·.shutdownFired) h.lifecycle
  by_cases hclaim : t.lifecycle.phase = .serving ∧ t.lifecycle.shutdownFired = false
  · refine Or.inr ⟨_, _, if_pos (by rwa [hphase, hfired]), if_pos hclaim, h.cycle ?_ h.linked⟩
    exact congrArg (fun l : Lifecycle => { l with shutdownFired := true }) h.lifecycle
  · exact Or.inl ⟨if_neg (by rwa [hphase, hfired]), if_neg hclaim⟩

theorem Alike.requestShutdown (h : Alike s t) : Alike s.requestShutdown t.requestShutdown := by
  have hphase := Lifecycle.phase_of_bare h.lifecycle
  unfold Server.requestShutdown Lifecycle.requestShutdown?
  by_cases hserving : t.lifecycle.phase = .serving
  · rw [if_pos hserving, if_pos (hphase.trans hserving)]
    exact h.cycle (congrArg (fun l : Lifecycle => { l with shutdownRequested := true }) h.lifecycle)
      h.linked
  · rw [if_neg hserving, if_neg (by rwa [hphase])]
    exact h.note _ _

theorem Alike.record (h : Alike s t) (m : ViewerMessage) :
    Alike { s with scene := s.scene.record m } { t with scene := t.scene.record m } := by
  have hscene := Scene.Corresponds.record ⟨h.scene.store, h.scene.input, h.scene.registry⟩ m
  exact { h with
    keyed := keyed_record h.keyed m
    scene := ⟨hscene.store, hscene.input, hscene.registry⟩ }

theorem Alike.dispatch (h : Alike s t) (m : ViewerMessage) :
    AlikeMoves (s.dispatch m) (t.dispatch m) := by
  have hr := h.record m
  have hlisteners := hr.scene.registry (.message m)
  unfold Server.dispatch
  cases m with
  | keydown _ | keyup _ | drag _ _ | screenResize _ => exact hr.announce _
  | buttonClick key | sliderSetValue key _ =>
    dsimp only at hlisteners ⊢
    generalize hs : Registry.listeners _ _ = ls at hlisteners
    generalize ht : Registry.listeners _ _ = ks at hlisteners
    cases hlisteners with
    | nil => exact ⟨hr.note _ _, .nil⟩
    | cons _ _ => exact hr.announce _

theorem Alike.replayTo (h : Alike s t) (c : Connection) : Alike (s.replayTo c) (t.replayTo c) := by
  obtain ⟨es, hes, -⟩ := handed_replayTo s c
  obtain ⟨fs, hfs, -⟩ := handed_replayTo t c
  exact h.silent (hes.silent h.linked) (hfs.silent h.linked_right)

theorem Alike.hear (h : Alike s t) (i : Inbound) : AlikeMoves (s.hear i) (t.hear i) := by
  cases i with
  | connect c =>
    have hn := h.note (.connected c) (.connected c)
    have hreplay : (s.note (.connected c)).config.replayOnConnect =
        (t.note (.connected c)).config.replayOnConnect := congrArg (·.1) h.context
    unfold Server.hear
    dsimp only
    rw [hreplay]
    split
    · exact (hn.replayTo c).announce _
    · exact hn.announce _
  | disconnect c => exact ⟨h.note _ _, .nil⟩
  | message c text =>
    simp only [Server.hear]
    cases ViewerMessage.parse text with
    | ok m => exact h.dispatch m
    | error e => exact ⟨h.note _ _, .nil⟩
  | shutdownSignal =>
    simp only [Server.hear]
    rcases h.claim with ⟨hs, ht⟩ | ⟨l, k, hs, ht, hc⟩
    · rw [hs, ht]
      exact ⟨h, .cons .requestShutdown .nil⟩
    · rw [hs, ht]
      exact (hc.announce .shutdown).append (.cons .requestShutdown .nil)

theorem Alike.answer (h : Alike s t) {q : Query} (hq : q ≠ .autoflush) :
    s.answer q = t.answer q := by
  have hl := h.lifecycle
  cases q with
  | state =>
    have hphase := Lifecycle.phase_of_bare hl
    have haddress : s.lifecycle.address = t.lifecycle.address := congrArg (·.address) hl
    simp only [Server.answer, hphase, haddress]
  | autoflush => exact absurd rfl hq
  | keysDown | isKeyDown _ | screenSize => simp only [Server.answer, h.scene.input]
  | objects keys =>
    have hglance := Scene.glance_of_store h.scene.store
    simp only [Server.answer, hglance]

/-! ## Calls -/

theorem receive_eq (hheld : s.held = true) (hopen : s.inboundOpen = true) (nested : Bool)
    (c : Call) : s.receive nested c = s.call c := by
  cases c <;> simp [receive, hheld, hopen]

theorem Alike.call (h : Alike s t) {c d : Call} (hcd : SameCall c d) :
    AlikeMoves (s.call c) (t.call d) := by
  have hc : Alike (s.emit (.called c)) (t.emit (.called d)) := h.emit rfl rfl rfl rfl
  unfold Server.call
  generalize s.emit (.called c) = s at hc ⊢
  generalize t.emit (.called d) = t at hc ⊢
  cases hcd with
  | change hcd =>
    obtain ⟨hreply, hchange⟩ := keptByEdits_alike.change hcd hc
    simp only [Server.make, hreply]
    exact ⟨hchange, .cons (.reply _) .nil⟩
  | on signal hl =>
    exact ⟨{ hc with scene := ⟨hc.scene.store, hc.scene.input, hc.scene.registry.add signal hl⟩ },
      .cons (.reply _) .nil⟩
  | ask q hq =>
    simp only [Server.make, hc.answer hq]
    exact ⟨hc, .cons (.reply _) .nil⟩
  | hear i => exact (hc.hear i).append (.cons (.reply _) .nil)

/-- A batching call is silent. -/
theorem silent_call {c : Call} (hl : s.lifecycle.link.isSome) (hc : c.IsBatching) :
    Silent s (s.call c).1 ∧ (s.call c).2 = [.reply .nothing] := by
  have he : Silent s (s.emit (.called c)) := silent_emit s rfl rfl
  have hl' : (s.emit (.called c)).lifecycle.link.isSome := hl
  cases hc with
  | flush => exact ⟨he.trans (silent_flush hl'), rfl⟩
  | setAutoflush on => exact ⟨he.trans (silent_setAutoflush hl' on), rfl⟩

end Server

namespace Machine

open Server (Alike)

/-- Some steps of a machine. -/
def Steps : Machine → Machine → Prop := ReflTransGen fun m m' => m.step? = some m'

theorem steps_run (m : Machine) (n : Nat) : Steps m (m.run n) := by
  induction n generalizing m with
  | zero => exact .refl
  | succ n ih =>
    unfold run
    split
    · next m' h => exact .head h (ih m')
    · exact .refl

variable {s t : Server} {fs gs : List Frame} {m₁ m₁' : Machine}

/-- Two machines that differ at most in batching, in what is still to do and in what waits. -/
structure Matches (m₁ m₂ : Machine) : Prop where
  server : m₁.server.Alike m₂.server
  stack : SameStack m₁.stack m₂.stack

/-- Both machines make corresponding moves on top of corresponding stacks. -/
theorem matches_moves {p q : Server × List Frame} (h : Server.AlikeMoves p q)
    (hstack : SameStack fs gs) : Matches ⟨p.1, p.2 ++ fs⟩ ⟨q.1, q.2 ++ gs⟩ :=
  ⟨h.server, hstack.append h.frames⟩

/-- A reply that says nothing is given back in silence. -/
theorem step?_reply (s : Server) (fs : List Frame) :
    step? ⟨s, .reply .nothing :: fs⟩ = some ⟨s.emit (.returned .nothing), fs⟩ := rfl

theorem silent_reply (s : Server) : s.Silent (s.emit (.returned .nothing)) :=
  Server.silent_emit s rfl rfl

theorem step?_call (hheld : s.held) (hopen : s.inboundOpen) (c : Call) (cs : List Call)
    (fs : List Frame) :
    step? ⟨s, .script (c :: cs) :: fs⟩ =
      some ⟨(s.call c).1, (s.call c).2 ++ .script cs :: fs⟩ := by
  simp [step?, perform, Server.receive_eq hheld hopen]

/-- A batching call on one side takes two steps there: the call and its reply. -/
theorem steps_batching (hl : s.lifecycle.link.isSome) (hheld : s.held) (hopen : s.inboundOpen)
    {c : Call} (hc : c.IsBatching) (cs : List Call) (fs : List Frame) :
    Steps ⟨s, .script (c :: cs) :: fs⟩
      ⟨(s.call c).1.emit (.returned .nothing), .script cs :: fs⟩ := by
  have hcall := step?_call hheld hopen c cs fs
  rw [(Server.silent_call hl hc).2] at hcall
  exact .head hcall (.single (step?_reply _ _))

/-- A step of a script, where the other side may have batching calls to make first. -/
theorem step_script (h : Alike s t) {cs ds : List Call} (hscript : SameScript cs ds)
    (hstack : SameStack fs gs) (hs : step? ⟨s, .script cs :: fs⟩ = some m₁') :
    ∃ m₂', Steps ⟨t, .script ds :: gs⟩ m₂' ∧ Matches m₁' m₂' := by
  induction hscript generalizing t with
  | nil =>
    cases hs
    exact ⟨⟨t, gs⟩, .single rfl, h, hstack⟩
  | left hc hscript _ =>
    rw [step?_call h.held h.opened, Option.some.injEq] at hs
    obtain ⟨hsilent, hreply⟩ := Server.silent_call h.linked hc
    rw [hreply] at hs
    subst hs
    exact ⟨_, .refl, h.silent hsilent (.refl t), .left rfl (.both (.script hscript) hstack)⟩
  | right hd _ ih =>
    obtain ⟨hsilent, -⟩ := Server.silent_call h.linked_right hd
    have h' := h.silent (.refl s) (hsilent.trans (silent_reply _))
    obtain ⟨m₂', hsteps, hm⟩ := ih h' hs
    have hcall := steps_batching h.linked_right h.held_right h.opened_right hd
    exact ⟨m₂', (hcall _ gs).trans hsteps, hm⟩
  | both hcd hscript _ =>
    rw [step?_call h.held h.opened, Option.some.injEq] at hs
    subst hs
    refine ⟨_, .single (step?_call h.held_right h.opened_right _ _ _), ?_⟩
    exact matches_moves (h.call hcd) (.both (.script hscript) hstack)

/-- A step of any frame but a script. -/
theorem step_frame (h : Alike s t) {f g : Frame} (hfg : SameFrame f g) (hstack : SameStack fs gs)
    (hs : step? ⟨s, f :: fs⟩ = some m₁') : ∃ m₂', Steps ⟨t, g :: gs⟩ m₂' ∧ Matches m₁' m₂' := by
  cases hfg with
  | script hscript => exact step_script h hscript hstack hs
  | notify o called hls =>
    cases hs
    refine ⟨_, .single rfl, ?_⟩
    cases hls with
    | nil => exact ⟨h, hstack⟩
    | cons hl hls =>
      obtain ⟨name, fails, hscript⟩ := hl
      dsimp only
      rw [← h.firings]
      exact ⟨h.fire _ _ o, .both (.script (hscript o s.firings))
        (.both (.heard o called (fails o s.firings)) (.both (.notify o _ hls) hstack))⟩
  | heard o index fails =>
    cases hs
    refine ⟨_, .single rfl, ?_, hstack⟩
    dsimp only
    split
    · exact h.note _ _
    · exact h
  | requestShutdown =>
    cases hs
    exact ⟨_, .single rfl, h.requestShutdown, hstack⟩
  | reply r =>
    cases hs
    exact ⟨_, .single rfl, h.reply r, hstack⟩

/-- Each step of one machine is matched by some steps of the other, or by none. -/
theorem Matches.step {m₂ : Machine} (h : Matches m₁ m₂) (hs : m₁.step? = some m₁') :
    ∃ m₂', Steps m₂ m₂' ∧ Matches m₁' m₂' := by
  obtain ⟨s, fs⟩ := m₁
  obtain ⟨t, gs⟩ := m₂
  obtain ⟨hserver, hstack⟩ := h
  dsimp only at hserver hstack
  induction hstack generalizing t with
  | nil => cases hs
  | left hx hstack _ =>
    subst hx
    cases hs
    exact ⟨_, .refl, hserver.silent (silent_reply s) (.refl t), hstack⟩
  | right hy _ ih =>
    subst hy
    obtain ⟨m₂', hsteps, hm⟩ := ih hs _ (hserver.silent (.refl s) (silent_reply t))
    exact ⟨m₂', .head (step?_reply t _) hsteps, hm⟩
  | both hfg hstack _ => exact step_frame hserver hfg hstack hs

/-- What is left of a machine that matches one at its end is replies that say nothing. -/
theorem steps_of_nil (h : Alike s t) (hstack : SameStack [] gs) :
    ∃ t', Steps ⟨t, gs⟩ ⟨t', []⟩ ∧ Alike s t' := by
  generalize hfs : ([] : List Frame) = fs at hstack
  induction hstack generalizing t with
  | nil => exact ⟨t, .refl, h⟩
  | left _ _ => cases hfs
  | right hy _ ih =>
    subst hy
    obtain ⟨t', hsteps, ht⟩ := ih (h.silent (.refl s) (silent_reply t)) hfs
    exact ⟨t', .head (step?_reply t _) hsteps, ht⟩
  | both _ _ => cases hfs

/-- A run to the end of one machine is matched by one of the other. -/
theorem Matches.steps {m₂ : Machine} (h : Matches m₁ m₂) (hs : Steps m₁ ⟨s, []⟩) :
    ∃ t, Steps m₂ ⟨t, []⟩ ∧ Alike s t := by
  generalize hend : (⟨s, []⟩ : Machine) = last at hs
  induction hs using ReflTransGen.head_induction_on generalizing m₂ with
  | refl =>
    subst hend
    exact steps_of_nil h.server h.stack
  | head hstep _ ih =>
    obtain ⟨m₂', hsteps, hm⟩ := h.step hstep
    obtain ⟨t, hrest, ht⟩ := ih hm
    exact ⟨t, hsteps.trans hrest, ht⟩

/-! ## Fresh servers -/

/-- A new server that is asked to serve does so after four steps, and nothing has been said. -/
theorem steps_serve (config : Config) (host : Host) {port : UInt16} {transport : Transport}
    {address : Option SocketAddress} (hlisten : transport.listen host.network port = .ok address)
    (hquiet : transport.duringListen = []) (calls : List Call) :
    ∃ u : Server, Steps ⟨.new config host, [.script (.serve port transport :: calls)]⟩
        ⟨u, [.script calls]⟩ ∧
      u.context = (config.replayOnConnect, host, true, true, 0,
        { phase := .serving, address, link := some ⟨0, transport, 0, 0⟩, sessions := 1 }) ∧
      u.scene = {} ∧ u.outbox = ⟨config.autoflush, []⟩ ∧
      broadcastIn u.journal.toList = [] ∧ answersIn u.journal.toList = [.ok] := by
  let asked : Server := { Server.new config host with
    lifecycle := { phase := .starting }
    inboundOpen := true
    journal := #[.called (.serve port transport), .listening port] ++
      ((transport.listenNotices port).map Event.noted).toArray }
  have hcall : step? ⟨.new config host, [.script (.serve port transport :: calls)]⟩ =
      some ⟨asked, [.script [], .listened port transport address, .reply .ok, .script calls]⟩ := by
    simp [step?, perform, Server.receive, Server.call, Server.make, Server.serve,
      Server.afterListen, Server.new, Server.emit, Lifecycle.start, hlisten, hquiet,
      Server.noteAll_eq, asked]
  refine ⟨_, .head hcall (.head rfl (.head rfl (.single rfl))), rfl, rfl, rfl, ?_, ?_⟩
  · simp [Server.accept, asked, broadcastIn, Event.toAll, List.flatMap_map]
  · have hnotes :
        ((transport.listenNotices port).map Event.noted).filterMap Event.answer? = [] := by
      simp [List.filterMap_map, Function.comp_def, Event.answer?]
    simp [Server.accept, asked, answersIn, hnotes, Event.answer?, List.filterMap_cons]

/-- Steps are determined, so a run to the end goes through whatever steps lead to. -/
theorem Steps.rest {m m' : Machine} (h : Steps m m') (hend : Steps m ⟨s, []⟩) :
    Steps m' ⟨s, []⟩ := by
  induction h using ReflTransGen.head_induction_on with
  | refl => exact hend
  | head hstep _ ih =>
    rcases ReflTransGen.cases_head hend with heq | ⟨m₁, hstep₁, hrest⟩
    · rw [heq] at hstep
      cases hstep
    · rw [hstep, Option.some.injEq] at hstep₁
      subst hstep₁
      exact ih hrest

end Machine

/-- Two runs on fresh servers that serve, which differ in whether autoflush is on at first, and in
how often and where what waits is flushed and autoflush is switched, also within listeners: if one
of them comes to its end, so does the other, and after a last flush the same commands have been
broadcast, the stores are the same, the listeners to every occasion correspond, and every question
and every call was answered alike. -/
theorem batching_changes_nothing {config : Config} {on : Bool} {host : Host} {port : UInt16}
    {transport : Transport} {address : Option SocketAddress} {cs ds : List Call} {s : Server}
    (hlisten : transport.listen host.network port = .ok address)
    (hquiet : transport.duringListen = []) (hscript : SameScript cs ds)
    (hrun : Machine.Steps ⟨.new config host, [.script (.serve port transport :: cs)]⟩ ⟨s, []⟩) :
    ∃ t, Machine.Steps ⟨.new { config with autoflush := on } host,
        [.script (.serve port transport :: ds)]⟩ ⟨t, []⟩ ∧
      broadcastIn s.flush.journal.toList = broadcastIn t.flush.journal.toList ∧
      s.flush.scene.store = t.flush.scene.store ∧
      s.flush.scene.registry.Alike SameListener t.flush.scene.registry ∧
      answersIn s.flush.journal.toList = answersIn t.flush.journal.toList := by
  obtain ⟨u, hu, hcontext, hscene, houtbox, hbroadcast, hanswers⟩ :=
    Machine.steps_serve config host hlisten hquiet cs
  obtain ⟨v, hv, hcontext', hscene', houtbox', hbroadcast', hanswers'⟩ :=
    Machine.steps_serve { config with autoflush := on } host hlisten hquiet ds
  have halike : u.Alike v := by
    refine ⟨hcontext.trans hcontext'.symm, ?_, congrArg (·.2.2.2.1) hcontext,
      congrArg (·.2.2.1) hcontext, ?_, ⟨fun _ => by rw [houtbox], fun _ => by rw [houtbox']⟩,
      ?_, ?_, hanswers.trans hanswers'.symm⟩
    · have hlink : u.lifecycle.bare.link.isSome := by
        rw [show u.lifecycle.bare = _ from congrArg (·.2.2.2.2.2) hcontext]
        rfl
      simpa [Lifecycle.bare] using hlink
    · rw [hscene]
      exact Store.keyed_empty
    · rw [hscene, hscene']
      exact ⟨rfl, rfl, Registry.alike_empty⟩
    · simp [Server.ledger, houtbox, houtbox', hbroadcast, hbroadcast']
  have hmatches : Machine.Matches ⟨u, [.script cs]⟩ ⟨v, [.script ds]⟩ :=
    ⟨halike, .both (.script hscript) .nil⟩
  obtain ⟨t, ht, hst⟩ := hmatches.steps (hu.rest hrun)
  have hflushed :=
    hst.silent (Server.silent_flush hst.linked) (Server.silent_flush hst.linked_right)
  refine ⟨t, hv.trans ht, ?_, hflushed.scene.store, hflushed.scene.registry, hflushed.answers⟩
  simpa [Server.ledger, Server.pending_flush] using hflushed.ledger

/-- A listener that creates a note and then makes some more calls. -/
def Listener.greeter (more : List Call) : Listener :=
  .steady .null (.change (.createText .greeting) :: more) false

theorem batching_changes_nothing_greeter :
    ∃ s t, Machine.Steps ⟨.new {} .blank, [.script (.serve 8080 .quiet ::
        [.on .connection (.greeter []), .hear (.connect 7)])]⟩ ⟨s, []⟩ ∧
      Machine.Steps ⟨.new ⟨false, true⟩ .blank, [.script (.serve 8080 .quiet ::
        [.on .connection (.greeter [.flush]), .setAutoflush false, .hear (.connect 7)])]⟩ ⟨t, []⟩ ∧
      broadcastIn s.flush.journal.toList = broadcastIn t.flush.journal.toList ∧
      s.flush.scene.store = t.flush.scene.store ∧
      s.flush.scene.registry.Alike SameListener t.flush.scene.registry ∧
      answersIn s.flush.journal.toList = answersIn t.flush.journal.toList := by
  have hscript : SameScript [.on .connection (.greeter []), .hear (.connect 7)]
      [.on .connection (.greeter [.flush]), .setAutoflush false, .hear (.connect 7)] :=
    .both (.on .connection (.mk .null _ fun _ _ => .both (.change (.plain _ rfl))
      (.right .flush .nil))) (.right (.setAutoflush false) (.both (.hear (.connect 7)) .nil))
  have hrun : Machine.Steps ⟨.new {} .blank, [.script (.serve 8080 .quiet ::
      [.on .connection (.greeter []), .hear (.connect 7)])]⟩
      ⟨(Machine.run ⟨.new {} .blank, [.script (.serve 8080 .quiet ::
        [.on .connection (.greeter []), .hear (.connect 7)])]⟩ 16).server, []⟩ :=
    Machine.steps_run _ 16
  obtain ⟨t, h⟩ := @batching_changes_nothing {} false _ _ _ _ _ _ _ rfl rfl hscript hrun
  exact ⟨_, t, hrun, h⟩

end LiveScene
