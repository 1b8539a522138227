import LiveScene.Proofs.Server.Acts

/-!
# Returning

The frames at the bottom of a stack stay where they are until those above them are done, whatever
these do: `Machine.Above` follows a machine as long as it takes up frames above some others, and
lists the listeners called on the way by frames that stand directly on them. When nothing is left
above, what was to be done there has returned (`Machine.Returns`). On the way it passes every frame
that stood in between (`Machine.Returns.through`).

So it is known what a stop comes to when it returns: `Machine.Stops` says that a machine is about to
stop a session, and `Machine.Stops.step?` which frames that takes.
-/

namespace LiveScene

open Relation (ReflTransGen)

/-- The listener that a frame calls when it is taken up, and for what. -/
def Frame.calls? : Frame → Option (Listener × Occasion)
  | .notify o _ (l :: _) => some (l, o)
  | _ => none

namespace Machine

variable {m m₁ m' : Machine} {f : Frame} {rest upper : List Frame}
  {called : List (Listener × Occasion)}

/-- What a machine comes to by taking up frames above `rest`, and the listeners called meanwhile by
frames that stood directly on `rest`. -/
inductive Above (rest : List Frame) : Machine → List (Listener × Occasion) → Machine → Prop
  | refl (m : Machine) : Above rest m [] m
  | head {m m₁ m' : Machine} {f : Frame} {upper : List Frame} {called : List (Listener × Occasion)}
    (hstack : m.stack = f :: (upper ++ rest)) (hstep : m.step? = some m₁)
    (h : Above rest m₁ called m') :
    Above rest m ((if upper.isEmpty then f.calls?.toList else []) ++ called) m'

theorem run_succ (hstep : m.step? = some m₁) (n : Nat) : m.run (n + 1) = m₁.run n := by
  simp only [run, hstep]

/-- A step leaves what is below the first frame. -/
theorem stack_of_step? (hstack : m.stack = f :: (upper ++ rest)) (hstep : m.step? = some m₁) :
    ∃ upper', m₁.stack = upper' ++ rest := by
  obtain rfl := Option.some.inj ((step?_of_stack hstack).symm.trans hstep)
  exact ⟨_, (List.append_assoc _ _ _).symm⟩

/-- Whatever is done above `rest`, it stays. -/
theorem Above.stack (h : m.Above rest called m') (hstack : m.stack = upper ++ rest) :
    ∃ upper', m'.stack = upper' ++ rest := by
  induction h generalizing upper with
  | refl => exact ⟨upper, hstack⟩
  | head hm hstep _ ih =>
    obtain ⟨upper', hstack'⟩ := stack_of_step? hm hstep
    exact ih hstack'

theorem Above.next (h : m.Above rest called m') : ReflTransGen Next m m' := by
  induction h with
  | refl => exact .refl
  | head _ hstep _ ih => exact .head (.step hstep) ih

/-- All that stood above `rest` is done. -/
structure Returns (rest : List Frame) (m m' : Machine) : Prop where
  above : ∃ called, m.Above rest called m'
  stack : m'.stack = rest

theorem Returns.next (h : m.Returns rest m') : ReflTransGen Next m m' := by
  obtain ⟨called, h⟩ := h.above
  exact h.next

/-- With nothing above, there is nothing to do. -/
theorem Returns.eq (h : m.Returns rest m') (hstack : m.stack = rest) : m' = m := by
  obtain ⟨⟨called, h⟩, -⟩ := h
  cases h with
  | refl => rfl
  | head hm _ _ =>
    have hlength := congrArg List.length (hm.symm.trans hstack)
    simp only [List.length_cons, List.length_append] at hlength
    omega

/-- A run above some frames is one above those further down. -/
theorem Above.lower {mid : List Frame} (h : m.Above (mid ++ rest) called m') :
    ∃ called', m.Above rest called' m' := by
  induction h with
  | refl m => exact ⟨[], .refl m⟩
  | @head m m₁ m' f upper called hm hstep h ih =>
    obtain ⟨called', h'⟩ := ih
    rw [← List.append_assoc] at hm
    exact ⟨_, .head hm hstep h'⟩

theorem Above.trans {called' : List (Listener × Occasion)} (h : m.Above rest called m₁)
    (h' : m₁.Above rest called' m') : m.Above rest (called ++ called') m' := by
  induction h with
  | refl => exact h'
  | head hm hstep _ ih =>
    rw [List.append_assoc]
    exact .head hm hstep (ih h')

/-- First what is further up is done, and then the rest. -/
theorem Returns.trans (mid : List Frame) (h : m.Returns (mid ++ rest) m₁)
    (h' : m₁.Returns rest m') : m.Returns rest m' := by
  obtain ⟨⟨called, h⟩, -⟩ := h
  obtain ⟨⟨called', h'⟩, hend⟩ := h'
  obtain ⟨called, h⟩ := h.lower
  exact ⟨⟨_, h.trans h'⟩, hend⟩

/-- A step, and then the rest. -/
theorem Returns.head (upper : List Frame) (hstack : m.stack = f :: (upper ++ rest))
    (hstep : m.step? = some m₁) (h : m₁.Returns rest m') : m.Returns rest m' := by
  obtain ⟨⟨called, h⟩, hend⟩ := h
  exact ⟨⟨_, .head hstack hstep h⟩, hend⟩

/-- The first step on the way. -/
theorem Returns.step (h : m.Returns rest m') (upper : List Frame)
    (hstack : m.stack = f :: (upper ++ rest)) :
    ∃ m₁, m.step? = some m₁ ∧ m₁.Returns rest m' := by
  obtain ⟨⟨called, h⟩, hend⟩ := h
  cases h with
  | refl =>
    have hlength := congrArg List.length (hend.symm.trans hstack)
    simp only [List.length_cons, List.length_append] at hlength
    omega
  | head _ hstep h => exact ⟨_, hstep, ⟨_, h⟩, hend⟩

/-- Before all is done, it has come down to every frame in between. -/
theorem Returns.through (h : m.Returns rest m') (upper mid : List Frame)
    (hstack : m.stack = upper ++ (mid ++ rest)) :
    ∃ m₁, m.Returns (mid ++ rest) m₁ ∧ m₁.Returns rest m' := by
  obtain ⟨⟨called, h⟩, hend⟩ := h
  induction h generalizing upper with
  | refl m =>
    have hnil : upper ++ mid = [] := by
      rw [hend, ← List.append_assoc] at hstack
      exact List.append_left_eq_self.mp hstack.symm
    obtain ⟨-, rfl⟩ := List.append_eq_nil_iff.mp hnil
    exact ⟨m, ⟨⟨[], .refl m⟩, hend⟩, ⟨[], .refl m⟩, hend⟩
  | @head m m₂ m' f upper₂ called hm hstep h ih =>
    cases upper with
    | nil => exact ⟨m, ⟨⟨[], .refl m⟩, hstack⟩, ⟨_, .head hm hstep h⟩, hend⟩
    | cons g upper =>
      rw [List.cons_append] at hstack
      obtain ⟨upper', hm₂⟩ := stack_of_step? hstack hstep
      obtain ⟨m₁, ⟨⟨called₁, h₁⟩, hend₁⟩, hreturn⟩ := ih upper' hm₂ hend
      exact ⟨m₁, ⟨⟨_, .head hstack hstep h₁⟩, hend₁⟩, hreturn⟩

/-- All is done when a run comes down to `rest` for the first time. -/
theorem returns_run {n : Nat} (upper : List Frame) (hstack : m.stack = upper ++ rest)
    (hlong : ∀ j < n, rest.length < (m.run j).stack.length) (hend : (m.run n).stack = rest) :
    m.Returns rest (m.run n) := by
  induction n generalizing m upper with
  | zero => exact ⟨⟨[], .refl m⟩, hend⟩
  | succ n ih =>
    cases upper with
    | nil =>
      have := hlong 0 (Nat.succ_pos n)
      simp [run, hstack] at this
    | cons f upper =>
      have hstep := step?_of_stack hstack
      have hrun (j : Nat) : m.run (j + 1) = run _ j := run_succ hstep j
      obtain ⟨upper', hstack₁⟩ := stack_of_step? hstack hstep
      rw [hrun] at hend ⊢
      obtain ⟨⟨called, h⟩, hend⟩ := ih upper' hstack₁
        (fun j hj => hrun j ▸ hlong (j + 1) (Nat.succ_lt_succ hj)) hend
      exact ⟨⟨_, .head hstack hstep h⟩, hend⟩

end Machine

/-! ## Replies -/

namespace Machine

variable {m m₁ m' : Machine} {f : Frame} {rest upper : List Frame} {r : Reply}

theorem returns_iff_of_stack (hstack : m.stack = rest) : m.Returns rest m' ↔ m' = m := by
  refine ⟨fun h => h.eq hstack, ?_⟩
  rintro rfl
  exact ⟨⟨[], .refl m'⟩, hstack⟩

theorem returns_iff_of_step? (upper : List Frame) (hstack : m.stack = f :: (upper ++ rest))
    (hstep : m.step? = some m₁) : m.Returns rest m' ↔ m₁.Returns rest m' := by
  refine ⟨fun h => ?_, .head upper hstack hstep⟩
  obtain ⟨m₂, hstep', h⟩ := h.step upper hstack
  obtain rfl := Option.some.inj (hstep.symm.trans hstep')
  exact h

theorem returns_reply_iff (hstack : m.stack = .reply r :: rest) :
    m.Returns rest m' ↔ m' = ⟨m.server.emit (.returned r), rest⟩ :=
  (returns_iff_of_step? [] hstack (step?_of_stack hstack)).trans (returns_iff_of_stack rfl)

/-- A session that has been closed ends, and then a reply is given. -/
theorem returns_closed_iff {n : Nat} (hstack : m.stack = .closed n :: .reply r :: rest) :
    m.Returns rest m' ↔ m' = ⟨(m.server.finish n).emit (.returned r), rest⟩ :=
  (returns_iff_of_step? [.reply r] hstack (step?_of_stack hstack)).trans (returns_reply_iff rfl)

/-- When all that stands above is done, the transport of a session is closed; and when the transport
has done what it does then, the session ends, and a reply is given. -/
theorem returns_close_iff {link : Link}
    (hstack : m.stack = upper ++ (.close link :: .reply r :: rest)) :
    m.Returns rest m' ↔ ∃ k₁ k₂, m.Returns (.close link :: .reply r :: rest) k₁ ∧
      (k₁.run 1).Returns (.closed link.session :: .reply r :: rest) k₂ ∧
      m' = ⟨(k₂.server.finish link.session).emit (.returned r), rest⟩ := by
  have hclose {k : Machine} (hk : k.stack = .close link :: .reply r :: rest) :
      k.step? = some (k.run 1) ∧ (k.run 1).stack = .script link.transport.duringClose ::
        ([.closed link.session, .reply r] ++ rest) := by
    have hstep := step?_of_stack hk
    rw [run_succ hstep]
    exact ⟨hstep, rfl⟩
  constructor
  · intro h
    obtain ⟨k₁, h₁, h⟩ := h.through upper [.close link, .reply r] hstack
    obtain ⟨hstep, hclosing⟩ := hclose h₁.stack
    have h := (returns_iff_of_step? [.reply r] h₁.stack hstep).1 h
    obtain ⟨k₂, h₂, h⟩ := h.through [_] [.closed link.session, .reply r] hclosing
    exact ⟨k₁, k₂, h₁, h₂, (returns_closed_iff h₂.stack).1 h⟩
  · rintro ⟨k₁, k₂, h₁, h₂, rfl⟩
    have hended := (returns_closed_iff h₂.stack).2 rfl
    exact h₁.trans [.close link, .reply r]
      (.head [.reply r] h₁.stack (hclose h₁.stack).1
        (h₂.trans [.closed link.session, .reply r] hended))

end Machine

/-! ## Stops -/

namespace Server

/-- The call of the shutdown listeners with which a session is stopped, unless they have been
called. -/
def farewell (s : Server) : List Frame :=
  if s.lifecycle.shutdownFired then []
  else [.notify .shutdown 0 (s.scene.registry.listeners .shutdown)]

theorem stop_of_serving {s : Server} {link : Link} (hphase : s.lifecycle.phase = .serving)
    (hlink : s.lifecycle.link = some link) :
    s.stop.2 = s.farewell ++ [.close link] ∧ s.stop.1.scene = s.scene ∧
      s.stop.1.outbox = s.outbox := by
  have hdetach : s.lifecycle.detach? =
      some (link, { s.lifecycle with phase := .stopping, link := none }) := by
    simp [Lifecycle.detach?, hphase, hlink]
  unfold stop farewell
  simp only [hdetach]
  split <;> exact ⟨rfl, rfl, rfl⟩

theorem receive_stop {s : Server} (hheld : s.held = true) (nested : Bool) :
    s.receive nested .stop =
      ((s.emit (.called .stop)).stop.1, (s.emit (.called .stop)).stop.2 ++ [.reply .nothing]) := by
  simp [receive, hheld, call, make]

theorem wait_of_requested {s : Server} (hphase : s.lifecycle.phase = .serving)
    (hrequested : s.lifecycle.shutdownRequested = true) (checks : List Check) (made : Nat) :
    ∃ t : Server, t.scene = s.scene ∧ t.outbox = s.outbox ∧ t.farewell = s.farewell ∧
      t.lifecycle.phase = .serving ∧ t.lifecycle.link = s.lifecycle.link ∧
      s.wait checks made = (t.stop.1, t.stop.2 ++ [.reply (.waited made .stopped)]) := by
  refine ⟨note { s with lifecycle.shutdownRequested := false } .shutdownReceived, rfl, rfl, rfl,
    hphase, rfl, ?_⟩
  simp [wait, Lifecycle.wake, hphase, hrequested]

end Server

namespace Machine

variable {m : Machine} {rest : List Frame}

/-- The next thing is to stop the session there is, for a call or for a wait that was told to;
`rest` is what is left after that. -/
inductive Stops (m : Machine) : List Frame → Prop
  | call {calls : List Call} {below : List Frame}
    (hstack : m.stack = .script (.stop :: calls) :: below) (hheld : m.server.held = true)
    (hphase : m.server.lifecycle.phase = .serving) : Stops m (.script calls :: below)
  | wait {checks : List Check} {made : Nat} {below : List Frame}
    (hstack : m.stack = .wait checks made :: below)
    (hrequested : m.server.lifecycle.shutdownRequested = true)
    (hphase : m.server.lifecycle.phase = .serving) : Stops m below

theorem Stops.serving (h : m.Stops rest) : m.server.lifecycle.phase = .serving := by
  cases h with
  | call _ _ hphase => exact hphase
  | wait _ _ hphase => exact hphase

/-- A wait that is told to makes no check any more: the session is stopped. -/
theorem step?_of_requested {link : Link} {checks : List Check} {made : Nat}
    (hstack : m.stack = .wait checks made :: rest)
    (hrequested : m.server.lifecycle.shutdownRequested = true)
    (hphase : m.server.lifecycle.phase = .serving) (hlink : m.server.lifecycle.link = some link) :
    ∃ m₁, m.step? = some m₁ ∧
      m₁.stack = m.server.farewell ++ (.close link :: .reply (.waited made .stopped) :: rest) ∧
      m₁.server.scene = m.server.scene ∧ m₁.server.outbox = m.server.outbox := by
  obtain ⟨s, stack⟩ := m
  dsimp only at hstack hphase hlink
  subst hstack
  obtain ⟨t, hscene, houtbox, hfarewell, hphase', hlink', hwait⟩ :=
    Server.wait_of_requested hphase hrequested checks made
  obtain ⟨hframes, hscene', houtbox'⟩ := Server.stop_of_serving hphase' (hlink'.trans hlink)
  refine ⟨⟨_, _⟩, by simp only [step?, perform, hwait]; rfl, ?_, hscene'.trans hscene,
    houtbox'.trans houtbox⟩
  simp only [hframes, hfarewell, List.append_assoc, List.cons_append, List.nil_append]

/-- The shutdown listeners are called first, the transport is closed after that, and then a reply is
given. -/
theorem Stops.step? {link : Link} (h : m.Stops rest)
    (hlink : m.server.lifecycle.link = some link) :
    ∃ m₁ r, m.step? = some m₁ ∧ m₁.stack = m.server.farewell ++ (.close link :: .reply r :: rest) ∧
      m₁.server.scene = m.server.scene ∧ m₁.server.outbox = m.server.outbox := by
  cases h with
  | @call calls below hstack hheld hphase =>
    obtain ⟨s, stack⟩ := m
    dsimp only at hstack hheld hphase hlink
    subst hstack
    obtain ⟨hframes, hscene, houtbox⟩ :=
      Server.stop_of_serving (s := s.emit (.called .stop)) hphase hlink
    refine ⟨⟨_, _⟩, .nothing, by simp only [step?, perform, Server.receive_stop hheld]; rfl, ?_,
      hscene, houtbox⟩
    simp only [hframes, List.append_assoc, List.cons_append, List.nil_append]
    rfl
  | @wait checks made below hstack hrequested hphase =>
    obtain ⟨m₁, hstep⟩ := step?_of_requested hstack hrequested hphase hlink
    exact ⟨m₁, _, hstep⟩

end Machine

end LiveScene
