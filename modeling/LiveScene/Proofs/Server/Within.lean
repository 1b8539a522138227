import LiveScene.Proofs.Server.Acts
import LiveScene.Proofs.Store.Backlog

/-!
# Within a session

An act goes on with the session there is, or ends it, or begins another (`Act.session`), and the
numbers of sessions only grow (`sessions_le_of_acts`). Most acts are `Told`, some record an edit
that a viewer reports (`Reported`), and the few others have no session before them or none after
them (`Act.tells`). So what goes on within a session is told or reported (`Act.within`), and what
both keep holds as long as the session lasts (`of_session`).
-/

namespace LiveScene.Server

open Relation (ReflTransGen)

variable {s t s₁ : Server} {n : Nat}

/-! ## Numbers of sessions -/

/-- What surrounds a server tells the session and how many there were. -/
theorem sessions_of_surroundings (h : t.surroundings = s.surroundings) :
    t.lifecycle.link.map (·.session) = s.lifecycle.link.map (·.session) ∧
      t.lifecycle.sessions = s.lifecycle.sessions :=
  ⟨session_of_surroundings h, Lifecycle.sessions_of_bare (lifecycle_of_surroundings h)⟩

theorem sessions_of_cycle {l : Lifecycle} (h : l.cycle = s.lifecycle.cycle) :
    l.link.map (·.session) = s.lifecycle.link.map (·.session) ∧
      l.sessions = s.lifecycle.sessions :=
  ⟨congrArg (fun c => c.2.1.map (·.session)) h, congrArg (·.2.2) h⟩

/-- An act goes on with the session there is, or ends it, or begins another, with a new number. -/
theorem Act.session (h : Act s t) :
    t.lifecycle.link.map (·.session) = s.lifecycle.link.map (·.session) ∧
        t.lifecycle.sessions = s.lifecycle.sessions ∨
      t.lifecycle.link = none ∧ t.lifecycle.sessions = s.lifecycle.sessions ∨
      t.lifecycle.link.map (·.session) = some s.lifecycle.sessions ∧
        t.lifecycle.sessions = s.lifecycle.sessions + 1 := by
  cases h with
  | remark _ _ | fire _ _ | register _ _ | report _ _ _ _ | listen _ _ | start _ | refuse _ _
  | close _ _ | giveUp =>
    exact Or.inl ⟨rfl, rfl⟩
  | change c =>
    exact Or.inl (sessions_of_surroundings
      ((surroundings_change _ c).trans (surroundings_emit s rfl)))
  | flush => exact Or.inl (sessions_of_surroundings (surroundings_flush s))
  | setAutoflush on => exact Or.inl (sessions_of_surroundings (surroundings_setAutoflush s on))
  | connect c =>
    exact Or.inl (sessions_of_surroundings
      ((surroundings_greet _ c).trans (surroundings_emit s rfl)))
  | claim h => exact Or.inl (sessions_of_cycle (Lifecycle.cycle_of_claimShutdown? h))
  | request h => exact Or.inl (sessions_of_cycle (Lifecycle.cycle_of_requestShutdown? h))
  | wake => exact Or.inl (sessions_of_cycle (Lifecycle.cycle_wake s.lifecycle))
  | accept port t address h => exact Or.inr (Or.inr ⟨rfl, rfl⟩)
  | detach h =>
    obtain ⟨-, -, rfl⟩ := Lifecycle.serving_of_detach? h
    exact Or.inr (Or.inl ⟨rfl, rfl⟩)
  | finish n h =>
    obtain ⟨es, he, -⟩ := finish_eq s n
    rw [he]
    exact Or.inl ⟨rfl, rfl⟩

theorem Act.sessions_le (h : Act s t) : s.lifecycle.sessions ≤ t.lifecycle.sessions := by
  rcases h.session with ⟨-, h⟩ | ⟨-, h⟩ | ⟨-, h⟩ <;> omega

theorem sessions_le_of_acts {s₀ : Server} (h : ReflTransGen Act s₀ s) :
    s₀.lifecycle.sessions ≤ s.lifecycle.sessions := by
  induction h with
  | refl => exact Nat.le_refl _
  | tail _ ha ih => exact Nat.le_trans ih ha.sessions_le

/-! ## What acts tell -/

/-- `t` comes from `s` by recording an edit that a viewer has made itself, as the event tells. -/
structure Reported (s t : Server) (c : Connection) (u : Command) (e : Event) : Prop where
  edit : e.edit? = some (c, u)
  journal : t.journal.toList = s.journal.toList ++ [e]
  session : t.lifecycle.link.map (·.session) = s.lifecycle.link.map (·.session)
  store : t.scene.store = s.scene.store.run u
  outbox : t.outbox = s.outbox

/-- What the events of an act come to: they are told, or one of them reports an edit, or there is no
session before the act or after it, and nothing is queued then and what waits stays or is gone. -/
inductive Tells (s t : Server) : List Event → Prop
  | told {es : List Event} (h : Told s t es) : Tells s t es
  | reported {c : Connection} {u : Command} {e : Event} (h : Reported s t c u e) : Tells s t [e]
  | apart {es : List Event} (hjournal : t.journal.toList = s.journal.toList ++ es)
    (hlink : s.lifecycle.link = none ∨ t.lifecycle.link = none)
    (hstore : t.scene.store = s.scene.store)
    (houtbox : t.outbox = s.outbox ∨ t.outbox.pending = [])
    (hqueued : queuedIn es = []) : Tells s t es

theorem Tells.journal {es : List Event} (h : Tells s t es) :
    t.journal.toList = s.journal.toList ++ es := by
  cases h with
  | told h => exact h.journal
  | reported h => exact h.journal
  | apart h => exact h

/-- An act without events that touches neither the store nor what waits. -/
theorem told_of_silent (hj : t.journal = s.journal)
    (hl : t.lifecycle.link.map (·.session) = s.lifecycle.link.map (·.session))
    (hs : t.scene.store = s.scene.store) (ho : t.outbox = s.outbox) : Tells s t [] :=
  .told (told_of_eq (by simp [hj]) hl hs ho rfl rfl fun _ => rfl)

/-- Every act tells something or is apart. -/
theorem Act.tells (h : Act s t) (hs : s.Sound) : ∃ es, Tells s t es := by
  have unlinked (hp : s.lifecycle.phase ≠ .serving) : s.lifecycle.link = none := by
    rw [← Option.not_isSome_iff_eq_none, hs.linked]
    exact hp
  cases h with
  | remark e he =>
    refine ⟨[e], .told (told_of_eq (by simp [emit]) rfl rfl rfl ?_ ?_ fun _ => ?_)⟩
    · cases e <;> first | rfl | cases he
    · simp [editsIn, Event.edit?, Event.report?_of_isRemark he]
    · cases e <;> first | rfl | cases he
  | fire l o =>
    exact ⟨[.fired l o], .told (told_of_eq (by simp [Server.fire, emit]) rfl rfl rfl rfl rfl
      fun _ => rfl)⟩
  | change c =>
    have hcall := handed_emit s (e := .called (.change c)) ⟨rfl, rfl, rfl, rfl, rfl⟩
    obtain ⟨es, h⟩ := edited_change (hs.emit (.called (.change c))).keyed c
    exact ⟨_, .told (hcall.edited.toTold.trans h.toTold)⟩
  | register signal l =>
    exact ⟨[.called (.on signal l)], .told (told_of_eq (by simp [emit]) rfl rfl rfl rfl rfl
      fun _ => rfl)⟩
  | report c m e he =>
    obtain ⟨text, rfl, -⟩ := Event.eq_called_of_report? he
    have hstore := s.scene.store_record m
    refine ⟨[.called (.hear (.message c text))], ?_⟩
    cases hu : m.edit? with
    | none =>
      rw [hu] at hstore
      refine .told (told_of_eq (by simp [emit]) rfl hstore rfl rfl ?_ fun _ => rfl)
      simp [editsIn, Event.edit?, he, hu]
    | some u =>
      rw [hu] at hstore
      refine .reported (c := c) (u := u) ⟨?_, by simp [emit], rfl, hstore, rfl⟩
      simp [Event.edit?, he, hu]
  | flush =>
    obtain ⟨es, h⟩ := told_flush s
    exact ⟨es, .told h⟩
  | setAutoflush on =>
    obtain ⟨es, h⟩ := told_setAutoflush s on
    exact ⟨es, .told h⟩
  | connect c =>
    have hcall := handed_emit s (e := .called (.hear (.connect c))) ⟨rfl, rfl, rfl, rfl, rfl⟩
    obtain ⟨es, h⟩ := handed_greet (s.emit (.called (.hear (.connect c)))) c
    exact ⟨_, .told (hcall.trans h).edited.toTold⟩
  | listen port h =>
    exact ⟨[.listening port], .told (told_of_eq (by simp [emit]) rfl rfl rfl rfl rfl fun _ => rfl)⟩
  | close n h =>
    exact ⟨[.closed n], .told (told_of_eq (by simp [emit]) rfl rfl rfl rfl rfl fun _ => rfl)⟩
  | start h => exact ⟨[], told_of_silent rfl rfl rfl rfl⟩
  | refuse opened h => exact ⟨[], told_of_silent rfl rfl rfl rfl⟩
  | giveUp => exact ⟨[], told_of_silent rfl rfl rfl rfl⟩
  | claim h =>
    exact ⟨[], told_of_silent rfl (sessions_of_cycle (Lifecycle.cycle_of_claimShutdown? h)).1 rfl
      rfl⟩
  | request h =>
    exact ⟨[], told_of_silent rfl (sessions_of_cycle (Lifecycle.cycle_of_requestShutdown? h)).1 rfl
      rfl⟩
  | wake =>
    exact ⟨[], told_of_silent rfl (sessions_of_cycle (Lifecycle.cycle_wake s.lifecycle)).1 rfl rfl⟩
  | accept port t address h =>
    refine ⟨[.accepted s.lifecycle.sessions, .noted (.serving port)],
      .apart ?_ (Or.inl (unlinked (by simp [h]))) rfl (Or.inl rfl) rfl⟩
    simp [Server.accept, Server.note, Server.emit]
  | detach h =>
    obtain ⟨-, -, rfl⟩ := Lifecycle.serving_of_detach? h
    exact ⟨[], .apart (by simp) (Or.inr rfl) rfl (Or.inl rfl) rfl⟩
  | finish n h =>
    obtain ⟨es, he, hqueued, -⟩ := finish_eq s n
    rw [he]
    exact ⟨es, .apart (by simp) (Or.inl (unlinked (by simp [h]))) rfl (Or.inr rfl) hqueued⟩

/-- A report queues nothing and tells viewers nothing. -/
theorem Reported.silent {c : Connection} {u : Command} {e : Event} (h : Reported s t c u e) :
    queuedIn [e] = [] ∧ e.toAll = [] := by
  obtain ⟨⟨c', m⟩, hreport, -⟩ := Option.bind_eq_some_iff.mp h.edit
  obtain ⟨text, rfl, -⟩ := Event.eq_called_of_report? hreport
  exact ⟨rfl, rfl⟩

theorem Reported.outgoing {c : Connection} {u : Command} {e : Event} (h : Reported s t c u e)
    (ds : List Event) : t.outgoing (ds ++ [e]) = s.outgoing ds := by
  simp [Server.outgoing, h.outbox, broadcastIn, h.silent.2]

/-- What is reported is written to a position or to the value of a slider. -/
theorem Reported.write {c : Connection} {u : Command} {e : Event} (h : Reported s t c u e) :
    (∃ key pos, u = .set .position key pos) ∨ ∃ key x, u = .setSlider .value key x := by
  obtain ⟨⟨c', m⟩, -, hm⟩ := Option.bind_eq_some_iff.mp h.edit
  cases m with
  | drag key pos =>
    cases hm
    exact Or.inl ⟨key, pos, rfl⟩
  | sliderSetValue key x =>
    cases hm
    exact Or.inr ⟨key, x, rfl⟩
  | keydown _ | keyup _ | screenResize _ | buttonClick _ => cases hm

/-- An edit that is reported leaves something where something is and nothing where nothing is. -/
theorem Reported.isSome_effect {c : Connection} {u : Command} {e : Event} (h : Reported s t c u e)
    (key : String) (x : Option SceneObject) : (u.effect key x).isSome = x.isSome := by
  obtain ⟨k, pos, rfl⟩ | ⟨k, v, rfl⟩ := h.write <;>
    simp only [Command.effect] <;> split <;> simp

/-- Within a session, what is not told is reported. -/
theorem Act.within (h : Act s t) (hs : s.Sound) (hn : n < s.lifecycle.sessions)
    (hsession : t.lifecycle.link.map (·.session) = some n) :
    s.lifecycle.link.map (·.session) = some n ∧
      ((∃ es, Told s t es) ∨ ∃ c u e, Reported s t c u e) := by
  rcases h.session with ⟨hsame, -⟩ | ⟨hnone, -⟩ | ⟨hnew, -⟩
  · have hsession' := hsame.symm.trans hsession
    refine ⟨hsession', ?_⟩
    obtain ⟨es, htells⟩ := h.tells hs
    cases htells with
    | told h => exact Or.inl ⟨es, h⟩
    | reported h => exact Or.inr ⟨_, _, _, h⟩
    | apart _ hlink =>
      rcases hlink with hnone | hnone
      · simp [hnone] at hsession'
      · simp [hnone] at hsession
  · simp [hnone] at hsession
  · rw [hsession, Option.some.injEq] at hnew
    omega

/-- What holds of a server at some point of a session, with the events since then, and is kept by
whatever is told or reported, holds as long as the session lasts. -/
theorem of_session {P : List Event → Server → Prop} (hs₁ : s₁.Sound) (h : ReflTransGen Act s₁ s)
    (hsession₁ : s₁.lifecycle.link.map (·.session) = some n)
    (hsession : s.lifecycle.link.map (·.session) = some n) (hP : P [] s₁)
    (htold : ∀ ds t u es, t.Sound → t.lifecycle.link.isSome → Told t u es → P ds t → P (ds ++ es) u)
    (hreported : ∀ ds t u c k e, Reported t u c k e → P ds t → P (ds ++ [e]) u) :
    ∃ es, s.journal.toList = s₁.journal.toList ++ es ∧ P es s := by
  induction h with
  | refl => exact ⟨[], by simp, hP⟩
  | tail h ha ih =>
    have hs := sound_of_acts hs₁ h
    have hn := Nat.lt_of_lt_of_le (hs₁.numbered n hsession₁) (sessions_le_of_acts h)
    obtain ⟨hsession', hact⟩ := ha.within hs hn hsession
    obtain ⟨ds, hds, hPds⟩ := ih hsession'
    rcases hact with ⟨es, hes⟩ | ⟨c, u, e, he⟩
    · have hlinked := congrArg Option.isSome hsession'
      exact ⟨ds ++ es, by rw [hes.journal, hds, List.append_assoc],
        htold _ _ _ _ hs (by simpa using hlinked) hes hPds⟩
    · exact ⟨ds ++ [e], by rw [he.journal, hds, List.append_assoc],
        hreported _ _ _ _ _ _ he hPds⟩

end LiveScene.Server
