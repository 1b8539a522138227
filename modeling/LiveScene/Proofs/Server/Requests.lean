import LiveScene.Proofs.Server.Sessions

/-!
# Requests for a shutdown

A request for a shutdown is left behind while the server serves, and it stays as long as the session
does, unless a wait takes it up. For only three frames can take a request away: a wait, one that
ends a session, and one that begins a session (`Machine.keepsRequest_perform`); and none begins
while a request is pending, since the server serves then or stops
(`Machine.Reachable.serving_or_stopping`, `Machine.Reachable.request_next`).
-/

namespace LiveScene

open Relation (ReflTransGen)

/-! ## What a wait finds -/

namespace Lifecycle

variable {l : Lifecycle}

/-- There is nothing to wait for. -/
def Settled (l : Lifecycle) : Prop := l.phase = .idle ∨ l.phase = .stopping

/-- A shutdown of the session there is has been requested. -/
def Requested (l : Lifecycle) : Prop := l.phase = .serving ∧ l.shutdownRequested = true

/-- There is something to wait for. -/
def Polled (l : Lifecycle) : Prop :=
  l.phase = .starting ∨ l.phase = .serving ∧ l.shutdownRequested = false

theorem settled_or_requested_or_polled (l : Lifecycle) : l.Settled ∨ l.Requested ∨ l.Polled := by
  unfold Settled Requested Polled
  cases l.phase <;> cases l.shutdownRequested <;> simp

theorem wake_of_settled (h : l.Settled) : l.wake = (.stopped, l) := by
  unfold wake
  rcases h with h | h <;> rw [h]

theorem wake_of_requested (h : l.Requested) :
    l.wake = (.shutdownRequested, { l with shutdownRequested := false }) := by
  simp [wake, h.1, h.2]

theorem wake_of_polled (h : l.Polled) : l.wake = (.poll, l) := by
  unfold wake
  rcases h with h | ⟨h, hrequested⟩
  · rw [h]
  · simp [h, hrequested]

end Lifecycle

/-! ## Requests that stay -/

namespace Server

variable {s t u : Server}

/-- A request that was pending still is. -/
def KeepsRequest (s t : Server) : Prop :=
  s.lifecycle.shutdownRequested = true → t.lifecycle.shutdownRequested = true

theorem KeepsRequest.refl (s : Server) : KeepsRequest s s := id

theorem requested_of_surroundings (h : t.surroundings = s.surroundings) :
    t.lifecycle.shutdownRequested = s.lifecycle.shutdownRequested :=
  congrArg (·.shutdownRequested) (lifecycle_of_surroundings h)

theorem keepsRequest_of_surroundings (h : t.surroundings = s.surroundings) : KeepsRequest s t :=
  (requested_of_surroundings h).trans

theorem keepsRequest_serve (s : Server) (port : UInt16) (t : Transport) :
    KeepsRequest s (s.serve port t).1 := by
  intro hs
  unfold serve
  split
  · simp only [noteAll_eq]
    exact hs
  · exact hs

theorem keepsRequest_stop (s : Server) : KeepsRequest s s.stop.1 := by
  intro hs
  unfold stop
  split
  · next link l h =>
    obtain ⟨-, -, rfl⟩ := Lifecycle.serving_of_detach? h
    dsimp only
    split <;> exact hs
  · exact hs

theorem keepsRequest_requestShutdown (s : Server) : KeepsRequest s s.requestShutdown := by
  intro hs
  unfold requestShutdown
  split
  · next l h =>
    unfold Lifecycle.requestShutdown? at h
    split at h <;> cases h
    rfl
  · exact hs

theorem keepsRequest_dispatch (s : Server) (m : ViewerMessage) :
    KeepsRequest s (s.dispatch m).1 := by
  intro hs
  unfold dispatch
  dsimp only
  split <;> exact hs

theorem keepsRequest_hear (s : Server) (i : Inbound) : KeepsRequest s (s.hear i).1 := by
  cases i with
  | connect c =>
    exact keepsRequest_of_surroundings ((surroundings_emit _ rfl).trans (surroundings_greet s c))
  | disconnect c => exact .refl s
  | message c text =>
    simp only [hear]
    split
    · exact keepsRequest_dispatch s _
    · exact .refl s
  | shutdownSignal =>
    simp only [hear]
    split
    · next l h =>
      obtain ⟨-, -, rfl⟩ := Lifecycle.serving_of_claimShutdown? h
      exact .refl s
    · exact .refl s

theorem keepsRequest_make (s : Server) (c : Call) : KeepsRequest s (s.make c).1 := by
  cases c with
  | change c => exact keepsRequest_of_surroundings (surroundings_change s c)
  | setAutoflush on => exact keepsRequest_of_surroundings (surroundings_setAutoflush s on)
  | flush => exact keepsRequest_of_surroundings (surroundings_flush s)
  | serve port t => exact keepsRequest_serve s port t
  | stop => exact keepsRequest_stop s
  | hear i => exact keepsRequest_hear s i
  | on _ _ | ask _ | block _ | drop => exact .refl s

theorem keepsRequest_receive (s : Server) (nested : Bool) (c : Call) :
    KeepsRequest s (s.receive nested c).1 := by
  have hcall (c : Call) : KeepsRequest s (s.call c).1 := keepsRequest_make (s.emit (.called c)) c
  cases c with
  | hear i =>
    simp only [receive]
    split
    · exact .refl s
    · split
      · exact hcall _
      · cases i <;> exact .refl s
  | drop | change _ | on _ _ | ask _ | setAutoflush _ | flush | serve _ _ | stop | block _ =>
    simp only [receive]
    split
    · exact hcall _
    · exact .refl s

end Server

/-! ## Frames -/

/-- Whether a frame may take away a request that is pending. -/
def Frame.takesRequest : Frame → Bool
  | .listened _ _ _ | .closed _ | .wait _ _ => true
  | _ => false

theorem Machine.keepsRequest_perform (s : Server) (below : List Frame) {f : Frame}
    (hf : f.takesRequest = false) : s.KeepsRequest (perform s below f).1 := by
  have hrefl : s.KeepsRequest s := .refl s
  cases f with
  | script calls =>
    cases calls with
    | nil => exact hrefl
    | cons c calls => exact Server.keepsRequest_receive s _ c
  | notify o called waiting => cases waiting <;> exact hrefl
  | heard o index fails => cases fails <;> exact hrefl
  | refused opened => exact hrefl
  | close link =>
    simp only [perform, Server.close, Server.noteAll_eq]
    exact hrefl
  | requestShutdown => exact Server.keepsRequest_requestShutdown s
  | checked failure checks made => cases failure <;> exact hrefl
  | reply r => exact hrefl
  | listened _ _ _ | closed _ | wait _ _ => cases hf

/-! ## Reachable servers -/

namespace Server

variable {s t : Server}

/-- A request is pending only while a session lasts. -/
def Timely (s : Server) : Prop :=
  s.lifecycle.shutdownRequested = true →
    s.lifecycle.phase = .serving ∨ s.lifecycle.phase = .stopping

theorem Timely.of_surroundings (hs : s.Timely) (h : t.surroundings = s.surroundings) :
    t.Timely := by
  rw [Timely, requested_of_surroundings h, phase_of_surroundings h]
  exact hs

theorem Act.timely (h : Act s t) (hs : s.Timely) : t.Timely := by
  cases h with
  | remark _ _ | fire _ _ | register _ _ | report _ _ _ _ | listen _ _ | close _ _ | giveUp =>
    exact hs
  | change c =>
    exact hs.of_surroundings ((surroundings_change _ c).trans (surroundings_emit s rfl))
  | flush => exact hs.of_surroundings (surroundings_flush s)
  | setAutoflush on => exact hs.of_surroundings (surroundings_setAutoflush s on)
  | connect c =>
    exact hs.of_surroundings ((surroundings_greet _ c).trans (surroundings_emit s rfl))
  | start h => exact fun hrequested => absurd (hs hrequested) (by simp [h])
  | refuse _ h => exact fun hrequested => absurd (hs hrequested) (by simp [h])
  | accept _ _ _ _ => exact nofun
  | claim h =>
    obtain ⟨-, -, rfl⟩ := Lifecycle.serving_of_claimShutdown? h
    exact hs
  | request h =>
    unfold Lifecycle.requestShutdown? at h
    split at h
    · next hphase =>
      cases h
      exact fun _ => .inl hphase
    · cases h
  | wake =>
    rcases s.lifecycle.settled_or_requested_or_polled with h | h | h
    · rw [Lifecycle.wake_of_settled h]
      exact hs
    · rw [Lifecycle.wake_of_requested h]
      exact nofun
    · rw [Lifecycle.wake_of_polled h]
      exact hs
  | detach h =>
    obtain ⟨-, -, rfl⟩ := Lifecycle.serving_of_detach? h
    exact fun _ => .inr rfl
  | finish n _ =>
    obtain ⟨es, he, -⟩ := finish_eq s n
    rw [he]
    exact nofun

theorem timely_of_acts (h : ReflTransGen Act s t) (hs : s.Timely) : t.Timely := by
  induction h with
  | refl => exact hs
  | tail _ hact ih => exact hact.timely ih

end Server

/-- A session begins only where the server starts. -/
theorem Course.Step.sessions_eq {k k' : Course} {ds ds' : List Frame} {st : Stage}
    (h : Step k ds k' ds') (ha : k.At ds st) (hphase : k.phase ≠ .starting) :
    k'.sessions = k.sessions := by
  cases h with
  | turned ds h => cases h <;> rfl
  | accept port t address ds =>
    cases ha with
    | starting _ h => exact absurd h hphase
  | refuse opened ds => rfl
  | close link ds => rfl
  | finish n ds => rfl

/-- A session that is to end is the one that has begun last, and it is closed. -/
theorem Course.At.of_closed {k : Course} {ds : List Frame} {n : Nat} {st : Stage}
    (ha : k.At (.closed n :: ds) st) : st = .closed n ∧ k.sessions = n + 1 := by
  cases ha with
  | starting hf _ => cases hf
  | closed _ _ hn => exact ⟨rfl, hn⟩

namespace Machine

variable {config : Config} {host : Host} {m m' : Machine}

/-- A request is pending only while the server serves or stops. -/
theorem Reachable.timely (h : m.Reachable config host) : m.server.Timely :=
  Server.timely_of_acts (acts_of_next (onDuty_new config host) h).1 nofun

/-- As long as a request is pending the session stays, and the request does so too, but for a wait
that takes it up while the server serves, and for the end of the session. -/
theorem Reachable.request_next (h : m.Reachable config host)
    (hrequested : m.server.lifecycle.shutdownRequested = true) (hnext : m.Next m') :
    m'.server.lifecycle.sessions = m.server.lifecycle.sessions ∧
      (m'.server.lifecycle.shutdownRequested = true ∨
        (∃ left made rest, m.stack = .wait left made :: rest ∧
          m.server.lifecycle.phase = .serving) ∨
        ∃ n rest, m.stack = .closed n :: rest ∧ m.server.lifecycle.sessions = n + 1) := by
  have hphase := h.timely hrequested
  have hstarting : m.server.lifecycle.phase ≠ .starting := by
    rcases hphase with hphase | hphase <;> simp [hphase]
  cases hnext with
  | call s c => exact ⟨rfl, .inl hrequested⟩
  | step hstep =>
    obtain ⟨st, -, hat⟩ := h.onCourse
    refine ⟨(course_of_step? hstep).sessions_eq hat hstarting, ?_⟩
    have hduty := h.onDuty
    obtain ⟨s, stack⟩ := m
    cases stack with
    | nil => cases hstep
    | cons f below =>
    cases hstep
    cases hf : f.takesRequest with
    | false => exact .inl (keepsRequest_perform s below hf hrequested)
    | true =>
      cases f with
      | listened port t address => exact absurd (Phase.eq_starting_of_duty hduty).1 hstarting
      | closed n => exact .inr (.inr ⟨n, below, rfl, (Course.At.of_closed hat).2⟩)
      | wait left made =>
        rcases hphase with hserving | hstopping
        · exact .inr (.inl ⟨left, made, below, rfl, hserving⟩)
        · refine .inl ?_
          simp only [Server.wait, Lifecycle.wake_of_settled (.inr hstopping)]
          exact hrequested
      | script _ | notify _ _ _ | heard _ _ _ | refused _ | close _ | requestShutdown
      | checked _ _ _ | reply _ => cases hf

end Machine

end LiveScene
