import LiveScene.Proofs.Server.Messages
import LiveScene.Proofs.Server.Returns

/-!
# What a session leaves behind

Of the commands that wait at some point or are queued later, a first part is gone at every later
point, and whatever has been broadcast since is among that part, in order (`Server.Flows`). This
holds whether or not a session is there, and across the end of a session, where all that waits is
gone without having been broadcast (`Server.flows_of_acts`). Since nothing waits when a stop returns
(`Machine.Stops.pending_of_returns`), nothing that was queued before that is ever broadcast after it
(`nothing_left_over`).
-/

namespace LiveScene

open Relation (ReflTransGen)

/-- Where no message is handed over, nothing is broadcast. -/
theorem broadcastIn_of_isMute {es : List Event} (h : ∀ e ∈ es, e.isMute) : broadcastIn es = [] := by
  refine List.flatMap_eq_nil_iff.mpr fun e he => ?_
  have hmute := h e he
  cases e <;> simp_all [Event.toAll, Event.isMute, Event.session?]

namespace Server

variable {s t u : Server} {es : List Event}

/-- `t` comes from `s` with events during which, of all that waited or was queued, a first part is
gone, and what was broadcast is among that part. -/
def Flows (s t : Server) : Prop :=
  ∃ es gone, t.journal.toList = s.journal.toList ++ es ∧
    gone ++ t.outbox.pending = s.outbox.pending ++ queuedIn es ∧ (broadcastIn es).Sublist gone

theorem Flows.refl (s : Server) : Flows s s := ⟨[], [], by simp, by simp [queuedIn], .refl _⟩

theorem Flows.trans (h : Flows s t) (h' : Flows t u) : Flows s u := by
  obtain ⟨es, gone, hes, hgone, hsub⟩ := h
  obtain ⟨fs, gone', hfs, hgone', hsub'⟩ := h'
  refine ⟨es ++ fs, gone ++ gone', by rw [hfs, hes, List.append_assoc], ?_, ?_⟩
  · rw [List.append_assoc, hgone', ← List.append_assoc, hgone, queuedIn_append, List.append_assoc]
  · rw [broadcastIn_append]
    exact hsub.append hsub'

/-- Without a session before or after, an act broadcasts nothing. -/
theorem Act.broadcastIn_of_unlinked (h : Act s t)
    (hlink : s.lifecycle.link = none ∨ t.lifecycle.link = none)
    (hes : t.journal.toList = s.journal.toList ++ es) : broadcastIn es = [] := by
  rcases h.speaks with hspoken | ⟨fs, hfs, hmute⟩
  · obtain ⟨fs, hfs, hall⟩ := hspoken.entered
    obtain rfl := List.append_cancel_left (hes.symm.trans hfs)
    have hunlinked : s.lifecycle.link = none := by
      rcases hlink with hlink | hlink
      · exact hlink
      · have := linked_of_surroundings hspoken.surroundings
        simpa [hlink] using this
    refine broadcastIn_of_isMute fun e he => ?_
    cases hmute : e.isMute with
    | true => rfl
    | false =>
      obtain ⟨n, x, hhandle, -⟩ := hall e he hmute
      simp [course, Lifecycle.course, hunlinked] at hhandle
  · obtain rfl := List.append_cancel_left (hes.symm.trans hfs)
    exact broadcastIn_of_isMute hmute

theorem Act.flows (h : Act s t) (hs : s.Sound) : Flows s t := by
  obtain ⟨es, htells⟩ := h.tells hs
  have hes := htells.journal
  cases htells with
  | told htold =>
    obtain ⟨gone, hgone, hbroadcast⟩ := htold.told hs.drained
    refine ⟨es, gone, hes, hgone, ?_⟩
    cases hlink : s.lifecycle.link with
    | none =>
      rw [h.broadcastIn_of_unlinked (Or.inl hlink) hes]
      exact List.nil_sublist _
    | some link =>
      have hall : broadcastIn es = gone := hbroadcast (by simp [hlink])
      exact hall ▸ .refl gone
  | reported hreported =>
    obtain ⟨hqueued, htoAll⟩ := hreported.silent
    exact ⟨_, [], hes, by simp [hqueued, hreported.outbox], by simp [broadcastIn, htoAll]⟩
  | apart _ hlink _ houtbox hqueued =>
    have hbroadcast := h.broadcastIn_of_unlinked hlink hes
    rcases houtbox with houtbox | hpending
    · exact ⟨es, [], hes, by simp [houtbox, hqueued], by simp [hbroadcast]⟩
    · exact ⟨es, s.outbox.pending, hes, by simp [hpending, hqueued], by simp [hbroadcast]⟩

theorem flows_of_acts (hs : s.Sound) (h : ReflTransGen Act s t) : Flows s t := by
  induction h with
  | refl => exact .refl s
  | tail h ha ih => exact ih.trans (ha.flows (sound_of_acts hs h))

end Server

namespace Machine

variable {config : Config} {host : Host} {m m₁ m₂ m₃ : Machine} {rest : List Frame}

/-- When a stop returns, nothing waits. -/
theorem Stops.pending_of_returns (h : m.Reachable config host) (hstop : m.Stops rest)
    (hstep : m.step? = some m₁) (hreturn : m₁.Returns rest m₂) : m₂.server.outbox.pending = [] := by
  obtain ⟨link, hlink⟩ := Option.isSome_iff_exists.mp (h.sound.linked.mpr hstop.serving)
  obtain ⟨m₁', r, hstep', hstack₁, -, -⟩ := hstop.step? hlink
  obtain rfl : m₁' = m₁ := Option.some.inj (hstep'.symm.trans hstep)
  obtain ⟨-, k, -, -, rfl⟩ := (returns_close_iff hstack₁).1 hreturn
  obtain ⟨es, hfinish, -⟩ := Server.finish_eq k.server link.session
  simp only [hfinish, Server.emit]

end Machine

/-- When a call that stops a session returns, or a wait that does, nothing waits to be sent,
whatever was queued before, by the shutdown listeners or while the transport was closed, and however
autoflush was switched. At every later point, of the commands queued since then a first part is gone
and the rest waits; and all that has been broadcast since then, in whatever session, is among that
first part. -/
theorem nothing_left_over {config : Config} {host : Host} {m m₁ m₂ : Machine} {rest : List Frame}
    (h : m.Reachable config host) (hstop : m.Stops rest) (hstep : m.step? = some m₁)
    (hreturn : m₁.Returns rest m₂) :
    m₂.server.outbox.pending = [] ∧
    ∀ m₃ es, ReflTransGen Machine.Next m₂ m₃ →
      m₃.server.journal.toList = m₂.server.journal.toList ++ es →
        ∃ gone, gone ++ m₃.server.outbox.pending = queuedIn es ∧
          (broadcastIn es).Sublist gone := by
  have hpending := hstop.pending_of_returns h hstep hreturn
  refine ⟨hpending, fun m₃ es hrun hes => ?_⟩
  have h₂ : m₂.Reachable config host := (h.tail (.step hstep)).trans hreturn.next
  obtain ⟨fs, gone, hfs, hgone, hsub⟩ :=
    Server.flows_of_acts h₂.sound (Machine.acts_of_next h₂.onDuty hrun).1
  obtain rfl := List.append_cancel_left (hes.symm.trans hfs)
  exact ⟨gone, by rw [hgone, hpending, List.nil_append], hsub⟩

/-- A call that creates the note. -/
def Call.greet : Call := .change (.createText .greeting)

/-- A transport that creates the note while it closes. -/
def Transport.parting : Transport :=
  .custom ⟨none, false, none, [], [.greet], fun _ => false, fun _ => false⟩

/-- A listener that creates the note. -/
def Listener.parting : Listener := .steady .null [.greet] false

namespace Machine

/-- It has served and queued a note, and is about to stop. A shutdown listener and the transport
queue more. -/
def stopping : Machine :=
  let served := run (ofCall (.new ⟨false, true⟩ .blank) (.serve 8080 .parting)) 5
  let listening := run (ofCall served.server (.on .shutdown .parting)) 3
  ofCall (run (ofCall listening.server .greet) 3).server .stop

/-- The stop has returned. -/
def left : Machine := run (run stopping 1) 12

/-- It has served again and sent a note. -/
def returned : Machine :=
  let idle := run left 1
  let served := run (ofCall idle.server (.serve 8080 .quiet)) 5
  let greeted := run (ofCall served.server .greet) 3
  run (ofCall greeted.server .flush) 4

theorem reachable_stopping : stopping.Reachable ⟨false, true⟩ .blank := by
  have h : Reachable ⟨false, true⟩ .blank
      (run (ofCall (.new ⟨false, true⟩ .blank) (.serve 8080 .parting)) 5) :=
    Reachable.callRun (m := ⟨.new ⟨false, true⟩ .blank, []⟩) .refl rfl _ 5
  exact ((h.callRun rfl (.on .shutdown .parting) 3).callRun rfl .greet 3).tail (.call _ _)

theorem next_returned : ReflTransGen Next left returned := by
  have h : ReflTransGen Next left (run left 1) := next_run left 1
  have h' := (h.trans (next_callRun rfl (.serve 8080 .quiet) 5)).trans (next_callRun rfl .greet 3)
  exact h'.trans (next_callRun rfl .flush 4)

end Machine

theorem nothing_left_over_returned :
    Machine.left.server.outbox.pending = [] ∧
      ∃ gone, gone ++ Machine.returned.server.outbox.pending = [.create (.text .greeting)] ∧
        [.create (.text .greeting)].Sublist gone := by
  have hreturn : (Machine.run Machine.stopping 1).Returns [.script []] Machine.left :=
    Machine.returns_run [_, _, _] rfl (by decide) rfl
  have h := nothing_left_over Machine.reachable_stopping (.call rfl rfl rfl) rfl hreturn
  exact ⟨h.1, h.2 Machine.returned
    (Machine.returned.server.journal.toList.drop Machine.left.server.journal.size)
    Machine.next_returned rfl⟩

end LiveScene
