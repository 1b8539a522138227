import LiveScene.Proofs.Server.Entries
import LiveScene.Proofs.Server.Locality
import LiveScene.Proofs.Store.Replay

/-!
# Histories

Nothing becomes of a store but by the changes that are called and by the messages of viewers that
are recorded, each of them a `Mutation`. The journal tells them in order (`historyIn`), and the
store of a reachable server is what its history makes of a new server
(`Machine.Reachable.store_eq`).

Mutations are local to the keys that they are about (`Mutation.local_perform`). So neighbours that
are about different keys may be swapped in a history (`Mutation.Swap`), as often as one likes,
without any difference to the store (`Mutation.store_of_swaps`), nor to the replay
(`replay_canonical`).
-/

namespace LiveScene

open Relation (ReflTransGen)

/-- Something that may change a store: a change that is called, or a message of a viewer. -/
inductive Mutation where
  | change (c : Change Listener)
  | record (m : ViewerMessage)

namespace Event

/-- The mutation that an event tells of. -/
def mutation? : Event → Option Mutation
  | called (.change c) => some (.change c)
  | e => e.report?.map fun (_, m) => .record m

theorem mutation?_of_isRemark {e : Event} (h : e.isRemark) : e.mutation? = none := by
  have hreport := report?_of_isRemark h
  cases e with
  | called c => cases c <;> simp_all [isRemark, mutation?]
  | _ => rfl

theorem mutation?_of_isTraffic {e : Event} (h : e.isTraffic) : e.mutation? = none := by
  cases e <;> first | rfl | cases h

theorem mutation?_of_isGreeting {c : Connection} {e : Event} (h : e.isGreeting c) :
    e.mutation? = none := by
  cases e <;> first | rfl | cases h

theorem mutation?_of_isEnding {e : Event} (h : e.isEnding) : e.mutation? = none := by
  cases e <;> first | rfl | cases h

end Event

/-- The mutations that some events tell of, in order. -/
def historyIn (es : List Event) : List Mutation := es.filterMap Event.mutation?

@[simp] theorem historyIn_append (es fs : List Event) :
    historyIn (es ++ fs) = historyIn es ++ historyIn fs := by
  simp [historyIn]

namespace Mutation

/-- The keys that a mutation is about. -/
def touches : Mutation → Set String
  | change c => c.touches
  | record m => {key | m.edit?.bind Command.key? = some key}

/-- What a mutation makes of a server. -/
def perform (s : Server) : Mutation → Server
  | change c => (s.change c).2
  | record m => { s with scene := s.scene.record m }

theorem local_record (m : ViewerMessage) :
    Server.Local (record m).touches (perform · (record m)) := by
  have hstore (s : Server) : (perform s (record m)).scene.store =
      s.scene.store.runAll m.edit?.toList := s.scene.store_record m
  have hkey : ∀ u ∈ m.edit?, ∃ key, u.key? = some key := by
    cases m <;> simp [ViewerMessage.edit?, Command.key?]
  cases hm : m.edit? with
  | none => exact .of_still (fun _ => rfl) fun s => by rw [hstore, hm]; rfl
  | some u =>
    obtain ⟨k, hk⟩ := hkey u hm
    refine .of_slots (φ := u.onSlot) (fun _ => rfl) (fun s key => ?_) fun key hne x => ?_
    · rw [Server.slot, hstore, hm]
      exact Store.slot_run _ u key
    · refine Command.onSlot_of_ne hk (fun h => hne ?_) x
      simp [touches, hm, hk, h]

/-- A mutation is local to the keys that it is about. -/
theorem local_perform (x : Mutation) : Server.Local x.touches (perform · x) := by
  cases x with
  | change c => exact Server.local_change c
  | record m => exact local_record m

@[simp] theorem host_perform (s : Server) (x : Mutation) : (perform s x).host = s.host :=
  x.local_perform.host s

theorem local_performAll (xs : List Mutation) : Server.Local Set.univ (xs.foldl perform ·) :=
  .foldl xs fun x _ => x.local_perform.mono (Set.subset_univ _)

/-! ## Swapping neighbours -/

/-- The second history is the first with two neighbours swapped that are about different keys. -/
inductive Swap : List Mutation → List Mutation → Prop
  | swap (pre post : List Mutation) {x y : Mutation} (h : Disjoint x.touches y.touches) :
    Swap (pre ++ x :: y :: post) (pre ++ y :: x :: post)

theorem Swap.store_eq {xs ys : List Mutation} (h : Swap xs ys) (s : Server) :
    (xs.foldl perform s).scene.store = (ys.foldl perform s).scene.store := by
  cases h with
  | @swap pre post x y h =>
    simp only [List.foldl_append, List.foldl_cons]
    generalize pre.foldl perform s = t
    have hhost : (perform (perform t x) y).host = (perform (perform t y) x).host := by simp
    exact (local_performAll post).store_congr hhost
      (y.local_perform.store_comm x.local_perform h.symm t)

/-- However often neighbours are swapped, a history makes the same store of a server. -/
theorem store_of_swaps {xs ys : List Mutation} (h : ReflTransGen Swap xs ys) (s : Server) :
    (xs.foldl perform s).scene.store = (ys.foldl perform s).scene.store := by
  induction h with
  | refl => rfl
  | tail _ h ih => exact ih.trans (h.store_eq s)

end Mutation

namespace Server

variable {s t u : Server}

/-- `t` comes from `s` on the same host, and its store is what the mutations make of `s` that have
been told since. -/
structure Recounts (s t : Server) : Prop where
  host : t.host = s.host
  told : ∃ es, t.journal.toList = s.journal.toList ++ es ∧
    t.scene.store = ((historyIn es).foldl Mutation.perform s).scene.store

theorem Recounts.refl (s : Server) : Recounts s s := ⟨rfl, [], by simp, rfl⟩

theorem Recounts.trans (h : Recounts s t) (h' : Recounts t u) : Recounts s u := by
  refine ⟨h'.host.trans h.host, ?_⟩
  obtain ⟨es, hes, hstore⟩ := h.told
  obtain ⟨fs, hfs, hstore'⟩ := h'.told
  refine ⟨es ++ fs, by rw [hfs, hes, List.append_assoc], ?_⟩
  rw [hstore', historyIn_append, List.foldl_append]
  refine (Mutation.local_performAll (historyIn fs)).store_congr ?_ hstore
  rw [h.host, (Mutation.local_performAll (historyIn es)).host]

/-- Where nothing is told of mutations, the store stays as it is. -/
theorem Recounts.of_entered {p : Event → Bool} (hp : ∀ e, p e → e.mutation? = none)
    (hhost : t.host = s.host) (hstore : t.scene.store = s.scene.store) (h : Entered p s t) :
    Recounts s t := by
  obtain ⟨es, hes, hall⟩ := h
  have hnone : historyIn es = [] :=
    List.filterMap_eq_nil_iff.2 fun e he => hp e (hall e he)
  exact ⟨hhost, es, hes, by rw [hnone, hstore, List.foldl_nil]⟩

/-- An act without events that leaves host and store alone. -/
theorem Recounts.of_silent (hhost : t.host = s.host) (hstore : t.scene.store = s.scene.store)
    (h : t.journal = s.journal) : Recounts s t :=
  .of_entered (p := fun _ => false) (fun _ h => nomatch h) hhost hstore (.of_journal h)

theorem recounts_emit (s : Server) {e : Event} (he : e.mutation? = none) :
    Recounts s (s.emit e) :=
  .of_entered (p := fun e => e.mutation? = none) (fun _ h => by simpa using h) rfl rfl
    (entered_emit s (by simpa using he))

/-- A mutation is told of and then carried out. -/
theorem recounts_perform (s : Server) {p : Event → Bool} (hp : ∀ e, p e → e.mutation? = none)
    {e : Event} {x : Mutation} (he : e.mutation? = some x)
    (h : Entered p (s.emit e) (x.perform (s.emit e))) : Recounts s (x.perform (s.emit e)) := by
  obtain ⟨es, hes, hall⟩ := h
  have hnone : historyIn es = [] :=
    List.filterMap_eq_nil_iff.2 fun e he => hp e (hall e he)
  have hhistory : historyIn (e :: es) = [x] := by
    rw [historyIn, List.filterMap_cons_some he, ← historyIn, hnone]
  refine ⟨x.host_perform _, e :: es, by simpa using hes, ?_⟩
  rw [hhistory]
  exact x.local_perform.store_congr (s := s.emit e) (t := s) rfl rfl

theorem recounts_release (s : Server) (q : Outbox) (taken : Option (List Command)) :
    Recounts s (release { s with outbox := q } taken) := by
  obtain ⟨es, h⟩ := handed_release { s with outbox := q } taken
  exact .of_entered (fun _ he => Event.mutation?_of_isTraffic (Event.isTraffic_of_isDispatch he))
    (congrArg (·.2.1) h.surroundings) (by rw [h.scene]) (entered_release _ taken)

theorem Act.recounts (h : Act s t) : Recounts s t := by
  cases h with
  | remark e he => exact recounts_emit s (Event.mutation?_of_isRemark he)
  | fire l o =>
    have hcounted : Recounts s { s with firings := s.firings + 1 } := .of_silent rfl rfl rfl
    exact hcounted.trans (recounts_emit _ rfl)
  | change c =>
    exact recounts_perform s (x := .change c) (fun _ => Event.mutation?_of_isTraffic) rfl
      (entered_change _ c)
  | register signal l =>
    exact (recounts_emit s rfl).trans (.of_silent rfl rfl rfl)
  | report c m e he =>
    obtain ⟨text, rfl, hm⟩ := Event.eq_called_of_report? he
    exact recounts_perform s (p := fun _ => false) (x := .record m) (fun _ h => nomatch h)
      (by simp [Event.mutation?, he]) (.of_journal rfl)
  | flush => exact recounts_release s _ _
  | setAutoflush on => exact recounts_release s _ _
  | connect c =>
    obtain ⟨es, h⟩ := handed_greet (s.emit (.called (.hear (.connect c)))) c
    exact (recounts_emit s rfl).trans (.of_entered (fun _ => Event.mutation?_of_isGreeting)
      (congrArg (·.2.1) h.surroundings) (by rw [h.scene]) (entered_greet _ c))
  | listen port _ => exact recounts_emit s rfl
  | accept port x address _ =>
    have hlive : Recounts s { s with lifecycle := s.lifecycle.accept x address } :=
      .of_silent rfl rfl rfl
    exact (hlive.trans (recounts_emit _ rfl)).trans (recounts_emit _ rfl)
  | close n _ => exact recounts_emit s rfl
  | finish n _ =>
    obtain ⟨es, he, -⟩ := finish_eq s n
    exact .of_entered (fun _ => Event.mutation?_of_isEnding) (by rw [he]) (by rw [he])
      (entered_finish s n)
  | start _ | refuse _ _ | claim _ | request _ | wake | detach _ | giveUp =>
    exact .of_silent rfl rfl rfl

theorem recounts_of_acts (h : ReflTransGen Act s t) : Recounts s t := by
  induction h with
  | refl => exact .refl s
  | tail _ h ih => exact ih.trans h.recounts

end Server

variable {config : Config} {host : Host} {m : Machine}

/-- The store of a reachable server is what its history makes of a new server. -/
theorem Machine.Reachable.store_eq (h : m.Reachable config host) :
    m.server.scene.store = ((historyIn m.server.journal.toList).foldl Mutation.perform
      (.new config host)).scene.store := by
  obtain ⟨-, es, hes, hstore⟩ :=
    Server.recounts_of_acts (Machine.acts_of_next (Machine.onDuty_new config host) h).1
  obtain rfl : m.server.journal.toList = es := by simpa [Server.new] using hes
  exact hstore

/-- On one host, histories that differ by swapping neighbours lead to the same store. -/
theorem Machine.Reachable.store_eq_of_swaps {config' : Config} {m' : Machine}
    (h : m.Reachable config host) (h' : m'.Reachable config' host)
    (hswaps : ReflTransGen Mutation.Swap (historyIn m.server.journal.toList)
      (historyIn m'.server.journal.toList)) : m.server.scene.store = m'.server.scene.store := by
  rw [h.store_eq, h'.store_eq, Mutation.store_of_swaps hswaps]
  exact (Mutation.local_performAll _).store_congr rfl rfl

/-- The replay of a reachable server creates every stored object once, by its own command, and then
lets the marked keys be dragged that have an object: first all textures, then all else that stands
in space, then all elements of the screen, and at last the marks, each in strictly ascending order
of the bytes of the keys. No other list of commands does, and none repeats a command; nothing stands
before the creation of a texture but the creation of another.

It depends on nothing but the objects and the marks of keys with objects: wherever these are the
same, the replay is. In particular it is so when the histories of two servers on one host differ by
swapping neighbours that are about different keys, be it once or more often. -/
theorem replay_canonical (h : m.Reachable config host) :
    let s := m.server.scene.store
    (∀ cs, s.IsReplay cs ↔ cs = s.replay) ∧ s.replay.Nodup ∧
      (s.replay.Pairwise fun c d => d.opcode = .create .texture → c.opcode = .create .texture) ∧
      (∀ config' host' m', Machine.Reachable config' host' m' →
        s.SameContents m'.server.scene.store → m'.server.scene.store.replay = s.replay) ∧
      ∀ config' m', Machine.Reachable config' host m' →
        ReflTransGen Mutation.Swap (historyIn m.server.journal.toList)
          (historyIn m'.server.journal.toList) → m'.server.scene.store.replay = s.replay := by
  intro s
  have hkeyed : s.Keyed := h.sound.keyed
  refine ⟨fun cs => Store.isReplay_iff hkeyed, Store.nodup_replay hkeyed, s.textures_first,
    fun config' host' m' h' hsame => ?_, fun config' m' h' hswaps => ?_⟩
  · exact (hsame.replay_eq hkeyed h'.sound.keyed).symm
  · rw [← h.store_eq_of_swaps h' hswaps]

namespace Machine

/-- A lamp is put up, and then an image. -/
def lampFirst : Machine :=
  run (ofCall (run (ofCall (.new {} .blank) (.change (.createSphere
    { key := "lamp", radius := 1, pos := Vec3.zero }))) 3).server
    (.change (.createTexture ⟨"moss", "aGk="⟩))) 3

/-- The same image is put up first, and then the lamp. -/
def imageFirst : Machine :=
  run (ofCall (run (ofCall (.new {} .blank) (.change (.createTexture ⟨"moss", "aGk="⟩))) 3).server
    (.change (.createSphere { key := "lamp", radius := 1, pos := Vec3.zero }))) 3

theorem reachable_lampFirst : lampFirst.Reachable {} .blank := by
  have hlamp : (run (ofCall (.new {} .blank) (.change (.createSphere
      { key := "lamp", radius := 1, pos := Vec3.zero }))) 3).Reachable {} .blank :=
    Reachable.callRun (m := ⟨.new {} .blank, []⟩) .refl rfl _ 3
  exact hlamp.callRun rfl _ 3

theorem reachable_imageFirst : imageFirst.Reachable {} .blank := by
  have himage : (run (ofCall (.new {} .blank)
      (.change (.createTexture ⟨"moss", "aGk="⟩))) 3).Reachable {} .blank :=
    Reachable.callRun (m := ⟨.new {} .blank, []⟩) .refl rfl _ 3
  exact himage.callRun rfl _ 3

end Machine

/-- Either way the image comes first in the replay. -/
theorem replay_canonical_swapped :
    Machine.imageFirst.server.scene.store.replay = Machine.lampFirst.server.scene.store.replay ∧
      Machine.lampFirst.server.scene.store.replay =
        [.create (.texture ⟨"moss", "aGk="⟩),
          .create (.sphere { key := "lamp", radius := 1, pos := Vec3.zero })] := by
  obtain ⟨-, -, -, -, hswaps⟩ := replay_canonical Machine.reachable_lampFirst
  refine ⟨hswaps {} Machine.imageFirst Machine.reachable_imageFirst (.single ?_), rfl⟩
  exact .swap [] [] (by simp [Mutation.touches, Change.touches])

end LiveScene
