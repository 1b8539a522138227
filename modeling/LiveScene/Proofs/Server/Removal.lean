import LiveScene.Proofs.Server.Entries
import LiveScene.Proofs.Server.Listeners
import LiveScene.Proofs.Server.Locality
import LiveScene.Proofs.Store.KeyOrder

/-!
# Removing everything under a stem

Removing everything whose key begins with a stem first takes all objects out of the store, then
forgets their listeners, and only then queues the commands and hands over what is ready. Deleting
key by key does all of this for one object before it turns to the next.

That makes no difference but to the order in which commands and messages are entered in the journal:
what a server becomes by queuing commands is told by its state before and by the commands alone, be
they queued together or one after the other (`Server.Issues`, `Issues.trans`). And the edit that
removes some keys is made of the edits that delete them (`Scene.deleteAll_cons`). So both ways come
to the same (`delete_under_one_by_one`).
-/

namespace LiveScene

namespace Lifecycle

/-- A message is handed over: what becomes of the cycle, and what is entered in the journal. -/
def handOver (l : Lifecycle) (cs : List Command) : Lifecycle × List Event :=
  match l.link with
  | none => (l, [.noted (.notServing (Server.messageBytes cs))])
  | some link =>
    let fails := link.transport.broadcastFails link.broadcasts
    ({ l with link := some { link with broadcasts := link.broadcasts + 1 } },
      Event.broadcast link.session cs (!fails) ::
        if fails then [.noted (.broadcastFailed (Server.messageBytes cs))] else [])

/-- Some messages are handed over, in order. -/
def handOverAll (l : Lifecycle) : List (List Command) → Lifecycle × List Event
  | [] => (l, [])
  | cs :: ready =>
    let (l', es) := l.handOver cs
    let (l'', fs) := l'.handOverAll ready
    (l'', es ++ fs)

theorem handOverAll_append (l : Lifecycle) (ready more : List (List Command)) :
    l.handOverAll (ready ++ more) = (((l.handOverAll ready).1.handOverAll more).1,
      (l.handOverAll ready).2 ++ ((l.handOverAll ready).1.handOverAll more).2) := by
  induction ready generalizing l with
  | nil => rfl
  | cons cs ready ih => simp only [List.cons_append, handOverAll, ih, List.append_assoc]

theorem isDispatch_of_mem_handOver {l : Lifecycle} {cs : List Command} {e : Event}
    (he : e ∈ (l.handOver cs).2) : e.isDispatch := by
  unfold handOver at he
  split at he
  · rw [List.mem_singleton.1 he]
    rfl
  · dsimp only at he
    split at he <;> simp only [List.mem_cons, List.not_mem_nil, or_false] at he <;>
      rcases he with rfl | rfl <;> rfl

theorem isDispatch_of_mem_handOverAll {l : Lifecycle} {ready : List (List Command)} {e : Event}
    (he : e ∈ (l.handOverAll ready).2) : e.isDispatch := by
  induction ready generalizing l with
  | nil => cases he
  | cons cs ready ih =>
    rcases List.mem_append.1 he with he | he
    · exact isDispatch_of_mem_handOver he
    · exact ih he

end Lifecycle

namespace Server

variable {s t u : Server} {cs ds : List Command} {x y : Scene}

theorem transmit_eq (s : Server) (cs : List Command) :
    s.transmit cs = { s with
      lifecycle := (s.lifecycle.handOver cs).1
      journal := s.journal ++ (s.lifecycle.handOver cs).2.toArray } := by
  unfold transmit Lifecycle.handOver
  cases s.lifecycle.link with
  | none => simp [note, emit]
  | some link =>
    dsimp only
    split <;> simp [note, emit, ← Array.toList_inj]

theorem transmitAll_eq (s : Server) (ready : List (List Command)) :
    ready.foldl transmit s = { s with
      lifecycle := (s.lifecycle.handOverAll ready).1
      journal := s.journal ++ (s.lifecycle.handOverAll ready).2.toArray } := by
  induction ready generalizing s with
  | nil => simp [Lifecycle.handOverAll]
  | cons cs ready ih => simp [ih, transmit_eq, Lifecycle.handOverAll]

/-- The messages that are ready when some commands are queued. -/
def readyFor (s : Server) (cs : List Command) : List (List Command) :=
  if s.outbox.autoflush then cs.map ([·]) else []

/-- The server with another scene, when some commands are queued and what is ready is handed over.
The journal stays aside. -/
def issued (s : Server) (x : Scene) (cs : List Command) : Server :=
  { s with
    scene := x
    outbox.pending := if s.outbox.autoflush then s.outbox.pending else s.outbox.pending ++ cs
    lifecycle := (s.lifecycle.handOverAll (s.readyFor cs)).1 }

/-- `t` comes from `s` by taking over another scene, queuing some commands in order and handing over
what is ready. -/
structure Issues (s t : Server) (x : Scene) (cs : List Command) : Prop where
  state : t = { s.issued x cs with journal := t.journal }
  entered : ∃ es, t.journal.toList = s.journal.toList ++ es ∧ queuedIn es = cs ∧
    es.filter Event.isDispatch = (s.lifecycle.handOverAll (s.readyFor cs)).2

theorem Issues.refl (s : Server) : Issues s s s.scene [] := by
  have hready : s.readyFor [] = [] := by simp [readyFor]
  refine ⟨?_, [], by simp, rfl, by simp [hready, Lifecycle.handOverAll]⟩
  simp [issued, hready, Lifecycle.handOverAll]

theorem Issues.scene_eq (h : Issues s t x cs) : t.scene = x := by rw [h.state]; rfl

theorem Issues.trans (h : Issues s t x cs) (h' : Issues t u y ds) : Issues s u y (cs ++ ds) := by
  obtain ⟨hstate, es, hes, hqueued, hdispatch⟩ := h
  obtain ⟨hstate', fs, hfs, hqueued', hdispatch'⟩ := h'
  have hauto : t.outbox.autoflush = s.outbox.autoflush := by rw [hstate]; rfl
  have hlife : t.lifecycle = (s.lifecycle.handOverAll (s.readyFor cs)).1 := by rw [hstate]; rfl
  have hready : s.readyFor (cs ++ ds) = s.readyFor cs ++ t.readyFor ds := by
    rw [readyFor, readyFor, readyFor, hauto]
    split <;> simp
  refine ⟨?_, es ++ fs, by rw [hfs, hes, List.append_assoc], by simp [hqueued, hqueued'], ?_⟩
  · rw [hstate']
    simp only [issued, hready, Lifecycle.handOverAll_append, hauto, hlife]
    rw [hstate]
    simp only [issued]
    split <;> simp
  · rw [List.filter_append, hdispatch, hdispatch', hready, Lifecycle.handOverAll_append, hlife]

/-- An edit without notices. -/
theorem issues_edit (s : Server) {f : Scene → Edit} (hf : (f s.scene).notices = []) :
    Issues s (s.edit f) (f s.scene).scene (f s.scene).commands := by
  have heq : s.edit f = { s.issued (f s.scene).scene (f s.scene).commands with
      journal := s.journal ++ ((f s.scene).commands.map Event.queued ++
        (s.lifecycle.handOverAll (s.readyFor (f s.scene).commands)).2).toArray } := by
    simp [edit, hf, noteAll, pushAll_eq, transmitAll_eq, issued, readyFor]
  generalize hes : (s.lifecycle.handOverAll (s.readyFor (f s.scene).commands)).2 = es at heq
  have hall : ∀ e ∈ es, e.isDispatch := fun e he =>
    Lifecycle.isDispatch_of_mem_handOverAll (hes ▸ he)
  have hnone : queuedIn es = [] := List.filterMap_eq_nil_iff.2 fun e he =>
    (Event.uncalled_of_isCalm (Event.isCalm_of_isDispatch (hall e he))).1
  refine ⟨by rw [heq], (f s.scene).commands.map Event.queued ++ es, by rw [heq]; simp, ?_, ?_⟩
  · simp [hnone]
  · have hqueued : ((f s.scene).commands.map Event.queued).filter Event.isDispatch = [] := by
      simp [Event.isDispatch]
    rw [List.filter_append, hqueued, List.filter_eq_self.2 hall, List.nil_append, hes]

end Server

namespace Store

variable {s : Store} {key k : String} {keys : List String}

/-- The command that deletes what is under a key. -/
def deletion (s : Store) (key : String) : Command :=
  if (s.kind? key).any (·.isElement) then .deleteElement key else .deleteObject key

theorem deletion_erase_of_ne (h : k ≠ key) : (s.erase k).deletion key = s.deletion key := by
  rw [deletion, deletion, kind?, kind?, get?_erase, if_neg h]

/-- There are objects under these keys, of which none is listed twice, and they stand under their
own keys. -/
structure Holds (s : Store) (keys : List String) : Prop where
  keyed : s.Keyed
  nodup : keys.Nodup
  stored : ∀ key ∈ keys, s.contains key

/-- The first key has an object. -/
theorem Holds.head (h : s.Holds (key :: keys)) :
    ∃ o, s.get? key = some o ∧ o.key = key ∧ o.deleteCommand = s.deletion key := by
  obtain ⟨o, ho⟩ := Option.isSome_iff_exists.1 (h.stored key List.mem_cons_self)
  have hkey := h.keyed key o ho
  refine ⟨o, ho, hkey, ?_⟩
  simp [SceneObject.deleteCommand, SceneObject.isElement, deletion, kind?, ho, hkey]

/-- The others have theirs when it is gone. -/
theorem Holds.tail (h : s.Holds (key :: keys)) : (s.erase key).Holds keys := by
  obtain ⟨hnew, hnodup⟩ := List.nodup_cons.1 h.nodup
  refine ⟨h.keyed.erase key, hnodup, fun k hk => ?_⟩
  have hne : key ≠ k := fun hkey => hnew (hkey ▸ hk)
  rw [contains, get?_erase, if_neg hne]
  exact h.stored k (List.mem_cons_of_mem key hk)

theorem Holds.deletion_tail (h : s.Holds (key :: keys)) :
    keys.map (s.erase key).deletion = keys.map s.deletion := by
  refine List.map_congr_left fun k hk => deletion_erase_of_ne fun hkey => ?_
  exact (List.nodup_cons.1 h.nodup).1 (hkey ▸ hk)

end Store

/-! ## Several keys -/

namespace Scene

variable {s : Scene} {key : String} {keys : List String}

/-- Removes the objects under some keys. -/
def deleteAll (s : Scene) (keys : List String) : Edit :=
  let (removed, store) := s.store.eraseAll keys
  let registry := removed.foldl (fun r o => r.forget o.key) s.registry
  ⟨{ s with store, registry }, removed.map (·.deleteCommand), []⟩

theorem commands_delete (h : s.store.Holds (key :: keys)) :
    (s.delete key).commands = [s.store.deletion key] := by
  obtain ⟨o, ho, -, hcommand⟩ := h.head
  simp [Scene.delete, Store.erase?_of_get? ho, hcommand]

theorem notices_delete (s : Scene) (key : String) : (s.delete key).notices = [] := by
  unfold Scene.delete
  split <;> rfl

/-- To remove some objects is to delete the first and then to remove the others. -/
theorem deleteAll_cons (h : s.store.Holds (key :: keys)) :
    (s.deleteAll (key :: keys)).scene = ((s.delete key).scene.deleteAll keys).scene ∧
      (s.deleteAll (key :: keys)).commands =
        (s.delete key).commands ++ ((s.delete key).scene.deleteAll keys).commands := by
  obtain ⟨o, ho, hkey, -⟩ := h.head
  simp [deleteAll, Scene.delete, Store.eraseAll, Store.erase?_of_get? ho, hkey]

theorem commands_deleteAll (h : s.store.Holds keys) :
    (s.deleteAll keys).commands = keys.map s.store.deletion := by
  induction keys generalizing s with
  | nil => rfl
  | cons key keys ih =>
    have hstore := s.store_delete_eq_erase key
    rw [(deleteAll_cons h).2, commands_delete h, ih (hstore ▸ h.tail), hstore, h.deletion_tail]
    rfl

/-- Every listener stays but those to clicks and changes under the keys. -/
theorem listeners_deleteAll (h : s.store.Holds keys) {o : Occasion}
    (ho : ∀ key ∈ keys, o.clicked? ≠ some key ∧ o.moved? ≠ some key) :
    (s.deleteAll keys).scene.registry.listeners o = s.registry.listeners o := by
  induction keys generalizing s with
  | nil => rfl
  | cons key keys ih =>
    have hstore := s.store_delete_eq_erase key
    obtain ⟨hkey, hkeys⟩ := List.forall_mem_cons.1 ho
    have hregistry : (s.delete key).scene.registry = s.registry.forget key := by
      unfold Scene.delete
      split <;> rfl
    rw [(deleteAll_cons h).1, ih (hstore ▸ h.tail) hkeys, hregistry, Registry.listeners_forget,
      if_neg (not_or.2 hkey)]

end Scene

namespace Server

/-- Deleting key by key comes to what removing the objects at once does to the scene. -/
theorem issues_deleteEach {s : Server} {keys : List String} (h : s.scene.store.Holds keys) :
    Issues s (keys.foldl delete s) (s.scene.deleteAll keys).scene
      (s.scene.deleteAll keys).commands := by
  induction keys generalizing s with
  | nil => exact .refl s
  | cons key keys ih =>
    have hfirst := s.issues_edit (f := (·.delete key)) (s.scene.notices_delete key)
    have hscene : (s.delete key).scene = (s.scene.delete key).scene := hfirst.scene_eq
    have hholds : (s.delete key).scene.store.Holds keys := by
      rw [hscene, s.scene.store_delete_eq_erase]
      exact h.tail
    obtain ⟨hsame, hcommands⟩ := Scene.deleteAll_cons h
    rw [hsame, hcommands, ← hscene]
    exact hfirst.trans (ih hholds)

end Server

variable {config : Config} {host : Host} {m : Machine}

/-- Removing everything under a stem comes to the same as deleting each object whose key begins with
it, in ascending order of keys. The servers afterwards differ in nothing but the order of what has
been entered in the journal, and there the same commands have been queued, elements deleted as
elements and all else as objects, and the same messages and notices entered. Then nothing is under a
key that begins with the stem, and under every other key there are the object, the mark and the
listeners that were there before, as are the listeners to drags and to all that has no key. -/
theorem delete_under_one_by_one (h : m.Reachable config host) (stem : String) {keys : List String}
    (hkeys : ∀ key, key ∈ keys ↔
      m.server.scene.store.contains key ∧ stem.toList <+: key.toList)
    (hsorted : keys.Pairwise KeyBefore) :
    let s := m.server
    let t := (s.change (.deleteUnder stem)).2
    let u := keys.foldl (fun s key => (s.change (.delete key)).2) s
    t = { u with journal := t.journal } ∧
      (∃ es fs, t.journal.toList = s.journal.toList ++ es ∧
        u.journal.toList = s.journal.toList ++ fs ∧
        queuedIn es = (keys.map fun key =>
          if (s.scene.store.kind? key).any (·.isElement) then .deleteElement key
          else .deleteObject key) ∧
        queuedIn fs = queuedIn es ∧ fs.filter Event.isDispatch = es.filter Event.isDispatch) ∧
      (∀ key, stem.toList <+: key.toList → t.scene.store.contains key = false) ∧
      (∀ key, ¬stem.toList <+: key.toList →
        t.scene.store.get? key = s.scene.store.get? key ∧
          (key ∈ t.scene.store.draggable ↔ key ∈ s.scene.store.draggable)) ∧
      ∀ o : Occasion, (∀ key, o.clicked? = some key ∨ o.moved? = some key →
          ¬stem.toList <+: key.toList) →
        t.scene.registry.listeners o = s.scene.registry.listeners o := by
  intro s t u
  have hunder : s.scene.store.keysUnder stem = keys := by
    refine eq_of_keyBefore (k := id) (s.scene.store.keyBefore_keysUnder stem) hsorted fun key => ?_
    rw [hkeys, Store.mem_keysUnder, Store.beginsWith_iff]
    rfl
  have hholds : s.scene.store.Holds keys :=
    ⟨h.sound.keyed, nodup_of_keyBefore (k := id) hsorted, fun key hkey => ((hkeys key).1 hkey).1⟩
  have hall : s.scene.deleteUnder stem = s.scene.deleteAll keys := by rw [← hunder]; rfl
  have ht : s.Issues t (s.scene.deleteAll keys).scene (s.scene.deleteAll keys).commands := by
    rw [← hall]
    exact s.issues_edit (f := (·.deleteUnder stem)) rfl
  have hu : s.Issues u (s.scene.deleteAll keys).scene (s.scene.deleteAll keys).commands :=
    Server.issues_deleteEach hholds
  have hslot (key : String) : t.scene.store.slot key =
      if Store.beginsWith stem key then (s.scene.store.slot key).erase
      else s.scene.store.slot key := by
    rw [ht.scene_eq, ← hall]
    exact s.scene.store.slot_eraseUnder stem key
  refine ⟨?_, ?_, fun key hkey => ?_, fun key hkey => ?_, fun o ho => ?_⟩
  · rw [hu.state]
    exact ht.state
  · obtain ⟨es, hes, hqueued, hdispatch⟩ := ht.entered
    obtain ⟨fs, hfs, hqueued', hdispatch'⟩ := hu.entered
    exact ⟨es, fs, hes, hfs, hqueued.trans (Scene.commands_deleteAll hholds),
      hqueued'.trans hqueued.symm, hdispatch'.trans hdispatch.symm⟩
  · have hgone := congrArg Slot.object (hslot key)
    rw [if_pos (Store.beginsWith_iff.2 hkey), Slot.object_erase] at hgone
    exact congrArg Option.isSome hgone
  · have hsame := hslot key
    rw [if_neg (mt Store.beginsWith_iff.1 hkey)] at hsame
    exact ⟨Store.get?_of_slot hsame, Store.mem_draggable_of_slot hsame⟩
  · rw [ht.scene_eq]
    refine Scene.listeners_deleteAll hholds fun key hkey => ?_
    have hbegins := ((hkeys key).1 hkey).2
    exact ⟨fun hc => ho key (Or.inl hc) hbegins, fun hm => ho key (Or.inr hm) hbegins⟩

/-- Beside the note, two lamps have been put up. -/
def Machine.furnished : Machine :=
  run (ofCall (run (ofCall greeting.server (.change (.createSphere
    { key := "green", radius := 1, pos := Vec3.zero }))) 3).server
    (.change (.createSphere { key := "lamp", radius := 1, pos := Vec3.zero }))) 3

theorem Machine.reachable_furnished : furnished.Reachable ⟨false, true⟩ .blank := by
  have hgreen : (run (ofCall greeting.server (.change (.createSphere
      { key := "green", radius := 1, pos := Vec3.zero }))) 3).Reachable ⟨false, true⟩ .blank :=
    reachable_greeting.callRun rfl _ 3
  exact hgreen.callRun rfl _ 3

/-- The note and one of the lamps go. -/
theorem delete_under_one_by_one_furnished :
    let s := Machine.furnished.server
    let t := (s.change (.deleteUnder "gree")).2
    t = { ((s.change (.delete "green")).2.change (.delete "greeting")).2 with
        journal := t.journal } ∧
      (∃ es, t.journal.toList = s.journal.toList ++ es ∧
        queuedIn es = [.deleteObject "green", .deleteElement "greeting"]) ∧
      t.scene.store.contains "greeting" = false ∧
      t.scene.store.get? "lamp" = s.scene.store.get? "lamp" := by
  intro s t
  have hunder : s.scene.store.keysUnder "gree" = ["green", "greeting"] := rfl
  have hkeys (key : String) : key ∈ ["green", "greeting"] ↔
      s.scene.store.contains key ∧ "gree".toList <+: key.toList := by
    rw [← hunder, Store.mem_keysUnder, Store.beginsWith_iff]
    rfl
  obtain ⟨hsame, ⟨es, -, hes, -, hqueued, -⟩, hgone, hkept, -⟩ :=
    delete_under_one_by_one Machine.reachable_furnished "gree" hkeys (by decide)
  exact ⟨hsame, ⟨es, hes, hqueued⟩, hgone "greeting" (by decide), (hkept "lamp" (by decide)).1⟩

end LiveScene
