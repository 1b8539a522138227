import LiveScene.Proofs.Server.Calls
import LiveScene.Proofs.Server.Dragging
import LiveScene.Proofs.Server.History

/-!
# What becomes of registrations

Every act is of one of two sorts (`Server.Act.heeds`). It may take up a call, which has its effect
on listeners, input and marks at once (`Server.heed`). Whatever else it does leaves all this alone,
but for the marks of keys whose objects are deleted (`Server.Retains`): that is so of the edits of
which changes are made (`EditPart.retains`), and so of changes, and of everything that leaves the
scene as it is. So the scene of a reachable server is as its journal tells
(`Machine.Reachable.accords`, `registrations_of_calls`).
-/

namespace LiveScene

open Relation (ReflTransGen)

variable {key : String} {es : List Event}

/-! ## Edits -/

/-- A listener for an occasion that is about no button and no slider is not forgotten. -/
theorem Registry.listeners_foldl_forget (r : Registry) (os : List SceneObject) {o : Occasion}
    (hc : o.clicked? = none) (hm : o.moved? = none) :
    (os.foldl (fun r o => r.forget o.key) r).listeners o = r.listeners o := by
  induction os generalizing r with
  | nil => rfl
  | cons x os ih => rw [List.foldl_cons, ih, Registry.listeners_forget, if_neg (by simp [hc, hm])]

namespace Scene

variable {x : Scene} {o : Occasion} (hc : o.clicked? = none) (hm : o.moved? = none)

include hc hm

theorem listeners_create (x : Scene) (a : SceneObject) :
    (x.create a).scene.registry.listeners o = x.registry.listeners o := by
  rw [Scene.create, Registry.listeners_forget, if_neg (by simp [hc, hm])]

theorem listeners_delete (x : Scene) (key : String) :
    (x.delete key).scene.registry.listeners o = x.registry.listeners o := by
  unfold Scene.delete
  split <;> rw [Registry.listeners_forget, if_neg (by simp [hc, hm])]

end Scene

theorem EditPart.listeners {f : Scene → Edit} (hf : EditPart f) (x : Scene) {o : Occasion}
    (hc : o.clicked? = none) (hm : o.moved? = none) :
    (f x).scene.registry.listeners o = x.registry.listeners o := by
  cases hf with
  | create a _ => exact Scene.listeners_create hc hm x a
  | update c f _ _ =>
    simp only [Scene.update]
    split <;> rfl
  | delete key => exact Scene.listeners_delete hc hm x key
  | deleteElement key =>
    simp only [Scene.deleteElement]
    split
    · exact Scene.listeners_delete hc hm x key
    · rfl
  | deleteUnder stem => exact x.registry.listeners_foldl_forget _ hc hm

theorem EditPart.input {f : Scene → Edit} (hf : EditPart f) (x : Scene) :
    (f x).scene.input = x.input := by
  have hdelete (key : String) : (x.delete key).scene.input = x.input := by
    unfold Scene.delete
    split <;> rfl
  cases hf with
  | create a _ => rfl
  | update c f _ _ =>
    simp only [Scene.update]
    split <;> rfl
  | delete key => exact hdelete key
  | deleteElement key =>
    simp only [Scene.deleteElement]
    split
    · exact hdelete key
    · rfl
  | deleteUnder stem => rfl

/-- Of its commands, only those that delete an object touch marks. -/
theorem EditPart.deletes?_of_touchesMark {f : Scene → Edit} (hf : EditPart f) (x : Scene)
    {c : Command} (hc : c ∈ (f x).commands) (ht : c.touchesMark key = true) :
    c.deletes? = some key := by
  have hdeleteCommand (o : SceneObject) (ho : o.deleteCommand.touchesMark key = true) :
      o.deleteCommand.deletes? = some key := by
    unfold SceneObject.deleteCommand at ho ⊢
    split at ho <;> simp_all [Command.touchesMark, Command.deletes?]
  have hdelete (k : String) (h : c ∈ (x.delete k).commands) : c.deletes? = some key := by
    unfold Scene.delete at h
    split at h
    · obtain rfl := List.mem_singleton.1 h
      exact hdeleteCommand _ ht
    · cases h
  cases hf with
  | create a _ =>
    obtain rfl := List.mem_singleton.1 hc
    cases ht
  | update u f _ hu =>
    simp only [Scene.update] at hc
    split at hc
    · obtain rfl := List.mem_singleton.1 hc
      cases c <;> simp_all [Command.isWrite, Command.touchesMark]
    · cases hc
  | delete k => exact hdelete k hc
  | deleteElement k =>
    simp only [Scene.deleteElement] at hc
    split at hc
    · exact hdelete k hc
    · cases hc
  | deleteUnder stem =>
    obtain ⟨o, -, rfl⟩ := List.mem_map.1 hc
    exact hdeleteCommand o ht

/-- An edit that registers no listener and is no clearing. -/
theorem EditPart.retains {f : Scene → Edit} (hf : EditPart f) {x : Scene} (hk : x.store.Keyed) :
    x.Retains (f x).scene ((f x).commands.filterMap Command.deletes?) where
  listeners _ hc hm := hf.listeners x hc hm
  input := hf.input x
  marks key := by
    rw [(hf.pair (L := Eq)).store_eq hk]
    exact Store.mem_draggable_runAll_of_apt ((hf.pair (L := Eq)).apt hk) fun _ =>
      hf.deletes?_of_touchesMark x

namespace Scene

/-- An object is put under its key, and its listener, if it has one, is registered there. -/
theorem retains_insert (x : Scene) {a : SceneObject} {r : Registry}
    (hr : ∀ o : Occasion, o.clicked? = none → o.moved? = none →
      r.listeners o = x.registry.listeners o) :
    x.Retains { x with store := x.store.insert a, registry := r } [] :=
  ⟨hr, rfl, by simp [Store.insert]⟩

theorem retains_createButton (x : Scene) (b : Button) (l : Listener) :
    x.Retains (x.createButton b l).scene [] := by
  refine x.retains_insert fun o hc hm => ?_
  rw [Registry.listeners_setClick, if_neg (by simp [hc])]
  exact listeners_create hc hm x (.button b)

theorem retains_createSlider (x : Scene) (b : Slider) (l : Listener) :
    x.Retains (x.createSlider b l).scene [] := by
  refine x.retains_insert fun o hc hm => ?_
  rw [Registry.listeners_setChange, if_neg (by simp [hm])]
  exact listeners_create hc hm x (.slider b)

end Scene

/-! ## Events apart from calls and changes -/

namespace Event

/-- Whether an event neither takes up a call nor queues a command. -/
def isAside : Event → Bool
  | called _ | queued _ => false
  | _ => true

theorem isAside_iff {e : Event} : e.isAside ↔ e.call? = none ∧ e.queued? = none := by
  cases e <;> simp [isAside, call?, queued?]

theorem isAside_of_isDispatch {e : Event} (h : e.isDispatch) : e.isAside := by
  cases e <;> simp_all [isDispatch, isAside]

theorem isAside_of_isGreeting {c : Connection} {e : Event} (h : e.isGreeting c) : e.isAside := by
  cases e <;> simp_all [isGreeting, isAside]

theorem isAside_of_isEnding {e : Event} (h : e.isEnding) : e.isAside := by
  cases e <;> simp_all [isEnding, isAside]

/-- A remark takes up a call, or it is aside. -/
theorem isAside_of_isRemark {e : Event} (h : e.isRemark) : (∃ c, e = called c) ∨ e.isAside := by
  cases e <;> simp_all [isRemark, isAside]

end Event

/-! ## Acts -/

namespace Server

variable {s t u : Server} {p : Event → Bool}

/-- `t` comes from `s` without a call, and retains listeners, input and marks but for the marks of
keys whose objects are deleted. -/
def Retains (s t : Server) : Prop :=
  ∃ es, t.journal.toList = s.journal.toList ++ es ∧ callsIn es = [] ∧
    s.scene.Retains t.scene (deletedIn es)

theorem Retains.refl (s : Server) : Retains s s := ⟨[], by simp, rfl, .refl _⟩

theorem Retains.trans (h : Retains s t) (h' : Retains t u) : Retains s u := by
  obtain ⟨es, hes, hcalls, hscene⟩ := h
  obtain ⟨fs, hfs, hcalls', hscene'⟩ := h'
  exact ⟨es ++ fs, by rw [hfs, hes, List.append_assoc], by simp [hcalls, hcalls'], by
    rw [deletedIn_append]
    exact hscene.trans hscene'⟩

/-- The scene stays as it is. -/
theorem retains_of_entered (hscene : t.scene = s.scene) (h : Entered Event.isAside s t) :
    Retains s t := by
  obtain ⟨es, hes, hall⟩ := h
  have hcalls : callsIn es = [] :=
    List.filterMap_eq_nil_iff.2 fun e he => (Event.isAside_iff.1 (hall e he)).1
  have hqueued : queuedIn es = [] :=
    List.filterMap_eq_nil_iff.2 fun e he => (Event.isAside_iff.1 (hall e he)).2
  refine ⟨es, hes, hcalls, ?_⟩
  rw [hscene, deletedIn, hqueued]
  exact .refl _

theorem retains_of_silent (hscene : t.scene = s.scene) (h : t.journal = s.journal) : Retains s t :=
  retains_of_entered hscene (.of_journal h)

theorem retains_emit (s : Server) {e : Event} (he : e.isAside) : Retains s (s.emit e) :=
  retains_of_entered rfl (entered_emit s he)

theorem retains_edit (s : Server) {f : Scene → Edit} {x : Scene}
    (h : x.Retains (f s.scene).scene ((f s.scene).commands.filterMap Command.deletes?)) :
    Retains { s with scene := x } (s.edit f) := by
  obtain ⟨es, hes, hall, hqueued⟩ := journal_edit s f
  have hcalls : callsIn es = [] := by
    refine List.filterMap_eq_nil_iff.2 fun e he => ?_
    have := hall e he
    cases e <;> first | rfl | cases this
  refine ⟨es, hes, hcalls, ?_⟩
  rw [deletedIn, hqueued, scene_edit]
  exact h

theorem keptByParts_retains (s : Server) :
    KeptByParts fun t u => t = u ∧ t.scene.store.Keyed ∧ Retains s t where
  host h := congrArg Server.host h.1
  store h := congrArg (·.scene.store) h.1
  note n h := by
    obtain ⟨rfl, hk, h⟩ := h
    exact ⟨rfl, hk, h.trans (retains_emit _ rfl)⟩
  edit {t u f} hf h := by
    obtain ⟨rfl, hk, h⟩ := h
    refine ⟨rfl, ?_, h.trans (t.retains_edit (hf.retains hk))⟩
    rw [scene_edit, (hf.pair (L := Eq)).store_eq hk]
    exact hk.runAll _

/-- A call is taken up, and has its effect at once on listeners, input and marks. -/
def heed (s : Server) (c : Call) : Server := { s.emit (.called c) with scene := s.scene.heed c }

theorem heed_eq_emit {c : Call} (h : s.scene.heed c = s.scene) :
    s.heed c = s.emit (.called c) := by
  rw [heed, h]
  rfl

/-- A change leaves nothing more to do. -/
theorem retains_change (hk : s.scene.store.Keyed) (c : Change Listener) :
    Retains (s.heed (.change c)) ((s.emit (.called (.change c))).change c).2 := by
  cases hc : c.listener? with
  | none =>
    by_cases hclear : c = .clear
    · subst hclear
      exact retains_edit (s.emit (.called (.change .clear))) (.refl _)
    · have hheed : s.heed (.change c) = s.emit (.called (.change c)) := by
        refine heed_eq_emit ?_
        cases c <;> first | rfl | exact absurd rfl hclear | cases hc
      have hkeyed : (s.emit (.called (.change c))).scene.store.Keyed := hk
      rw [hheed]
      exact ((keptByParts_retains _).change hc hclear ⟨rfl, hkeyed, .refl _⟩).2.2.2
  | some l =>
    cases c with
    | createButton b l =>
      exact retains_edit (s.emit (.called (.change (.createButton b l))))
        (s.scene.retains_createButton b l)
    | createSlider b l =>
      exact retains_edit (s.emit (.called (.change (.createSlider b l))))
        (s.scene.retains_createSlider b l)
    | onDrag key l => exact retains_edit (s.emit (.called (.change (.onDrag key l)))) (.refl _)
    | _ => cases hc

theorem retains_release (s : Server) (q : Outbox) (taken : Option (List Command)) :
    Retains s (release { s with outbox := q } taken) := by
  obtain ⟨es, h⟩ := handed_release { s with outbox := q } taken
  exact retains_of_entered h.scene
    ((entered_release _ taken).mono fun _ => Event.isAside_of_isDispatch)

theorem retains_greet (s : Server) (c : Connection) : Retains s (s.greet c) := by
  obtain ⟨es, h⟩ := handed_greet s c
  exact retains_of_entered h.scene ((entered_greet s c).mono fun _ => Event.isAside_of_isGreeting)

/-- A call that is a remark leaves the scene alone. -/
theorem heed_of_isRemark {c : Call} (h : (Event.called c).isRemark) :
    s.scene.heed c = s.scene := by
  unfold Scene.heed
  split
  · cases h
  · cases h
  · cases h
  · next i =>
    have hnone : i.message? = none := by
      cases i with
      | message k text =>
        cases hm : ViewerMessage.parse text with
        | ok m => simp [Event.isRemark, Event.report?, hm, Except.toOption] at h
        | error e => simp [Inbound.message?, hm, Except.toOption]
      | connect _ | disconnect _ | shutdownSignal => rfl
    rw [hnone, Option.elim_none]
  · rfl

/-- An act takes up a call and has the effect of the call, or it takes up none; and then nothing is
done to listeners, input and marks but that marks are dropped with the objects of their keys. -/
theorem Act.heeds (h : Act s t) (hk : s.scene.store.Keyed) :
    Retains s t ∨ ∃ c, Retains (s.heed c) t := by
  cases h with
  | remark e he =>
    rcases Event.isAside_of_isRemark he with ⟨c, rfl⟩ | haside
    · exact .inr ⟨c, by rw [heed_eq_emit (heed_of_isRemark he)]; exact .refl _⟩
    · exact .inl (retains_emit s haside)
  | fire l o => exact .inl (retains_of_entered rfl (entered_emit _ rfl))
  | change c => exact .inr ⟨.change c, retains_change hk c⟩
  | register signal l => exact .inr ⟨.on signal l, .refl _⟩
  | report c m e he =>
    obtain ⟨text, rfl, hm⟩ := Event.eq_called_of_report? he
    have hheed : s.scene.heed (.hear (.message c text)) = s.scene.record m := by
      simp [Scene.heed, Inbound.message?, hm, Except.toOption]
    exact .inr ⟨.hear (.message c text), by rw [heed, hheed]; exact .refl _⟩
  | flush => exact .inl (retains_release s _ _)
  | setAutoflush on => exact .inl (retains_release s _ _)
  | connect c => exact .inr ⟨.hear (.connect c), retains_greet _ c⟩
  | listen port _ => exact .inl (retains_emit s rfl)
  | accept port x address _ =>
    exact .inl (retains_of_entered rfl ((entered_emit s rfl).trans (entered_emit _ rfl)))
  | close n _ => exact .inl (retains_emit s rfl)
  | finish n _ =>
    exact .inl (retains_of_entered (by obtain ⟨es, he, -⟩ := finish_eq s n; rw [he])
      ((entered_finish s n).mono fun _ => Event.isAside_of_isEnding))
  | start _ | refuse _ _ | claim _ | request _ | wake | detach _ | giveUp =>
    exact .inl (retains_of_silent rfl rfl)

/-- The scene is as the journal tells. -/
def Accords (s : Server) : Prop := s.scene.Accords s.journal.toList

theorem Accords.retain (hs : s.Accords) (h : Retains s t) : t.Accords := by
  obtain ⟨es, hes, hcalls, hscene⟩ := h
  rw [Accords, hes]
  exact Scene.Accords.retain hs hcalls hscene

theorem Accords.heed (hs : s.Accords) (c : Call) : (s.heed c).Accords := by
  have h := Scene.Accords.heed hs c
  rwa [← toList_journal_emit] at h

theorem Act.accords (h : Act s t) (hk : s.scene.store.Keyed) (hs : s.Accords) : t.Accords := by
  rcases h.heeds hk with h | ⟨c, h⟩
  · exact hs.retain h
  · exact (hs.heed c).retain h

theorem accords_of_acts (h : ReflTransGen Act s t) (hs : s.Sound) (ha : s.Accords) :
    t.Accords := by
  induction h with
  | refl => exact ha
  | tail h hact ih => exact hact.accords (sound_of_acts hs h).keyed ih

/-- The commands that were queued tell which keys have objects, and each of them that deletes an
object finds one. -/
structure Tracked (s : Server) : Prop where
  apt : Store.empty.Apt (queuedIn s.journal.toList)
  alike : (Store.empty.runAll (queuedIn s.journal.toList)).Alike s.scene.store

theorem Tracked.append (hs : s.Tracked) (hj : t.journal.toList = s.journal.toList ++ es)
    (hes : s.scene.store.Apt (queuedIn es))
    (ht : (s.scene.store.runAll (queuedIn es)).Alike t.scene.store) : t.Tracked where
  apt := by
    rw [hj, queuedIn_append]
    exact Store.apt_append.2 ⟨hs.apt, hs.alike.apt hes⟩
  alike key := by
    rw [hj, queuedIn_append, Store.runAll_append]
    exact (hs.alike.runAll _ key).trans (ht key)

theorem Act.tracked (h : Act s t) (hs : s.Sound) (ht : s.Tracked) : t.Tracked := by
  obtain ⟨es, htells⟩ := h.tells hs
  refine ht.append htells.journal ?_ ?_
  · cases htells with
    | told h => exact h.apt
    | reported h => rw [h.silent.1]; trivial
    | apart _ _ _ _ hqueued => rw [hqueued]; trivial
  · cases htells with
    | told h => rw [h.store]; exact fun _ => rfl
    | reported h =>
      intro key
      rw [h.silent.1, h.store, Store.contains_run, h.isSome_effect, Store.runAll_nil,
        Store.contains]
    | apart _ _ hstore _ hqueued => rw [hqueued, hstore]; exact fun _ => rfl

theorem tracked_of_acts (h : ReflTransGen Act s t) (hs : s.Sound) (ht : s.Tracked) :
    t.Tracked := by
  induction h with
  | refl => exact ht
  | tail h hact ih => exact hact.tracked (sound_of_acts hs h) ih

end Server

variable {config : Config} {host : Host} {m : Machine}

theorem Machine.Reachable.accords (h : m.Reachable config host) : m.server.Accords :=
  Server.accords_of_acts (acts_of_next (onDuty_new config host) h).1 (Server.sound_new config host)
    Scene.accords_nil

theorem Machine.Reachable.tracked (h : m.Reachable config host) : m.server.Tracked :=
  Server.tracked_of_acts (acts_of_next (onDuty_new config host) h).1 (Server.sound_new config host)
    ⟨trivial, fun _ => rfl⟩

/-! ## The same calls -/

/-- The history of a store is told by the calls alone. -/
theorem historyIn_eq (es : List Event) :
    historyIn es = (callsIn es).filterMap fun c => (Event.called c).mutation? := by
  rw [callsIn, List.filterMap_filterMap]
  refine List.filterMap_congr fun e _ => ?_
  cases e <;> rfl

/-- Scenes that accord with the same calls differ at most in objects, in marks, and in the listeners
of buttons and sliders. -/
theorem Scene.Accords.congr {x y : Scene} {fs : List Event} (hx : x.Accords es) (hy : y.Accords fs)
    (h : callsIn es = callsIn fs) : (∀ o : Occasion, o.clicked? = none → o.moved? = none →
      x.registry.listeners o = y.registry.listeners o) ∧ x.input = y.input := by
  have hrecent : callsIn (sinceClear es) = callsIn (sinceClear fs) := by
    rw [callsIn_sinceClear, callsIn_sinceClear, h]
  refine ⟨fun o hc hm => ?_, ?_⟩
  · rw [hx.listeners o hc hm, hy.listeners o hc hm]
    split <;> simp only [registeredIn, h, hrecent]
  · have hkeys : x.input.keysDown = y.input.keysDown := by
      refine Std.ExtTreeSet.ext_mem fun key => ?_
      rw [hx.keysDown, hy.keysDown, lastPress?, lastPress?, messagesIn, messagesIn, hrecent]
    have hsize : x.input.screenSize = y.input.screenSize := by
      rw [hx.screenSize, hy.screenSize, lastSize?, lastSize?, messagesIn, messagesIn, h]
    cases hxi : x.input
    cases hyi : y.input
    simp_all

/-- All that is registered, pressed and marked is told by the calls that were taken up, in whatever
order and nesting. Listeners to connections and shutdowns are all that were ever registered, in
order; those to any other occasion, clicks of buttons and changes of sliders apart, are all that
were registered since the scene was last cleared. A key is down if and only if the last that viewers
have reported of it since then is that it went down, and the screen has the size reported last. A
key is marked if and only if since then a listener to its drags was registered, after which no
object under the key was deleted.

Which objects were deleted is told by the commands that were queued: each of them that deletes an
object finds one, and they tell at all times which keys have objects. That too depends on the host
and the calls alone, so that two servers on one host of which the same calls were taken up agree in
everything. -/
theorem registrations_of_calls (h : m.Reachable config host) :
    let es := m.server.journal.toList
    let recent := sinceClear es
    let x := m.server.scene
    (x.registry.connection = registeredIn .connection es ∧
      x.registry.shutdown = registeredIn .shutdown es) ∧
    (∀ o : Occasion, o.isLasting = false → o.clicked? = none → o.moved? = none →
      x.registry.listeners o = registeredIn o recent) ∧
    (∀ key, key ∈ x.input.keysDown ↔ lastPress? key recent = some true) ∧
    x.input.screenSize = (lastSize? es).getD IVec2.zero ∧
    (∀ key, key ∈ x.store.draggable ↔ MarkedIn key recent) ∧
    (Store.empty.Apt (queuedIn es) ∧
      ∀ key, x.store.contains key = (Store.empty.runAll (queuedIn es)).contains key) ∧
    ∀ config' m', Machine.Reachable config' host m' →
      callsIn m'.server.journal.toList = callsIn es →
        (∀ o : Occasion, o.clicked? = none → o.moved? = none →
          m'.server.scene.registry.listeners o = x.registry.listeners o) ∧
        m'.server.scene.input = x.input ∧ m'.server.scene.store = x.store := by
  intro es recent x
  have haccords : x.Accords es := h.accords
  refine ⟨⟨haccords.listeners .connection rfl rfl, haccords.listeners .shutdown rfl rfl⟩,
    fun o ho hc hm => ?_, haccords.keysDown, haccords.screenSize, haccords.marks,
    ⟨h.tracked.apt, fun key => (h.tracked.alike key).symm⟩, fun config' m' h' hcalls => ?_⟩
  · rw [haccords.listeners o hc hm, ho]
    rfl
  · obtain ⟨hlisteners, hinput⟩ := Scene.Accords.congr h'.accords haccords hcalls
    refine ⟨hlisteners, hinput, ?_⟩
    rw [h'.store_eq, h.store_eq, historyIn_eq, historyIn_eq, hcalls]
    exact (Mutation.local_performAll _).store_congr rfl rfl

/-- While its transport starts to listen, the crate is made draggable, created and deleted; and the
cart is made draggable and deleted, although there is none. -/
def Machine.rearranged : Machine :=
  run (ofCall (.new {} .blank) (.serve 8080 (.custom ⟨none, false, none,
    [.change (.onDrag "crate" (.steady .null [] false)), .change (.createSphere .crate),
      .change (.delete "crate"), .change (.onDrag "cart" (.steady .null [] true)),
      .change (.delete "cart")], [], fun _ => false, fun _ => false⟩))) 15

theorem Machine.reachable_rearranged : rearranged.Reachable {} .blank :=
  Reachable.callRun (m := ⟨.new {} .blank, []⟩) .refl rfl _ 15

/-- Both have their listeners, and only the cart is still marked. -/
theorem registrations_of_calls_rearranged :
    Machine.rearranged.server.scene.registry.dragListeners "crate" = [.steady .null [] false] ∧
      "crate" ∉ Machine.rearranged.server.scene.store.draggable ∧
      "cart" ∈ Machine.rearranged.server.scene.store.draggable := by
  obtain ⟨-, hlisteners, -, -, hmarks, -⟩ := registrations_of_calls Machine.reachable_rearranged
  refine ⟨(hlisteners (.message (.drag "crate" Vec3.zero)) rfl rfl rfl).trans rfl, ?_, ?_⟩
  · rw [hmarks, ← List.take_append_drop 11 (sinceClear _), markedIn_append]
    rintro (hlater | ⟨-, hkept⟩)
    · have hcalls : callsIn ((sinceClear Machine.rearranged.server.journal.toList).drop 11) =
          [.change (.onDrag "cart" (.steady .null [] true)), .change (.delete "cart")] := rfl
      obtain ⟨l, hl⟩ := hlater.exists_mem
      simp [hcalls] at hl
    · exact hkept (List.mem_singleton_self _)
  · rw [hmarks, ← List.take_append_drop 14 (sinceClear _), markedIn_append]
    exact .inl ⟨[], .steady .null [] true, _, rfl, List.not_mem_nil⟩

end LiveScene
