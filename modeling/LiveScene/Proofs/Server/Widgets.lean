import Mathlib.Data.List.Induction
import LiveScene.Proofs.Server.Entries
import LiveScene.Proofs.Store.Backlog

/-!
# Widgets and their listeners

A button is created together with the listener to its clicks, and a slider with the listener to its
changes. Store and registry are changed side by side for that, on every way in which an object is
put under a key, replaced or removed. What they come to is told by the journal alone: it says which
change has created the object under a key (`CreatedBy`), and the listener registered under the key
is the one that this change has given.

`Origin` follows the journal and finds that change, the maker of the object
(`makerIn_eq_some_iff`). A scene is `Tended` if what is stored and registered under a key goes back
to the maker in this way. Single edits keep that (`Tended.edit`), so changes keep it
(`tended_change`), acts keep it (`Act.tended`), and it holds of every reachable server
(`Machine.Reachable.tended`).
-/

namespace LiveScene

open Relation (ReflTransGen)

/-! ## Makers in the journal -/

/-- Whether a command puts another object under the key, or none. -/
def Command.replaces (key : String) : Command → Bool
  | create o => o.key = key
  | deleteObject k | deleteElement k => k = key
  | clear => true
  | _ => false

/-- By these events, the object under the key was created by the change `c`: it was called, the
command that creates the object was queued in it, and nothing has replaced or removed it since. -/
def CreatedBy (key : String) (c : Change Listener) (es : List Event) : Prop :=
  ∃ before during after o,
    es = before ++ .called (.change c) :: (during ++ .queued (.create o) :: after) ∧ o.key = key ∧
      (∀ d, .called (.change d) ∉ during) ∧ ∀ u ∈ queuedIn after, u.replaces key = false

/-- What is known of the object under a key: the change that was called last, and the change that
has created the object. -/
structure Origin where
  latest : Option (Change Listener) := none
  maker : Option (Change Listener) := none

namespace Origin

/-- What a command makes of it. -/
def queue (key : String) (x : Origin) : Command → Origin
  | .create o => if o.key = key then { x with maker := x.latest } else x
  | .deleteObject k | .deleteElement k => if k = key then { x with maker := none } else x
  | .clear => { x with maker := none }
  | _ => x

/-- What an event makes of it. -/
def next (key : String) (x : Origin) : Event → Origin
  | .called (.change c) => { x with latest := some c }
  | .queued c => x.queue key c
  | _ => x

variable {key : String} {x : Origin} {es : List Event}

theorem latest_queue (x : Origin) (c : Command) : (x.queue key c).latest = x.latest := by
  unfold queue
  split
  · split <;> rfl
  · split <;> rfl
  · split <;> rfl
  · rfl
  · rfl

/-- A command that replaces nothing under the key leaves its maker. -/
theorem queue_of_not_replaces {c : Command} (h : c.replaces key = false) (x : Origin) :
    x.queue key c = x := by
  cases c <;> simp_all [queue, Command.replaces]

theorem queue_deleteCommand (o : SceneObject) (x : Origin) :
    x.queue key o.deleteCommand = if o.key = key then { x with maker := none } else x := by
  unfold SceneObject.deleteCommand
  split <;> rfl

/-- Where no change is called, only the commands matter. -/
theorem foldl_next (h : ∀ d, .called (.change d) ∉ es) (x : Origin) :
    es.foldl (next key) x = (queuedIn es).foldl (queue key) x := by
  induction es generalizing x with
  | nil => rfl
  | cons e es ih =>
    have ih := ih fun d hd => h d (List.mem_cons_of_mem _ hd)
    cases e with
    | queued c => exact ih _
    | called c =>
      cases c with
      | change d => exact absurd List.mem_cons_self (h d)
      | _ => exact ih _
    | _ => exact ih _

/-- A single event that is no call of a change. -/
theorem next_of_uncalled {e : Event} (h : ∀ d, e ≠ .called (.change d)) (x : Origin) :
    x.next key e = (queuedIn [e]).foldl (queue key) x := by
  have huncalled : ∀ d, .called (.change d) ∉ [e] := by simpa using fun d => (h d).symm
  exact foldl_next huncalled x

theorem latest_foldl_queue (x : Origin) (cs : List Command) :
    (cs.foldl (queue key) x).latest = x.latest := by
  induction cs generalizing x with
  | nil => rfl
  | cons c cs ih => exact (ih _).trans (latest_queue x c)

/-- Commands that replace nothing under the key leave its maker. -/
theorem maker_foldl_next (h : ∀ u ∈ queuedIn es, u.replaces key = false) (x : Origin) :
    (es.foldl (next key) x).maker = x.maker := by
  induction es generalizing x with
  | nil => rfl
  | cons e es ih =>
    rw [← List.singleton_append, queuedIn_append, List.forall_mem_append] at h
    have hhead : (x.next key e).maker = x.maker := by
      cases e with
      | queued c =>
        have hc : c.replaces key = false := h.1 c (by simp [queuedIn, Event.queued?])
        rw [next, queue_of_not_replaces hc]
      | called c => cases c <;> rfl
      | _ => rfl
    exact (ih h.2 _).trans hhead

/-- The change that was called last. -/
theorem exists_of_latest {c : Change Listener}
    (h : (es.foldl (next key) {}).latest = some c) :
    ∃ before during, es = before ++ .called (.change c) :: during ∧
      ∀ d, .called (.change d) ∉ during := by
  induction es using List.reverseRecOn with
  | nil => cases h
  | append_singleton es e ih =>
    rw [List.foldl_append, List.foldl_cons, List.foldl_nil] at h
    by_cases he : ∃ d, e = .called (.change d)
    · obtain ⟨d, rfl⟩ := he
      obtain rfl : d = c := Option.some.inj h
      exact ⟨es, [], rfl, by simp⟩
    · rw [not_exists] at he
      rw [next_of_uncalled he, latest_foldl_queue] at h
      obtain ⟨before, during, rfl, hduring⟩ := ih h
      refine ⟨before, during ++ [e], by simp, fun d hd => ?_⟩
      rcases List.mem_append.mp hd with hd | hd
      · exact hduring d hd
      · exact he d (List.mem_singleton.mp hd).symm

end Origin

/-- What is known of the object under a key, by these events. -/
def originIn (key : String) (es : List Event) : Origin := es.foldl (Origin.next key) {}

/-- The change that has created the object under a key, by these events. -/
def makerIn (key : String) (es : List Event) : Option (Change Listener) := (originIn key es).maker

theorem CreatedBy.append {key : String} {c : Change Listener} {es fs : List Event}
    (h : CreatedBy key c es) (hfs : ∀ u ∈ queuedIn fs, u.replaces key = false) :
    CreatedBy key c (es ++ fs) := by
  obtain ⟨before, during, after, o, rfl, hkey, hduring, hafter⟩ := h
  refine ⟨before, during, after ++ fs, o, by simp, hkey, hduring, ?_⟩
  rw [queuedIn_append]
  exact List.forall_mem_append.mpr ⟨hafter, hfs⟩

/-- The maker of an object is the change that has created it. -/
theorem makerIn_eq_some_iff {key : String} {c : Change Listener} {es : List Event} :
    makerIn key es = some c ↔ CreatedBy key c es := by
  constructor
  · intro h
    induction es using List.reverseRecOn with
    | nil => cases h
    | append_singleton es e ih =>
      rw [makerIn, originIn, List.foldl_append] at h
      by_cases hkeeps : ∀ u ∈ queuedIn [e], u.replaces key = false
      · rw [Origin.maker_foldl_next hkeeps] at h
        exact (ih h).append hkeeps
      · -- only a command that is queued replaces an object
        cases e with
        | queued u =>
          have hu : u.replaces key = true := by simpa [queuedIn, Event.queued?] using hkeeps
          rw [List.foldl_cons, List.foldl_nil] at h
          cases u with
          | create o =>
            have hkey : o.key = key := by simpa [Command.replaces] using hu
            have hlatest : (es.foldl (Origin.next key) {}).latest = some c := by
              simpa [Origin.next, Origin.queue, hkey] using h
            obtain ⟨before, during, rfl, hduring⟩ := Origin.exists_of_latest hlatest
            exact ⟨before, during, [], o, by simp, hkey, hduring, by simp [queuedIn]⟩
          | _ => simp_all [Origin.next, Origin.queue, Command.replaces]
        | _ => exact absurd (by simp [queuedIn, Event.queued?]) hkeeps
  · rintro ⟨before, during, after, o, rfl, hkey, hduring, hafter⟩
    rw [makerIn, originIn, List.foldl_append, List.foldl_cons, List.foldl_append, List.foldl_cons,
      Origin.maker_foldl_next hafter, Origin.foldl_next hduring]
    simp [Origin.next, Origin.queue, hkey, Origin.latest_foldl_queue]

/-! ## Widgets -/

/-- The objects that take a listener along. -/
inductive Widget where
  | button
  | slider
deriving DecidableEq

/-- The kind of a widget. -/
def Widget.kind : Widget → Kind
  | button => .button
  | slider => .slider

/-- Where the listeners of widgets are registered. -/
def Registry.ofWidget (r : Registry) : Widget → Std.ExtTreeMap String Listener
  | .button => r.click
  | .slider => r.change

/-- The widget that a change creates, with its key and its listener. -/
def Change.widget? : Change Listener → Option (Widget × String × Listener)
  | .createButton b l => some (.button, b.key, l)
  | .createSlider b l => some (.slider, b.key, l)
  | _ => none

/-- The listener that a change gives to the widget under a key. -/
def Change.given? (key : String) (w : Widget) (c : Change Listener) : Option Listener :=
  c.widget?.bind fun (w', k, l) => if w' = w ∧ k = key then some l else none

theorem Change.widget?_of_listener? {c : Change Listener} (h : c.listener? = none) :
    c.widget? = none := by
  cases c <;> simp_all [listener?, widget?]

namespace Registry

variable (r : Registry) (k key : String) (l : Listener) (w : Widget)

theorem ofWidget_forget :
    ((r.forget k).ofWidget w)[key]? = if k = key then none else (r.ofWidget w)[key]? := by
  cases w <;> simp [forget, ofWidget, Std.ExtTreeMap.getElem?_erase]

theorem ofWidget_setClick : ((r.setClick k l).ofWidget w)[key]? =
    if .button = w ∧ k = key then some l else (r.ofWidget w)[key]? := by
  cases w <;> simp [setClick, ofWidget, Std.ExtTreeMap.getElem?_insert]

theorem ofWidget_setChange : ((r.setChange k l).ofWidget w)[key]? =
    if .slider = w ∧ k = key then some l else (r.ofWidget w)[key]? := by
  cases w <;> simp [setChange, ofWidget, Std.ExtTreeMap.getElem?_insert]

end Registry

/-! ## Scenes that go back to their makers -/

/-- What is stored under the key and the listeners registered there go back to one maker. -/
structure Tended (key : String) (maker : Option (Change Listener)) (scene : Scene) : Prop where
  stored : (scene.store.kind? key).isSome = maker.isSome
  listener (w : Widget) : (scene.registry.ofWidget w)[key]? = maker.bind (·.given? key w)
  kind (w : Widget) : scene.store.kind? key = some w.kind ↔ (maker.bind (·.given? key w)).isSome

/-- Writing a part of an object keeps its kind. -/
theorem Command.kind_rewrite (c : Command) (o : SceneObject) : (c.rewrite o).kind = o.kind := by
  cases c with
  | set a _ v => cases a <;> cases o <;> rfl
  | setContents _ _ | setLabel _ _ | setSlider _ _ _ | setPlotData _ _ | setLayout _ _ _ =>
    cases o <;> rfl
  | create _ | enableMouse _ | deleteObject _ | deleteElement _ | clear => rfl

namespace Store

theorem kind?_insert (s : Store) (o : SceneObject) (key : String) :
    (s.insert o).kind? key = if o.key = key then some o.kind else s.kind? key := by
  rw [kind?, get?_insert]
  split <;> rfl

theorem kind?_erase (s : Store) (k key : String) :
    (s.erase k).kind? key = if k = key then none else s.kind? key := by
  rw [kind?, get?_erase]
  split <;> rfl

theorem kind?_run_of_isWrite (s : Store) {c : Command} (h : c.isWrite = true) (key : String) :
    (s.run c).kind? key = s.kind? key := by
  have hkind : ∀ x : Option SceneObject, (x.map c.rewrite).map (·.kind) = x.map (·.kind) := by
    intro x
    simp [Function.comp_def, Command.kind_rewrite]
  rw [kind?, get?_run]
  cases c with
  | set _ _ _ | setContents _ _ | setLabel _ _ | setSlider _ _ _ | setPlotData _ _
  | setLayout _ _ _ =>
    simp only [Command.effect]
    split
    · exact hkind _
    · rfl
  | create _ | enableMouse _ | deleteObject _ | deleteElement _ | clear => cases h

end Store

namespace Tended

variable {key : String} {maker : Option (Change Listener)} {x y : Scene}

/-- Nothing of it depends on more than kinds and the listeners of widgets. -/
theorem congr (h : Tended key maker x) (hkind : y.store.kind? key = x.store.kind? key)
    (hlistener : ∀ w, (y.registry.ofWidget w)[key]? = (x.registry.ofWidget w)[key]?) :
    Tended key maker y where
  stored := by rw [hkind, h.stored]
  listener w := by rw [hlistener, h.listener]
  kind w := by rw [hkind, h.kind]

/-- Nothing is stored or registered under the key. -/
theorem of_gone (hkind : x.store.kind? key = none)
    (hlistener : ∀ w, (x.registry.ofWidget w)[key]? = none) : Tended key none x where
  stored := by rw [hkind]; rfl
  listener := hlistener
  kind w := by simp [hkind]

/-- An object is put under its key, and with it the listener that its change gives. -/
theorem insert (h : Tended key maker x) {o : SceneObject} {c : Change Listener} {r : Registry}
    (hlistener : ∀ w, (r.ofWidget w)[key]? =
      if o.key = key then c.given? key w else (x.registry.ofWidget w)[key]?)
    (hkind : o.key = key → ∀ w, o.kind = w.kind ↔ (c.given? key w).isSome) :
    Tended key (Origin.queue key ⟨some c, maker⟩ (.create o)).maker
      { x with store := x.store.insert o, registry := r } := by
  rw [Origin.queue]
  by_cases hkey : o.key = key
  · have hstored : (x.store.insert o).kind? key = some o.kind := by
      rw [Store.kind?_insert, if_pos hkey]
    rw [if_pos hkey]
    refine ⟨by rw [hstored]; rfl, fun w => ?_, fun w => ?_⟩
    · rw [hlistener, if_pos hkey]
      rfl
    · rw [hstored, Option.some.injEq]
      exact hkind hkey w
  · rw [if_neg hkey]
    exact h.congr (by rw [Store.kind?_insert, if_neg hkey])
      fun w => by rw [hlistener, if_neg hkey]

/-- An object that is no widget is put under its key, by a change that gives no listener. -/
theorem create (h : Tended key maker x) {o : SceneObject} (ho : o.isWidget = false)
    {c : Change Listener} (hc : c.listener? = none) :
    Tended key (Origin.queue key ⟨some c, maker⟩ (.create o)).maker (x.create o).scene := by
  have hgiven : ∀ w, c.given? key w = none := by
    intro w
    rw [Change.given?, Change.widget?_of_listener? hc, Option.bind_none]
  have hkind : ∀ w : Widget, o.kind ≠ w.kind := by
    intro w
    cases w <;> cases o <;> simp_all [SceneObject.isWidget, SceneObject.kind, Widget.kind]
  refine h.insert (fun w => ?_) fun _ w => by simp [hgiven, hkind]
  rw [hgiven, Registry.ofWidget_forget]

/-- A widget is put under its key, with the listener that its change gives to it. -/
theorem createWidget (h : Tended key maker x) {o : SceneObject} {w : Widget} {l : Listener}
    {c : Change Listener} {r : Registry} (hc : c.widget? = some (w, o.key, l))
    (ho : o.kind = w.kind) (hr : ∀ w', (r.ofWidget w')[key]? =
      if w = w' ∧ o.key = key then some l else ((x.registry.forget o.key).ofWidget w')[key]?) :
    Tended key (Origin.queue key ⟨some c, maker⟩ (.create o)).maker
      { x with store := x.store.insert o, registry := r } := by
  have hgiven : ∀ w', c.given? key w' = if w = w' ∧ o.key = key then some l else none := by
    intro w'
    rw [Change.given?, hc]
    rfl
  have hkind : ∀ w', w.kind = w'.kind ↔ w = w' := by
    intro w'
    cases w <;> cases w' <;> simp [Widget.kind]
  refine h.insert (fun w' => ?_) fun hkey w' => ?_
  · rw [hr, hgiven, Registry.ofWidget_forget]
    by_cases hkey : o.key = key <;> simp [hkey]
  · rw [ho, hkind, hgiven]
    by_cases hw : w = w' <;> simp [hkey, hw]

theorem createButton (h : Tended key maker x) (b : Button) (l : Listener) :
    Tended key (Origin.queue key ⟨some (.createButton b l), maker⟩ (.create (.button b))).maker
      (x.createButton b l).scene :=
  h.createWidget rfl rfl fun w => Registry.ofWidget_setClick _ b.key key l w

theorem createSlider (h : Tended key maker x) (b : Slider) (l : Listener) :
    Tended key (Origin.queue key ⟨some (.createSlider b l), maker⟩ (.create (.slider b))).maker
      (x.createSlider b l).scene :=
  h.createWidget rfl rfl fun w => Registry.ofWidget_setChange _ b.key key l w

/-- An object is removed. -/
theorem delete (h : Tended key maker x) (o : SceneObject) (latest : Option (Change Listener)) :
    Tended key (Origin.queue key ⟨latest, maker⟩ o.deleteCommand).maker
      { x with store := x.store.run o.deleteCommand, registry := x.registry.forget o.key } := by
  rw [Store.run_deleteCommand, Origin.queue_deleteCommand]
  by_cases hkey : o.key = key
  · rw [if_pos hkey]
    exact of_gone (by rw [Store.kind?_erase, if_pos hkey])
      fun w => by rw [Registry.ofWidget_forget, if_pos hkey]
  · rw [if_neg hkey]
    exact h.congr (by rw [Store.kind?_erase, if_neg hkey])
      fun w => by rw [Registry.ofWidget_forget, if_neg hkey]

theorem deleteAll (h : Tended key maker x) (os : List SceneObject)
    (latest : Option (Change Listener)) :
    Tended key ((os.map (·.deleteCommand)).foldl (Origin.queue key) ⟨latest, maker⟩).maker
      { x with
        store := x.store.runAll (os.map (·.deleteCommand))
        registry := os.foldl (fun r o => r.forget o.key) x.registry } := by
  induction os generalizing x maker with
  | nil => exact h
  | cons o os ih =>
    have hlatest : Origin.queue key ⟨latest, maker⟩ o.deleteCommand =
        ⟨latest, (Origin.queue key ⟨latest, maker⟩ o.deleteCommand).maker⟩ := by
      rw [Origin.queue_deleteCommand]
      split <;> rfl
    have hrest := ih (h.delete o latest)
    rw [← hlatest] at hrest
    exact hrest

/-- Whatever is under a key is removed. What is forgotten where nothing is stored was not
registered. -/
theorem deleteKey (h : Tended key maker x) (hk : x.store.Keyed) (k : String)
    (latest : Option (Change Listener)) :
    Tended key ((x.delete k).commands.foldl (Origin.queue key) ⟨latest, maker⟩).maker
      (x.delete k).scene := by
  unfold Scene.delete
  cases he : x.store.erase? k with
  | some p =>
    obtain ⟨o, store⟩ := p
    obtain ⟨ho, rfl⟩ := Store.erase?_eq_some he
    obtain rfl := hk k o ho
    have hdelete := h.delete o latest
    rw [Store.run_deleteCommand] at hdelete
    exact hdelete
  | none =>
    have hnone : k = key → maker = none := by
      rintro rfl
      have hstored := h.stored
      rw [Store.kind?, Store.erase?_eq_none_iff.mp he] at hstored
      simpa using hstored.symm
    refine h.congr rfl fun w => ?_
    rw [Registry.ofWidget_forget, h.listener]
    split
    · next hkey =>
      rw [hnone hkey]
      rfl
    · rfl

/-- An edit that gives no listener. -/
theorem edit {L : Listener → Listener → Prop} (hL : ∀ l k, ¬L l k) {f g : Scene → Edit}
    (hfg : EditPair L f g) (h : Tended key maker x) (hk : x.store.Keyed) {c : Change Listener}
    (hc : c.listener? = none) :
    Tended key ((f x).commands.foldl (Origin.queue key) ⟨some c, maker⟩).maker (f x).scene := by
  cases hfg with
  | create o ho => exact h.create ho hc
  | createButton _ hl => exact absurd hl (hL _ _)
  | createSlider _ hl => exact absurd hl (hL _ _)
  | update u f hrun hwrite =>
    have hstore := hrun x.store
    cases hf : f x.store with
    | none => simpa [Scene.update, hf] using h
    | some store =>
      have hkeeps : u.replaces key = false := by
        cases u <;> simp_all [Command.isWrite, Command.replaces]
      rw [hf, Option.getD_some] at hstore
      simp only [Scene.update, hf, List.foldl_cons, List.foldl_nil,
        Origin.queue_of_not_replaces hkeeps]
      refine h.congr ?_ fun _ => rfl
      rw [← hstore, Store.kind?_run_of_isWrite _ hwrite]
  | delete k => exact h.deleteKey hk k _
  | deleteElement k =>
    simp only [Scene.deleteElement]
    split
    · exact h.deleteKey hk k _
    · exact h
  | deleteUnder stem =>
    have hdelete := h.deleteAll (x.store.eraseUnder stem).1 (some c)
    rw [Store.eraseUnder, ← Store.eraseAll_eq hk] at hdelete
    exact hdelete
  | clear =>
    refine of_gone (by simp [Scene.clear, Store.kind?]) fun w => ?_
    cases w <;> simp [Scene.clear, Registry.clear, Registry.ofWidget]
  | onDrag _ hl => exact absurd hl (hL _ _)

end Tended

/-! ## All changes -/

namespace Server

variable {key : String} {s t : Server} {p : Event → Bool}

/-- Events of which none calls a change or queues a command leave makers alone. -/
theorem originIn_of_entered (h : Entered p s t)
    (hp : ∀ e, p e → e.queued? = none ∧ ∀ d, e ≠ .called (.change d)) :
    originIn key t.journal.toList = originIn key s.journal.toList := by
  obtain ⟨es, hes, hall⟩ := h
  have huncalled : ∀ d, .called (.change d) ∉ es := fun d hd => (hp _ (hall _ hd)).2 d rfl
  have hqueued : queuedIn es = [] :=
    List.filterMap_eq_nil_iff.mpr fun e he => (hp e (hall e he)).1
  rw [originIn, hes, List.foldl_append, Origin.foldl_next huncalled, hqueued]
  rfl

theorem originIn_edit (s : Server) (f : Scene → Edit) :
    originIn key (s.edit f).journal.toList =
      (f s.scene).commands.foldl (Origin.queue key) (originIn key s.journal.toList) := by
  obtain ⟨es, hes, hall, hqueued⟩ := journal_edit s f
  have huncalled : ∀ d, .called (.change d) ∉ es := fun d hd => nomatch hall _ hd
  rw [originIn, hes, List.foldl_append, Origin.foldl_next huncalled, hqueued]
  rfl

/-- A server that is making a change, and tends what is under the key. -/
structure Making (key : String) (c : Change Listener) (s : Server) : Prop where
  keyed : s.scene.store.Keyed
  latest : (originIn key s.journal.toList).latest = some c
  tended : Tended key (makerIn key s.journal.toList) s.scene

theorem Making.origin {c : Change Listener} (h : Making key c s) :
    originIn key s.journal.toList = ⟨some c, makerIn key s.journal.toList⟩ := by
  rw [← h.latest]
  rfl

/-- What an edit comes to, if it tends what is under the key. -/
theorem Making.tended_edit {c : Change Listener} (h : Making key c s) {f : Scene → Edit}
    (hf : Tended key ((f s.scene).commands.foldl (Origin.queue key)
      ⟨some c, makerIn key s.journal.toList⟩).maker (f s.scene).scene) :
    Tended key (makerIn key (s.edit f).journal.toList) (s.edit f).scene := by
  rw [makerIn, originIn_edit, h.origin, scene_edit]
  exact hf

theorem keptByEdits_making {L : Listener → Listener → Prop} (hL : ∀ l k, ¬L l k)
    {c : Change Listener} (hc : c.listener? = none) :
    KeptByEdits L fun s t => s = t ∧ Making key c s where
  host h := by rw [h.1]
  store h := by rw [h.1]
  note {s t} n h := by
    obtain ⟨rfl, h⟩ := h
    have horigin : originIn key (s.note n).journal.toList = originIn key s.journal.toList := by
      rw [originIn, toList_journal_note, List.foldl_append]
      rfl
    refine ⟨rfl, h.keyed, by rw [horigin, h.latest], ?_⟩
    rw [makerIn, horigin]
    exact h.tended
  edit {s t f g} hfg h := by
    obtain ⟨rfl, h⟩ := h
    have heq : f = g := by
      cases hfg <;> first | rfl | exact absurd ‹L _ _› (hL _ _)
    refine ⟨congrArg s.edit heq, ?_, ?_, h.tended_edit (h.tended.edit hL hfg h.keyed hc)⟩
    · rw [scene_edit, hfg.store_eq h.keyed]
      exact h.keyed.runAll _
    · rw [originIn_edit, Origin.latest_foldl_queue, h.latest]

/-- A change that is called tends what is under the key. -/
theorem tended_change (hk : s.scene.store.Keyed)
    (h : Tended key (makerIn key s.journal.toList) s.scene) (c : Change Listener) :
    Tended key (makerIn key ((s.emit (.called (.change c))).change c).2.journal.toList)
      ((s.emit (.called (.change c))).change c).2.scene := by
  have horigin : originIn key (s.emit (.called (.change c))).journal.toList =
      ⟨some c, makerIn key s.journal.toList⟩ := by
    rw [originIn, toList_journal_emit, List.foldl_append]
    rfl
  have hmaking : Making key c (s.emit (.called (.change c))) := by
    refine ⟨hk, by rw [horigin], ?_⟩
    rw [makerIn, horigin]
    exact h
  cases hc : c.listener? with
  | none =>
    have hkept : KeptByEdits (fun _ _ => False) fun s t => s = t ∧ Making key c s :=
      keptByEdits_making (fun _ _ h => h) hc
    exact (hkept.change (.plain c hc) ⟨rfl, hmaking⟩).2.2.tended
  | some l =>
    cases c with
    | createButton b l => exact hmaking.tended_edit (hmaking.tended.createButton b l)
    | createSlider b l => exact hmaking.tended_edit (hmaking.tended.createSlider b l)
    | onDrag k l =>
      exact hmaking.tended_edit (hmaking.tended.congr rfl fun w => by cases w <;> rfl)
    | _ => cases hc

/-! ## Reachable servers -/

/-- What a viewer reports is written to objects that are there. -/
theorem kind?_record (scene : Scene) (m : ViewerMessage) (key : String) :
    (scene.record m).store.kind? key = scene.store.kind? key := by
  rw [Scene.store_record]
  cases m with
  | drag k pos => exact Store.kind?_run_of_isWrite _ (c := .set .position k pos) rfl key
  | sliderSetValue k x => exact Store.kind?_run_of_isWrite _ (c := .setSlider .value k x) rfl key
  | keydown _ | keyup _ | screenResize _ | buttonClick _ => rfl

theorem Calm.tended (h : Calm s t) (htended : Tended key (makerIn key s.journal.toList) s.scene) :
    Tended key (makerIn key t.journal.toList) t.scene := by
  rw [makerIn, originIn_of_entered h.entered fun _ => Event.uncalled_of_isCalm]
  rcases h.scene with hscene | ⟨signal, l, hscene⟩ | ⟨m, hscene⟩
  · rw [hscene]
    exact htended
  · rw [hscene]
    exact htended.congr rfl fun w => by cases signal <;> cases w <;> rfl
  · rw [hscene]
    exact htended.congr (kind?_record s.scene m key) fun _ => rfl

theorem Act.tended (h : Act s t) (hs : s.Sound)
    (htended : Tended key (makerIn key s.journal.toList) s.scene) :
    Tended key (makerIn key t.journal.toList) t.scene := by
  rcases h.sorts with ⟨c, rfl⟩ | ⟨c, rfl⟩ | hcalm
  · exact tended_change hs.keyed htended c
  · have hcall : Calm s (s.emit (.called (.hear (.connect c)))) :=
      .of_scene rfl (entered_emit s rfl)
    obtain ⟨es, hgreet⟩ := handed_greet (s.emit (.called (.hear (.connect c)))) c
    rw [makerIn, originIn_of_entered (entered_greet _ c) fun _ => Event.uncalled_of_isGreeting,
      hgreet.scene]
    exact hcall.tended htended
  · exact hcalm.tended htended

theorem tended_of_acts (h : ReflTransGen Act s t) (hs : s.Sound)
    (htended : Tended key (makerIn key s.journal.toList) s.scene) :
    Tended key (makerIn key t.journal.toList) t.scene := by
  induction h with
  | refl => exact htended
  | tail h ha ih => exact ha.tended (sound_of_acts hs h) ih

end Server

theorem Machine.Reachable.tended {config : Config} {host : Host} {m : Machine}
    (h : m.Reachable config host) (key : String) :
    Tended key (makerIn key m.server.journal.toList) m.server.scene := by
  have hnew : Tended key none (Server.new config host).scene := by
    refine .of_gone (by simp [Server.new, Store.kind?, Store.get?]) fun w => ?_
    cases w <;> simp [Server.new, Registry.ofWidget]
  exact Server.tended_of_acts (acts_of_next (onDuty_new config host) h).1
    (Server.sound_new config host) hnew

/-- A listener is registered for a widget if and only if the call that has created the object under
the key created a widget of this sort there, with this listener. -/
theorem Tended.ofWidget_eq_some_iff {key : String} {es : List Event} {scene : Scene}
    (h : Tended key (makerIn key es) scene) (w : Widget) (l : Listener) :
    (scene.registry.ofWidget w)[key]? = some l ↔
      ∃ c, c.widget? = some (w, key, l) ∧ CreatedBy key c es := by
  have hgiven : ∀ c : Change Listener, c.given? key w = some l ↔ c.widget? = some (w, key, l) := by
    intro c
    rw [Change.given?, Option.bind_eq_some_iff]
    constructor
    · rintro ⟨⟨w', k, l'⟩, hc, hl⟩
      by_cases hwk : w' = w ∧ k = key
      · obtain ⟨rfl, rfl⟩ := hwk
        obtain rfl : l' = l := Option.some.inj ((if_pos ⟨rfl, rfl⟩).symm.trans hl)
        exact hc
      · exact absurd ((if_neg hwk).symm.trans hl) nofun
    · intro hc
      exact ⟨_, hc, if_pos ⟨rfl, rfl⟩⟩
  rw [h.listener, Option.bind_eq_some_iff]
  simp only [hgiven, makerIn_eq_some_iff, and_comm]

/-- The change that has created a button under the key, with this listener. -/
theorem Change.widget?_eq_button_iff {c : Change Listener} {key : String} {l : Listener} :
    c.widget? = some (.button, key, l) ↔ ∃ b, b.key = key ∧ c = .createButton b l := by
  cases c <;> simp [widget?]

/-- The change that has created a slider under the key, with this listener. -/
theorem Change.widget?_eq_slider_iff {c : Change Listener} {key : String} {l : Listener} :
    c.widget? = some (.slider, key, l) ↔ ∃ b, b.key = key ∧ c = .createSlider b l := by
  cases c <;> simp [widget?]

/-- Callbacks live exactly as long as their widgets. However a server has come about, every object
stands under its own key; a listener to clicks is registered under a key if and only if a button
stands there, and it is the one given to the call that has created this button; and likewise for
listeners to changes and sliders. -/
theorem widgets_keep_listeners {config : Config} {host : Host} {m : Machine}
    (h : m.Reachable config host) (key : String) :
    (∀ o, m.server.scene.store.get? key = some o → o.key = key) ∧
    (m.server.scene.registry.click[key]?.isSome ↔
      m.server.scene.store.kind? key = some .button) ∧
    (m.server.scene.registry.change[key]?.isSome ↔
      m.server.scene.store.kind? key = some .slider) ∧
    (∀ l, m.server.scene.registry.click[key]? = some l ↔
      ∃ b, b.key = key ∧ CreatedBy key (.createButton b l) m.server.journal.toList) ∧
    (∀ l, m.server.scene.registry.change[key]? = some l ↔
      ∃ b, b.key = key ∧ CreatedBy key (.createSlider b l) m.server.journal.toList) := by
  have htended := h.tended key
  refine ⟨fun o => h.sound.keyed key o, ?_, ?_, fun l => ?_, fun l => ?_⟩
  · exact (htended.listener .button ▸ htended.kind .button).symm
  · exact (htended.listener .slider ▸ htended.kind .slider).symm
  · refine (htended.ofWidget_eq_some_iff .button l).trans ?_
    simp only [Change.widget?_eq_button_iff]
    grind
  · refine (htended.ofWidget_eq_some_iff .slider l).trans ?_
    simp only [Change.widget?_eq_slider_iff]
    grind

/-- A button to press. -/
def Button.go : Button := ⟨"go", "Go", ⟨IVec2.zero, IVec2.zero⟩⟩

/-- Listeners to its clicks, told apart by name. -/
def Listener.first : Listener := .steady (.str "first") [] false

@[inherit_doc Listener.first]
def Listener.second : Listener := .steady (.str "second") [] false

namespace Machine

/-- It has created a button. -/
def creating : Machine :=
  run (ofCall (.new ⟨false, true⟩ .blank) (.change (.createButton .go .first))) 3

/-- It has put another one in its place. -/
def replacing : Machine :=
  run (ofCall creating.server (.change (.createButton .go .second))) 3

theorem reachable_replacing : replacing.Reachable ⟨false, true⟩ .blank := by
  have hcreating : creating.Reachable ⟨false, true⟩ .blank :=
    Reachable.callRun (m := ⟨.new ⟨false, true⟩ .blank, []⟩) .refl rfl _ 3
  exact hcreating.callRun rfl _ 3

end Machine

/-- The second button comes with its own listener, and the first listener is forgotten. -/
theorem widgets_keep_listeners_replaced :
    Machine.replacing.Reachable ⟨false, true⟩ .blank ∧
      Machine.replacing.server.scene.registry.click["go"]? = some .second ∧
      Machine.replacing.server.scene.store.kind? "go" = some .button := by
  obtain ⟨-, hbutton, -, hclick, -⟩ :=
    widgets_keep_listeners Machine.reachable_replacing "go"
  have hsecond : Machine.replacing.server.scene.registry.click["go"]? = some .second := by
    rw [hclick]
    refine ⟨.go, rfl, [.called (.change (.createButton .go .first)),
      .queued (.create (.button .go)), .returned .nothing], [], [.returned .nothing],
      .button .go, ?_, rfl, by simp, by simp [queuedIn, Event.queued?]⟩
    rfl
  refine ⟨Machine.reachable_replacing, hsecond, ?_⟩
  rw [← hbutton, hsecond]
  rfl

end LiveScene
