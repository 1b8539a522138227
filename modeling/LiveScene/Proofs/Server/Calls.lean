import Mathlib.Data.List.DropRight
import LiveScene.Proofs.Server.Dispatch
import LiveScene.Proofs.Server.Listeners

/-!
# Calls in the journal

The journal tells which calls were taken up, in order, nested ones included (`callsIn`), and so
which listeners they have registered since the scene was last cleared (`registeredIn`,
`sinceClear`), what viewers have reported last of a key and of the screen (`lastPress?`,
`lastSize?`), and, together with the objects that were deleted, which keys may be dragged
(`MarkedIn`).

A scene is as some events tell (`Scene.Accords`) if all this is what it has. That goes on when a
call is taken up and has its effect at once (`Scene.heed`), and when anything else happens that
leaves all of it alone, but for the marks of keys whose objects are deleted (`Scene.Retains`).

Listeners of buttons and sliders are not told in this way, since they go with their objects.
-/

namespace LiveScene

/-! ## Calls in the journal -/

namespace Event

/-- The call that an event takes up. -/
def call? : Event → Option Call
  | called c => some c
  | _ => none

/-- Whether an event takes up a clearing of the scene. -/
def isClear : Event → Bool
  | called (.change .clear) => true
  | _ => false

end Event

/-- The calls that are taken up in some events, in order. -/
def callsIn (es : List Event) : List Call := es.filterMap Event.call?

/-- What has happened since the scene was cleared the last time, or ever if it never was. -/
def sinceClear (es : List Event) : List Event := es.rtakeWhile (!·.isClear)

/-- The listener that a call registers for an occasion. -/
def Call.listener? (o : Occasion) : Call → Option Listener
  | .on signal l => if o.signal? = some signal then some l else none
  | .change (.onDrag key l) => if o.dragged? = some key then some l else none
  | _ => none

/-- The listeners that some events register for an occasion, in order. -/
def registeredIn (o : Occasion) (es : List Event) : List Listener :=
  (callsIn es).filterMap (Call.listener? o)

/-- The message of a viewer that a call takes up. -/
def Call.message? : Call → Option ViewerMessage
  | .hear i => i.message?
  | _ => none

/-- The messages of viewers that some events take up, in order. -/
def messagesIn (es : List Event) : List ViewerMessage := (callsIn es).filterMap Call.message?

namespace ViewerMessage

/-- Whether a key is reported to go down, or up. -/
def press? (key : String) : ViewerMessage → Option Bool
  | keydown k => if k = key then some true else none
  | keyup k => if k = key then some false else none
  | _ => none

/-- The size of the screen that is reported. -/
def size? : ViewerMessage → Option IVec2
  | screenResize size => some size
  | _ => none

end ViewerMessage

/-- Whether the last report of a key is that it goes down, if there is one. -/
def lastPress? (key : String) (es : List Event) : Option Bool :=
  ((messagesIn es).filterMap (·.press? key)).getLast?

/-- The last size of the screen that is reported, if there is one. -/
def lastSize? (es : List Event) : Option IVec2 :=
  ((messagesIn es).filterMap ViewerMessage.size?).getLast?

/-- The keys whose objects are deleted in some events, in order. -/
def deletedIn (es : List Event) : List String := (queuedIn es).filterMap Command.deletes?

/-- A listener to drags of the key is registered, and after that no object is deleted under it. -/
def MarkedIn (key : String) (es : List Event) : Prop :=
  ∃ before l after, es = before ++ .called (.change (.onDrag key l)) :: after ∧
    key ∉ deletedIn after

variable {key : String} {o : Occasion} {es fs : List Event} {e : Event}

@[simp] theorem callsIn_append (es fs : List Event) :
    callsIn (es ++ fs) = callsIn es ++ callsIn fs := by
  simp [callsIn]

@[simp] theorem registeredIn_append (o : Occasion) (es fs : List Event) :
    registeredIn o (es ++ fs) = registeredIn o es ++ registeredIn o fs := by
  simp [registeredIn]

@[simp] theorem messagesIn_append (es fs : List Event) :
    messagesIn (es ++ fs) = messagesIn es ++ messagesIn fs := by
  simp [messagesIn]

@[simp] theorem deletedIn_append (es fs : List Event) :
    deletedIn (es ++ fs) = deletedIn es ++ deletedIn fs := by
  simp [deletedIn]

theorem lastPress?_append (key : String) (es fs : List Event) :
    lastPress? key (es ++ fs) = (lastPress? key fs).or (lastPress? key es) := by
  simp [lastPress?, List.getLast?_append]

theorem lastSize?_append (es fs : List Event) :
    lastSize? (es ++ fs) = (lastSize? fs).or (lastSize? es) := by
  simp [lastSize?, List.getLast?_append]

theorem markedIn_append :
    MarkedIn key (es ++ fs) ↔ MarkedIn key fs ∨ MarkedIn key es ∧ key ∉ deletedIn fs := by
  constructor
  · rintro ⟨before, l, after, heq, hafter⟩
    rcases split_append heq with ⟨ds, rfl, rfl⟩ | ⟨ds, rfl, rfl⟩
    · rw [deletedIn_append, List.mem_append, not_or] at hafter
      exact .inr ⟨⟨before, l, ds, rfl, hafter.1⟩, hafter.2⟩
    · exact .inl ⟨ds, l, after, rfl, hafter⟩
  · rintro (⟨before, l, after, rfl, hafter⟩ | ⟨⟨before, l, after, rfl, hafter⟩, hfs⟩)
    · exact ⟨es ++ before, l, after, by simp, hafter⟩
    · exact ⟨before, l, after ++ fs, by simp, by simp [hafter, hfs]⟩

/-! ## Events without calls -/

theorem sinceClear_concat (es : List Event) (h : e.isClear = false) :
    sinceClear (es ++ [e]) = sinceClear es ++ [e] :=
  List.rtakeWhile_concat_pos _ _ _ (by simp [h])

/-- Without a call, nothing is cleared. -/
theorem sinceClear_append (h : callsIn fs = []) :
    sinceClear (es ++ fs) = sinceClear es ++ fs := by
  induction fs using List.reverseRecOn with
  | nil => simp
  | append_singleton fs e ih =>
    rw [callsIn_append, List.append_eq_nil_iff] at h
    have he : e.isClear = false := by
      cases e <;> simp_all [callsIn, Event.call?, Event.isClear]
    rw [← List.append_assoc, sinceClear_concat _ he, ih h.1, List.append_assoc]

theorem registeredIn_of_uncalled (h : callsIn es = []) : registeredIn o es = [] := by
  simp [registeredIn, h]

theorem lastPress?_of_uncalled (h : callsIn es = []) : lastPress? key es = none := by
  simp [lastPress?, messagesIn, h]

theorem lastSize?_of_uncalled (h : callsIn es = []) : lastSize? es = none := by
  simp [lastSize?, messagesIn, h]

theorem MarkedIn.exists_mem (h : MarkedIn key es) :
    ∃ l, .change (.onDrag key l) ∈ callsIn es := by
  obtain ⟨before, l, after, rfl, -⟩ := h
  exact ⟨l, by simp [callsIn, Event.call?]⟩

theorem not_markedIn_of_uncalled (h : callsIn es = []) : ¬MarkedIn key es := by
  intro hmarked
  obtain ⟨l, hl⟩ := hmarked.exists_mem
  simp [h] at hl

/-! ## Single calls -/

@[simp] theorem sinceClear_clear (es : List Event) :
    sinceClear (es ++ [.called (.change .clear)]) = [] :=
  List.rtakeWhile_concat_neg _ _ _ (by simp [Event.isClear])

theorem sinceClear_call (es : List Event) {c : Call} (h : c ≠ .change .clear) :
    sinceClear (es ++ [.called c]) = sinceClear es ++ [.called c] := by
  refine sinceClear_concat es ?_
  unfold Event.isClear
  split
  · next heq => exact absurd (Event.called.inj heq) h
  · rfl

/-- The calls since the last clearing are told by the calls alone. -/
theorem callsIn_sinceClear (es : List Event) :
    callsIn (sinceClear es) = (callsIn es).rtakeWhile fun c => !(Event.called c).isClear := by
  induction es using List.reverseRecOn with
  | nil => rfl
  | append_singleton es e ih =>
    rw [callsIn_append]
    cases he : e.call? with
    | none =>
      have hnone : callsIn [e] = [] := by simp [callsIn, he]
      rw [sinceClear_append hnone, callsIn_append, hnone, List.append_nil, List.append_nil, ih]
    | some c =>
      have hone : callsIn [e] = [c] := by simp [callsIn, he]
      obtain rfl : e = .called c := by cases e <;> simp_all [Event.call?]
      rw [hone, List.rtakeWhile_concat, sinceClear, List.rtakeWhile_concat, ← sinceClear]
      split
      · rw [callsIn_append, hone, ih]
      · rfl

theorem registeredIn_call (c : Call) : registeredIn o [.called c] = (c.listener? o).toList := by
  cases h : c.listener? o <;> simp [registeredIn, callsIn, Event.call?, h]

theorem lastPress?_call (c : Call) :
    lastPress? key [.called c] = c.message?.bind (·.press? key) := by
  cases h : c.message? with
  | none => simp [lastPress?, messagesIn, callsIn, Event.call?, h]
  | some m =>
    cases hm : m.press? key <;> simp [lastPress?, messagesIn, callsIn, Event.call?, h, hm]

theorem lastSize?_call (c : Call) : lastSize? [.called c] = c.message?.bind (·.size?) := by
  cases h : c.message? with
  | none => simp [lastSize?, messagesIn, callsIn, Event.call?, h]
  | some m => cases hm : m.size? <;> simp [lastSize?, messagesIn, callsIn, Event.call?, h, hm]

theorem markedIn_call (c : Call) :
    MarkedIn key [.called c] ↔ ∃ l, c = .change (.onDrag key l) := by
  constructor
  · rintro ⟨before, l, after, heq, -⟩
    cases before with
    | nil => exact ⟨l, Event.called.inj (List.cons.inj heq).1⟩
    | cons => simp at heq
  · rintro ⟨l, rfl⟩
    exact ⟨[], l, [], rfl, by simp [deletedIn, queuedIn]⟩

/-! ## What a call does at once -/

namespace Input

theorem mem_keysDown_record (i : Input) (m : ViewerMessage) (key : String) :
    key ∈ (i.record m).keysDown ↔
      m.press? key = some true ∨ m.press? key = none ∧ key ∈ i.keysDown := by
  cases m with
  | keydown k =>
    simp only [record, ViewerMessage.press?, Std.ExtTreeSet.mem_insert, Std.compare_eq_iff_eq]
    grind
  | keyup k =>
    simp only [record, ViewerMessage.press?, Std.ExtTreeSet.mem_erase]
    grind
  | screenResize _ | drag _ _ | buttonClick _ | sliderSetValue _ _ =>
    simp [record, ViewerMessage.press?]

theorem screenSize_record (i : Input) (m : ViewerMessage) :
    (i.record m).screenSize = m.size?.getD i.screenSize := by
  cases m <;> rfl

end Input

namespace Scene

/-- What becomes of a scene at once when a call is taken up, as far as it is about listeners but
those of buttons and sliders, about input, and about marks. -/
def heed (x : Scene) : Call → Scene
  | .on signal l => { x with registry := x.registry.add signal l }
  | .change .clear => x.clear.scene
  | .change (.onDrag key l) => (x.onDrag key l).scene
  | .hear i => i.message?.elim x x.record
  | _ => x

/-- What `x` and `y` have in common if nothing happens between them but that the objects under the
keys `gone` are deleted. -/
structure Retains (x y : Scene) (gone : List String) : Prop where
  listeners : ∀ o : Occasion, o.clicked? = none → o.moved? = none →
    y.registry.listeners o = x.registry.listeners o
  input : y.input = x.input
  marks : ∀ key, key ∈ y.store.draggable ↔ key ∈ x.store.draggable ∧ key ∉ gone

theorem Retains.refl (x : Scene) : Retains x x [] := ⟨fun _ _ _ => rfl, rfl, by simp⟩

theorem Retains.trans {x y z : Scene} {gone gone' : List String} (h : Retains x y gone)
    (h' : Retains y z gone') : Retains x z (gone ++ gone') where
  listeners o hc hm := (h'.listeners o hc hm).trans (h.listeners o hc hm)
  input := h'.input.trans h.input
  marks key := by rw [h'.marks, h.marks, List.mem_append, not_or, and_assoc]

/-- A scene is as some events tell, as far as it is about listeners but those of buttons and
sliders, about input, and about marks. -/
structure Accords (x : Scene) (es : List Event) : Prop where
  listeners : ∀ o : Occasion, o.clicked? = none → o.moved? = none →
    x.registry.listeners o = registeredIn o (if o.isLasting then es else sinceClear es)
  keysDown : ∀ key, key ∈ x.input.keysDown ↔ lastPress? key (sinceClear es) = some true
  screenSize : x.input.screenSize = (lastSize? es).getD IVec2.zero
  marks : ∀ key, key ∈ x.store.draggable ↔ MarkedIn key (sinceClear es)

variable {x y : Scene}

theorem accords_nil : Accords {} [] where
  listeners o _ _ := by
    rw [Registry.listeners_empty]
    split <;> rfl
  keysDown := by simp [sinceClear, lastPress?, messagesIn, callsIn]
  screenSize := rfl
  marks key := by
    have hnone : ¬MarkedIn key [] := not_markedIn_of_uncalled rfl
    simpa [sinceClear] using hnone

/-- Without a call, nothing is lost but the marks of keys whose objects are deleted. -/
theorem Accords.retain (h : Accords x es) (hfs : callsIn fs = [])
    (hxy : Retains x y (deletedIn fs)) : Accords y (es ++ fs) where
  listeners o hc hm := by
    rw [hxy.listeners o hc hm, h.listeners o hc hm, sinceClear_append hfs]
    split <;> simp [registeredIn_of_uncalled hfs]
  keysDown key := by
    rw [hxy.input, h.keysDown, sinceClear_append hfs, lastPress?_append,
      lastPress?_of_uncalled hfs, Option.none_or]
  screenSize := by
    rw [hxy.input, h.screenSize, lastSize?_append, lastSize?_of_uncalled hfs, Option.none_or]
  marks key := by
    rw [hxy.marks, h.marks, sinceClear_append hfs, markedIn_append]
    simp [not_markedIn_of_uncalled hfs]

/-! ### A call other than a clearing -/

section

variable {c : Call} (hclear : c ≠ .change .clear)

include hclear

theorem listeners_heed (x : Scene) (o : Occasion) :
    (x.heed c).registry.listeners o = x.registry.listeners o ++ (c.listener? o).toList := by
  unfold heed
  split
  · rw [Registry.listeners_add, Call.listener?]
    split <;> simp
  · exact absurd rfl hclear
  · simp only [Scene.onDrag, Registry.listeners_addDrag, Call.listener?]
    split <;> simp
  · next i => cases i.message? <;> simp [Scene.record, Call.listener?]
  · next hon _ hdrag _ =>
    have hnone : c.listener? o = none := by
      unfold Call.listener?
      split
      · exact absurd rfl (hon _ _)
      · exact absurd rfl (hdrag _ _)
      · rfl
    simp [hnone]

theorem input_heed (x : Scene) : (x.heed c).input = c.message?.elim x.input x.input.record := by
  unfold heed
  split
  · rfl
  · exact absurd rfl hclear
  · rfl
  · next i => cases hm : i.message? <;> simp [Call.message?, Scene.record, hm]
  · next hhear =>
    have hnone : c.message? = none := by
      unfold Call.message?
      split
      · exact absurd rfl (hhear _)
      · rfl
    rw [hnone, Option.elim_none]

theorem mem_draggable_heed (x : Scene) (key : String) :
    key ∈ (x.heed c).store.draggable ↔
      (∃ l, c = .change (.onDrag key l)) ∨ key ∈ x.store.draggable := by
  unfold heed
  split
  · simp
  · exact absurd rfl hclear
  · simp [Scene.onDrag, Store.enableMouse, Std.ExtTreeSet.mem_insert]
  · next i =>
    cases i.message? with
    | none => simp
    | some m =>
      cases m <;> simp [Scene.record, Store.recordPosition, Store.recordSliderValue, Store.set?,
        Store.setSlider?, Store.draggable_modify?_getD]
  · next hdrag _ =>
    exact (or_iff_right (not_exists.mpr (hdrag key))).symm

theorem Accords.heed_of_ne (h : Accords x es) : Accords (x.heed c) (es ++ [.called c]) where
  listeners o hc hm := by
    rw [listeners_heed hclear, h.listeners o hc hm, sinceClear_call es hclear]
    split <;> rw [registeredIn_append, registeredIn_call]
  keysDown key := by
    have hold := h.keysDown key
    rw [input_heed hclear, sinceClear_call es hclear, lastPress?_append, lastPress?_call]
    cases hm : c.message? with
    | none => simpa using hold
    | some m =>
      rw [Option.elim_some, Option.bind_some, Input.mem_keysDown_record, hold]
      cases m.press? key <;> simp
  screenSize := by
    have hold := h.screenSize
    rw [input_heed hclear, lastSize?_append, lastSize?_call]
    cases hm : c.message? with
    | none => simpa using hold
    | some m =>
      rw [Option.elim_some, Option.bind_some, Input.screenSize_record, hold]
      cases m.size? <;> simp
  marks key := by
    have hnone : deletedIn [.called c] = [] := rfl
    rw [mem_draggable_heed hclear, h.marks, sinceClear_call es hclear, markedIn_append,
      markedIn_call, hnone]
    simp

end

/-- A clearing leaves the listeners to connections and shutdowns, and the size of the screen. -/
theorem Accords.heed_clear (h : Accords x es) :
    Accords (x.heed (.change .clear)) (es ++ [.called (.change .clear)]) where
  listeners o hc hm := by
    have hnone : registeredIn o [.called (.change .clear)] = [] := registeredIn_call _
    have hold := h.listeners o hc hm
    simp only [heed, Scene.clear, Registry.listeners_clear, sinceClear_clear]
    split
    · next hlasting => rw [hold, if_pos hlasting, registeredIn_append, hnone, List.append_nil]
    · rfl
  keysDown key := by
    simp [heed, Scene.clear, Input.clear, lastPress?, messagesIn, callsIn]
  screenSize := by
    rw [lastSize?_append, lastSize?_call]
    exact h.screenSize
  marks key := by
    have hnone : ¬MarkedIn key [] := not_markedIn_of_uncalled rfl
    simpa [heed, Scene.clear, Store.empty] using hnone

/-- A call that is taken up has its effect at once. -/
theorem Accords.heed (h : Accords x es) (c : Call) : Accords (x.heed c) (es ++ [.called c]) := by
  by_cases hclear : c = .change .clear
  · rw [hclear]
    exact h.heed_clear
  · exact h.heed_of_ne hclear

end Scene

end LiveScene
