import LiveScene.Server.Scene
import Mathlib.Data.List.Forall2

/-!
# Who listens

What each operation of the registry does to the listeners of every occasion (`listeners_add`,
`listeners_addDrag`, `listeners_setClick`, `listeners_setChange`, `listeners_forget`,
`listeners_clear`). The occasions concerned are told by the signal or the key they are about.

Two registries are `Registry.Alike` when on every occasion the listeners of one correspond to those
of the other, in the same order. Every operation with corresponding listeners keeps that.
-/

namespace LiveScene

namespace Occasion

/-- The signal that an occasion is, if it has no key. -/
def signal? : Occasion → Option Signal
  | connection => some .connection
  | shutdown => some .shutdown
  | message (.keydown _) => some .keydown
  | message (.keyup _) => some .keyup
  | message (.screenResize _) => some .screenResize
  | _ => none

/-- The key that is dragged. -/
def dragged? : Occasion → Option String
  | message (.drag key _) => some key
  | _ => none

/-- The key of the button that is clicked. -/
def clicked? : Occasion → Option String
  | message (.buttonClick key) => some key
  | _ => none

/-- The key of the slider that is moved. -/
def moved? : Occasion → Option String
  | message (.sliderSetValue key _) => some key
  | _ => none

/-- Whether the listeners of an occasion outlive a clearing. -/
def isLasting : Occasion → Bool
  | connection | shutdown => true
  | message _ => false

end Occasion

namespace Registry

variable (r : Registry) (key : String) (l : Listener) (o : Occasion)

/-! ## Listeners after an operation -/

theorem listeners_empty : ({} : Registry).listeners o = [] := by
  cases o with
  | message m => cases m <;> simp [listeners, dragListeners]
  | connection | shutdown => rfl

theorem listeners_add (s : Signal) :
    (r.add s l).listeners o =
      if o.signal? = some s then r.listeners o ++ [l] else r.listeners o := by
  cases s <;> cases o with
  | message m => cases m <;> simp [add, listeners, Occasion.signal?, dragListeners]
  | connection | shutdown => simp [add, listeners, Occasion.signal?]

theorem listeners_addDrag :
    (r.addDrag key l).listeners o =
      if o.dragged? = some key then r.listeners o ++ [l] else r.listeners o := by
  cases o with
  | message m =>
    cases m with
    | drag k pos =>
      simp only [listeners, dragListeners_addDrag, Occasion.dragged?, Option.some.injEq]
      by_cases h : key = k
      · subst h
        simp
      · simp [h, Ne.symm h]
    | keydown _ | keyup _ | screenResize _ | buttonClick _ | sliderSetValue _ _ =>
      simp [addDrag, listeners, Occasion.dragged?]
  | connection | shutdown => simp [addDrag, listeners, Occasion.dragged?]

theorem listeners_setClick :
    (r.setClick key l).listeners o = if o.clicked? = some key then [l] else r.listeners o := by
  cases o with
  | message m =>
    cases m with
    | buttonClick k =>
      by_cases h : key = k
      · subst h
        simp [setClick, listeners, Occasion.clicked?]
      · simp [setClick, listeners, Occasion.clicked?, Std.ExtTreeMap.getElem?_insert, h, Ne.symm h]
    | keydown _ | keyup _ | screenResize _ | drag _ _ | sliderSetValue _ _ =>
      simp [setClick, listeners, Occasion.clicked?, dragListeners]
  | connection | shutdown => simp [setClick, listeners, Occasion.clicked?]

theorem listeners_setChange :
    (r.setChange key l).listeners o = if o.moved? = some key then [l] else r.listeners o := by
  cases o with
  | message m =>
    cases m with
    | sliderSetValue k x =>
      by_cases h : key = k
      · subst h
        simp [setChange, listeners, Occasion.moved?]
      · simp [setChange, listeners, Occasion.moved?, Std.ExtTreeMap.getElem?_insert, h, Ne.symm h]
    | keydown _ | keyup _ | screenResize _ | drag _ _ | buttonClick _ =>
      simp [setChange, listeners, Occasion.moved?, dragListeners]
  | connection | shutdown => simp [setChange, listeners, Occasion.moved?]

theorem listeners_forget :
    (r.forget key).listeners o =
      if o.clicked? = some key ∨ o.moved? = some key then [] else r.listeners o := by
  cases o with
  | message m =>
    cases m with
    | buttonClick k | sliderSetValue k _ =>
      by_cases h : key = k
      · subst h
        simp [forget, listeners, Occasion.clicked?, Occasion.moved?]
      · simp [forget, listeners, Occasion.clicked?, Occasion.moved?,
          Std.ExtTreeMap.getElem?_erase, h, Ne.symm h]
    | keydown _ | keyup _ | screenResize _ | drag _ _ =>
      simp [forget, listeners, Occasion.clicked?, Occasion.moved?, dragListeners]
  | connection | shutdown => simp [forget, listeners, Occasion.clicked?, Occasion.moved?]

theorem listeners_clear :
    r.clear.listeners o = if o.isLasting then r.listeners o else [] := by
  cases o with
  | message m => cases m <;> simp [clear, listeners, Occasion.isLasting, dragListeners]
  | connection | shutdown => rfl

/-! ## Registries that correspond -/

variable {r key l o} {L : Listener → Listener → Prop} {r' : Registry} {k : Listener}

/-- On every occasion the listeners correspond, in order. -/
def Alike (L : Listener → Listener → Prop) (r r' : Registry) : Prop :=
  ∀ o, List.Forall₂ L (r.listeners o) (r'.listeners o)

theorem alike_empty : Alike L {} {} := by
  intro o
  rw [listeners_empty]
  exact .nil

theorem Alike.add (h : Alike L r r') (s : Signal) (hl : L l k) :
    Alike L (r.add s l) (r'.add s k) := by
  intro o
  rw [listeners_add, listeners_add]
  split
  · exact List.rel_append (h o) (.cons hl .nil)
  · exact h o

theorem Alike.addDrag (h : Alike L r r') (key : String) (hl : L l k) :
    Alike L (r.addDrag key l) (r'.addDrag key k) := by
  intro o
  rw [listeners_addDrag, listeners_addDrag]
  split
  · exact List.rel_append (h o) (.cons hl .nil)
  · exact h o

theorem Alike.setClick (h : Alike L r r') (key : String) (hl : L l k) :
    Alike L (r.setClick key l) (r'.setClick key k) := by
  intro o
  rw [listeners_setClick, listeners_setClick]
  split
  · exact .cons hl .nil
  · exact h o

theorem Alike.setChange (h : Alike L r r') (key : String) (hl : L l k) :
    Alike L (r.setChange key l) (r'.setChange key k) := by
  intro o
  rw [listeners_setChange, listeners_setChange]
  split
  · exact .cons hl .nil
  · exact h o

theorem Alike.forget (h : Alike L r r') (key : String) :
    Alike L (r.forget key) (r'.forget key) := by
  intro o
  rw [listeners_forget, listeners_forget]
  split
  · exact .nil
  · exact h o

theorem Alike.clear (h : Alike L r r') : Alike L r.clear r'.clear := by
  intro o
  rw [listeners_clear, listeners_clear]
  split
  · exact h o
  · exact .nil

end Registry

end LiveScene
