import LiveScene.Object.Basic

/-!
# Attributes read and written

Whether an attribute can be written depends on the kind of an object alone (`isSome_set?`). What is
read back of it then is what was written, but for the scales of spheres and capsules, which keep
only the components that they have (`SceneObject.readBack`); and all other attributes are read as
before (`get?_of_set?`).
-/

namespace LiveScene

/-- Whether an attribute of objects of a kind can be written. -/
def Kind.writable : Kind → Attribute → Bool
  | .box, _ | .capsule, _ | .mesh, _ => true
  | .sphere, a => a ≠ .rotation
  | .line, a => a = .color
  | .texture, _ | .text, _ | .button, _ | .slider, _ | .plot, _ => false

namespace SceneObject

variable {o o' : SceneObject} {a b : Attribute} {v : Vec3}

theorem get?_rotation_of_kind (h : o.kind = .sphere) : o.get? .rotation = none := by
  cases o <;> simp_all [kind, get?]

theorem isSome_set? (o : SceneObject) (a : Attribute) (v : Vec3) :
    (o.set? v a).isSome = o.kind.writable a := by
  cases o <;> cases a <;> rfl

/-- What is read of an attribute after a vector has been written to it. -/
def readBack (o : SceneObject) (v : Vec3) (a : Attribute) : Vec3 :=
  match o, a with
  | sphere _, .scale => Vec3.splat v.x
  | capsule _, .scale => ⟨v.x, v.x, v.z⟩
  | _, _ => v

/-- The attribute that has been written reads accordingly, and all others as before. -/
theorem get?_of_set? (h : o.set? v a = some o') (b : Attribute) :
    o'.get? b = if b = a then some (o.readBack v a) else o.get? b := by
  cases o <;> cases a <;> simp only [set?, Option.some.injEq, reduceCtorEq] at h <;> subst h <;>
    cases b <;> rfl

end SceneObject

end LiveScene
