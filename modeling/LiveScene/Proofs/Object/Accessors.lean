import LiveScene.Command.Text
import LiveScene.Proofs.Object.Attributes
import LiveScene.Proofs.Store.Backlog

/-!
# Laws of attributes

Writing an attribute leaves an object and says whether it has been written (`SceneObject.write`). An
attribute can be written where it can be read, but for the null scale of a line
(`Kind.writable_iff`). Then it reads as it was written, a second write hides the first
(`SceneObject.set?_set?`), what is read may be written back without effect
(`SceneObject.set?_of_get?`), and of the fields of the command that creates the object only those
differ in which the attribute is kept (`Attribute.fields`, `SceneObject.get?_record_of_set?`).
`accessors_lawful` has all of this together. That nothing else changes does not rest on the text of
numbers alone, in which all that are not finite look the same: writing the old value back restores
the object itself.
-/

namespace LiveScene

/-- The fields of objects of a kind in which an attribute is kept. -/
def Attribute.fields : Attribute → Kind → List String
  | .position, _ => ["pos"]
  | .rotation, _ => ["euler"]
  | .color, _ => ["color"]
  | .scale, .box => ["size"]
  | .scale, .sphere => ["radius"]
  | .scale, .capsule => ["radius", "height"]
  | .scale, _ => ["scale"]

/-- What can be written can be read, and the null scale of a line is all that can only be read. -/
theorem Kind.writable_iff (o : SceneObject) (a : Attribute) :
    o.kind.writable a = true ↔ (o.get? a).isSome ∧ ¬(o.kind = .line ∧ a = .scale) := by
  cases o <;> cases a <;> simp [SceneObject.kind, writable, SceneObject.get?]

namespace SceneObject

variable {o o' : SceneObject} {a : Attribute} {v w : Vec3}

/-- Of two writes of an attribute the second hides the first. -/
theorem set?_set? (h : o.set? v a = some o') (w : Vec3) : o'.set? w a = o.set? w a := by
  cases o <;> cases a <;> simp only [set?, Option.some.injEq, reduceCtorEq] at h <;> subst h <;> rfl

/-- An object that is written what is read of it stays as it is. -/
theorem set?_of_get? (hw : o.get? a = some w) (ha : o.kind.writable a = true) :
    o.set? w a = some o := by
  cases o <;> cases a <;> simp only [kind, Kind.writable, get?, Option.some.injEq, reduceCtorEq,
    decide_eq_true_eq, ne_eq] at hw ha <;> subst hw <;> rfl

/-- Every field of the command that creates the object stays as it is, but for those in which the
attribute is kept. -/
theorem get?_record_of_set? (h : o.set? v a = some o') {name : String}
    (hname : name ∉ a.fields o.kind) :
    o'.createCommand.record.get? name = o.createCommand.record.get? name := by
  have hne : ∀ f ∈ a.fields o.kind, f ≠ name := fun f hf hfn => hname (hfn ▸ hf)
  cases o <;> cases a <;> simp only [set?, Option.some.injEq, reduceCtorEq] at h <;> subst h <;>
    simp [Attribute.fields, kind] at hne <;>
    simp [hne, kind, createCommand, Command.record, Command.opcode,
      Command.values, Schema.record, Opcode.schema, Opcode.fields, Kind.fields, values, Json.get?,
      Json.membersNamed, List.filter_cons]

/-! ## Writing -/

/-- The object after an attribute has been written, and whether that has been done. -/
def write (o : SceneObject) (v : Vec3) (a : Attribute) : SceneObject × Bool :=
  match o.set? v a with
  | some o' => (o', true)
  | none => (o, false)

theorem write_of_set? (h : o.set? v a = some o') : o.write v a = (o', true) := by
  rw [write, h]

theorem write_of_not_writable (h : o.kind.writable a = false) (v : Vec3) :
    o.write v a = (o, false) := by
  have hnone : o.set? v a = none := by
    rw [← Option.not_isSome_iff_eq_none, isSome_set?, h]
    simp
  rw [write, hnone]

/-- An attribute that can be written is, and the object is told by the value. -/
theorem exists_set? (h : o.kind.writable a = true) (v : Vec3) : ∃ o', o.set? v a = some o' :=
  Option.isSome_iff_exists.mp ((isSome_set? o a v).trans h)

theorem snd_write (o : SceneObject) (v : Vec3) (a : Attribute) :
    (o.write v a).2 = o.kind.writable a := by
  rw [← isSome_set? o a v, write]
  cases o.set? v a <;> rfl

/-- What is read may be written back, at once or after something else has been written. -/
theorem write_back (hw : o.get? a = some w) (v : Vec3) :
    (o.write w a).1 = o ∧ ((o.write v a).1.write w a).1 = o := by
  cases ha : o.kind.writable a with
  | false => simp only [write_of_not_writable ha, and_self]
  | true =>
    obtain ⟨o', ho'⟩ := exists_set? ha v
    have hback := set?_of_get? hw ha
    have hagain : o'.set? w a = some o := (set?_set? ho' w).trans hback
    simp only [write_of_set? hback, write_of_set? ho', write_of_set? hagain, and_self]

end SceneObject

namespace Store

variable {s : Store} {key : String} {o : SceneObject}

/-- A store writes the object under a key, and tells of it by a command if that has been done. -/
theorem get?_run_set (h : s.get? key = some o) (v : Vec3) (a : Attribute) :
    (s.run (.set a key v)).get? key = some (o.write v a).1 ∧
      (s.set? a key v).isSome = (o.write v a).2 := by
  constructor
  · rw [get?_run, h]
    simp only [Command.effect, Command.key?, if_true, Option.map_some, Command.rewrite,
      SceneObject.write]
    cases o.set? v a <;> rfl
  · simp only [set?, modify?, h, SceneObject.write, Option.bind_eq_bind, Option.bind_some]
    cases o.set? v a <;> rfl

end Store

/-- Attributes of every object obey the laws of accessors. An attribute can be written exactly where
it can be read, except the scale of a line, which reads as null. Where it is not written the object
stays as it is. Where it is, it reads as it was written, all other attributes read as before, kind
and key stay, and so does every field of the command that creates the object in which the attribute
is not kept; and a second write makes the first irrelevant. Writing back what has been read leaves
the object exactly as it was, and restores it after any other value has been written. All this is
what a store does with the object under a key. -/
theorem accessors_lawful (o : SceneObject) (a : Attribute) (v : Vec3) :
    ((o.write v a).2 = true ↔ (o.get? a).isSome ∧ ¬(o.kind = .line ∧ a = .scale)) ∧
    (o.kind = .line → o.get? .scale = some Vec3.zero) ∧
    ((o.write v a).2 = false → (o.write v a).1 = o) ∧
    ((o.write v a).2 = true →
      (o.write v a).1.get? a = some (o.readBack v a) ∧
      (∀ b, b ≠ a → (o.write v a).1.get? b = o.get? b) ∧
      (o.write v a).1.kind = o.kind ∧ (o.write v a).1.key = o.key ∧
      (∀ name, name ∉ a.fields o.kind →
        (o.write v a).1.createCommand.record.get? name = o.createCommand.record.get? name) ∧
      ∀ w, (o.write v a).1.write w a = o.write w a) ∧
    (∀ w, o.get? a = some w → (o.write w a).1 = o ∧ ((o.write v a).1.write w a).1 = o) ∧
    ∀ (s : Store) (key : String), s.get? key = some o →
      (s.run (.set a key v)).get? key = some (o.write v a).1 ∧
        (s.set? a key v).isSome = (o.write v a).2 := by
  rw [SceneObject.snd_write]
  refine ⟨Kind.writable_iff o a, fun hline => ?_, fun ha => ?_, fun ha => ?_,
    fun w hw => SceneObject.write_back hw v, fun s key hs => ?_⟩
  · cases o <;> first | rfl | cases hline
  · rw [SceneObject.write_of_not_writable ha]
  · obtain ⟨o', ho'⟩ := SceneObject.exists_set? ha v
    rw [SceneObject.write_of_set? ho']
    refine ⟨?_, fun b hb => ?_, SceneObject.kind_of_set? ho', SceneObject.key_of_set? ho',
      fun name hname => SceneObject.get?_record_of_set? ho' hname, fun w => ?_⟩
    · rw [SceneObject.get?_of_set? ho', if_pos rfl]
    · rw [SceneObject.get?_of_set? ho', if_neg hb]
    · rw [SceneObject.write, SceneObject.write, SceneObject.set?_set? ho']
      obtain ⟨o'', ho''⟩ := SceneObject.exists_set? ha w
      rw [ho'']
  · rw [← SceneObject.snd_write o v a]
    exact Store.get?_run_set hs v a

/-- A capsule. -/
def Capsule.pill : Capsule := ⟨"pill", 1, 3, Vec3.zero, Vec3.zero, defaultObjectColor, {}⟩

/-- A capsule keeps two of three components of its scale, and nothing else of it changes. -/
theorem accessors_lawful_pill :
    let pill := SceneObject.capsule .pill
    (pill.write ⟨2, 5, 4⟩ .scale).2 = true ∧
      (pill.write ⟨2, 5, 4⟩ .scale).1.get? .scale = some ⟨2, 2, 4⟩ ∧
      (pill.write ⟨2, 5, 4⟩ .scale).1.get? .color = pill.get? .color ∧
      (pill.write ⟨2, 5, 4⟩ .scale).1.createCommand.record.get? "pos" =
        pill.createCommand.record.get? "pos" ∧
      ((pill.write ⟨2, 5, 4⟩ .scale).1.write ⟨1, 1, 3⟩ .scale).1 = pill := by
  obtain ⟨-, -, -, hwritten, hback, -⟩ := accessors_lawful (.capsule .pill) .scale ⟨2, 5, 4⟩
  obtain ⟨hread, hothers, -, -, hfields, -⟩ := hwritten rfl
  exact ⟨rfl, hread, hothers .color (by decide), hfields "pos" (by decide),
    (hback ⟨1, 1, 3⟩ rfl).2⟩

end LiveScene
