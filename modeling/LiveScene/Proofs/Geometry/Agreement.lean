import Mathlib
import LiveScene.Geometry.Vector

/-!
# Vectors that agree

Two vectors agree if they are the same or do not differ as numbers (`Vec3.Agrees`). Then they differ
from the same vectors (`Vec3.Agrees.differs_eq`), since equality of doubles is transitive. It is not
reflexive: a vector does not differ from itself only if no component is a NaN
(`Vec3.IsNumeric.not_differs_self`).
-/

namespace LiveScene.Vec3

variable {u v : Vec3}

/-- No component is a NaN. -/
def IsNumeric (v : Vec3) : Prop := v.x.isNaN = false ∧ v.y.isNaN = false ∧ v.z.isNaN = false

instance : Decidable v.IsNumeric := inferInstanceAs (Decidable (_ ∧ _ ∧ _))

/-- The vectors are the same or do not differ as numbers. -/
def Agrees (u v : Vec3) : Prop := u = v ∨ u.differs v = false

theorem Agrees.refl (v : Vec3) : v.Agrees v := Or.inl rfl

theorem not_differs_iff : u.differs v = false ↔
    (u.x == v.x) = true ∧ (u.y == v.y) = true ∧ (u.z == v.z) = true := by
  simp [differs, bne, and_assoc]

/-- Vectors that agree differ from the same ones. -/
theorem Agrees.differs_eq (h : u.Agrees v) (w : Vec3) : u.differs w = v.differs w := by
  rcases h with rfl | h
  · rfl
  · obtain ⟨hx, hy, hz⟩ := not_differs_iff.1 h
    rw [differs, differs, bne, bne, bne, bne, bne, bne, BEq.congr_left hx, BEq.congr_left hy,
      BEq.congr_left hz]

theorem IsNumeric.not_differs_self (h : v.IsNumeric) : v.differs v = false := by
  have hself {x : Float} (hx : x.isNaN = false) : (x == x) = true :=
    Float.beq_self_iff.2 (by simpa using hx)
  exact not_differs_iff.2 ⟨hself h.1, hself h.2.1, hself h.2.2⟩

end LiveScene.Vec3
