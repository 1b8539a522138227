import LiveScene.Geometry.Vector
import LiveScene.Json.Number

/-!
# Field values

The JSON form of everything that a command or a message carries. Vectors are arrays, and an array
of another length is no vector. A double accepts any number; it is written `null` when it is not
finite, which does not read back. A whole number accepts only a number written without fraction and
exponent, within its range.
-/

namespace LiveScene

/-- Types with a JSON form. -/
class Wire (α : Type) where
  toJson : α → Json
  ofJson? : Json → Option α

namespace Wire

instance : Wire String where
  toJson := .str
  ofJson?
    | .str s => some s
    | _ => none

instance : Wire Bool where
  toJson := .bool
  ofJson?
    | .bool b => some b
    | _ => none

instance : Wire Float where
  toJson x := if x.isFinite then .num (.real x) else .null
  ofJson?
    | .num n => n.toFloat?
    | _ => none

instance : Wire Int32 where
  toJson n := .num (.int n.toInt)
  ofJson?
    | .num (.int n) => if -0x80000000 ≤ n ∧ n < 0x80000000 then some (Int32.ofInt n) else none
    | _ => none

instance : Wire UInt32 where
  toJson n := .num (.int n.toNat)
  ofJson?
    | .num (.int n) => if 0 ≤ n ∧ n < 0x100000000 then some (UInt32.ofNat n.toNat) else none
    | _ => none

/-- A count of at most 64 bits. -/
instance : Wire Nat where
  toJson n := .num (.int n)
  ofJson?
    | .num (.int n) => if 0 ≤ n ∧ n < 0x10000000000000000 then some n.toNat else none
    | _ => none

instance {α : Type} [Wire α] : Wire (List α) where
  toJson xs := .arr (xs.map toJson)
  ofJson?
    | .arr vs => vs.mapM ofJson?
    | _ => none

instance : Wire Vec2 where
  toJson v := .arr [toJson v.x, toJson v.y]
  ofJson?
    | .arr [x, y] => do return ⟨← ofJson? x, ← ofJson? y⟩
    | _ => none

instance : Wire Vec3 where
  toJson v := .arr [toJson v.x, toJson v.y, toJson v.z]
  ofJson?
    | .arr [x, y, z] => do return ⟨← ofJson? x, ← ofJson? y, ← ofJson? z⟩
    | _ => none

instance : Wire IVec2 where
  toJson v := .arr [toJson v.x, toJson v.y]
  ofJson?
    | .arr [x, y] => do return ⟨← ofJson? x, ← ofJson? y⟩
    | _ => none

instance : Wire Face where
  toJson f := .arr [toJson f.a, toJson f.b, toJson f.c]
  ofJson?
    | .arr [a, b, c] => do return ⟨← ofJson? a, ← ofJson? b, ← ofJson? c⟩
    | _ => none

end Wire

end LiveScene
