import LiveScene.Geometry.Vector

/-!
# Matrices

Linear maps of space (`Mat3`) and affine maps in homogeneous form (`Mat4`), both kept as columns.
A product with a vector sums the columns from the left, and a product of matrices maps that over
the columns of its right factor.
-/

namespace LiveScene

/-- A quadruple of doubles: a column of a homogeneous matrix. -/
structure Vec4 where
  x : Float
  y : Float
  z : Float
  w : Float
deriving DecidableEq

/-- A linear map of space, by columns. -/
structure Mat3 where
  x : Vec3
  y : Vec3
  z : Vec3
deriving DecidableEq

/-- A homogeneous matrix, by columns. -/
structure Mat4 where
  x : Vec4
  y : Vec4
  z : Vec4
  w : Vec4
deriving DecidableEq

namespace Vec4

instance : Add Vec4 := ⟨fun u v => ⟨u.x + v.x, u.y + v.y, u.z + v.z, u.w + v.w⟩⟩

instance : HMul Vec4 Float Vec4 := ⟨fun v s => ⟨v.x * s, v.y * s, v.z * s, v.w * s⟩⟩

/-- The first three components. -/
def xyz (v : Vec4) : Vec3 := ⟨v.x, v.y, v.z⟩

end Vec4

namespace Mat3

/-- The image of a vector: the columns, each times a component, summed from the left. -/
def apply (m : Mat3) (v : Vec3) : Vec3 := m.x * v.x + m.y * v.y + m.z * v.z

/-- The signed volume spanned by the columns. -/
def det (m : Mat3) : Float := m.z.dot (m.x.cross m.y)

/-- The transpose of the inverse: products of pairs of columns over the determinant. -/
def inverseTranspose (m : Mat3) : Mat3 :=
  let i := 1 / m.det
  ⟨m.y.cross m.z * i, m.z.cross m.x * i, m.x.cross m.y * i⟩

/-- The rotation about the first, then the second, then the third axis, each axis carried along
by the rotations before it. -/
def ofEuler (angles : Vec3) : Mat3 :=
  let (si, ci) := ((-angles.x).sin, (-angles.x).cos)
  let (sj, cj) := ((-angles.y).sin, (-angles.y).cos)
  let (sh, ch) := ((-angles.z).sin, (-angles.z).cos)
  let cc := ci * ch
  let cs := ci * sh
  let sc := si * ch
  let ss := si * sh
  { x := ⟨cj * ch, sj * sc - cs, sj * cc + ss⟩
    y := ⟨cj * sh, sj * ss + cc, sj * cs - sc⟩
    z := ⟨-sj, cj * si, cj * ci⟩ }

end Mat3

namespace Mat4

/-- The map that moves nothing. -/
def identity : Mat4 := ⟨⟨1, 0, 0, 0⟩, ⟨0, 1, 0, 0⟩, ⟨0, 0, 1, 0⟩, ⟨0, 0, 0, 1⟩⟩

/-- The image of a column: the columns, each times a component, summed from the left. -/
def apply (m : Mat4) (c : Vec4) : Vec4 := m.x * c.x + m.y * c.y + m.z * c.z + m.w * c.w

instance : Mul Mat4 := ⟨fun m n => ⟨m.apply n.x, m.apply n.y, m.apply n.z, m.apply n.w⟩⟩

/-- The image of a point under an affine map: the translation is added last, and nothing is
divided by the last component. -/
def transformPoint (m : Mat4) (p : Vec3) : Vec3 :=
  (m.w + (m.z * p.z + (m.y * p.y + m.x * p.x))).xyz

/-- The linear part: the upper left block. -/
def linear (m : Mat4) : Mat3 := ⟨m.x.xyz, m.y.xyz, m.z.xyz⟩

end Mat4

end LiveScene
