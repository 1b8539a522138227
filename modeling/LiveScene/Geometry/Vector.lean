/-!
# Vectors

The numbers of a scene: positions, directions and colours are triples of doubles (`Vec3`), texture
coordinates are pairs (`Vec2`), places and sizes on the screen are pairs of 32-bit integers
(`IVec2`), and a triangle is a triple of vertex indices (`Face`).

The arithmetic is plain IEEE arithmetic on doubles, in the written order: nothing is fused and
nothing is reassociated, so a result is determined to the last bit.
-/

namespace LiveScene

/-- A pair of doubles. -/
structure Vec2 where
  x : Float
  y : Float
deriving DecidableEq

/-- A triple of doubles: a point, a direction, a colour or three angles. -/
structure Vec3 where
  x : Float
  y : Float
  z : Float
deriving DecidableEq

/-- A pair of 32-bit integers, counted in pixels. -/
structure IVec2 where
  x : Int32
  y : Int32
deriving DecidableEq

/-- A triangle, as the indices of its three vertices. -/
structure Face where
  a : UInt32
  b : UInt32
  c : UInt32
deriving DecidableEq

namespace Vec2

/-- The pair of zeros. -/
def zero : Vec2 := ⟨0, 0⟩

end Vec2

namespace IVec2

/-- The pair of zeros. -/
def zero : IVec2 := ⟨0, 0⟩

end IVec2

namespace Vec3

/-- The vector with all three components equal to `s`. -/
def splat (s : Float) : Vec3 := ⟨s, s, s⟩

/-- The null vector. -/
def zero : Vec3 := splat 0

/-- The vector of ones. -/
def one : Vec3 := splat 1

/-- The first axis. -/
def unitX : Vec3 := ⟨1, 0, 0⟩

/-- The second axis. -/
def unitY : Vec3 := ⟨0, 1, 0⟩

/-- The third axis. -/
def unitZ : Vec3 := ⟨0, 0, 1⟩

instance : Add Vec3 := ⟨fun u v => ⟨u.x + v.x, u.y + v.y, u.z + v.z⟩⟩

instance : HMul Vec3 Float Vec3 := ⟨fun v s => ⟨v.x * s, v.y * s, v.z * s⟩⟩

/-- The inner product, summed from the left. -/
def dot (u v : Vec3) : Float := u.x * v.x + u.y * v.y + u.z * v.z

/-- The vector product. -/
def cross (u v : Vec3) : Vec3 :=
  ⟨u.y * v.z - v.y * u.z, u.z * v.x - v.z * u.x, u.x * v.y - v.x * u.y⟩

/-- The Euclidean length. -/
def length (v : Vec3) : Float := (v.dot v).sqrt

/-- The vector scaled by the reciprocal of its length, whatever that gives for the null vector. -/
def normalize (v : Vec3) : Vec3 := v * (1 / v.length)

/-- The vector scaled to length one, or the null vector when its length has no positive finite
reciprocal. -/
def normalizeOrZero (v : Vec3) : Vec3 :=
  let r := 1 / v.length
  if r.isFinite && r > 0 then v * r else zero

/-- Whether some component differs as a number: a NaN differs from itself, and the two zeros
agree. -/
def differs (u v : Vec3) : Bool := u.x != v.x || u.y != v.y || u.z != v.z

end Vec3

namespace Face

/-- The greatest of the three indices. -/
def greatest (f : Face) : UInt32 := max (max f.a f.b) f.c

/-- The triangle with all indices raised by `base`, modulo `2 ^ 32`. -/
def shift (f : Face) (base : UInt32) : Face := ⟨f.a + base, f.b + base, f.c + base⟩

end Face

end LiveScene
