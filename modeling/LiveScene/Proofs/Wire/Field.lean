import LiveScene.Proofs.Json.Reread
import LiveScene.Wire.Field

/-!
# Field values read back

What can go wrong with a field value is a double that is not finite, for it is written `null`. For
each type of fields, `Wire.Faithful` lists the doubles of a value and says that the value reads back
if they are all finite, and that nothing is read otherwise (`Wire.Faithful.ofJson?_toJson`). If
other doubles have come into the places of those that were written, they are read in these places.
Counts are unbounded here, so lists of them read back as far as they are in the range of the format
(`Wire.ofJson?_mapReals_counts`).
-/

namespace LiveScene

/-- The doubles of a pair. -/
def Vec2.floats (v : Vec2) : List Float := [v.x, v.y]

/-- The pair with other doubles in their places. -/
def Vec2.mapFloats (f : Float → Float) (v : Vec2) : Vec2 := ⟨f v.x, f v.y⟩

/-- The doubles of a triple. -/
def Vec3.floats (v : Vec3) : List Float := [v.x, v.y, v.z]

/-- The triple with other doubles in their places. -/
def Vec3.mapFloats (f : Float → Float) (v : Vec3) : Vec3 := ⟨f v.x, f v.y, f v.z⟩

@[simp] theorem Vec2.mapFloats_id (v : Vec2) : v.mapFloats id = v := rfl

@[simp] theorem Vec3.mapFloats_id (v : Vec3) : v.mapFloats id = v := rfl

/-- Whether some doubles are all finite. -/
def AllFinite (xs : List Float) : Prop := ∀ x ∈ xs, x.isFinite

instance (xs : List Float) : Decidable (AllFinite xs) :=
  inferInstanceAs (Decidable (∀ x ∈ xs, x.isFinite))

@[simp] theorem allFinite_nil : AllFinite [] := fun _ h => absurd h List.not_mem_nil

@[simp] theorem allFinite_cons (x : Float) (xs : List Float) :
    AllFinite (x :: xs) ↔ x.isFinite ∧ AllFinite xs := List.forall_mem_cons

@[simp] theorem allFinite_append (xs ys : List Float) :
    AllFinite (xs ++ ys) ↔ AllFinite xs ∧ AllFinite ys := List.forall_mem_append

/-- Lists of values without doubles have none. -/
@[simp] theorem allFinite_flatMap_nil {α : Type} (xs : List α) :
    AllFinite (xs.flatMap fun _ => []) := by
  intro x hx
  obtain ⟨_, -, hx⟩ := List.mem_flatMap.1 hx
  exact absurd hx List.not_mem_nil

namespace Json

theorem Legible.mono {d e : Nat} {v : Json} (h : Legible d v) (hde : d ≤ e) : Legible e v := by
  induction h generalizing e with
  | null => exact .null
  | bool b => exact .bool b
  | num h => exact .num h
  | str s => exact .str s
  | arr _ ih =>
    obtain ⟨e, rfl⟩ : ∃ k, e = k + 1 := ⟨e - 1, by omega⟩
    exact .arr fun v hv => ih v hv (by omega)
  | obj _ ih =>
    obtain ⟨e, rfl⟩ : ∃ k, e = k + 1 := ⟨e - 1, by omega⟩
    exact .obj fun m hm => ih m hm (by omega)

end Json

namespace Wire

/-- Types whose values read back exactly if all doubles in them are finite. -/
class Faithful (α : Type) [Wire α] where
  /-- the doubles in a value -/
  floats : α → List Float
  /-- the value with other doubles in their places -/
  map (f : Float → Float) : α → α
  /-- how deep the containers of a value nest -/
  depth : Nat
  legible (a : α) : Json.Legible depth (toJson a)
  map_id (a : α) : map id a = a
  ofJson?_mapReals (f : Float → Float) (a : α) :
    ofJson? ((toJson a).mapReals f) = if AllFinite (floats a) then some (map f a) else none

variable {α : Type} [Wire α] [Faithful α]

theorem Faithful.ofJson?_toJson (a : α) :
    ofJson? (toJson a) = if AllFinite (floats a) then some a else none := by
  have hself : (toJson a).mapReals id = toJson a :=
    Json.mapReals_eq_self (legible a).within fun _ _ => rfl
  have h := ofJson?_mapReals id a
  rwa [hself, map_id] at h

/-- A field value as part of a record. -/
theorem legible_of_depth (a : α) {d : Nat} (h : Faithful.depth α ≤ d) :
    Json.Legible d (toJson a) := (Faithful.legible a).mono h

/-! ## Reading several fields -/

/-- Reading a field before others: they are reached if its doubles are finite. -/
theorem bind_ofJson?_toJson {β : Type} (a : α) (f : α → Option β) :
    (do f (← ofJson? (toJson a))) = if AllFinite (Faithful.floats a) then f a else none := by
  rw [Faithful.ofJson?_toJson]
  split <;> rfl

theorem bind_ofJson?_mapReals {β : Type} (f : Float → Float) (a : α) (g : α → Option β) :
    (do g (← ofJson? ((toJson a).mapReals f))) =
      if AllFinite (Faithful.floats a) then g (Faithful.map f a) else none := by
  rw [Faithful.ofJson?_mapReals]
  split <;> rfl

/-- Conditions on several fields are met one after the other. -/
theorem if_and {β : Type} (p q : Prop) [Decidable p] [Decidable q] (b : Option β) :
    (if p ∧ q then b else none) = if p then (if q then b else none) else none := by
  by_cases hp : p <;> simp [hp]

/-! ## Scalars -/

instance : Faithful String where
  floats _ := []
  map _ := id
  depth := 0
  legible s := .str s
  map_id _ := rfl
  ofJson?_mapReals _ _ := by
    rw [if_pos allFinite_nil]
    rfl

instance : Faithful Bool where
  floats _ := []
  map _ := id
  depth := 0
  legible b := .bool b
  map_id _ := rfl
  ofJson?_mapReals _ _ := by
    rw [if_pos allFinite_nil]
    rfl

theorem legible_float (x : Float) : Json.Legible 0 (toJson x) := by
  change Json.Legible 0 (if x.isFinite then .num (.real x) else .null)
  split
  · next h => exact .num h
  · exact .null

theorem ofJson?_float (f : Float → Float) (x : Float) :
    ofJson? ((toJson x).mapReals f) = if x.isFinite then some (f x) else none := by
  change ofJson? ((if x.isFinite then Json.num (.real x) else .null).mapReals f) = _
  split <;> rfl

instance : Faithful Float where
  floats x := [x]
  map f := f
  depth := 0
  legible := legible_float
  map_id _ := rfl
  ofJson?_mapReals f x := by
    rw [ofJson?_float]
    simp

theorem legible_int {n : Int} (hlow : -0x8000000000000000 ≤ n) (hhigh : n < 0x10000000000000000) :
    Json.Legible 0 (.num (.int n)) := .num ⟨hlow, hhigh⟩

instance : Faithful Int32 where
  floats _ := []
  map _ := id
  depth := 0
  legible n := by
    have hle := n.le_toInt
    have hlt := n.toInt_lt
    exact legible_int (by omega) (by omega)
  map_id _ := rfl
  ofJson?_mapReals _ n := by
    have hle := n.le_toInt
    have hlt := n.toInt_lt
    have hback : Int32.ofInt n.toInt = n := Int32.ofInt_toInt n
    rw [if_pos allFinite_nil]
    change (if -0x80000000 ≤ n.toInt ∧ n.toInt < 0x80000000 then
      some (Int32.ofInt n.toInt) else none) = _
    rw [if_pos (by omega), hback]
    rfl

instance : Faithful UInt32 where
  floats _ := []
  map _ := id
  depth := 0
  legible n := by
    have hlt := n.toNat_lt
    exact legible_int (by omega) (by omega)
  map_id _ := rfl
  ofJson?_mapReals _ n := by
    have hlt := n.toNat_lt
    rw [if_pos allFinite_nil]
    change (if 0 ≤ (n.toNat : Int) ∧ (n.toNat : Int) < 0x100000000 then
      some (UInt32.ofNat (n.toNat : Int).toNat) else none) = _
    rw [if_pos (by omega), Int.toNat_natCast, UInt32.ofNat_toNat]
    rfl

/-! ## Containers -/

instance : Faithful Vec2 where
  floats := Vec2.floats
  map := Vec2.mapFloats
  depth := 1
  legible v := by
    refine .arr ?_
    simp [legible_float]
  map_id _ := rfl
  ofJson?_mapReals f v := by
    change (do
      return ⟨← ofJson? ((toJson v.x).mapReals f), ← ofJson? ((toJson v.y).mapReals f)⟩ :
        Option Vec2) = _
    rw [ofJson?_float, ofJson?_float]
    by_cases hx : v.x.isFinite <;> by_cases hy : v.y.isFinite <;>
      simp [Vec2.floats, Vec2.mapFloats, hx, hy]

instance : Faithful Vec3 where
  floats := Vec3.floats
  map := Vec3.mapFloats
  depth := 1
  legible v := by
    refine .arr ?_
    simp [legible_float]
  map_id _ := rfl
  ofJson?_mapReals f v := by
    change (do
      return ⟨← ofJson? ((toJson v.x).mapReals f), ← ofJson? ((toJson v.y).mapReals f),
        ← ofJson? ((toJson v.z).mapReals f)⟩ : Option Vec3) = _
    rw [ofJson?_float, ofJson?_float, ofJson?_float]
    by_cases hx : v.x.isFinite <;> by_cases hy : v.y.isFinite <;> by_cases hz : v.z.isFinite <;>
      simp [Vec3.floats, Vec3.mapFloats, hx, hy, hz]

instance : Faithful IVec2 where
  floats _ := []
  map _ := id
  depth := 1
  legible v := by
    refine .arr ?_
    simp [legible_of_depth, Faithful.depth]
  map_id _ := rfl
  ofJson?_mapReals f v := by
    change (do
      return ⟨← ofJson? ((toJson v.x).mapReals f), ← ofJson? ((toJson v.y).mapReals f)⟩ :
        Option IVec2) = _
    simp [Faithful.ofJson?_mapReals, Faithful.floats, Faithful.map]

instance : Faithful Face where
  floats _ := []
  map _ := id
  depth := 1
  legible f := by
    refine .arr ?_
    simp [legible_of_depth, Faithful.depth]
  map_id _ := rfl
  ofJson?_mapReals f t := by
    change (do
      return ⟨← ofJson? ((toJson t.a).mapReals f), ← ofJson? ((toJson t.b).mapReals f),
        ← ofJson? ((toJson t.c).mapReals f)⟩ : Option Face) = _
    simp [Faithful.ofJson?_mapReals, Faithful.floats, Faithful.map]

theorem mapReals_toJson_list {β : Type} [Wire β] (f : Float → Float) (xs : List β) :
    (toJson xs).mapReals f = .arr (xs.map fun x => (toJson x).mapReals f) := by
  change (Json.arr (xs.map toJson)).mapReals f = _
  rw [Json.mapReals_arr, List.map_map]
  rfl

theorem mapM_ofJson?_mapReals (f : Float → Float) (xs : List α) :
    (xs.map fun x => (toJson x).mapReals f).mapM ofJson? =
      if AllFinite (xs.flatMap Faithful.floats) then some (xs.map (Faithful.map f)) else none := by
  induction xs with
  | nil => simp
  | cons x xs ih =>
    rw [List.map_cons, List.mapM_cons, ih, Faithful.ofJson?_mapReals]
    by_cases hx : AllFinite (Faithful.floats x) <;>
      by_cases hxs : AllFinite (xs.flatMap Faithful.floats) <;> simp [hx, hxs]

instance : Faithful (List α) where
  floats xs := xs.flatMap Faithful.floats
  map f xs := xs.map (Faithful.map f)
  depth := Faithful.depth α + 1
  legible xs := by
    refine .arr ?_
    simpa using fun a _ => Faithful.legible a
  map_id xs := by
    have hid : Faithful.map id = (id : α → α) := funext Faithful.map_id
    rw [hid, List.map_id]
  ofJson?_mapReals f xs := by
    rw [mapReals_toJson_list]
    exact mapM_ofJson?_mapReals f xs

/-! ## Counts -/

theorem legible_counts {ns : List Nat} (h : ∀ n ∈ ns, n < 0x10000000000000000) :
    Json.Legible 1 (toJson ns) := by
  refine .arr ?_
  intro v hv
  obtain ⟨n, hn, rfl⟩ := List.mem_map.1 hv
  have hlt := h n hn
  exact legible_int (by omega) (by omega)

/-- Counts in the range of the format read back. -/
theorem ofJson?_mapReals_counts {ns : List Nat} (h : ∀ n ∈ ns, n < 0x10000000000000000)
    (f : Float → Float) : ofJson? ((toJson ns).mapReals f) = some ns := by
  rw [mapReals_toJson_list]
  change (ns.map fun n => (toJson n).mapReals f).mapM ofJson? = _
  induction ns with
  | nil => rfl
  | cons n ns ih =>
    have hn := h n List.mem_cons_self
    have hfirst : ofJson? ((toJson n).mapReals f) = some n := by
      change (if 0 ≤ (n : Int) ∧ (n : Int) < 0x10000000000000000 then
        some (n : Int).toNat else none) = _
      rw [if_pos (by omega), Int.toNat_natCast]
    rw [List.map_cons, List.mapM_cons, hfirst, ih fun m hm => h m (List.mem_cons_of_mem _ hm)]
    rfl

end Wire

end LiveScene
