import LiveScene.Proofs.Json.Reread
import LiveScene.Wire.Record

/-!
# Records read back

A record is read from an object in which each of its names stands once (`Once`), whatever else the
object holds, or from an array of the tag and the values (`Schema.split?_eq_some_iff`).

A family of records is `Distinct` if its tags are told apart by their spelling and the fields of a
tag by their names, none of which is the name of the tag's own member. Then a record is split into
the tag and the values it was made of (`Schema.split?_record`).
-/

namespace LiveScene.Schema

open Json

variable {Tag : Type}

/-- The spellings of a family of records are told apart. -/
structure Distinct (s : Schema Tag) : Prop where
  tag? (t : Tag) : s.tag? (s.name t) = some t
  nodup (t : Tag) : (tagField :: s.fields t).Nodup

/-! ## Members -/

theorem membersNamed_cons_self (name : String) (v : Json) (ms : List (String × Json)) :
    membersNamed name ((name, v) :: ms) = v :: membersNamed name ms := by
  simp [membersNamed]

theorem membersNamed_cons_of_ne {f name : String} (h : f ≠ name) (v : Json)
    (ms : List (String × Json)) :
    membersNamed name ((f, v) :: ms) = membersNamed name ms := by
  simp [membersNamed, h]

theorem membersNamed_zip_of_not_mem {name : String} {fields : List String}
    (h : name ∉ fields) (values : List Json) : membersNamed name (fields.zip values) = [] := by
  induction fields generalizing values with
  | nil => rfl
  | cons f fields ih =>
    rw [List.mem_cons, not_or] at h
    cases values with
    | nil => rfl
    | cons v values =>
      rw [List.zip_cons_cons, membersNamed_cons_of_ne (Ne.symm h.1)]
      exact ih h.2 values

/-- Exactly one of the members has the name, and that one has the value `v`. -/
def Once (members : List (String × Json)) (name : String) (v : Json) : Prop :=
  ∃ pre post, members = pre ++ (name, v) :: post ∧ ∀ m ∈ pre ++ post, m.1 ≠ name

theorem only?_eq_some_iff {α : Type} {l : List α} {x : α} : only? l = some x ↔ l = [x] := by
  constructor
  · intro h
    unfold only? at h
    split at h <;> cases h
    rfl
  · rintro rfl
    rfl

theorem only?_membersNamed_eq_some_iff {members : List (String × Json)} {name : String} {v : Json} :
    only? (membersNamed name members) = some v ↔ Once members name v := by
  rw [only?_eq_some_iff, membersNamed]
  constructor
  · intro h
    obtain ⟨m, hm, rfl⟩ := List.map_eq_singleton_iff.1 h
    obtain ⟨pre, post, rfl, hpre, hname, hpost⟩ := List.filter_eq_cons_iff.1 hm
    obtain rfl : m.1 = name := by simpa using hname
    refine ⟨pre, post, rfl, List.forall_mem_append.2 ⟨?_, ?_⟩⟩
    · simpa using hpre
    · simpa using List.filter_eq_nil_iff.1 hpost
  · rintro ⟨pre, post, rfl, h⟩
    obtain ⟨hpre, hpost⟩ := List.forall_mem_append.1 h
    have hpre : pre.filter (·.1 == name) = [] := List.filter_eq_nil_iff.2 (by simpa using hpre)
    have hpost : post.filter (·.1 == name) = [] := List.filter_eq_nil_iff.2 (by simpa using hpost)
    simp [List.filter_append, hpre, hpost]

/-- A field is found with the value that stands beside it. -/
theorem once_zip {fields : List String} (hnodup : fields.Nodup) {values : List Json} {f : String}
    {v : Json} (h : (f, v) ∈ fields.zip values) : Once (fields.zip values) f v := by
  rw [← only?_membersNamed_eq_some_iff]
  induction fields generalizing values with
  | nil => cases h
  | cons g fields ih =>
    obtain ⟨hg, hfields⟩ := List.nodup_cons.1 hnodup
    cases values with
    | nil => cases h
    | cons w values =>
      rw [List.zip_cons_cons] at h ⊢
      rcases List.mem_cons.1 h with heq | h
      · obtain ⟨rfl, rfl⟩ := Prod.mk.inj heq
        rw [membersNamed_cons_self, membersNamed_zip_of_not_mem hg]
        rfl
      · have hne : g ≠ f := by
          rintro rfl
          exact hg (List.of_mem_zip h).1
        rw [membersNamed_cons_of_ne hne]
        exact ih hfields h

/-- Values are found in order where each field stands once with the value beside it. -/
theorem mapM_only?_eq_some_iff {members : List (String × Json)} {fields : List String}
    {values : List Json} : (fields.mapM fun f => only? (membersNamed f members)) = some values ↔
      values.length = fields.length ∧ ∀ m ∈ fields.zip values, Once members m.1 m.2 := by
  induction fields generalizing values with
  | nil => simp [eq_comm]
  | cons f fields ih =>
    simp only [List.mapM_cons, Option.bind_eq_bind, Option.bind_eq_some_iff, ih,
      only?_membersNamed_eq_some_iff, Option.pure_def, Option.some.injEq]
    constructor
    · rintro ⟨v, hv, vs, ⟨hlength, hvs⟩, rfl⟩
      exact ⟨by simpa using hlength, List.forall_mem_cons.2 ⟨hv, hvs⟩⟩
    · rintro ⟨hlength, hvalues⟩
      cases values with
      | nil => cases hlength
      | cons v vs =>
        obtain ⟨hv, hvs⟩ := List.forall_mem_cons.1 hvalues
        exact ⟨v, hv, vs, ⟨by simpa using hlength, hvs⟩, rfl⟩

/-! ## Records -/

/-- A record with a tag and values, one for each field, in either form. -/
inductive Form (s : Schema Tag) (t : Tag) (values : List Json) : Json → Prop where
  | members {members : List (String × Json)} {name : String} (hname : s.tag? name = some t)
    (htag : Once members tagField (.str name)) (hlength : values.length = (s.fields t).length)
    (hvalues : ∀ m ∈ (s.fields t).zip values, Once members m.1 m.2) : Form s t values (.obj members)
  | items {name : String} (hname : s.tag? name = some t)
    (hlength : values.length = (s.fields t).length) : Form s t values (.arr (.str name :: values))

theorem tagOf?_eq_some_iff {s : Schema Tag} {t : Tag} {v : Json} :
    s.tagOf? v = some t ↔ ∃ name, v = .str name ∧ s.tag? name = some t := by
  cases v <;> simp [tagOf?]

/-- What is split is a record in one of the two forms, and every such record is split. -/
theorem split?_eq_some_iff {s : Schema Tag} {t : Tag} {values : List Json} {v : Json} :
    s.split? v = some (t, values) ↔ s.Form t values v := by
  constructor
  · intro h
    unfold split? at h
    split at h
    · simp only [Option.bind_eq_bind, Option.bind_eq_some_iff, tagOf?_eq_some_iff,
        mapM_only?_eq_some_iff, only?_membersNamed_eq_some_iff] at h
      obtain ⟨_, htag, t', ⟨name, rfl, hname⟩, values', ⟨hlength, hvalues⟩, ⟨⟩⟩ := h
      exact .members hname htag hlength hvalues
    · simp only [Option.bind_eq_bind, Option.bind_eq_some_iff, tagOf?_eq_some_iff] at h
      obtain ⟨t', ⟨name, rfl, hname⟩, h⟩ := h
      split at h
      · next hlength =>
        cases h
        exact .items hname hlength
      · cases h
    · cases h
  · intro h
    cases h with
    | members hname htag hlength hvalues =>
      simp [split?, only?_membersNamed_eq_some_iff.2 htag, tagOf?, hname,
        mapM_only?_eq_some_iff.2 ⟨hlength, hvalues⟩]
    | items hname hlength => simp [split?, tagOf?, hname, hlength]

/-- A record is split into what it was made of. -/
theorem split?_record {s : Schema Tag} (h : s.Distinct) (t : Tag) {values : List Json}
    (hlength : values.length = (s.fields t).length) :
    s.split? (s.record t values) = some (t, values) := by
  obtain ⟨htag, hfields⟩ := List.nodup_cons.1 (h.nodup t)
  have hne (m : String × Json) (hm : m ∈ (s.fields t).zip values) : tagField ≠ m.1 := by
    intro heq
    rw [heq] at htag
    exact htag (List.of_mem_zip hm).1
  have hfirst : Once ((tagField, .str (s.name t)) :: (s.fields t).zip values) tagField
      (.str (s.name t)) := ⟨[], _, rfl, fun m hm => (hne m hm).symm⟩
  refine split?_eq_some_iff.2 (.members (h.tag? t) hfirst hlength fun m hm => ?_)
  rw [← only?_membersNamed_eq_some_iff, membersNamed_cons_of_ne (hne m hm),
    only?_membersNamed_eq_some_iff]
  exact once_zip hfields hm

/-- Other doubles stand in the places of a record's values. -/
theorem mapReals_record (s : Schema Tag) (t : Tag) (values : List Json) (f : Float → Float) :
    (s.record t values).mapReals f = s.record t (values.map (mapReals f)) := by
  rw [record, mapReals_obj, List.map_cons, record, List.zip_map_right]
  rfl

/-- A record is legible, one container around its values. -/
theorem legible_record (s : Schema Tag) (t : Tag) {values : List Json} {depth : Nat}
    (h : ∀ v ∈ values, Legible depth v) : Legible (depth + 1) (s.record t values) := by
  refine .obj ?_
  intro m hm
  rcases List.mem_cons.1 hm with rfl | hm
  · exact .str _
  · exact h m.2 (List.of_mem_zip hm).2

end LiveScene.Schema
