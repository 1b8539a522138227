import LiveScene.Proofs.ViewerMessage

/-!
# The format of messages from viewers

Which texts are messages from viewers, and which message each of them is. A JSON value denotes a
message (`DenotedBy`) in one of two forms. It may be an object in which `type` stands once with the
spelling of the message's sort, and each field of that sort once with its value; other members may
stand anywhere, and repeatedly. Or it may be an array of that spelling and the values. The value of
a field is text, a number, an array of three numbers, or an array of two whole numbers of 32 bits
(`Values`). The documents of such values are parsed, and every other text is refused with its length
(`parse_exact`).

Which numerals are numbers, and which double a numeral stands for, is up to the reader of numbers. A
literal without fraction and exponent is a whole number of 64 bits, but `-0` is the negative zero.
The others are read in steps: not always as the nearest double, and close to the end of the doubles
a literal in their range may be refused (`literals_read_otherwise`).
-/

namespace LiveScene.ViewerMessage

open Wire Json

/-! ## The format -/

/-- The spelling of a sort of messages. -/
def Tag.spelling : Tag → String
  | keydown => "keydown"
  | keyup => "keyup"
  | drag => "drag"
  | screenResize => "screen_resize"
  | buttonClick => "button_click"
  | sliderSetValue => "slider_set_value"

/-- The value is a number, and `x` the double nearest to it. -/
inductive IsNumber (x : Float) : Json → Prop where
  | mk {n : Number} (h : n.toFloat? = some x) : IsNumber x (.num n)

/-- The field values of a message, in declared order. -/
inductive Values : ViewerMessage → List Json → Prop where
  | keydown (key : String) : Values (.keydown key) [.str key]
  | keyup (key : String) : Values (.keyup key) [.str key]
  | drag (key : String) {x y z : Float} {a b c : Json} (hx : IsNumber x a) (hy : IsNumber y b)
    (hz : IsNumber z c) : Values (.drag key ⟨x, y, z⟩) [.str key, .arr [a, b, c]]
  | screenResize (width height : Int32) : Values (.screenResize ⟨width, height⟩)
      [.arr [.num (.int width.toInt), .num (.int height.toInt)]]
  | buttonClick (key : String) : Values (.buttonClick key) [.str key]
  | sliderSetValue (key : String) {x : Float} {a : Json} (hx : IsNumber x a) :
    Values (.sliderSetValue key x) [.str key, a]

/-- The values that denote a message. -/
inductive DenotedBy (m : ViewerMessage) : Json → Prop where
  | object {values : List Json} {members : List (String × Json)} (hvalues : m.Values values)
    (htype : Schema.Once members "type" (.str m.tag.spelling))
    (hfields : ∀ f ∈ m.tag.fields.zip values, Schema.Once members f.1 f.2) :
    DenotedBy m (.obj members)
  | array {values : List Json} (hvalues : m.Values values) :
    DenotedBy m (.arr (.str m.tag.spelling :: values))

/-! ## Field values -/

variable {v : Json}

theorem ofJson?_string_eq_some_iff {s : String} : ofJson? v = some s ↔ v = .str s := by
  constructor
  · intro h
    cases v with
    | str s' =>
      cases h
      rfl
    | _ => cases h
  · rintro rfl
    rfl

theorem ofJson?_float_eq_some_iff {x : Float} : ofJson? v = some x ↔ IsNumber x v := by
  constructor
  · intro h
    cases v with
    | num n => exact .mk h
    | _ => cases h
  · rintro ⟨h⟩
    exact h

theorem ofJson?_int32_eq_some_iff {n : Int32} : ofJson? v = some n ↔ v = .num (.int n.toInt) := by
  constructor
  · intro h
    cases v with
    | num k =>
      cases k with
      | int k =>
        change (if -0x80000000 ≤ k ∧ k < 0x80000000 then
          some (Int32.ofInt k) else none) = some n at h
        split at h
        · next hk =>
          cases h
          rw [Int32.toInt_ofInt_of_le hk.1 hk.2]
        · cases h
      | real x => cases h
    | _ => cases h
  · rintro rfl
    exact (Faithful.ofJson?_toJson n).trans (if_pos allFinite_nil)

theorem ofJson?_vec3_eq_some_iff {p : Vec3} : ofJson? v = some p ↔
    ∃ a b c, v = .arr [a, b, c] ∧ IsNumber p.x a ∧ IsNumber p.y b ∧ IsNumber p.z c := by
  constructor
  · intro h
    obtain ⟨a, b, c, rfl⟩ : ∃ a b c, v = .arr [a, b, c] := by
      rcases v with _ | _ | _ | _ | (_ | ⟨a, _ | ⟨b, _ | ⟨c, _ | _⟩⟩⟩) | _
      case arr.cons.cons.cons.nil => exact ⟨a, b, c, rfl⟩
      all_goals cases h
    change (do return ⟨← ofJson? a, ← ofJson? b, ← ofJson? c⟩ : Option Vec3) = some p at h
    simp only [Option.bind_eq_bind, Option.bind_eq_some_iff, ofJson?_float_eq_some_iff] at h
    obtain ⟨x, hx, y, hy, z, hz, ⟨⟩⟩ := h
    exact ⟨a, b, c, rfl, hx, hy, hz⟩
  · rintro ⟨a, b, c, rfl, hx, hy, hz⟩
    change (do return ⟨← ofJson? a, ← ofJson? b, ← ofJson? c⟩ : Option Vec3) = some p
    rw [ofJson?_float_eq_some_iff.2 hx, ofJson?_float_eq_some_iff.2 hy,
      ofJson?_float_eq_some_iff.2 hz]
    rfl

theorem ofJson?_ivec2_eq_some_iff {p : IVec2} : ofJson? v = some p ↔
    v = .arr [.num (.int p.x.toInt), .num (.int p.y.toInt)] := by
  constructor
  · intro h
    obtain ⟨a, b, rfl⟩ : ∃ a b, v = .arr [a, b] := by
      rcases v with _ | _ | _ | _ | (_ | ⟨a, _ | ⟨b, _ | _⟩⟩) | _
      case arr.cons.cons.nil => exact ⟨a, b, rfl⟩
      all_goals cases h
    change (do return ⟨← ofJson? a, ← ofJson? b⟩ : Option IVec2) = some p at h
    simp only [Option.bind_eq_bind, Option.bind_eq_some_iff, ofJson?_int32_eq_some_iff] at h
    obtain ⟨x, rfl, y, rfl, ⟨⟩⟩ := h
    rfl
  · rintro rfl
    exact (Faithful.ofJson?_toJson p).trans (if_pos allFinite_nil)

/-- The values of the fields are read as the message whose values they are. -/
theorem ofValues?_eq_some_iff {t : Tag} {values : List Json} {m : ViewerMessage} :
    ofValues? t values = some m ↔ m.tag = t ∧ m.Values values := by
  constructor
  · intro h
    unfold ofValues? at h
    split at h
    all_goals
      simp only [Option.bind_eq_bind, Option.bind_eq_some_iff, ofJson?_string_eq_some_iff,
        ofJson?_float_eq_some_iff, ofJson?_vec3_eq_some_iff, ofJson?_ivec2_eq_some_iff,
        Option.pure_def, Option.some.injEq, reduceCtorEq] at h
    · obtain ⟨key, rfl, rfl⟩ := h
      exact ⟨rfl, .keydown key⟩
    · obtain ⟨key, rfl, rfl⟩ := h
      exact ⟨rfl, .keyup key⟩
    · obtain ⟨key, rfl, pos, ⟨a, b, c, rfl, hx, hy, hz⟩, rfl⟩ := h
      exact ⟨rfl, .drag key hx hy hz⟩
    · obtain ⟨size, rfl, rfl⟩ := h
      exact ⟨rfl, .screenResize size.x size.y⟩
    · obtain ⟨key, rfl, rfl⟩ := h
      exact ⟨rfl, .buttonClick key⟩
    · obtain ⟨key, rfl, value, hx, rfl⟩ := h
      exact ⟨rfl, .sliderSetValue key hx⟩
  · rintro ⟨rfl, h⟩
    cases h with
    | drag key hx hy hz =>
      have hpos := (ofJson?_vec3_eq_some_iff (p := ⟨_, _, _⟩)).2 ⟨_, _, _, rfl, hx, hy, hz⟩
      simp only [tag, ofValues?, ofJson?_string_eq_some_iff.2 rfl, hpos]
      rfl
    | screenResize width height =>
      have hsize := (ofJson?_ivec2_eq_some_iff (p := ⟨width, height⟩)).2 rfl
      simp only [tag, ofValues?, hsize]
      rfl
    | sliderSetValue key hx =>
      simp only [tag, ofValues?, ofJson?_string_eq_some_iff.2 rfl, ofJson?_float_eq_some_iff.2 hx]
      rfl
    | _ => rfl

theorem Values.length_eq {m : ViewerMessage} {values : List Json} (h : m.Values values) :
    values.length = (Tag.schema.fields m.tag).length := by
  cases h <;> rfl

/-! ## Messages -/

theorem Tag.schema_name (t : Tag) : schema.name t = t.spelling := by
  cases t <;> decide

theorem Tag.schema_tag?_eq_some_iff {t : Tag} {name : String} :
    schema.tag? name = some t ↔ name = t.spelling := by
  constructor
  · intro h
    have hname := List.find?_some h
    rw [← schema_name]
    exact (beq_iff_eq.1 hname).symm
  · rintro rfl
    rw [← schema_name]
    exact distinct_schema.tag? t

/-- The values that denote a message are read as that message. -/
theorem ofRecord?_eq_some_iff {m : ViewerMessage} : ofRecord? v = some m ↔ m.DenotedBy v := by
  simp only [ofRecord?, Option.bind_eq_bind, Option.bind_eq_some_iff, Prod.exists,
    Schema.split?_eq_some_iff, ofValues?_eq_some_iff]
  constructor
  · rintro ⟨t, values, hform, rfl, hvalues⟩
    cases hform with
    | members hname htag _ hfields =>
      rw [Tag.schema_tag?_eq_some_iff.1 hname] at htag
      exact .object hvalues htag hfields
    | items hname _ =>
      rw [Tag.schema_tag?_eq_some_iff.1 hname]
      exact .array hvalues
  · intro h
    have hname := Tag.schema_tag?_eq_some_iff.2 (rfl : m.tag.spelling = _)
    cases h with
    | object hvalues htype hfields =>
      exact ⟨_, _, .members hname htype hvalues.length_eq hfields, rfl, hvalues⟩
    | array hvalues => exact ⟨_, _, .items hname hvalues.length_eq, rfl, hvalues⟩

theorem parseBy_eq_ok_iff {R : Number.Reader} {text : String} {m : ViewerMessage} :
    parseBy R text = .ok m ↔ ∃ v, Document R 127 text v ∧ m.DenotedBy v := by
  have hread : (ofText? R Schema.depthLimit text).bind ofRecord? = some m ↔
      ∃ v, Document R 127 text v ∧ m.DenotedBy v := by
    simp only [Option.bind_eq_some_iff, ofText?_eq_some_iff, ofRecord?_eq_some_iff]
    rfl
  rw [← hread, parseBy]
  cases (ofText? R Schema.depthLimit text).bind ofRecord? with
  | some m' => simp
  | none => simp

/-- What is no message is refused with its length. -/
theorem parseBy_eq_error_iff {R : Number.Reader} {text : String} {e : ParseError} :
    parseBy R text = .error e ↔
      (∀ m, parseBy R text ≠ .ok m) ∧ e = .malformed text.utf8ByteSize := by
  rw [parseBy]
  cases (ofText? R Schema.depthLimit text).bind ofRecord? with
  | some m' => simp
  | none => simp [eq_comm]

/-- The documents that denote a message are parsed as that message, and every other text is refused
with its length. The numbers in a document are those of the reader in steps. -/
theorem parse_exact (text : String) :
    (∀ m, parse text = .ok m ↔ ∃ v, Document .stepwise 127 text v ∧ m.DenotedBy v) ∧
      ∀ e, parse text = .error e ↔
        (∀ m v, Document .stepwise 127 text v → ¬DenotedBy m v) ∧
          e = .malformed text.utf8ByteSize := by
  refine ⟨fun m => parseBy_eq_ok_iff, fun e => ?_⟩
  rw [parse, parseBy_eq_error_iff]
  simp only [ne_eq, parseBy_eq_ok_iff, not_exists, not_and]

set_option maxRecDepth 8000 in
/-- Three literals that are not read as their digits say. The one of the negative zero has neither
a fraction nor an exponent, and its digits are worth zero; yet where it is one of the two numbers of
a screen size, the document is refused. One just below one is read as one. And one to which a double
is nearest is refused. -/
theorem literals_read_otherwise :
    ((∃ n, Document .stepwise 127 "\x7b\"type\":\"screen_resize\",\"size\":[-0,1]\x7d"
        (.obj [("type", .str "screen_resize"), ("size", .arr [.num n, .num (.int 1)])])) ∧
      (∃ p, Number.Numeral ['-', '0'] p ∧ p.fraction = none ∧ p.exponent = none ∧
        p.decimal = ⟨0, 0⟩) ∧
      parse "\x7b\"type\":\"screen_resize\",\"size\":[-0,1]\x7d" = .error (.malformed 38) ∧
      parse "\x7b\"type\":\"screen_resize\",\"size\":[0,1]\x7d" = .ok (.screenResize ⟨0, 1⟩)) ∧
    (parse "[\"slider_set_value\",\"k\",0.9999999999999999]" = .ok (.sliderSetValue "k" 1) ∧
      parseBy .exact "[\"slider_set_value\",\"k\",0.9999999999999999]" =
        .ok (.sliderSetValue "k" 0.9999999999999999) ∧
      ViewerMessage.sliderSetValue "k" 0.9999999999999999 ≠ .sliderSetValue "k" 1) ∧
    (parse "[\"slider_set_value\",\"k\",179769313486231570000000000000e279]" =
        .error (.malformed 59) ∧
      parseBy .exact "[\"slider_set_value\",\"k\",179769313486231570000000000000e279]" =
        .ok (.sliderSetValue "k" 1.7976931348623157e308)) := by
  refine ⟨⟨⟨.real _, ofText?_eq_some_iff.1 rfl⟩, ⟨_, .mk true .zero .none .none, rfl, rfl, rfl⟩,
    ?_, ?_⟩, ⟨?_, ?_, ?_⟩, ?_, ?_⟩
  all_goals decide +kernel

end LiveScene.ViewerMessage
