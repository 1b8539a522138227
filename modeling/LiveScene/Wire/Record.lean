import LiveScene.Json.Document

/-!
# Tagged records

A record is a tag with the values of the fields declared for it. It is written as an object whose
first member, `type`, holds the tag and whose other members are the fields in declared order. It is
read from two forms: such an object with its members in any order, among them exactly one `type` and
exactly one of each declared field, while other members are ignored however often they occur; or an
array of the tag and the values, of exactly that length.
-/

namespace LiveScene

/-- The spelling of a tag after the name of its variant: the words of the name in lower case, joined
by underscores. -/
def snakeCase (variant : String) : String :=
  match variant.toList with
  | [] => ""
  | c :: cs =>
    String.ofList (c.toLower ::
      cs.flatMap fun c => if c.isUpper then ['_', c.toLower] else [c.toLower])

/-- The tags of a family of records: how each is spelled, and which fields it declares. -/
structure Schema (Tag : Type) where
  /-- the spelling of a tag -/
  name : Tag → String
  /-- the tag with a spelling -/
  tag? : String → Option Tag
  /-- the names of the fields, in declared order -/
  fields : Tag → List String

namespace Schema

variable {Tag : Type}

/-- The name of the member that holds the tag. -/
def tagField : String := "type"

/-- How deep the containers of a document may nest. -/
def depthLimit : Nat := 127

/-- The record with a tag and its field values, as an object. -/
def record (s : Schema Tag) (t : Tag) (values : List Json) : Json :=
  .obj ((tagField, .str (s.name t)) :: (s.fields t).zip values)

/-- The element of a list that has exactly one. -/
def only? {α : Type} : List α → Option α
  | [x] => some x
  | _ => none

/-- The tag that a value spells. -/
def tagOf? (s : Schema Tag) : Json → Option Tag
  | .str name => s.tag? name
  | _ => none

/-- The tag and the field values, in declared order, of a record in either form. -/
def split? (s : Schema Tag) : Json → Option (Tag × List Json)
  | .obj members => do
    let t ← s.tagOf? (← only? (Json.membersNamed tagField members))
    let values ← (s.fields t).mapM fun f => only? (Json.membersNamed f members)
    return (t, values)
  | .arr (tag :: values) => do
    let t ← s.tagOf? tag
    if values.length = (s.fields t).length then some (t, values) else none
  | _ => none

end Schema

end LiveScene
