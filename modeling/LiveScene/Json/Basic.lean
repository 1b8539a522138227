/-!
# JSON values and their tokens

A JSON value is a tree (`Json`); its compact text is a sequence of `Token`s with nothing in
between. `Json.tokens` lists the tokens of a value. A value has exactly one such list, so reading
tokens back means finding the value whose list it is.

Objects keep all their members in written order, repeated names included: which members count is
decided by whoever asks for them.
-/

namespace LiveScene

/-- A number: a whole number is kept exactly, any other text stands for a double. -/
inductive Number where
  | int (n : Int)
  | real (x : Float)
deriving DecidableEq

/-- A JSON value. -/
inductive Json where
  | null
  | bool (b : Bool)
  | num (n : Number)
  | str (s : String)
  | arr (items : List Json)
  | obj (members : List (String × Json))

namespace Json

/-- A lexical unit of JSON text. -/
inductive Token where
  | openArray
  | closeArray
  | openObject
  | closeObject
  | comma
  | colon
  | null
  | bool (b : Bool)
  | num (n : Number)
  | str (s : String)
deriving DecidableEq

mutual

/-- The tokens of a value. -/
def tokens : Json → List Token
  | .null => [.null]
  | .bool b => [.bool b]
  | .num n => [.num n]
  | .str s => [.str s]
  | .arr [] => [.openArray, .closeArray]
  | .arr (v :: vs) => .openArray :: (v.tokens ++ itemTokens vs)
  | .obj [] => [.openObject, .closeObject]
  | .obj ((k, v) :: ms) => .openObject :: .str k :: .colon :: (v.tokens ++ memberTokens ms)

/-- The tokens of the items of an array after the first, up to its end. -/
def itemTokens : List Json → List Token
  | [] => [.closeArray]
  | v :: vs => .comma :: (v.tokens ++ itemTokens vs)

/-- The tokens of the members of an object after the first, up to its end. -/
def memberTokens : List (String × Json) → List Token
  | [] => [.closeObject]
  | (k, v) :: ms => .comma :: .str k :: .colon :: (v.tokens ++ memberTokens ms)

end

/-! ## Reading tokens -/

/-- A container that is being read while a value inside it is: the items or members read so far,
the latest first, and for an object the name of the member under way. -/
inductive Open where
  | array (items : List Json)
  | object (members : List (String × Json)) (name : String)

/-- What has been read of a value, with the containers around it from the inside out. -/
inductive Reading where
  /-- a value must follow -/
  | value (outer : List Open)
  /-- an array has just been opened -/
  | firstItem (outer : List Open)
  /-- an array has some items -/
  | afterItem (items : List Json) (outer : List Open)
  /-- an object has just been opened -/
  | firstName (outer : List Open)
  /-- another member of an object must follow -/
  | nextName (members : List (String × Json)) (outer : List Open)
  /-- a member's name has been read -/
  | afterName (members : List (String × Json)) (name : String) (outer : List Open)
  /-- an object has some members -/
  | afterMember (members : List (String × Json)) (outer : List Open)
  /-- the value is complete -/
  | done (v : Json)

namespace Reading

/-- The reading after the value `v` inside the containers `outer`. -/
def complete (v : Json) : List Open → Reading
  | [] => .done v
  | .array items :: outer => .afterItem (v :: items) outer
  | .object members name :: outer => .afterMember ((name, v) :: members) outer

/-- Reads the first token of a value inside the containers `outer`, of which there may be at most
`limit` with the value itself. -/
def start? (limit : Nat) (outer : List Open) : Token → Option Reading
  | .null => some (complete .null outer)
  | .bool b => some (complete (.bool b) outer)
  | .num n => some (complete (.num n) outer)
  | .str s => some (complete (.str s) outer)
  | .openArray => if outer.length < limit then some (.firstItem outer) else none
  | .openObject => if outer.length < limit then some (.firstName outer) else none
  | _ => none

/-- Reads one token. -/
def next? (limit : Nat) : Reading → Token → Option Reading
  | .value outer, t => start? limit outer t
  | .firstItem outer, .closeArray => some (complete (.arr []) outer)
  | .firstItem outer, t => start? limit (.array [] :: outer) t
  | .afterItem items outer, .closeArray => some (complete (.arr items.reverse) outer)
  | .afterItem items outer, .comma => some (.value (.array items :: outer))
  | .firstName outer, .closeObject => some (complete (.obj []) outer)
  | .firstName outer, .str name => some (.afterName [] name outer)
  | .nextName members outer, .str name => some (.afterName members name outer)
  | .afterName members name outer, .colon => some (.value (.object members name :: outer))
  | .afterMember members outer, .closeObject => some (complete (.obj members.reverse) outer)
  | .afterMember members outer, .comma => some (.nextName members outer)
  | _, _ => none

end Reading

/-- The value with these tokens, in which containers nest at most `limit` deep. -/
def ofTokens? (limit : Nat) (ts : List Token) : Option Json :=
  match ts.foldlM (Reading.next? limit) (.value []) with
  | some (.done v) => some v
  | _ => none

/-! ## Asking for parts -/

/-- The members of an object with the given name, in order. -/
def membersNamed (name : String) (members : List (String × Json)) : List Json :=
  (members.filter (·.1 == name)).map (·.2)

/-- The first member with the given name, of an object. -/
def get? (v : Json) (name : String) : Option Json :=
  match v with
  | .obj members => (membersNamed name members).head?
  | _ => none

end Json

end LiveScene
