import LiveScene.Host.Path

/-!
# Routes

The path on which an acceptor waits for viewers is a pattern for the paths of requests. It is
absolute, and each part after the first slash is a `Segment`: it stands for itself, or it ends in a
named parameter, written after a colon, or it is the named rest of the path, written after a star.
A name is never empty, and a part holds one name at most. The rest comes last, at the start of its
part. An acceptor tells at most 25 parameters apart.
-/

namespace LiveScene.Route

/-- What a part of a pattern is. -/
inductive Segment where
  /-- a text that stands for itself -/
  | literal
  /-- a text and, after a colon, the name of whatever follows it up to the next slash -/
  | parameter
  /-- a star and the name of the rest of the path -/
  | rest
deriving DecidableEq

/-- Whether a name begins after a character. -/
def isMark (c : Char) : Bool := c == ':' || c == '*'

/-- What a part of a pattern with this text is, unless it is malformed. -/
def segment? (text : List Char) : Option Segment :=
  let literal := text.takeWhile fun c => !isMark c
  match text.drop literal.length with
  | [] => some .literal
  | mark :: name =>
    if name.isEmpty || name.any isMark then none
    else if mark == ':' then some .parameter
    else if literal.isEmpty then some .rest
    else none

/-- The parts of a pattern after its first slash. -/
def segments? (path : String) : Option (List Segment) :=
  if Path.isAbsolute path then (Path.parts path).tail.mapM fun part => segment? part.toList
  else none

/-- How many parameters a pattern may have. -/
def parameterLimit : Nat := 25

/-- Whether an acceptor can wait on a path. -/
def isValid (path : String) : Bool :=
  match segments? path with
  | some segments =>
    !segments.dropLast.contains .rest && segments.count .parameter ≤ parameterLimit
  | none => false

end LiveScene.Route
