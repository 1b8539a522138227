import LiveScene.Json.Number
import LiveScene.Json.Quoted

/-!
# JSON documents

The text of a value (`Json.text`) is its tokens, spelled one after the other. A document
(`Json.ofText?`) is read strictly: blanks may stand between tokens and around them, and nothing
else is added to the format. How numbers are read is a parameter.

Characters are read one at a time. Outside quotes every character is a blank, a quote, a
punctuation mark or part of a word; a word ends where one of the others begins, and must be a number
or one of the three names.
-/

namespace LiveScene.Json

variable (R : Number.Reader)

namespace Token

/-- The characters of a token. -/
def spell : Token → List Char
  | .openArray => ['[']
  | .closeArray => [']']
  | .openObject => ['{']
  | .closeObject => ['}']
  | .comma => [',']
  | .colon => [':']
  | .null => ['n', 'u', 'l', 'l']
  | .bool true => ['t', 'r', 'u', 'e']
  | .bool false => ['f', 'a', 'l', 's', 'e']
  | .num n => n.text
  | .str s => '"' :: (Quoted.encode s.toList ++ ['"'])

/-- The punctuation mark that a character is. -/
def ofMark? : Char → Option Token
  | '[' => some .openArray
  | ']' => some .closeArray
  | '{' => some .openObject
  | '}' => some .closeObject
  | ',' => some .comma
  | ':' => some .colon
  | _ => none

/-- The token that a word is. -/
def ofWord? : List Char → Option Token
  | ['n', 'u', 'l', 'l'] => some .null
  | ['t', 'r', 'u', 'e'] => some (.bool true)
  | ['f', 'a', 'l', 's', 'e'] => some (.bool false)
  | cs => .num <$> Number.ofText? R cs

/-- The token for the text between two quotes. -/
def ofQuoted? (cs : List Char) : Option Token :=
  (.str <| String.ofList ·) <$> Quoted.decode cs

end Token

/-- Whether a character may stand between tokens. -/
def isBlank (c : Char) : Bool := c == ' ' || c == '\t' || c == '\n' || c == '\r'

/-- What the latest characters belong to, the latest first. -/
inductive Pending where
  /-- to no token that is still open -/
  | nothing
  /-- to a word -/
  | word (cs : List Char)
  /-- to quoted text, the last of them perhaps a backslash that takes the next one along -/
  | quoted (cs : List Char) (escaped : Bool)

/-- The tokens read so far, the latest first, and what is still open. -/
structure Scan where
  tokens : List Token
  pending : Pending

namespace Scan

/-- Before the first character. -/
def start : Scan := ⟨[], .nothing⟩

/-- Reads a character when no token is open. -/
def begin (tokens : List Token) (c : Char) : Scan :=
  if isBlank c then ⟨tokens, .nothing⟩
  else if c == '"' then ⟨tokens, .quoted [] false⟩
  else match Token.ofMark? c with
    | some t => ⟨t :: tokens, .nothing⟩
    | none => ⟨tokens, .word [c]⟩

/-- Whether a word ends before `c`. -/
def endsWord (c : Char) : Bool := isBlank c || c == '"' || (Token.ofMark? c).isSome

/-- Reads a character. -/
def next? (s : Scan) (c : Char) : Option Scan :=
  match s.pending with
  | .nothing => some (begin s.tokens c)
  | .word cs =>
    if endsWord c then do
      let t ← Token.ofWord? R cs.reverse
      some (begin (t :: s.tokens) c)
    else some ⟨s.tokens, .word (c :: cs)⟩
  | .quoted cs true => some ⟨s.tokens, .quoted (c :: cs) false⟩
  | .quoted cs false =>
    if c == '"' then do
      let t ← Token.ofQuoted? cs.reverse
      some ⟨t :: s.tokens, .nothing⟩
    else some ⟨s.tokens, .quoted (c :: cs) (c == '\\')⟩

/-- All the tokens, at the end of the text. -/
def finish? (s : Scan) : Option (List Token) :=
  match s.pending with
  | .nothing => some s.tokens.reverse
  | .word cs => do
    let t ← Token.ofWord? R cs.reverse
    some (t :: s.tokens).reverse
  | .quoted .. => none

end Scan

/-- The tokens of a text. -/
def scan? (cs : List Char) : Option (List Token) := do
  let s ← cs.foldlM (Scan.next? R) Scan.start
  s.finish? R

/-- The compact text of a value. -/
def text (v : Json) : String := String.ofList (v.tokens.flatMap Token.spell)

/-- The value that a text denotes, in which containers nest at most `limit` deep. -/
def ofText? (limit : Nat) (s : String) : Option Json := do
  let ts ← scan? R s.toList
  ofTokens? limit ts

/-- The characters of a value's text. -/
theorem toList_text (v : Json) : v.text.toList = v.tokens.flatMap Token.spell := by
  simp [text]

/-- The items of an array after the first are written after commas. -/
theorem text_itemTokens (vs : List Json) :
    (itemTokens vs).flatMap Token.spell = vs.flatMap (fun v => ',' :: v.text.toList) ++ [']'] := by
  induction vs with
  | nil => rfl
  | cons v vs ih => simp [itemTokens, List.flatMap_append, ih, toList_text, Token.spell]

end LiveScene.Json
