/-!
# Quoted text

The text of a JSON string between its quotes. `encode` writes the quote, the backslash and the
control characters as escapes and everything else as it is. `decode` reads every escape the format
knows, joins two surrogate escapes into one character, and refuses raw control characters, unknown
escapes and surrogates that stand alone. Whatever is written reads back (`decode_encode`).
-/

namespace LiveScene.Json.Quoted

/-- A hexadecimal digit, in lower case. -/
def hexDigit (n : Nat) : Char := Nat.digitChar (n % 16)

/-- How a character is written between quotes. -/
def escape (c : Char) : List Char :=
  match c with
  | '"' => ['\\', '"']
  | '\\' => ['\\', '\\']
  | '\x08' => ['\\', 'b']
  | '\x0c' => ['\\', 'f']
  | '\n' => ['\\', 'n']
  | '\r' => ['\\', 'r']
  | '\t' => ['\\', 't']
  | c =>
    if c.toNat < 0x20 then ['\\', 'u', '0', '0', hexDigit (c.toNat / 16), hexDigit c.toNat]
    else [c]

/-- The text between the quotes. -/
def encode (cs : List Char) : List Char := cs.flatMap escape

/-- The character that a backslash before `c` stands for, `\u` aside. -/
def unescape? : Char → Option Char
  | '"' => some '"'
  | '\\' => some '\\'
  | '/' => some '/'
  | 'b' => some '\x08'
  | 'f' => some '\x0c'
  | 'n' => some '\n'
  | 'r' => some '\r'
  | 't' => some '\t'
  | _ => none

/-- The value of a hexadecimal digit, of either case. -/
def hexValue? (c : Char) : Option Nat :=
  if '0' ≤ c ∧ c ≤ '9' then some (c.toNat - '0'.toNat)
  else if 'a' ≤ c ∧ c ≤ 'f' then some (c.toNat - 'a'.toNat + 10)
  else if 'A' ≤ c ∧ c ≤ 'F' then some (c.toNat - 'A'.toNat + 10)
  else none

/-- The 16-bit unit with these four hexadecimal digits. -/
def unit? (a b c d : Char) : Option Nat := do
  return (((← hexValue? a) * 16 + (← hexValue? b)) * 16 + (← hexValue? c)) * 16 + (← hexValue? d)

/-- Whether a unit is the first half of a pair. -/
def isLeading (u : Nat) : Bool := 0xD800 ≤ u && u < 0xDC00

/-- Whether a unit is the second half of a pair. -/
def isTrailing (u : Nat) : Bool := 0xDC00 ≤ u && u < 0xE000

/-- The character of a pair of units. -/
def ofPair (u v : Nat) : Char := Char.ofNat (0x10000 + (u - 0xD800) * 0x400 + (v - 0xDC00))

/-- The characters that the text between the quotes stands for. -/
def decode : List Char → Option (List Char)
  | [] => some []
  | '\\' :: 'u' :: a :: b :: c :: d :: rest => do
    let u ← unit? a b c d
    if isLeading u then
      match rest with
      | '\\' :: 'u' :: a' :: b' :: c' :: d' :: rest' => do
        let v ← unit? a' b' c' d'
        if isTrailing v then (ofPair u v :: ·) <$> decode rest' else none
      | _ => none
    else if isTrailing u then none
    else (Char.ofNat u :: ·) <$> decode rest
  | '\\' :: c :: rest => do
    let e ← unescape? c
    (e :: ·) <$> decode rest
  | c :: rest => if c.toNat < 0x20 || c == '\\' then none else (c :: ·) <$> decode rest

/-! ## Reading back -/

/-- What `escape` does to control characters without an escape of their own. -/
theorem decode_control : ∀ n < 0x20, ∀ rest : List Char,
    decode ('\\' :: 'u' :: '0' :: '0' :: hexDigit (n / 16) :: hexDigit n :: rest) =
      (decode rest).map (Char.ofNat n :: ·) := by
  intro n hn rest
  have h : unit? '0' '0' (hexDigit (n / 16)) (hexDigit n) = some n := by
    revert n; decide
  have h1 : isLeading n = false := by simp [isLeading]; omega
  have h2 : isTrailing n = false := by simp [isTrailing]; omega
  simp [decode, h, h1, h2]

/-- An escaped character reads as itself. -/
theorem decode_escape (c : Char) (rest : List Char) :
    decode (escape c ++ rest) = (decode rest).map (c :: ·) := by
  unfold escape
  split
  case h_8 _ _ h _ _ _ _ _ =>
    split
    · next hc => simpa using decode_control c.toNat hc rest
    · next hc =>
      rw [List.singleton_append, decode]
      · simp [hc, show c ≠ '\\' from h]
      · intro _ _ _ _ _ e; exact absurd e h
      · intro _ _ e; exact absurd e h
  all_goals simp [decode, unescape?]

/-- What is written reads back. -/
theorem decode_encode (cs : List Char) : decode (encode cs) = some cs := by
  induction cs with
  | nil => rfl
  | cons c cs ih =>
    rw [encode, List.flatMap_cons, decode_escape, ← encode, ih]
    rfl

end LiveScene.Json.Quoted
