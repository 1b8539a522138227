import LiveScene.Json.Quoted

/-!
# Quoted text

What text between quotes means (`Means`): characters that stand for themselves, which are neither
control characters nor quotes nor backslashes, escapes with a letter, escapes with a 16-bit unit
that is no surrogate, and two of these for a leading and a trailing surrogate. Such text consists of
whole segments (`Segments`), so it ends where the next quote stands. Decoding finds exactly what
segments mean (`means_iff`), and what is encoded means what it was (`means_encode`).
-/

namespace LiveScene.Json.Quoted

/-- The text `cs` between quotes means the characters `s`. -/
inductive Means : List Char → List Char → Prop where
  | nil : Means [] []
  | plain {c : Char} {cs s : List Char} (hcontrol : 0x20 ≤ c.toNat) (hquote : c ≠ '"')
    (hslash : c ≠ '\\') (h : Means cs s) : Means (c :: cs) (c :: s)
  | escape {c e : Char} {cs s : List Char} (hc : unescape? c = some e) (h : Means cs s) :
    Means ('\\' :: c :: cs) (e :: s)
  | unit {a b c d : Char} {u : Nat} {cs s : List Char} (hu : unit? a b c d = some u)
    (hleading : isLeading u = false) (htrailing : isTrailing u = false) (h : Means cs s) :
    Means ('\\' :: 'u' :: a :: b :: c :: d :: cs) (Char.ofNat u :: s)
  | pair {a b c d a' b' c' d' : Char} {u v : Nat} {cs s : List Char} (hu : unit? a b c d = some u)
    (hv : unit? a' b' c' d' = some v) (hleading : isLeading u) (htrailing : isTrailing v)
    (h : Means cs s) :
    Means ('\\' :: 'u' :: a :: b :: c :: d :: '\\' :: 'u' :: a' :: b' :: c' :: d' :: cs)
      (ofPair u v :: s)

/-- Text in which no quote stands but after a backslash, and no backslash is left over. -/
inductive Segments : List Char → Prop where
  | nil : Segments []
  | plain {c : Char} {cs : List Char} (hquote : c ≠ '"') (hslash : c ≠ '\\') (h : Segments cs) :
    Segments (c :: cs)
  | escape {c : Char} {cs : List Char} (h : Segments cs) : Segments ('\\' :: c :: cs)

/-! ## Segments -/

variable {a b c d : Char} {cs s : List Char} {u : Nat}

/-- A hexadecimal digit stands for itself. -/
theorem plain_of_hexValue? {n : Nat} (h : hexValue? c = some n) : c ≠ '"' ∧ c ≠ '\\' := by
  constructor
  · rintro rfl
    cases h
  · rintro rfl
    cases h

theorem hexValue?_of_unit? (h : unit? a b c d = some u) :
    (∃ n, hexValue? a = some n) ∧ (∃ n, hexValue? b = some n) ∧
      (∃ n, hexValue? c = some n) ∧ ∃ n, hexValue? d = some n := by
  simp only [unit?, Option.bind_eq_bind, Option.bind_eq_some_iff] at h
  obtain ⟨i, hi, j, hj, k, hk, l, hl, -⟩ := h
  exact ⟨⟨i, hi⟩, ⟨j, hj⟩, ⟨k, hk⟩, l, hl⟩

theorem segments_cons_iff (hquote : c ≠ '"') (hslash : c ≠ '\\') :
    Segments (c :: cs) ↔ Segments cs := by
  constructor
  · intro h
    cases h with
    | plain _ _ h => exact h
    | escape _ => exact absurd rfl hslash
  · exact .plain hquote hslash

theorem segments_escape_iff : Segments ('\\' :: c :: cs) ↔ Segments cs := by
  constructor
  · intro h
    cases h with
    | plain _ hslash _ => exact absurd rfl hslash
    | escape h => exact h
  · exact .escape

theorem segments_unit_iff (h : unit? a b c d = some u) :
    Segments ('\\' :: 'u' :: a :: b :: c :: d :: cs) ↔ Segments cs := by
  obtain ⟨⟨_, ha⟩, ⟨_, hb⟩, ⟨_, hc⟩, _, hd⟩ := hexValue?_of_unit? h
  rw [segments_escape_iff, segments_cons_iff (plain_of_hexValue? ha).1 (plain_of_hexValue? ha).2,
    segments_cons_iff (plain_of_hexValue? hb).1 (plain_of_hexValue? hb).2,
    segments_cons_iff (plain_of_hexValue? hc).1 (plain_of_hexValue? hc).2,
    segments_cons_iff (plain_of_hexValue? hd).1 (plain_of_hexValue? hd).2]

theorem Means.segments (h : Means cs s) : Segments cs := by
  induction h with
  | nil => exact .nil
  | plain _ hquote hslash _ ih => exact .plain hquote hslash ih
  | escape _ _ ih => exact .escape ih
  | unit hu _ _ _ ih => exact (segments_unit_iff hu).2 ih
  | pair hu hv _ _ _ ih => exact (segments_unit_iff hu).2 ((segments_unit_iff hv).2 ih)

/-! ## Decoding -/

theorem decode_of_means (h : Means cs s) : decode cs = some s := by
  induction h with
  | nil => rfl
  | @plain c cs s hcontrol hquote hslash _ ih =>
    rw [decode]
    · simp [hslash, ih, Nat.not_lt.2 hcontrol]
    · exact fun _ _ _ _ _ h => absurd h hslash
    · exact fun _ _ h => absurd h hslash
  | @escape c e cs s hc _ ih =>
    have hu : c ≠ 'u' := by
      rintro rfl
      cases hc
    rw [decode]
    · simp [hc, ih]
    · exact fun _ _ _ _ _ h => absurd h hu
  | unit hu hleading htrailing _ ih => simp [decode, hu, hleading, htrailing, ih]
  | pair hu hv hleading htrailing _ ih => simp [decode, hu, hv, hleading, htrailing, ih]

theorem means_of_decode (hcs : Segments cs) (h : decode cs = some s) : Means cs s := by
  fun_induction decode cs generalizing s with
  | case1 =>
    cases h
    exact .nil
  | case2 a b c d rest hsecond hrest =>
    simp only [Option.bind_eq_bind, Option.bind_eq_some_iff] at h
    obtain ⟨u, hu, h⟩ := h
    rw [segments_unit_iff hu] at hcs
    split at h
    · next hleading =>
      split at h
      · simp only [Option.bind_eq_some_iff] at h
        obtain ⟨v, hv, h⟩ := h
        rw [segments_unit_iff hv] at hcs
        split at h
        · next htrailing =>
          obtain ⟨s', hs', rfl⟩ := Option.map_eq_some_iff.1 h
          exact .pair hu hv hleading htrailing (hsecond hcs hs')
        · cases h
      · cases h
    · next hleading =>
      split at h
      · cases h
      · next htrailing =>
        obtain ⟨s', hs', rfl⟩ := Option.map_eq_some_iff.1 h
        exact .unit hu (Bool.eq_false_iff.2 hleading) (Bool.eq_false_iff.2 htrailing)
          (hrest hcs hs')
  | case3 c rest _ hrest =>
    simp only [Option.bind_eq_bind, Option.bind_eq_some_iff] at h
    obtain ⟨e, he, h⟩ := h
    obtain ⟨s', hs', rfl⟩ := Option.map_eq_some_iff.1 h
    exact .escape he (hrest (segments_escape_iff.1 hcs) hs')
  | case4 => cases h
  | case5 c rest _ _ hc hrest =>
    obtain ⟨s', hs', rfl⟩ := Option.map_eq_some_iff.1 h
    obtain ⟨hcontrol, hslash⟩ : 0x20 ≤ c.toNat ∧ c ≠ '\\' := by simpa using hc
    cases hcs with
    | plain hquote _ hcs => exact .plain hcontrol hquote hslash (hrest hcs hs')
    | escape _ => exact absurd rfl hslash

/-- The text between quotes means what it is decoded to, if it is whole segments. -/
theorem means_iff : Means cs s ↔ Segments cs ∧ decode cs = some s :=
  ⟨fun h => ⟨h.segments, decode_of_means h⟩, fun h => means_of_decode h.1 h.2⟩

/-! ## Encoding -/

theorem segments_hexDigit (n : Nat) (h : Segments cs) : Segments (hexDigit n :: cs) := by
  have hplain : ∀ m < 16, Nat.digitChar m ≠ '"' ∧ Nat.digitChar m ≠ '\\' := by decide
  have hn := hplain (n % 16) (Nat.mod_lt _ (by decide))
  exact .plain hn.1 hn.2 h

theorem segments_escape (c : Char) (h : Segments cs) : Segments (escape c ++ cs) := by
  unfold escape
  split
  case h_8 hquote hslash _ _ _ _ _ =>
    split
    · have hdigits := segments_hexDigit (c.toNat / 16) (segments_hexDigit c.toNat h)
      exact .escape (.plain (by decide) (by decide) (.plain (by decide) (by decide) hdigits))
    · exact .plain hquote hslash h
  all_goals exact .escape h

theorem segments_encode (s : List Char) : Segments (encode s) := by
  induction s with
  | nil => exact .nil
  | cons c s ih => exact segments_escape c ih

/-- What is encoded means what it was. -/
theorem means_encode (s : List Char) : Means (encode s) s :=
  means_iff.2 ⟨segments_encode s, decode_encode s⟩

end LiveScene.Json.Quoted
