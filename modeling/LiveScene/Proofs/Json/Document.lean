import LiveScene.Json.Document
import LiveScene.Proofs.Json.Quoted
import LiveScene.Proofs.Json.Tokens

/-!
# Documents and their grammar

A document is the text of a value (`Document`): the spellings of the value's tokens, one after the
other, with any blanks between and around them (`Spaced`). A token is spelled by a punctuation mark,
by one of three names, by a numeral that stands for a number, or by text between quotes
(`Token.Spelling`). Documents and nothing else are read, as the value they are the text of
(`ofText?_eq_some_iff`). Which numerals stand for a number is up to the reader of numbers.

Scanning is followed character by character. What is still to come of an open token is found in the
characters that remain (`Scan.Leaves`), so whatever is scanned was spelled (`spaced_of_scan?`). The
other way, a word is known to be complete only when the next character comes: either no token is
open, or the latest is a word that is still pending (`Scan.After`). No word follows another among
the tokens of a value, so what is spelled is scanned (`scan?_of_spaced`).
-/

namespace LiveScene.Json

variable {R : Number.Reader}

/-! ## The grammar -/

namespace Token

/-- The punctuation marks. -/
inductive Mark : Char → Token → Prop where
  | openArray : Mark '[' .openArray
  | closeArray : Mark ']' .closeArray
  | openObject : Mark '{' .openObject
  | closeObject : Mark '}' .closeObject
  | comma : Mark ',' .comma
  | colon : Mark ':' .colon

/-- The names and numerals. -/
inductive Word (R : Number.Reader) : List Char → Token → Prop where
  | null : Word R ['n', 'u', 'l', 'l'] .null
  | yes : Word R ['t', 'r', 'u', 'e'] (.bool true)
  | no : Word R ['f', 'a', 'l', 's', 'e'] (.bool false)
  | num {cs : List Char} {p : Number.Parts} {n : Number} (h : Number.Numeral cs p)
    (hn : p.StandsFor R n) : Word R cs (.num n)

/-- How a token may be spelled. -/
inductive Spelling (R : Number.Reader) : List Char → Token → Prop where
  | mark {c : Char} {t : Token} (h : Mark c t) : Spelling R [c] t
  | word {cs : List Char} {t : Token} (h : Word R cs t) : Spelling R cs t
  | quoted {cs s : List Char} (h : Quoted.Means cs s) :
    Spelling R ('"' :: (cs ++ ['"'])) (.str (String.ofList s))

end Token

/-- Spellings of the tokens `ts`, with blanks between and around them. -/
inductive Spaced (R : Number.Reader) : List Char → List Token → Prop where
  | nil {bs : List Char} (hbs : ∀ c ∈ bs, isBlank c) : Spaced R bs []
  | cons {bs cs rest : List Char} {t : Token} {ts : List Token} (hbs : ∀ c ∈ bs, isBlank c)
    (ht : Token.Spelling R cs t) (hrest : Spaced R rest ts) :
    Spaced R (bs ++ (cs ++ rest)) (t :: ts)

/-- The text of the value `v`, whose containers nest at most `limit` deep. -/
structure Document (R : Number.Reader) (limit : Nat) (text : String) (v : Json) : Prop where
  spaced : Spaced R text.toList v.tokens
  within : Within limit v

/-! ## Tokens -/

namespace Token

variable {c : Char} {cs : List Char} {t : Token}

theorem ofMark?_eq_some_iff : ofMark? c = some t ↔ Mark c t := by
  constructor
  · intro h
    unfold ofMark? at h
    split at h <;> cases h
    · exact .openArray
    · exact .closeArray
    · exact .openObject
    · exact .closeObject
    · exact .comma
    · exact .colon
  · intro h
    cases h <;> rfl

/-- A numeral is none of the three names, because it starts with none of their letters. -/
theorem ofWord?_of_numeral {p : Number.Parts} (h : Number.Numeral cs p) :
    ofWord? R cs = .num <$> Number.ofText? R cs := by
  have hletter {c : Char} {ds : List Char} (heq : cs = c :: ds) : Number.isNumeral c = true :=
    h.isNumeral.2 c (by rw [heq]; exact List.mem_cons_self)
  rw [ofWord?]
  all_goals exact fun heq => absurd (hletter heq) (by decide)

theorem ofWord?_eq_some_iff : ofWord? R cs = some t ↔ Word R cs t := by
  constructor
  · intro h
    unfold ofWord? at h
    split at h
    · cases h
      exact .null
    · cases h
      exact .yes
    · cases h
      exact .no
    · obtain ⟨n, hn, rfl⟩ := Option.map_eq_some_iff.1 h
      obtain ⟨p, hp, hn⟩ := Number.ofText?_eq_some_iff.1 hn
      exact .num hp hn
  · intro h
    cases h with
    | null => rfl
    | yes => rfl
    | no => rfl
    | @num _ p n h hn =>
      rw [ofWord?_of_numeral h, Number.ofText?_eq_some_iff.2 ⟨p, h, hn⟩]
      rfl

theorem ofQuoted?_eq_some_iff (hcs : Quoted.Segments cs) :
    ofQuoted? cs = some t ↔ ∃ s, Quoted.Means cs s ∧ t = .str (String.ofList s) := by
  simp only [ofQuoted?, Option.map_eq_map, Option.map_eq_some_iff, Quoted.means_iff, hcs, true_and,
    eq_comm (a := t)]

theorem Word.isWord (h : Word R cs t) : t.isWord = true := by
  cases h <;> rfl

end Token

namespace Scan

/-- The characters that end words. -/
theorem mem_of_endsWord {c : Char} (h : endsWord c = true) :
    c ∈ [' ', '\t', '\n', '\r', '"', '[', ']', '{', '}', ',', ':'] := by
  have hmark : (Token.ofMark? c).isSome → c ∈ ['[', ']', '{', '}', ',', ':'] := by
    unfold Token.ofMark?
    split <;> simp
  rw [endsWord, isBlank] at h
  simp only [Bool.or_eq_true, beq_iff_eq] at h
  rcases h with ((((rfl | rfl) | rfl) | rfl) | rfl) | h
  case inr => exact List.mem_append_right [' ', '\t', '\n', '\r', '"'] (hmark h)
  all_goals decide

theorem endsWord_of_isNumeral {c : Char} (h : Number.isNumeral c = true) : endsWord c = false := by
  rw [Bool.eq_false_iff]
  intro hend
  have hnone : [' ', '\t', '\n', '\r', '"', '[', ']', '{', '}', ',', ':'].all
      fun d => !Number.isNumeral d := by decide
  have hc := List.all_eq_true.1 hnone c (mem_of_endsWord hend)
  rw [h] at hc
  cases hc

theorem endsWord_of_word {cs : List Char} {t : Token} (h : Token.Word R cs t) :
    cs ≠ [] ∧ ∀ c ∈ cs, endsWord c = false := by
  cases h with
  | num h _ => exact ⟨h.isNumeral.1, fun c hc => endsWord_of_isNumeral (h.isNumeral.2 c hc)⟩
  | _ =>
    refine ⟨List.cons_ne_nil _ _, fun c hc => ?_⟩
    simp only [List.mem_cons, List.not_mem_nil, or_false] at hc
    rcases hc with rfl | rfl | rfl | rfl | rfl <;> rfl

/-! ## What is scanned was spelled -/

/-- The characters `cs` spell what is still to come of an open token, and the tokens after it. -/
def Leaves (R : Number.Reader) (cs : List Char) (us : List Token) : Pending → Prop
  | .nothing => Spaced R cs us
  | .word w => ∃ ds rest t ts, cs = ds ++ rest ∧ us = t :: ts ∧
      Token.Word R (w.reverse ++ ds) t ∧ Spaced R rest ts
  | .quoted q escaped => ∃ ds rest t ts, cs = ds ++ '"' :: rest ∧ us = t :: ts ∧
      Quoted.Segments (if escaped then '\\' :: ds else ds) ∧
      Token.ofQuoted? (q.reverse ++ ds) = some t ∧ Spaced R rest ts

theorem spaced_blank {c : Char} {cs : List Char} {ts : List Token} (hc : isBlank c)
    (h : Spaced R cs ts) : Spaced R (c :: cs) ts := by
  cases h with
  | nil hbs => exact .nil (List.forall_mem_cons.2 ⟨hc, hbs⟩)
  | cons hbs ht hrest => exact .cons (List.forall_mem_cons.2 ⟨hc, hbs⟩) ht hrest

theorem spaced_token {cs rest : List Char} {t : Token} {ts : List Token}
    (ht : Token.Spelling R cs t) (h : Spaced R rest ts) : Spaced R (cs ++ rest) (t :: ts) :=
  @Spaced.cons R [] _ _ _ _ (by simp) ht h

/-- When no token is open, the first character is a blank or begins a token. -/
theorem spaced_of_begin {before ts us : List Token} {c : Char} {cs : List Char}
    (hts : ts = (begin before c).tokens.reverse ++ us)
    (h : Leaves R cs us (begin before c).pending) :
    ∃ us, ts = before.reverse ++ us ∧ Spaced R (c :: cs) us := by
  unfold begin at hts h
  split at h
  · next hblank =>
    rw [if_pos hblank] at hts
    exact ⟨us, hts, spaced_blank hblank h⟩
  · next hblank =>
    rw [if_neg hblank] at hts
    split at h
    · next hquote =>
      rw [if_pos hquote] at hts
      obtain ⟨ds, rest, t, ts', rfl, rfl, hsegments, ht, hrest⟩ := h
      have hwhole : Quoted.Segments ds := hsegments
      obtain ⟨s, hs, rfl⟩ := (Token.ofQuoted?_eq_some_iff hwhole).1 ht
      rw [beq_iff_eq.1 hquote]
      refine ⟨_, hts, ?_⟩
      simpa using spaced_token (.quoted hs) hrest
    · next hquote =>
      rw [if_neg hquote] at hts
      split at h
      · next t ht =>
        rw [ht] at hts
        have hmark := Token.ofMark?_eq_some_iff.1 ht
        exact ⟨t :: us, by simpa using hts, spaced_token (.mark hmark) h⟩
      · next ht =>
        rw [ht] at hts
        obtain ⟨ds, rest, t, ts', rfl, rfl, hword, hrest⟩ := h
        exact ⟨_, hts, spaced_token (.word hword) hrest⟩

/-- Whatever is scanned from some state on was spelled. -/
theorem leaves_of_foldlM {cs : List Char} {s s' : Scan} {ts : List Token}
    (h : cs.foldlM (Scan.next? R) s = some s') (hts : s'.finish? R = some ts) :
    ∃ us, ts = s.tokens.reverse ++ us ∧ Leaves R cs us s.pending := by
  induction cs generalizing s with
  | nil =>
    obtain ⟨before, pending⟩ := s
    cases h
    cases pending with
    | nothing =>
      cases hts
      exact ⟨[], by simp, .nil (by simp)⟩
    | word w =>
      simp only [finish?, Option.bind_eq_bind, Option.bind_eq_some_iff] at hts
      obtain ⟨t, ht, ⟨⟩⟩ := hts
      have hword : Token.Word R (w.reverse ++ []) t := by
        rw [List.append_nil]
        exact Token.ofWord?_eq_some_iff.1 ht
      exact ⟨[t], by simp, [], [], t, [], rfl, rfl, hword, .nil (by simp)⟩
    | quoted q escaped => cases hts
  | cons c cs ih =>
    rw [List.foldlM_cons, Option.bind_eq_bind, Option.bind_eq_some_iff] at h
    obtain ⟨s₁, hnext, h⟩ := h
    obtain ⟨us, hus, hleaves⟩ := ih h
    obtain ⟨before, pending⟩ := s
    cases pending with
    | nothing =>
      cases hnext
      exact spaced_of_begin hus hleaves
    | word w =>
      simp only [next?] at hnext
      split at hnext
      · simp only [Option.bind_eq_bind, Option.bind_eq_some_iff] at hnext
        obtain ⟨t, ht, ⟨⟩⟩ := hnext
        obtain ⟨us, rfl, hrest⟩ := spaced_of_begin hus hleaves
        have hword : Token.Word R (w.reverse ++ []) t := by
          rw [List.append_nil]
          exact Token.ofWord?_eq_some_iff.1 ht
        exact ⟨t :: us, by simp, [], c :: cs, t, us, rfl, rfl, hword, hrest⟩
      · cases hnext
        obtain ⟨ds, rest, t, ts', rfl, rfl, hword, hrest⟩ := hleaves
        exact ⟨_, hus, c :: ds, rest, t, ts', rfl, rfl, by simpa using hword, hrest⟩
    | quoted q escaped =>
      cases escaped with
      | true =>
        cases hnext
        obtain ⟨ds, rest, t, ts', rfl, rfl, hsegments, ht, hrest⟩ := hleaves
        exact ⟨_, hus, c :: ds, rest, t, ts', rfl, rfl, .escape hsegments, by simpa using ht, hrest⟩
      | false =>
        simp only [next?] at hnext
        split at hnext
        · next hquote =>
          simp only [Option.bind_eq_bind, Option.bind_eq_some_iff] at hnext
          obtain ⟨t, ht, ⟨⟩⟩ := hnext
          rw [beq_iff_eq.1 hquote]
          exact ⟨t :: us, by simpa using hus, [], cs, t, us, rfl, rfl, .nil, by simpa using ht,
            hleaves⟩
        · next hquote =>
          cases hnext
          obtain ⟨ds, rest, t, ts', rfl, rfl, hsegments, ht, hrest⟩ := hleaves
          refine ⟨_, hus, c :: ds, rest, t, ts', rfl, rfl, ?_, by simpa using ht, hrest⟩
          have hquote : c ≠ '"' := by simpa using hquote
          by_cases hslash : c = '\\'
          · simpa [hslash] using hsegments
          · exact .plain hquote hslash (by simpa [hslash] using hsegments)

/-! ## What is spelled is scanned -/

/-- The tokens `ts`, the latest first, have been read, the latest perhaps a pending word. -/
inductive After (R : Number.Reader) : List Token → Scan → Prop where
  | settled (ts : List Token) : After R ts ⟨ts, .nothing⟩
  | word {ts : List Token} {t : Token} {cs : List Char} (h : Token.Word R cs.reverse t) :
    After R (t :: ts) ⟨ts, .word cs⟩

variable {before : List Token} {s : Scan}

theorem After.finish? (h : After R before s) : s.finish? R = some before.reverse := by
  cases h with
  | settled => rfl
  | word h => simp [Scan.finish?, Token.ofWord?_eq_some_iff.2 h]

/-- A character that ends words begins something new. -/
theorem After.next? (h : After R before s) {c : Char} (hc : endsWord c = true) :
    s.next? R c = some (begin before c) := by
  cases h with
  | settled => rfl
  | word h => simp [Scan.next?, hc, Token.ofWord?_eq_some_iff.2 h]

/-- Blanks end a pending word, and nothing else. -/
theorem foldlM_blanks {bs : List Char} (hbs : ∀ c ∈ bs, isBlank c) (h : After R before s) :
    bs.foldlM (Scan.next? R) s = some s ∨
      bs.foldlM (Scan.next? R) s = some ⟨before, .nothing⟩ := by
  induction bs generalizing s with
  | nil => exact .inl rfl
  | cons c bs ih =>
    obtain ⟨hc, hbs⟩ := List.forall_mem_cons.1 hbs
    have hbegin : begin before c = ⟨before, .nothing⟩ := if_pos hc
    have hrest := ih hbs (.settled before)
    rw [List.foldlM_cons, h.next? (by simp [endsWord, hc]), hbegin]
    exact .inr (hrest.elim id id)

theorem foldlM_mark {c : Char} {t : Token} (ht : Token.Mark c t) (h : After R before s) :
    [c].foldlM (Scan.next? R) s = some ⟨t :: before, .nothing⟩ := by
  have hmark := Token.ofMark?_eq_some_iff.2 ht
  have hbegin : begin before c = ⟨t :: before, .nothing⟩ := by
    cases ht <;> rfl
  rw [List.foldlM_cons, h.next? (by simp [endsWord, hmark]), hbegin]
  rfl

/-- Between quotes, whole segments are taken up. -/
theorem foldlM_segments {cs : List Char} (hcs : Quoted.Segments cs) (pre : List Char) :
    cs.foldlM (Scan.next? R) ⟨before, .quoted pre false⟩ =
      some ⟨before, .quoted (cs.reverse ++ pre) false⟩ := by
  induction hcs generalizing pre with
  | nil => rfl
  | @plain c cs hquote hslash _ ih =>
    have hrest := ih (c :: pre)
    have hfirst : Scan.next? R ⟨before, .quoted pre false⟩ c =
        some ⟨before, .quoted (c :: pre) false⟩ := by
      simp [Scan.next?, hquote, hslash]
    rw [List.foldlM_cons, hfirst, List.reverse_cons, List.append_assoc, List.singleton_append]
    exact hrest
  | @escape c cs _ ih =>
    have hrest := ih (c :: '\\' :: pre)
    simpa [Scan.next?] using hrest

theorem foldlM_quoted {cs s' : List Char} (hcs : Quoted.Means cs s') (h : After R before s) :
    ('"' :: (cs ++ ['"'])).foldlM (Scan.next? R) s =
      some ⟨.str (String.ofList s') :: before, .nothing⟩ := by
  have hopen : begin before '"' = ⟨before, .quoted [] false⟩ := rfl
  have htoken := (Token.ofQuoted?_eq_some_iff hcs.segments).2 ⟨s', hcs, rfl⟩
  rw [List.foldlM_cons, h.next? rfl, hopen]
  simp only [Option.bind_eq_bind, Option.bind_some, List.foldlM_append]
  rw [foldlM_segments hcs.segments, List.append_nil]
  simp [Scan.next?, htoken]

theorem foldlM_pending {ds : List Char} (hds : ∀ c ∈ ds, endsWord c = false) (cs : List Char) :
    ds.foldlM (Scan.next? R) ⟨before, .word cs⟩ = some ⟨before, .word (ds.reverse ++ cs)⟩ := by
  induction ds generalizing cs with
  | nil => rfl
  | cons c ds ih =>
    obtain ⟨hc, hds⟩ := List.forall_mem_cons.1 hds
    have hrest := ih hds (c :: cs)
    rw [List.reverse_cons, List.append_assoc, List.singleton_append]
    simpa [Scan.next?, hc] using hrest

/-- When no token is open, the characters of a word are read and stay pending. -/
theorem foldlM_word {cs : List Char} (hne : cs ≠ []) (hchars : ∀ c ∈ cs, endsWord c = false) :
    cs.foldlM (Scan.next? R) ⟨before, .nothing⟩ = some ⟨before, .word cs.reverse⟩ := by
  cases cs with
  | nil => exact absurd rfl hne
  | cons c ds =>
    obtain ⟨hc, hds⟩ := List.forall_mem_cons.1 hchars
    have hfirst : Scan.next? R ⟨before, .nothing⟩ c = some ⟨before, .word [c]⟩ := by
      simp only [endsWord, Bool.or_eq_false_iff, Option.isSome_eq_false_iff,
        Option.isNone_iff_eq_none] at hc
      simp [Scan.next?, begin, hc]
    rw [List.foldlM_cons, hfirst, List.reverse_cons]
    exact foldlM_pending hds [c]

/-- A token is read after others, unless it is a word that would follow a word. -/
theorem exists_after_token {cs : List Char} {t : Token} (ht : Token.Spelling R cs t)
    (h : After R before s) (hwords : ∀ u ∈ before.head?, u.isWord = true → t.isWord = false) :
    ∃ s', After R (t :: before) s' ∧ cs.foldlM (Scan.next? R) s = some s' := by
  cases ht with
  | mark ht => exact ⟨_, .settled _, foldlM_mark ht h⟩
  | quoted ht => exact ⟨_, .settled _, foldlM_quoted ht h⟩
  | word ht =>
    cases h with
    | settled =>
      obtain ⟨hne, hchars⟩ := endsWord_of_word ht
      exact ⟨_, .word (by rwa [List.reverse_reverse]), foldlM_word hne hchars⟩
    | @word _ u _ hu =>
      have hno := hwords u rfl hu.isWord
      rw [ht.isWord] at hno
      cases hno

/-- Spelled tokens of which no two words follow each other are read. -/
theorem foldlM_spaced {cs : List Char} {ts : List Token} (hcs : Spaced R cs ts)
    (h : After R before s) (hts : Spread ts)
    (hwords : ∀ u ∈ before.head?, u.isWord = true → ∀ t ∈ ts.head?, t.isWord = false) :
    ∃ s', After R (ts.reverse ++ before) s' ∧ cs.foldlM (Scan.next? R) s = some s' := by
  induction hcs generalizing before s with
  | nil hbs =>
    rcases foldlM_blanks hbs h with hblanks | hblanks
    · exact ⟨_, h, hblanks⟩
    · exact ⟨_, .settled before, hblanks⟩
  | @cons bs cs rest t ts hbs ht _ ih =>
    obtain ⟨s₁, h₁, hblanks⟩ : ∃ s₁, After R before s₁ ∧ bs.foldlM (Scan.next? R) s = some s₁ := by
      rcases foldlM_blanks hbs h with hblanks | hblanks
      · exact ⟨_, h, hblanks⟩
      · exact ⟨_, .settled before, hblanks⟩
    obtain ⟨s₂, h₂, htoken⟩ := exists_after_token ht h₁ fun u hu hword => hwords u hu hword t rfl
    obtain ⟨hnext, hspread⟩ := List.isChain_cons.1 hts
    obtain ⟨s₃, h₃, hrest⟩ := ih h₂ hspread fun u hu hword v hv => by
      cases hu
      exact hnext v hv hword
    refine ⟨s₃, by simpa using h₃, ?_⟩
    rw [List.foldlM_append, hblanks, Option.bind_eq_bind, Option.bind_some, List.foldlM_append,
      htoken]
    exact hrest

end Scan

/-- Whatever is scanned was spelled. -/
theorem spaced_of_scan? {cs : List Char} {ts : List Token} (h : scan? R cs = some ts) :
    Spaced R cs ts := by
  rw [scan?, Option.bind_eq_bind, Option.bind_eq_some_iff] at h
  obtain ⟨s, hs, hts⟩ := h
  obtain ⟨us, rfl, hleaves⟩ := Scan.leaves_of_foldlM hs hts
  exact hleaves

/-- What is spelled is scanned, if no word follows another. -/
theorem scan?_of_spaced {cs : List Char} {ts : List Token} (h : Spaced R cs ts) (hts : Spread ts) :
    scan? R cs = some ts := by
  obtain ⟨s, hs, hread⟩ := Scan.foldlM_spaced h (.settled []) hts (by simp)
  rw [List.append_nil] at hs
  rw [scan?, Scan.start, hread]
  simpa using hs.finish?

/-! ## Reading -/

/-- Documents and nothing else are read, as the value they are the text of. -/
theorem ofText?_eq_some_iff {limit : Nat} {text : String} {v : Json} :
    ofText? R limit text = some v ↔ Document R limit text v := by
  rw [ofText?, Option.bind_eq_bind, Option.bind_eq_some_iff]
  constructor
  · rintro ⟨ts, hscan, htokens⟩
    obtain ⟨rfl, hwithin⟩ := ofTokens?_eq_some_iff.1 htokens
    exact ⟨spaced_of_scan? hscan, hwithin⟩
  · rintro ⟨hspaced, hwithin⟩
    exact ⟨v.tokens, scan?_of_spaced hspaced (spread_tokens hwithin),
      ofTokens?_eq_some_iff.2 ⟨rfl, hwithin⟩⟩

end LiveScene.Json
