import LiveScene.Json.Number
import LiveScene.Proofs.Decimal.Notation

/-!
# Numerals

What text is a number: a whole part without a zero too many, perhaps after a minus, then perhaps a
fraction and an exponent (`Number.Numeral`). A numeral is taken apart into the parts it is made of
(`parts?_eq_some_iff`). The parts stand for a whole number if there is neither fraction nor exponent
and 64 bits suffice, which they do not for a negative zero, and else for the double that the reader
makes of them (`Parts.StandsFor`, `value?_eq_some_iff`). So the texts that are read as numbers are
the numerals that stand for one (`ofText?_eq_some_iff`).
-/

namespace LiveScene.Number

open Decimal Double

/-! ## Their parts -/

/-- One or more digits. -/
structure Digits (ds : List Char) : Prop where
  ne_nil : ds ≠ []
  isDigit : ∀ c ∈ ds, c.isDigit

/-- A whole part: a zero alone, or digits that do not start with zero. -/
inductive Whole : List Char → Prop where
  | zero : Whole ['0']
  | leading {ds : List Char} (h : Leading ds) : Whole ds

/-- The text of a fraction, and its digits. -/
inductive Fraction : List Char → Option (List Char) → Prop where
  | none : Fraction [] none
  | some {ds : List Char} (h : Digits ds) : Fraction ('.' :: ds) (some ds)

/-- The text of the sign of an exponent, and whether that is negative. -/
inductive ExponentSign : List Char → Bool → Prop where
  | none : ExponentSign [] false
  | plus : ExponentSign ['+'] false
  | minus : ExponentSign ['-'] true

/-- The text of an exponent, and its value. -/
inductive Exponent : List Char → Option Int → Prop where
  | none : Exponent [] none
  | some {c : Char} {sign ds : List Char} {negative : Bool} (hc : c = 'e' ∨ c = 'E')
    (hsign : ExponentSign sign negative) (h : Digits ds) :
    Exponent (c :: (sign ++ ds))
      (some (if negative then -(Nat.ofDigitChars 10 ds 0 : Int) else Nat.ofDigitChars 10 ds 0))

/-- The text of a number, and its parts. -/
inductive Numeral : List Char → Parts → Prop where
  | mk (negative : Bool) {whole fs es : List Char} {fraction : Option (List Char)}
    {exponent : Option Int} (hwhole : Whole whole) (hfraction : Fraction fs fraction)
    (hexponent : Exponent es exponent) :
    Numeral ((if negative then ['-'] else []) ++ (whole ++ (fs ++ es)))
      ⟨negative, whole, fraction, exponent⟩

/-! ## Taking them apart -/

variable {cs ds rest : List Char}

theorem digits?_append (h : Digits ds) (hrest : ∀ c ∈ rest.head?, ¬c.isDigit) :
    digits? (ds ++ rest) = some (ds, rest) := by
  have htake : rest.takeWhile Char.isDigit = [] := by
    cases rest with
    | nil => rfl
    | cons c rest => exact List.takeWhile_cons_of_neg (hrest c rfl)
  have hdrop : rest.dropWhile Char.isDigit = rest := by
    cases rest with
    | nil => rfl
    | cons c rest => exact List.dropWhile_cons_of_neg (hrest c rfl)
  simp only [digits?, List.takeWhile_append_of_pos h.isDigit, htake, List.append_nil,
    List.dropWhile_append_of_pos h.isDigit, hdrop]
  rw [if_neg h.ne_nil]

theorem digits_of_digits? (h : digits? cs = some (ds, rest)) : Digits ds ∧ cs = ds ++ rest := by
  simp only [digits?] at h
  split at h
  · cases h
  · next hne =>
    cases h
    exact ⟨⟨hne, List.all_eq_true.1 List.all_takeWhile⟩, List.takeWhile_append_dropWhile.symm⟩

theorem Whole.digits (h : Whole ds) : Digits ds := by
  cases h with
  | zero => exact ⟨List.cons_ne_nil _ _, by simp⟩
  | leading h => exact ⟨h.ne_nil, h.isDigit⟩

theorem whole?_of_whole (h : Whole ds) : whole? ds = some ds := by
  cases h with
  | zero => rfl
  | leading h =>
    obtain ⟨c, rest, rfl, hc⟩ := h.head
    unfold whole?
    split <;> simp_all

theorem whole_of_whole? {whole : List Char} (hds : Digits ds) (h : whole? ds = some whole) :
    whole = ds ∧ Whole ds := by
  unfold whole? at h
  split at h
  · cases h
  · cases h
    exact ⟨rfl, .zero⟩
  · cases h
  · next hzero hzeros =>
    cases h
    cases ds with
    | nil => exact absurd rfl hds.ne_nil
    | cons c ds =>
      exact ⟨rfl, .leading ⟨hds.isDigit, c, ds, rfl, fun hc => hzeros ds (by rw [hc])⟩⟩

theorem sign_append (negative : Bool) (h : Digits ds) :
    sign ((if negative then ['-'] else []) ++ (ds ++ rest)) = (negative, ds ++ rest) := by
  cases negative with
  | true => rfl
  | false =>
    cases ds with
    | nil => exact absurd rfl h.ne_nil
    | cons c ds =>
      have hc : c ≠ '-' := by
        rintro rfl
        exact absurd (h.isDigit '-' List.mem_cons_self) (by decide)
      simp only [Bool.false_eq_true, if_false, List.nil_append, List.cons_append, sign]
      split <;> simp_all

theorem eq_of_sign {negative : Bool} (h : sign cs = (negative, rest)) :
    cs = (if negative then ['-'] else []) ++ rest := by
  unfold sign at h
  split at h <;> cases h <;> rfl

theorem exponent?_append {sign : List Char} {negative : Bool} (hsign : ExponentSign sign negative)
    (h : Digits ds) : exponent? (sign ++ ds) =
      some (if negative then -(Nat.ofDigitChars 10 ds 0 : Int) else Nat.ofDigitChars 10 ds 0) := by
  have hdigits : digits? (ds ++ []) = some (ds, []) := digits?_append h (by simp)
  rw [List.append_nil] at hdigits
  have hread : exponentSign (sign ++ ds) = (negative, ds) := by
    cases hsign with
    | plus => rfl
    | minus => rfl
    | none =>
      have hplus : '+' ∉ ds := fun hmem => absurd (h.isDigit '+' hmem) (by decide)
      have hnone : sign ([] ++ (ds ++ [])) = (false, ds ++ []) := sign_append false h
      unfold exponentSign
      split
      · simp_all
      · simpa using hnone
  simp only [exponent?, hread, hdigits, Option.bind_eq_bind, Option.bind_some, if_true]

theorem exponent_of_exponent? {e : Int} (h : exponent? cs = some e) {c : Char}
    (hc : c = 'e' ∨ c = 'E') : Exponent (c :: cs) (some e) := by
  have hsign : ∃ text, ExponentSign text (exponentSign cs).1 ∧
      cs = text ++ (exponentSign cs).2 := by
    unfold exponentSign
    split
    · exact ⟨['+'], .plus, rfl⟩
    · unfold sign
      split
      · exact ⟨['-'], .minus, rfl⟩
      · exact ⟨[], .none, rfl⟩
  obtain ⟨text, htext, hcs⟩ := hsign
  simp only [exponent?, Option.bind_eq_bind, Option.bind_eq_some_iff] at h
  obtain ⟨⟨ds, rest⟩, hds, h⟩ := h
  obtain ⟨hdigits, happend⟩ := digits_of_digits? hds
  dsimp only at h
  split at h
  · next hrest =>
    rw [hrest, List.append_nil] at happend
    rw [hcs, happend, ← Option.some.inj h]
    exact .some hc htext hdigits
  · cases h

theorem ending?_of_exponent {exponent : Option Int} (h : Exponent cs exponent) :
    ending? cs = some exponent := by
  cases h with
  | none => rfl
  | some hc hsign h => simp [ending?, hc, exponent?_append hsign h]

theorem exponent_of_ending? {exponent : Option Int} (h : ending? cs = some exponent) :
    Exponent cs exponent := by
  unfold ending? at h
  split at h
  · cases h
    exact .none
  · split at h
    · next hc =>
      obtain ⟨e, he, rfl⟩ := Option.map_eq_some_iff.1 h
      exact exponent_of_exponent? he hc
    · cases h

/-- An exponent does not go on the digits before it, nor is it a fraction. -/
theorem head_of_exponent {exponent : Option Int} (h : Exponent cs exponent) :
    ∀ c ∈ cs.head?, ¬c.isDigit ∧ c ≠ '.' := by
  cases h with
  | none => simp
  | some hc _ _ =>
    rcases hc with rfl | rfl <;> simp

/-- A fraction does not go on the digits before it. -/
theorem head_of_fraction {fs : List Char} {fraction : Option (List Char)}
    (h : Fraction fs fraction) (hrest : ∀ c ∈ rest.head?, ¬c.isDigit ∧ c ≠ '.') :
    ∀ c ∈ (fs ++ rest).head?, ¬c.isDigit := by
  cases h with
  | none => exact fun c hc => (hrest c hc).1
  | some _ => simp

theorem fraction?_append {fs : List Char} {fraction : Option (List Char)}
    (h : Fraction fs fraction) (hrest : ∀ c ∈ rest.head?, ¬c.isDigit ∧ c ≠ '.') :
    fraction? (fs ++ rest) = some (fraction, rest) := by
  cases h with
  | none =>
    unfold fraction?
    split
    · next h =>
      rw [List.nil_append] at h
      rw [h] at hrest
      exact absurd rfl (hrest '.' rfl).2
    · rfl
  | some h =>
    have hdigits := digits?_append h fun c hc => (hrest c hc).1
    simp [fraction?, hdigits]

theorem fraction_of_fraction? {fraction : Option (List Char)}
    (h : fraction? cs = some (fraction, rest)) :
    ∃ fs, Fraction fs fraction ∧ cs = fs ++ rest := by
  unfold fraction? at h
  split at h
  · simp only [Option.bind_eq_bind, Option.bind_eq_some_iff] at h
    obtain ⟨⟨ds, rest'⟩, hds, h⟩ := h
    cases h
    obtain ⟨hdigits, rfl⟩ := digits_of_digits? hds
    exact ⟨'.' :: ds, .some hdigits, rfl⟩
  · cases h
    exact ⟨[], .none, rfl⟩

/-- What is taken apart is a numeral, and every numeral is taken apart into its parts. -/
theorem parts?_eq_some_iff {p : Parts} : parts? cs = some p ↔ Numeral cs p := by
  constructor
  · intro h
    rw [parts?] at h
    generalize hsign : sign cs = signed at h
    obtain ⟨negative, unsigned⟩ := signed
    simp only [Option.bind_eq_bind, Option.bind_eq_some_iff] at h
    obtain ⟨⟨ds, rest⟩, hds, whole, hwhole, ⟨fraction, rest'⟩, hfraction, exponent, hexponent,
      h⟩ := h
    obtain ⟨hdigits, rfl⟩ := digits_of_digits? hds
    obtain ⟨rfl, hproper⟩ := whole_of_whole? hdigits hwhole
    obtain ⟨fs, hfs, rfl⟩ := fraction_of_fraction? hfraction
    cases h
    rw [eq_of_sign hsign]
    exact .mk negative hproper hfs (exponent_of_ending? hexponent)
  · rintro ⟨_, hwhole, hfraction, hexponent⟩
    have hend := head_of_exponent hexponent
    have hdigits := digits?_append hwhole.digits (head_of_fraction hfraction hend)
    simp only [parts?, sign_append _ hwhole.digits, hdigits, whole?_of_whole hwhole,
      fraction?_append hfraction hend, ending?_of_exponent hexponent, Option.bind_eq_bind,
      Option.bind_some]
    rfl

/-! ## Their characters -/

/-- Whether a character may stand in the text of a number. -/
def isNumeral (c : Char) : Bool :=
  c.isDigit || c == '-' || c == '+' || c == '.' || c == 'e' || c == 'E'

theorem Digits.isNumeral (h : Digits ds) : ∀ c ∈ ds, Number.isNumeral c := by
  intro c hc
  simp [Number.isNumeral, h.isDigit c hc]

theorem isNumeral_fraction {fraction : Option (List Char)} (h : Fraction cs fraction) :
    ∀ c ∈ cs, isNumeral c := by
  cases h with
  | none => simp
  | some h => exact List.forall_mem_cons.2 ⟨rfl, h.isNumeral⟩

theorem isNumeral_exponent {exponent : Option Int} (h : Exponent cs exponent) :
    ∀ c ∈ cs, isNumeral c := by
  cases h with
  | none => simp
  | some hc hsign h =>
    refine List.forall_mem_cons.2 ⟨?_, List.forall_mem_append.2 ⟨?_, h.isNumeral⟩⟩
    · rcases hc with rfl | rfl <;> rfl
    · cases hsign <;> simp [isNumeral]

/-- A numeral is not empty and holds only the characters of numbers. -/
theorem Numeral.isNumeral {p : Parts} (h : Numeral cs p) :
    cs ≠ [] ∧ ∀ c ∈ cs, Number.isNumeral c := by
  obtain ⟨_, hwhole, hfraction, hexponent⟩ := h
  refine ⟨by simp [hwhole.digits.ne_nil], ?_⟩
  simp only [List.forall_mem_append]
  refine ⟨?_, hwhole.digits.isNumeral, isNumeral_fraction hfraction, isNumeral_exponent hexponent⟩
  split <;> simp [Number.isNumeral]

/-! ## Their values -/

/-- The whole number that parts without fraction and exponent are, if 64 bits suffice for it. -/
inductive Parts.IsWhole (p : Parts) : Int → Prop where
  | unsigned (hfraction : p.fraction = none) (hexponent : p.exponent = none)
    (hsign : p.negative = false) (h : p.decimal.digits < 0x10000000000000000) :
    IsWhole p p.decimal.digits
  | signed (hfraction : p.fraction = none) (hexponent : p.exponent = none)
    (hsign : p.negative = true) (hpos : 0 < p.decimal.digits)
    (h : p.decimal.digits ≤ 0x8000000000000000) : IsWhole p (-p.decimal.digits)

theorem Parts.whole?_eq_some_iff {p : Parts} {n : Int} : p.whole? = some n ↔ p.IsWhole n := by
  constructor
  · intro h
    simp only [Parts.whole?] at h
    split at h
    · cases h
    · next hparts =>
      obtain ⟨hfraction, hexponent⟩ : p.fraction = none ∧ p.exponent = none := by
        simpa using hparts
      split at h
      · next hsign =>
        obtain ⟨⟨hpos, hrange⟩, rfl⟩ :=
          Option.ite_none_right_eq_some.1 h |>.imp_right Option.some.inj
        exact .signed hfraction hexponent hsign hpos hrange
      · next hsign =>
        obtain ⟨hrange, rfl⟩ := Option.ite_none_right_eq_some.1 h |>.imp_right Option.some.inj
        exact .unsigned hfraction hexponent (by simpa using hsign) hrange
  · intro h
    cases h with
    | unsigned hfraction hexponent hsign h => simp [Parts.whole?, hfraction, hexponent, hsign, h]
    | signed hfraction hexponent hsign hpos h =>
      simp [Parts.whole?, hfraction, hexponent, hsign, hpos, h]

/-- What the parts of a numeral stand for: a whole number where they are one, and otherwise the
double that the reader makes of them, if any. -/
inductive Parts.StandsFor (R : Reader) (p : Parts) : Number → Prop where
  | whole {n : Int} (h : p.IsWhole n) : StandsFor R p (.int n)
  | double {x : Float} (h : ∀ n, ¬p.IsWhole n) (hx : R p = some x) : StandsFor R p (.real x)

variable {R : Reader} {p : Parts} {n : Number}

/-- The value of parts is what they stand for. -/
theorem value?_eq_some_iff : p.value? R = some n ↔ p.StandsFor R n := by
  rw [Parts.value?]
  cases hwhole : p.whole? with
  | some k =>
    have hk := Parts.whole?_eq_some_iff.1 hwhole
    constructor
    · rintro ⟨⟩
      exact .whole hk
    · rintro (⟨h⟩ | ⟨h, -⟩)
      · rw [← hwhole, Parts.whole?_eq_some_iff.2 h]
      · exact absurd hk (h k)
  | none =>
    have hnone (k : Int) : ¬p.IsWhole k := by
      rw [← Parts.whole?_eq_some_iff, hwhole]
      simp
    constructor
    · intro h
      obtain ⟨x, hx, rfl⟩ := Option.map_eq_some_iff.1 h
      exact .double hnone hx
    · rintro (⟨h⟩ | ⟨-, hx⟩)
      · exact absurd h (hnone _)
      · simp [hx]

/-- The texts that are read as numbers are the numerals that stand for one. -/
theorem ofText?_eq_some_iff : ofText? R cs = some n ↔ ∃ p, Numeral cs p ∧ p.StandsFor R n := by
  simp only [ofText?, Option.bind_eq_bind, Option.bind_eq_some_iff, parts?_eq_some_iff,
    value?_eq_some_iff]

end LiveScene.Number
