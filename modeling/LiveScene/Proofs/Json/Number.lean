import LiveScene.Proofs.Double.Bits
import LiveScene.Proofs.Json.Numeral

/-!
# Numbers read back

The text of a number is a numeral. Both notations of a double are numerals whose parts have the
value of its shortest decimal (`writes_plain`, `writes_scientific`). A whole number of 64 bits is
read back as itself, and a finite double as the double that the reader makes of its text
(`ofText?_text`): for the nearest double that is itself, with the sign of a zero (`reread?_exact`).
-/

namespace LiveScene.Number

open Decimal

/-! ## Spelling numerals -/

theorem digits_toDigits (n : Nat) : Digits (Nat.toDigits 10 n) :=
  ⟨Nat.toDigits_ne_nil, fun _ => isDigit_of_mem_toDigits⟩

theorem whole_toDigits (n : Nat) : Whole (Nat.toDigits 10 n) := by
  by_cases h : n = 0
  · rw [h]
    exact .zero
  · exact .leading (leading_toDigits h)

theorem numeral_of_fraction {negative : Bool} {whole ds : List Char} (hwhole : Whole whole)
    (hds : Digits ds) : Numeral ((if negative then ['-'] else []) ++ (whole ++ '.' :: ds))
      ⟨negative, whole, some ds, none⟩ := by
  simpa using Numeral.mk negative hwhole (.some hds) .none

theorem exponent_powerText (e : Int) : Exponent ('e' :: Significant.powerText e) (some e) := by
  have hdigits := digits_toDigits e.natAbs
  have hvalue : (Nat.ofDigitChars 10 (Nat.toDigits 10 e.natAbs) 0 : Int) = e.natAbs := by
    rw [Nat.ofDigitChars_ten_toDigits]
  unfold Significant.powerText
  by_cases he : 0 ≤ e
  · have h := Exponent.some (.inl rfl) .plus hdigits
    rw [if_neg Bool.false_ne_true, hvalue, show (e.natAbs : Int) = e by omega] at h
    rw [if_pos he]
    exact h
  · have h := Exponent.some (.inl rfl) .minus hdigits
    rw [if_pos rfl, hvalue, show -(e.natAbs : Int) = e by omega] at h
    rw [if_neg he]
    exact h

/-! ## Doubles -/

/-- Parts of the text `cs` of a positive double, perhaps after a minus, which have the value of
`d`. -/
structure Parts.Writes (p : Parts) (cs : List Char) (d : Decimal) : Prop where
  numeral : Numeral ((if p.negative then ['-'] else []) ++ cs) p
  real : p.fraction ≠ none ∨ p.exponent ≠ none
  bits : p.decimal.bits = d.bits

/-- Below one, the digits stand behind the point and some zeros. -/
theorem writes_below_one (negative : Bool) {s : Significant} (h : Leading s.digits)
    (hplace : s.place ≤ 0) : ∃ p : Parts, p.negative = negative ∧
      p.Writes ('0' :: '.' :: (Significant.zeros (-s.place).toNat ++ s.digits)) s.decimal := by
  refine ⟨⟨negative, ['0'], some (Significant.zeros (-s.place).toNat ++ s.digits), none⟩, rfl,
    numeral_of_fraction .zero ⟨by simp [h.ne_nil], ?_⟩, .inl (by simp), ?_⟩
  · exact List.forall_mem_append.2 ⟨fun _ => isDigit_of_mem_zeros, h.isDigit⟩
  · have hvalue : Nat.ofDigitChars 10
        (['0'] ++ (Significant.zeros (-s.place).toNat ++ s.digits)) 0 =
          Nat.ofDigitChars 10 s.digits 0 :=
      ofDigitChars_zeros_append ((-s.place).toNat + 1) s.digits
    simp only [Parts.decimal, Significant.decimal, Option.getD_some, Option.getD_none, hvalue]
    congr 2
    simp only [List.length_append, Significant.zeros, List.length_replicate]
    omega

/-- A whole number is filled up with zeros, and has one more behind the point. -/
theorem writes_whole (negative : Bool) {s : Significant} (h : Leading s.digits)
    (hplace : ¬ s.place ≤ 0) (hlength : s.digits.length ≤ s.place.toNat) :
    ∃ p : Parts, p.negative = negative ∧
      p.Writes (s.digits ++ Significant.zeros (s.place.toNat - s.digits.length) ++ ['.', '0'])
        s.decimal := by
  have hwhole := h.append fun _ => isDigit_of_mem_zeros (n := s.place.toNat - s.digits.length)
  have hzeros : s.digits ++ Significant.zeros (s.place.toNat - s.digits.length) ++ ['0'] =
      s.digits ++ Significant.zeros (s.place.toNat - s.digits.length + 1) := by
    rw [List.append_assoc, Significant.zeros, ← List.replicate_succ']
    rfl
  refine ⟨⟨negative, s.digits ++ Significant.zeros (s.place.toNat - s.digits.length),
    some ['0'], none⟩, rfl, ?_, .inl (by simp), ?_⟩
  · exact numeral_of_fraction (.leading hwhole) (digits_toDigits 0)
  · simp only [Parts.decimal, Significant.decimal, Option.getD_some, Option.getD_none, hzeros,
      ofDigitChars_append_zeros, bits_shift]
    congr 2
    simp only [List.length_singleton]
    omega

/-- Otherwise the point stands among the digits. -/
theorem writes_across (negative : Bool) {s : Significant} (h : Leading s.digits)
    (hplace : ¬ s.place ≤ 0) (hlength : ¬ s.digits.length ≤ s.place.toNat) :
    ∃ p : Parts, p.negative = negative ∧
      p.Writes (s.digits.take s.place.toNat ++ '.' :: s.digits.drop s.place.toNat) s.decimal := by
  have hwhole := h.take (n := s.place.toNat) (by omega)
  refine ⟨⟨negative, s.digits.take s.place.toNat, some (s.digits.drop s.place.toNat), none⟩,
    rfl, numeral_of_fraction (.leading hwhole) ⟨?_, ?_⟩, .inl (by simp), ?_⟩
  · simp only [ne_eq, List.drop_eq_nil_iff]
    omega
  · exact fun c hc => h.isDigit c (List.mem_of_mem_drop hc)
  · simp only [Parts.decimal, Significant.decimal, Option.getD_some, Option.getD_none,
      List.take_append_drop, List.length_drop]
    congr 2
    omega

theorem writes_plain (negative : Bool) {s : Significant} (h : Leading s.digits) :
    ∃ p : Parts, p.negative = negative ∧ p.Writes s.plain s.decimal := by
  unfold Significant.plain
  by_cases hplace : s.place ≤ 0
  · rw [if_pos hplace]
    exact writes_below_one negative h hplace
  · rw [if_neg hplace]
    simp only
    by_cases hlength : s.digits.length ≤ s.place.toNat
    · rw [if_pos hlength]
      exact writes_whole negative h hplace hlength
    · rw [if_neg hlength]
      exact writes_across negative h hplace hlength

theorem writes_scientific (negative : Bool) {s : Significant} (h : Leading s.digits) :
    ∃ p : Parts, p.negative = negative ∧ p.Writes s.scientific s.decimal := by
  unfold Significant.scientific
  split
  · next hnil => exact absurd hnil h.ne_nil
  · next d hd =>
    have hwhole := h
    rw [hd] at hwhole
    refine ⟨⟨negative, [d], none, some s.exponent⟩, rfl, ?_, .inr (by simp), ?_⟩
    · exact .mk negative (.leading hwhole) .none (exponent_powerText _)
    · simp [Parts.decimal, Significant.decimal, Significant.exponent, hd]
  · next d rest hne hd =>
    have hwhole := h.take (n := 1) (by decide)
    rw [hd, List.take_succ_cons, List.take_zero] at hwhole
    have hrest : Digits rest :=
      ⟨hne, fun c hc => h.isDigit c (by rw [hd]; exact List.mem_cons_of_mem _ hc)⟩
    refine ⟨⟨negative, [d], some rest, some s.exponent⟩, rfl, ?_, .inl (by simp), ?_⟩
    · exact .mk negative (.leading hwhole) (.some hrest) (exponent_powerText _)
    · simp only [Parts.decimal, Significant.decimal, Significant.exponent, Option.getD_some, hd,
        List.singleton_append, List.length_cons]
      congr 2
      omega

/-- A positive double is put together from parts that have the value of its bits. -/
theorem writes_magnitudeText (negative : Bool) {bits : Nat} (h0 : bits ≠ 0) :
    ∃ p : Parts, p.negative = negative ∧
      p.Writes (magnitudeText bits) (shortest bits).significant.decimal := by
  have hdigits : (shortest bits).digits ≠ 0 := digits_ne_zero (by rwa [bits_shortest])
  have hleading := leading_significant hdigits
  unfold magnitudeText
  simp only
  split
  · exact writes_plain negative hleading
  · exact writes_scientific negative hleading

/-- Parts of the text of a double: they have a fraction or an exponent, and the double is nearest to
them. -/
structure Parts.Spells (p : Parts) (x : Float) : Prop where
  real : p.fraction ≠ none ∨ p.exponent ≠ none
  negative : p.negative = Double.isNegative x
  bits : p.decimal.bits = Double.magnitudeBits x

/-- The text of a double is that of its magnitude after its sign. -/
theorem realText_eq (x : Float) : realText x = (if Double.isNegative x then ['-'] else []) ++
    if Double.magnitudeBits x = 0 then ['0', '.', '0']
    else magnitudeText (Double.magnitudeBits x) := by
  have hsign (negative : Bool) (cs : List Char) : (if negative then '-' :: cs else cs) =
      (if negative then ['-'] else []) ++ cs := by
    cases negative <;> rfl
  exact hsign _ _

/-- The text of a double is a numeral for it. -/
theorem numeral_realText (x : Float) : ∃ p, Numeral (realText x) p ∧ p.Spells x := by
  rw [realText_eq]
  by_cases h0 : Double.magnitudeBits x = 0
  · refine ⟨⟨Double.isNegative x, ['0'], some ['0'], none⟩, ?_, .inl (by simp), rfl, ?_⟩
    · rw [if_pos h0]
      exact numeral_of_fraction .zero (digits_toDigits 0)
    · have hdecimal : Parts.decimal ⟨Double.isNegative x, ['0'], some ['0'], none⟩ = ⟨0, -1⟩ := rfl
      rw [hdecimal, bits_zero, h0]
  · obtain ⟨p, hp, hw⟩ := writes_magnitudeText (Double.isNegative x) h0
    refine ⟨p, ?_, hw.real, hp, ?_⟩
    · rw [if_neg h0, ← hp]
      exact hw.numeral
    · rw [hw.bits, bits_significant, bits_shortest]

/-- A finite double is nearest to its text, with the sign of a zero. -/
theorem Parts.Spells.exact {p : Parts} {x : Float} (h : p.Spells x) (hx : x.isFinite) :
    Reader.exact p = some x := by
  rw [Reader.exact, toFloat?_eq, h.bits, h.negative, Double.ofBits?_magnitudeBits hx]

/-! ## Whole numbers -/

/-- The text of a whole number of 64 bits is a numeral whose parts are that number. -/
theorem numeral_text_int {n : Int} (hlow : -0x8000000000000000 ≤ n)
    (hhigh : n < 0x10000000000000000) : ∃ p, Numeral (text (.int n)) p ∧ p.IsWhole n := by
  have hnumeral := Numeral.mk (decide (n < 0)) (whole_toDigits n.natAbs) .none .none
  have hdigits (negative : Bool) :
      (Parts.decimal ⟨negative, Nat.toDigits 10 n.natAbs, none, none⟩).digits = n.natAbs := by
    simp [Parts.decimal]
  refine ⟨⟨decide (n < 0), Nat.toDigits 10 n.natAbs, none, none⟩, ?_, ?_⟩
  · rw [text]
    by_cases hn : n < 0
    · simpa [hn] using hnumeral
    · simpa [hn] using hnumeral
  · by_cases hn : n < 0
    · have h := Parts.IsWhole.signed (p := ⟨true, Nat.toDigits 10 n.natAbs, none, none⟩) rfl rfl rfl
      rw [hdigits, show -(n.natAbs : Int) = n by omega] at h
      simpa [hn] using h (by omega) (by omega)
    · have h := Parts.IsWhole.unsigned (p := ⟨false, Nat.toDigits 10 n.natAbs, none, none⟩) rfl rfl
        rfl
      rw [hdigits, show (n.natAbs : Int) = n by omega] at h
      simpa [hn] using h (by omega)

/-! ## Legible numbers -/

/-- What a number satisfies whose text is a numeral for it: a double is finite, and 64 bits suffice
for a whole number. -/
def Legible : Number → Prop
  | .int n => -0x8000000000000000 ≤ n ∧ n < 0x10000000000000000
  | .real x => x.isFinite

/-- The double that a reader makes of the text of a double. -/
def Reader.reread? (R : Reader) (x : Float) : Option Float := (parts? (realText x)).bind R

theorem reread?_of_numeral {R : Reader} {x : Float} {p : Parts} (h : Numeral (realText x) p) :
    R.reread? x = R p := by
  rw [Reader.reread?, parts?_eq_some_iff.2 h]
  rfl

/-- What becomes of a double that is written and read; where it is refused, the double itself. -/
def Reader.reread (R : Reader) (x : Float) : Float := (R.reread? x).getD x

/-- What a reader makes of the text of a number: at most a double changes. -/
def reread? (R : Reader) : Number → Option Number
  | .int n => some (.int n)
  | .real x => .real <$> R.reread? x

/-- The text of a legible number is a numeral, and what it stands for is what the reader makes of
it. -/
theorem numeral_text {n : Number} (h : n.Legible) (R : Reader) :
    ∃ p, Numeral n.text p ∧ ∀ m, p.StandsFor R m ↔ n.reread? R = some m := by
  cases n with
  | int n =>
    obtain ⟨p, hp, hn⟩ := numeral_text_int h.1 h.2
    refine ⟨p, hp, fun m => ?_⟩
    rw [← value?_eq_some_iff, Parts.value?, Parts.whole?_eq_some_iff.2 hn, reread?]
  | real x =>
    have hx : x.isFinite := h
    obtain ⟨p, hp, hspells⟩ := numeral_realText x
    refine ⟨p, ?_, fun m => ?_⟩
    · rwa [text, if_pos hx]
    · have hnone : p.whole? = none := by
        rcases hspells.real with h | h <;> simp [Parts.whole?, Option.isSome_iff_ne_none.2 h]
      rw [← value?_eq_some_iff, Parts.value?, hnone, reread?, reread?_of_numeral hp]

/-- The text of a legible number is read as what the reader makes of it. -/
theorem ofText?_text {n : Number} (h : n.Legible) (R : Reader) :
    ofText? R n.text = n.reread? R := by
  obtain ⟨p, hp, hvalue⟩ := numeral_text h R
  ext m
  rw [← hvalue m, ← value?_eq_some_iff, ofText?, parts?_eq_some_iff.2 hp]
  rfl

/-- The nearest double to the text of a finite double is that double, the sign of a zero
included. -/
theorem reread?_exact {x : Float} (hx : x.isFinite) : Reader.exact.reread? x = some x := by
  obtain ⟨p, hp, hspells⟩ := numeral_realText x
  rw [reread?_of_numeral hp]
  exact hspells.exact hx

end LiveScene.Number
