import LiveScene.Json.Stepwise
import LiveScene.Proofs.Double.Order
import LiveScene.Proofs.Json.Reread

/-!
# What is read in steps

The reader of numbers that works in steps is near enough for short numbers: where the significand
and the power of ten are doubles themselves only the last step rounds, and the result is the nearest
double (`stepwise_eq_exact`). Otherwise it need not even make a double of that double's own text,
but it never refuses that text (`reads_stepwise`).

It starts from a significand that is at most what was written (`bits_significand_le`), so from one
that rounds to a double not above the one in question. Division makes it smaller. Multiplication
rounds three times, and could overflow only near the end of the doubles: for each power of ten in
the table, the greatest significand that stays below the last two doubles does not
(`mulBits_table`), and these two are looked at by themselves.
-/

namespace LiveScene

open Double

namespace Decimal

theorem bits_mono {m n : Nat} (h : m ≤ n) (e : Int) : bits ⟨m, e⟩ ≤ bits ⟨n, e⟩ := by
  simp only [bits, ratio]
  split
  · exact nearestBits_mono Nat.one_pos Nat.one_pos
      (Nat.mul_le_mul_right _ (Nat.mul_le_mul_right _ h))
  · exact nearestBits_mono (ten_pow_pos _) (ten_pow_pos _) (Nat.mul_le_mul_right _ h)

/-- Decimals are compared where both are written with the same power of ten. -/
theorem bits_le_bits {m n j k : Nat} {d e : Int} (h : m * Nat.pow 10 j ≤ n * Nat.pow 10 k)
    (hexp : d - j = e - k) : bits ⟨m, d⟩ ≤ bits ⟨n, e⟩ := by
  have hm := bits_shift m j (d - j)
  have hn := bits_shift n k (e - k)
  rw [Int.sub_add_cancel] at hm hn
  rw [← hm, ← hn, hexp]
  exact bits_mono h _

end Decimal

namespace Number

open Decimal

/-! ## The significand -/

/-- What is known of the digits that have been taken into a significand: with zeros for those that
are left they are at most what was written, and when some are left there was no room for the first
of them. -/
structure Taken (start : Nat) (ds : List Char) (n left : Nat) : Prop where
  lt : start < 0x10000000000000000 → n < 0x10000000000000000
  left_le : left ≤ ds.length
  eq : left = ds.length → n = start
  le : n * Nat.pow 10 left ≤ Nat.ofDigitChars 10 ds start
  full : 0 < left → 0x10000000000000000 * Nat.pow 10 (left - 1) ≤ Nat.ofDigitChars 10 ds start

theorem mul_pow_le_ofDigitChars (ds : List Char) (start : Nat) :
    start * Nat.pow 10 ds.length ≤ Nat.ofDigitChars 10 ds start := by
  rw [Nat.ofDigitChars_eq_ofDigitChars_zero, Nat.mul_comm]
  exact Nat.le_add_right _ _

theorem ofDigitChars_mono (ds : List Char) {m n : Nat} (h : m ≤ n) :
    Nat.ofDigitChars 10 ds m ≤ Nat.ofDigitChars 10 ds n := by
  have hsplit (start : Nat) : Nat.ofDigitChars 10 ds start =
      10 ^ ds.length * start + Nat.ofDigitChars 10 ds 0 := Nat.ofDigitChars_eq_ofDigitChars_zero
  rw [hsplit m, hsplit n]
  exact Nat.add_le_add_right (Nat.mul_le_mul_left _ h) _

theorem taken_take (ds : List Char) (start : Nat) :
    Taken start ds (take start ds).1 (take start ds).2 := by
  induction ds generalizing start with
  | nil => exact ⟨id, Nat.le_refl _, fun _ => rfl, Nat.le_of_eq (Nat.mul_one _), by simp [take]⟩
  | cons c cs ih =>
    have hnext : Nat.ofDigitChars 10 (c :: cs) start =
        Nat.ofDigitChars 10 cs (Nat.ofDigitChars 10 [c] start) := rfl
    simp only [take]
    split
    · next hlt =>
      have h := ih (Nat.ofDigitChars 10 [c] start)
      refine ⟨fun _ => h.lt hlt, h.left_le.trans (Nat.le_succ _), fun heq => ?_, ?_, ?_⟩
      · have := h.left_le
        rw [List.length_cons] at heq
        omega
      · rw [hnext]
        exact h.le
      · rw [hnext]
        exact h.full
    · next hge =>
      refine ⟨id, Nat.le_refl _, fun _ => rfl, mul_pow_le_ofDigitChars _ _, fun _ => ?_⟩
      rw [hnext, List.length_cons, Nat.add_sub_cancel]
      exact (Nat.mul_le_mul_right _ (Nat.le_of_not_lt hge)).trans (mul_pow_le_ofDigitChars cs _)

theorem significand_lt (p : Parts) : p.significand.digits < 0x10000000000000000 :=
  (taken_take _ _).lt ((taken_take p.whole 0).lt (by decide))

/-- The digits that have been taken are at most those that were written. -/
theorem Taken.append {ws fs : List Char} {m n left behind : Nat} (hw : Taken 0 ws m left)
    (hf : Taken m fs n behind) :
    n * Nat.pow 10 (left + behind) ≤ Nat.ofDigitChars 10 (ws ++ fs) 0 := by
  rw [Nat.ofDigitChars_append]
  rcases Nat.eq_zero_or_pos left with rfl | hleft
  · -- all the whole digits have been taken, so these are the digits of the fraction after them
    have hm : m ≤ Nat.ofDigitChars 10 ws 0 := (Nat.mul_one m).symm.trans_le hw.le
    rw [Nat.zero_add]
    calc n * Nat.pow 10 behind ≤ Nat.ofDigitChars 10 fs m := hf.le
      _ ≤ Nat.ofDigitChars 10 fs (Nat.ofDigitChars 10 ws 0) := ofDigitChars_mono fs hm
  · -- some whole digits have been left, and what they are worth makes up for the others
    refine Nat.le_trans ?_ (mul_pow_le_ofDigitChars fs _)
    rcases Nat.eq_or_lt_of_le hf.left_le with hbehind | hbehind
    · rw [hf.eq hbehind, ten_pow_add, ← Nat.mul_assoc, hbehind]
      exact Nat.mul_le_mul_right _ hw.le
    · have hn := hf.lt (hw.lt (by decide))
      calc n * Nat.pow 10 (left + behind)
          ≤ 0x10000000000000000 * Nat.pow 10 (left - 1 + (behind + 1)) := by
            rw [show left - 1 + (behind + 1) = left + behind by omega]
            exact Nat.mul_le_mul_right _ hn.le
        _ = 0x10000000000000000 * Nat.pow 10 (left - 1) * Nat.pow 10 (behind + 1) := by
            rw [ten_pow_add, Nat.mul_assoc]
        _ ≤ Nat.ofDigitChars 10 ws 0 * Nat.pow 10 fs.length :=
            Nat.mul_le_mul (hw.full hleft) (ten_pow_le hbehind)

/-- The significand is at most what was written. -/
theorem bits_significand_le (p : Parts) : p.significand.bits ≤ p.decimal.bits := by
  have hw := taken_take p.whole 0
  have hf := taken_take (p.fraction.getD []) (take 0 p.whole).1
  have hle := hw.append hf
  have hbehind := hf.left_le
  refine bits_le_bits (j := (take 0 p.whole).2 + (take (take 0 p.whole).1 (p.fraction.getD [])).2)
    (k := 0) ?_ ?_
  · simpa using hle
  · omega

/-- Digits for which there is room are all taken. -/
theorem take_of_lt {ds : List Char} {start : Nat}
    (h : Nat.ofDigitChars 10 ds start < 0x10000000000000000) :
    take start ds = (Nat.ofDigitChars 10 ds start, 0) := by
  induction ds generalizing start with
  | nil => rfl
  | cons c cs ih =>
    have hnext : Nat.ofDigitChars 10 (c :: cs) start =
        Nat.ofDigitChars 10 cs (Nat.ofDigitChars 10 [c] start) := rfl
    rw [hnext] at h ⊢
    have hle : Nat.ofDigitChars 10 [c] start ≤
        Nat.ofDigitChars 10 cs (Nat.ofDigitChars 10 [c] start) :=
      (Nat.le_mul_of_pos_right _ (ten_pow_pos _)).trans (mul_pow_le_ofDigitChars cs _)
    simp only [take]
    rw [if_pos (Nat.lt_of_le_of_lt hle h)]
    exact ih h

theorem significand_eq_decimal {p : Parts} (h : p.decimal.digits < 0x10000000000000000) :
    p.significand = p.decimal := by
  simp only [Parts.decimal, Nat.ofDigitChars_append] at h
  have hle : Nat.ofDigitChars 10 p.whole 0 ≤
      Nat.ofDigitChars 10 (p.fraction.getD []) (Nat.ofDigitChars 10 p.whole 0) :=
    (Nat.le_mul_of_pos_right _ (ten_pow_pos _)).trans (mul_pow_le_ofDigitChars _ _)
  simp only [Parts.significand, Parts.decimal, Nat.ofDigitChars_append,
    take_of_lt (Nat.lt_of_le_of_lt hle h), take_of_lt h]
  simp

/-! ## Short numbers -/

/-- A whole number below `2 ^ 53` is a double. -/
theorem units_nearestBits {n : Nat} (h : n < 2 ^ 53) :
    units (nearestBits n 1) = n * unitsPerOne := by
  obtain ⟨b, hb⟩ : ∃ b, units b = n * unitsPerOne := by
    rcases Nat.eq_zero_or_pos n with rfl | hpos
    · exact ⟨0, by rw [Nat.zero_mul]; rfl⟩
    · -- the mantissa has its leading bit where that of a block's doubles is
      have hlog : n.log2 < 53 := (Nat.log2_lt (by omega)).2 h
      obtain ⟨k, hk⟩ : ∃ k, n.log2 + k = 52 := ⟨52 - n.log2, by omega⟩
      have hlow : 2 ^ 52 ≤ n * 2 ^ k := by
        rw [← hk, Nat.pow_add]
        exact Nat.mul_le_mul_right _ (Nat.log2_self_le (by omega))
      have hhigh : n * 2 ^ k < 2 ^ 53 := by
        rw [show 53 = n.log2 + 1 + k by omega, Nat.pow_add]
        exact Nat.mul_lt_mul_of_pos_right Nat.lt_log2_self (Nat.two_pow_pos k)
      refine ⟨(unitExponent - k) * blockSize + n * 2 ^ k, ?_⟩
      have hshift : ((unitExponent - k) * blockSize + n * 2 ^ k) / blockSize - 1 =
          unitExponent - k := by
        simp only [blockSize, unitExponent] at *
        omega
      rw [units, hshift, Nat.add_sub_cancel_left, Nat.shiftLeft_eq, Nat.mul_assoc, ← Nat.pow_add,
        unitsPerOne, Nat.one_shiftLeft, show k + (unitExponent - k) = unitExponent by
          simp only [unitExponent]; omega]
  have hround := nearestBits_mul_right n 1 unitsPerOne_pos
  rw [← hb, Nat.one_mul, nearestBits_units] at hround
  rw [← hround, hb]

/-- A power of ten up to the twenty-second is a double. -/
theorem units_tenBits {k : Nat} (h : k ≤ 22) : units (tenBits k) = Nat.pow 10 k * unitsPerOne := by
  have hall : ∀ i ≤ 22, units (tenBits i) = Nat.pow 10 i * unitsPerOne := by
    decide +kernel
  exact hall k h

/-- A short significand is scaled to the nearest double. -/
theorem scale?_short {n : Nat} {e : Int} (hn : n < 2 ^ 53) (hlow : -22 ≤ e) (hhigh : e ≤ 22) :
    scale? (nearestBits n 1) e = some (bits ⟨n, e⟩) := by
  have hU := unitsPerOne_pos
  rw [scale?]
  by_cases he : 0 ≤ e
  · obtain ⟨k, rfl⟩ := Int.eq_ofNat_of_zero_le he
    have hproduct : n * unitsPerOne * (Nat.pow 10 k * unitsPerOne) =
        n * Nat.pow 10 k * (unitsPerOne * unitsPerOne) := by
      rw [Nat.mul_mul_mul_comm]
    have hround := nearestBits_mul_right (n * Nat.pow 10 k) 1 (Nat.mul_pos hU hU)
    rw [Nat.one_mul, ← hproduct] at hround
    rw [if_pos he, if_pos (by simp only [tableEnd]; omega), Int.toNat_natCast, mulBits,
      units_nearestBits hn, units_tenBits (by omega), hround]
    simp [bits, ratio]
  · have hbeyond : ((-e).toNat - 1) / tableEnd = 0 := by
      simp only [tableEnd]
      omega
    simp only [if_neg he, hbeyond, lower, Nat.zero_mul, Nat.sub_zero]
    rw [divBits, units_nearestBits hn, units_tenBits (by omega), nearestBits_mul_right _ _ hU]
    simp only [bits, ratio, if_neg he]

/-- Short numbers are read as the nearest double. -/
theorem stepwise_eq_exact {p : Parts} (hdigits : p.decimal.digits < 2 ^ 53)
    (hlow : -22 ≤ p.decimal.exponent) (hhigh : p.decimal.exponent ≤ 22) :
    Reader.stepwise p = Reader.exact p := by
  rw [Reader.stepwise, significand_eq_decimal (hdigits.trans (by decide)),
    scale?_short hdigits hlow hhigh, Reader.exact, toFloat?_eq, Option.bind_eq_bind,
    Option.bind_some]

/-! ## The power of ten -/

/-- The units of the last double but one. -/
def nearEnd : Nat := units (infinityBits - 2)

/-- The greatest significand that stays below `nearEnd` with a power of ten. -/
def greatest (k : Nat) : Nat :=
  min 0xffffffffffffffff (nearEnd / (unitsPerOne * Nat.pow 10 k))

theorem mulBits_mono {a b c d : Nat} (hac : a ≤ c) (hbd : b ≤ d) :
    mulBits a b ≤ mulBits c d := by
  have hpos : 0 < unitsPerOne * unitsPerOne := Nat.mul_pos unitsPerOne_pos unitsPerOne_pos
  exact nearestBits_mono hpos hpos
    (Nat.mul_le_mul_right _ (Nat.mul_le_mul (units_le_units hac) (units_le_units hbd)))

theorem nearestBits_one_mono {m n : Nat} (h : m ≤ n) : nearestBits m 1 ≤ nearestBits n 1 :=
  nearestBits_mono Nat.one_pos Nat.one_pos (Nat.mul_le_mul_right _ h)

theorem tenBits_mono {k l : Nat} (h : k ≤ l) : tenBits k ≤ tenBits l :=
  nearestBits_one_mono (ten_pow_le h)

/-- No product with a power in the table overflows that stays away from the end of the doubles. -/
theorem mulBits_table {k : Nat} (hk : k ≤ tableEnd) :
    mulBits (nearestBits (greatest k) 1) (tenBits k) < infinityBits := by
  rcases Nat.lt_or_ge k 289 with hlow | hhigh
  · -- here any significand of 64 bits will do
    calc mulBits (nearestBits (greatest k) 1) (tenBits k)
        ≤ mulBits (nearestBits 0xffffffffffffffff 1) (tenBits 288) :=
          mulBits_mono (nearestBits_one_mono (Nat.min_le_left _ _)) (tenBits_mono (by omega))
      _ < infinityBits := by decide +kernel
  · have htop : ∀ i < 20, mulBits (nearestBits (greatest (289 + i)) 1) (tenBits (289 + i)) <
        infinityBits := by
      decide +kernel
    simp only [tableEnd] at hk
    have h := htop (k - 289) (by omega)
    rwa [show 289 + (k - 289) = k by omega] at h

theorem le_greatest {n k : Nat} (hn : n < 0x10000000000000000)
    (h : bits ⟨n, k⟩ < infinityBits - 2) : n ≤ greatest k := by
  have hratio : bits ⟨n, k⟩ = nearestBits (n * Nat.pow 10 k) 1 := by
    simp [bits, ratio]
  rw [hratio] at h
  have hlt := lt_units_of_nearestBits_lt Nat.one_pos h
  have hpos : 0 < unitsPerOne * Nat.pow 10 k := Nat.mul_pos unitsPerOne_pos (ten_pow_pos k)
  refine Nat.le_min.2 ⟨by omega, (Nat.le_div_iff_mul_le hpos).2 (Nat.le_of_lt ?_)⟩
  rw [nearEnd]
  linarith

/-- Dividing by a power of ten makes nothing greater. -/
theorem divBits_le (a k : Nat) : divBits a (tenBits k) ≤ a := by
  have hone : unitsPerOne ≤ units (tenBits k) := by
    have h1 : units (tenBits 0) = unitsPerOne := by decide +kernel
    rw [← h1]
    exact units_le_units (tenBits_mono (Nat.zero_le k))
  calc divBits a (tenBits k) ≤ nearestBits (units a) unitsPerOne :=
        nearestBits_mono (unitsPerOne_pos.trans_le hone) unitsPerOne_pos
          (Nat.mul_le_mul_left _ hone)
    _ = a := nearestBits_units a

theorem lower_le (a k : Nat) : lower a k ≤ a := by
  induction k generalizing a with
  | zero => exact Nat.le_refl a
  | succ k ih =>
    rw [lower]
    split
    · exact Nat.zero_le a
    · exact (ih _).trans (divBits_le a tableEnd)

/-- A significand whose value stays away from the end of the doubles is scaled to a double. -/
theorem exists_scale? {n : Nat} {e : Int} (hn : n < 0x10000000000000000)
    (h : bits ⟨n, e⟩ < infinityBits - 2) :
    ∃ b, scale? (nearestBits n 1) e = some b ∧ b < infinityBits := by
  rw [scale?]
  by_cases he : 0 ≤ e
  · obtain ⟨k, rfl⟩ := Int.eq_ofNat_of_zero_le he
    rw [if_pos he]
    by_cases hk : k ≤ tableEnd
    · rw [if_pos (by exact_mod_cast hk), Int.toNat_natCast]
      have hle := nearestBits_one_mono (le_greatest hn h)
      exact ⟨_, rfl, Nat.lt_of_le_of_lt (mulBits_mono hle (Nat.le_refl _)) (mulBits_table hk)⟩
    · rw [if_neg (by exact_mod_cast hk)]
      have hzero : n = 0 := by
        -- beyond the table not even one digit stays below infinity
        by_contra hne
        have hinf : infinityBits ≤ bits ⟨1, 309⟩ := by decide +kernel
        have hle : bits ⟨1, 309⟩ ≤ bits ⟨n, k⟩ := by
          refine bits_le_bits (j := 0) (k := k - 309) ?_ ?_
          · exact Nat.mul_le_mul (Nat.pos_of_ne_zero hne) (ten_pow_pos _)
          · simp only [tableEnd] at hk
            omega
        omega
      have hbits : nearestBits n 1 = 0 := by
        rw [hzero]
        decide +kernel
      exact ⟨0, by rw [if_pos hbits], by decide⟩
  · rw [if_neg he]
    refine ⟨_, rfl, Nat.lt_of_le_of_lt ((divBits_le _ _).trans (lower_le _ _)) ?_⟩
    have := bits_lt_infinityBits hn
    simpa [bits, ratio] using this

/-! ## Written doubles -/

/-- The last two doubles are read, with either sign. -/
theorem reads_last_two : ∀ k < 2, ∀ negative : Bool,
    ((parts? ((if negative then ['-'] else []) ++ magnitudeText (infinityBits - 2 + k))).bind
      Reader.stepwise).isSome := by
  decide +kernel

/-- The reader in steps refuses no finite double that has been written. -/
theorem reads_stepwise {x : Float} (hx : x.isFinite) : (Reader.stepwise.reread? x).isSome := by
  have hlt := magnitudeBits_lt hx
  rcases Nat.lt_or_ge (magnitudeBits x) (infinityBits - 2) with hfar | hnear
  · obtain ⟨p, hp, hspells⟩ := numeral_realText x
    have hle := bits_significand_le p
    rw [hspells.bits] at hle
    obtain ⟨b, hb, hfinite⟩ := exists_scale? (n := p.significand.digits)
      (e := p.significand.exponent) (significand_lt p) (Nat.lt_of_le_of_lt hle hfar)
    have hread : Reader.stepwise p = ofBits? p.negative b := by
      rw [Reader.stepwise, hb, Option.bind_eq_bind, Option.bind_some]
    rw [reread?_of_numeral hp, hread]
    exact isSome_ofBits? hfinite _
  · have hlast := reads_last_two (magnitudeBits x - (infinityBits - 2)) (by omega) (isNegative x)
    have hne : magnitudeBits x ≠ 0 := by
      simp only [infinityBits] at hnear
      omega
    rw [show infinityBits - 2 + (magnitudeBits x - (infinityBits - 2)) = magnitudeBits x by omega]
      at hlast
    rwa [Reader.reread?, realText_eq, if_neg hne]

end Number

/-- The reader in steps refuses no double in a legible value. -/
theorem Json.reads_stepwise {depth : Nat} {v : Json} (h : Legible depth v) : v.Reads .stepwise :=
  fun x hx => Number.reads_stepwise (isFinite_of_mem_reals h x hx)

end LiveScene
