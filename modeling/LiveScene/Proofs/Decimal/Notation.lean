import LiveScene.Proofs.Decimal.Value

/-!
# Significant digits

The significant digits of a decimal that is not zero are digits, and the first of them is not zero
(`leading_significant`). Together with its place they spell a decimal of their own,
`Significant.decimal`, which reads as the same double (`bits_significant`).
-/

namespace LiveScene.Decimal

/-! ## Digits of whole numbers -/

/-- Some digits, the first of which is not zero. -/
structure Leading (cs : List Char) : Prop where
  isDigit : ∀ c ∈ cs, c.isDigit
  head : ∃ c rest, cs = c :: rest ∧ c ≠ '0'

theorem isDigit_of_mem_toDigits {n : Nat} {c : Char} (h : c ∈ Nat.toDigits 10 n) : c.isDigit :=
  Nat.isDigit_of_mem_toDigits (by decide) (by decide) h

theorem leading_toDigits {n : Nat} (hn : n ≠ 0) : Leading (Nat.toDigits 10 n) := by
  refine ⟨fun _ => isDigit_of_mem_toDigits, ?_⟩
  induction n using Nat.strongRecOn with
  | ind n ih =>
    rcases Nat.lt_or_ge n 10 with h | h
    · refine ⟨n.digitChar, [], Nat.toDigits_of_lt_base h, ?_⟩
      simpa using hn
    · obtain ⟨c, rest, hcs, hc⟩ := ih (n / 10) (by omega) (by omega)
      refine ⟨c, rest ++ [(n % 10).digitChar], ?_, hc⟩
      rw [Nat.toDigits_of_base_le (by decide) h, hcs, List.cons_append]

theorem Leading.ne_nil {ds : List Char} (h : Leading ds) : ds ≠ [] := by
  obtain ⟨c, rest, rfl, -⟩ := h.head
  exact List.cons_ne_nil _ _

theorem Leading.append {ds : List Char} (h : Leading ds) {cs : List Char}
    (hcs : ∀ c ∈ cs, c.isDigit) : Leading (ds ++ cs) := by
  refine ⟨?_, ?_⟩
  · intro c hc
    rcases List.mem_append.1 hc with hc | hc
    · exact h.isDigit c hc
    · exact hcs c hc
  · obtain ⟨c, rest, rfl, hc⟩ := h.head
    exact ⟨c, rest ++ cs, rfl, hc⟩

theorem Leading.take {ds : List Char} (h : Leading ds) {n : Nat} (hn : 0 < n) :
    Leading (ds.take n) := by
  refine ⟨fun c hc => h.isDigit c (List.mem_of_mem_take hc), ?_⟩
  obtain ⟨c, rest, rfl, hc⟩ := h.head
  obtain ⟨m, rfl⟩ : ∃ m, n = m + 1 := ⟨n - 1, by omega⟩
  exact ⟨c, rest.take m, rfl, hc⟩

theorem isDigit_of_mem_zeros {n : Nat} {c : Char} (h : c ∈ Significant.zeros n) : c.isDigit := by
  rw [List.eq_of_mem_replicate h]
  decide

theorem ofDigitChars_append_zeros (ds : List Char) (n : Nat) :
    Nat.ofDigitChars 10 (ds ++ Significant.zeros n) 0 =
      Nat.ofDigitChars 10 ds 0 * Nat.pow 10 n := by
  rw [Nat.ofDigitChars_append, Significant.zeros, Nat.ofDigitChars_replicate_zero, Nat.mul_comm]
  rfl

theorem ofDigitChars_zeros_append (n : Nat) (ds : List Char) :
    Nat.ofDigitChars 10 (Significant.zeros n ++ ds) 0 = Nat.ofDigitChars 10 ds 0 := by
  rw [Nat.ofDigitChars_append, Significant.zeros, Nat.ofDigitChars_replicate_zero, Nat.mul_zero]

/-! ## Without trailing zeros -/

/-- The decimal that significant digits spell. -/
def Significant.decimal (s : Significant) : Decimal :=
  ⟨Nat.ofDigitChars 10 s.digits 0, s.place - s.digits.length⟩

/-- The digits of a decimal are the significant ones and zeros. -/
theorem toDigits_eq_significant (d : Decimal) :
    ∃ k, Nat.toDigits 10 d.digits = d.significant.digits ++ Significant.zeros k := by
  have hsplit := List.takeWhile_append_dropWhile (p := (· == '0'))
    (l := (Nat.toDigits 10 d.digits).reverse)
  have hall := List.all_takeWhile (p := (· == '0')) (l := (Nat.toDigits 10 d.digits).reverse)
  rw [List.all_eq_true] at hall
  refine ⟨((Nat.toDigits 10 d.digits).reverse.takeWhile (· == '0')).length, ?_⟩
  have hzeros : (Nat.toDigits 10 d.digits).reverse.takeWhile (· == '0') =
      Significant.zeros ((Nat.toDigits 10 d.digits).reverse.takeWhile (· == '0')).length := by
    refine List.eq_replicate_iff.2 ⟨rfl, ?_⟩
    intro c hc
    simpa using hall c hc
  rw [← List.reverse_inj, List.reverse_append, significant, List.reverse_reverse,
    Significant.zeros, List.reverse_replicate, ← Significant.zeros, ← hzeros, hsplit]

/-- The value of a decimal's digits is that of the significant ones and zeros. -/
theorem ofDigitChars_significant (d : Decimal) :
    ∃ k, d.digits = Nat.ofDigitChars 10 d.significant.digits 0 * Nat.pow 10 k ∧
      d.significant.place = d.significant.digits.length + k + d.exponent := by
  obtain ⟨k, hk⟩ := toDigits_eq_significant d
  refine ⟨k, ?_, ?_⟩
  · have hvalue : Nat.ofDigitChars 10 (Nat.toDigits 10 d.digits) 0 = d.digits :=
      Nat.ofDigitChars_ten_toDigits
    rw [hk, ofDigitChars_append_zeros] at hvalue
    exact hvalue.symm
  · have hlength := congrArg List.length hk
    rw [List.length_append, Significant.zeros, List.length_replicate] at hlength
    change ((Nat.toDigits 10 d.digits).length : Int) + d.exponent = _
    omega

/-- The significant digits have the value of the decimal. -/
theorem bits_significant (d : Decimal) : d.significant.decimal.bits = d.bits := by
  obtain ⟨k, hdigits, hplace⟩ := ofDigitChars_significant d
  have hd : d = ⟨Nat.ofDigitChars 10 d.significant.digits 0 * Nat.pow 10 k, d.exponent⟩ := by
    rw [← hdigits]
  rw [hd, bits_shift, ← hd, Significant.decimal, hplace]
  congr 2
  omega

theorem leading_significant {d : Decimal} (h : d.digits ≠ 0) : Leading d.significant.digits := by
  obtain ⟨k, hk⟩ := toDigits_eq_significant d
  obtain ⟨l, hvalue, -⟩ := ofDigitChars_significant d
  have hds := leading_toDigits h
  refine ⟨?_, ?_⟩
  · intro c hc
    apply hds.isDigit
    rw [hk]
    exact List.mem_append_left _ hc
  · obtain ⟨c, rest, hcs, hc⟩ := hds.head
    cases hs : d.significant.digits with
    | nil =>
      rw [hs, Nat.ofDigitChars_nil, Nat.zero_mul] at hvalue
      exact absurd hvalue h
    | cons c' rest' =>
      rw [hcs, hs, List.cons_append] at hk
      obtain ⟨rfl, -⟩ := List.cons.inj hk
      exact ⟨c, rest', rfl, hc⟩

end LiveScene.Decimal
