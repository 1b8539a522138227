import Mathlib.Data.List.Nodup
import Mathlib.Data.String.Basic
import LiveScene.Store.Basic

/-!
# The order of keys

Keys are ordered by the bytes of their UTF-8: the first byte that differs decides, and otherwise the
shorter key comes first (`KeyBefore`). Stores keep their keys in the order of the characters, which
is the same (`keyBefore_iff_lt`): where the bytes of two characters first differ, the smaller
character has the smaller byte, and they do differ before one of them ends
(`firstLess_utf8EncodeChar`).

So what a store lists is in strictly ascending order of keys (`keyBefore_keys`,
`keyBefore_toList_draggable`), as it would be after sorting (`mergeSort_eq_of_perm`).
-/

namespace LiveScene

open String (utf8EncodeChar)

/-- The bytes of a key. -/
def keyBytes (key : String) : List UInt8 := key.toUTF8.data.toList

/-- One key comes before another in the order of their bytes. -/
def KeyBefore (a b : String) : Prop := keyBytes a < keyBytes b

instance : DecidableRel KeyBefore := fun a b =>
  inferInstanceAs (Decidable (keyBytes a < keyBytes b))

/-! ## Bytes of characters -/

/-- At the first place where the two lists differ there is a byte in both, the smaller one in the
first list. -/
def FirstLess : List UInt8 → List UInt8 → Prop
  | a :: x, b :: y => a < b ∨ a = b ∧ FirstLess x y
  | _, _ => False

/-- Whatever follows makes no difference then. -/
theorem FirstLess.append {x y : List UInt8} (h : FirstLess x y) (s t : List UInt8) :
    x ++ s < y ++ t := by
  induction x generalizing y with
  | nil => cases h
  | cons a x ih =>
    cases y with
    | nil => cases h
    | cons b y =>
      rw [List.cons_append, List.cons_append, List.cons_lt_cons_iff]
      exact h.imp_right fun ⟨hab, hxy⟩ => ⟨hab, ih hxy⟩

theorem not_firstLess_nil (y : List UInt8) : ¬FirstLess [] y := id

theorem firstLess_cons_ofNat {a b : Nat} (ha : a < 256) (hb : b < 256) (x y : List UInt8) :
    FirstLess (UInt8.ofNat a :: x) (UInt8.ofNat b :: y) ↔ a < b ∨ a = b ∧ FirstLess x y := by
  rw [FirstLess, UInt8.lt_iff_toNat_lt, ← UInt8.toNat_inj, UInt8.toNat_ofNat', UInt8.toNat_ofNat',
    Nat.mod_eq_of_lt ha, Nat.mod_eq_of_lt hb]

/-- A number is smaller if its sixty-fourth part is, or if that is the same and the rest is
smaller. -/
theorem digits_lt {m n : Nat} (h : m < n) :
    m / 64 < n / 64 ∨ m / 64 = n / 64 ∧ m % 64 < n % 64 := by
  omega

/-- The same for four digits, of which the first is never greater than seven. -/
theorem four_digits_lt {m n : Nat} (h : m < n) (hn : n < 0x110000) :
    m / 262144 % 8 < n / 262144 % 8 ∨ m / 262144 % 8 = n / 262144 % 8 ∧
      (m / 4096 % 64 < n / 4096 % 64 ∨ m / 4096 % 64 = n / 4096 % 64 ∧
        (m / 64 % 64 < n / 64 % 64 ∨ m / 64 % 64 = n / 64 % 64 ∧ m % 64 < n % 64)) := by
  have hsecond (k : Nat) : k / 4096 = k / 64 / 64 := by rw [Nat.div_div_eq_div_mul]
  have hthird (k : Nat) : k / 262144 = k / 64 / 64 / 64 := by
    rw [Nat.div_div_eq_div_mul, Nat.div_div_eq_div_mul]
  simp only [hsecond, hthird]
  rcases digits_lt h with h | ⟨hrest, hlast⟩
  · rcases digits_lt h with h | ⟨hrest, hlast⟩
    · rcases digits_lt h with h | ⟨hrest, hlast⟩
      · exact Or.inl (by omega)
      · exact Or.inr ⟨by rw [hrest], Or.inl hlast⟩
    · exact Or.inr ⟨by rw [hrest], Or.inr ⟨by rw [hrest], Or.inl hlast⟩⟩
  · exact Or.inr ⟨by rw [hrest], Or.inr ⟨by rw [hrest], Or.inr ⟨by rw [hrest], hlast⟩⟩⟩

/-- The smaller of two characters has the smaller byte where their bytes first differ. -/
theorem firstLess_utf8EncodeChar {c d : Char} (h : c < d) :
    FirstLess (utf8EncodeChar c) (utf8EncodeChar d) := by
  have hlt : c.val.toNat < d.val.toNat := h
  have hd : d.val.toNat < 0x110000 := by
    rcases d.valid with h | h
    · exact Nat.lt_trans h (by decide)
    · exact h.2
  have hfour := four_digits_lt hlt hd
  unfold utf8EncodeChar
  generalize c.val.toNat = m at *
  generalize d.val.toNat = n at *
  -- the number of bytes grows with the character, and the first byte with the number of bytes
  dsimp only
  split_ifs <;>
    simp (disch := omega) only [firstLess_cons_ofNat, not_firstLess_nil, and_false, or_false,
      Nat.add_lt_add_iff_right, Nat.add_right_cancel_iff] <;>
    first | exact hfour | omega

/-! ## Bytes of keys -/

theorem keyBytes_eq (key : String) : keyBytes key = key.toList.flatMap utf8EncodeChar := by
  rw [keyBytes, String.toUTF8_eq_toByteArray, ← String.utf8Encode_toList, List.utf8Encode,
    List.data_toByteArray]

/-- Encoding keeps the order of texts. -/
theorem flatMap_utf8EncodeChar_lt {cs ds : List Char} (h : cs < ds) :
    cs.flatMap utf8EncodeChar < ds.flatMap utf8EncodeChar := by
  induction cs generalizing ds with
  | nil =>
    cases ds with
    | nil => exact absurd h (List.lt_irrefl [])
    | cons d ds =>
      obtain ⟨b, bs, hd⟩ := List.exists_cons_of_ne_nil (String.utf8EncodeChar_ne_nil (c := d))
      rw [List.flatMap_nil, List.flatMap_cons, hd]
      exact List.nil_lt_cons b _
  | cons c cs ih =>
    cases ds with
    | nil => cases h
    | cons d ds =>
      rw [List.flatMap_cons, List.flatMap_cons]
      rcases List.cons_lt_cons_iff.1 h with hcd | ⟨rfl, hrest⟩
      · exact (firstLess_utf8EncodeChar hcd).append _ _
      · exact List.append_left_lt (ih hrest)

/-- The order of bytes is the order of characters. -/
theorem keyBefore_iff_lt {a b : String} : KeyBefore a b ↔ a < b := by
  have mono {a b : String} (h : a < b) : KeyBefore a b := by
    rw [KeyBefore, keyBytes_eq, keyBytes_eq]
    exact flatMap_utf8EncodeChar_lt (String.lt_iff.1 h)
  refine ⟨fun h => ?_, mono⟩
  rcases lt_trichotomy a b with hlt | rfl | hgt
  · exact hlt
  · exact absurd h (List.lt_irrefl (keyBytes a))
  · exact absurd h (List.lt_asymm (mono hgt))

theorem keyBefore_iff_compare {a b : String} : KeyBefore a b ↔ compare a b = .lt := by
  rw [keyBefore_iff_lt, compare_lt_iff_lt]

theorem not_keyBefore_self (a : String) : ¬KeyBefore a a := List.lt_irrefl (keyBytes a)

theorem KeyBefore.asymm {a b : String} (h : KeyBefore a b) : ¬KeyBefore b a := List.lt_asymm h

/-- In strictly ascending order, be it of keys or by them, nothing is repeated. -/
theorem nodup_of_keyBefore {α : Type} {k : α → String} {xs : List α}
    (h : xs.Pairwise fun x y => KeyBefore (k x) (k y)) : xs.Nodup := by
  refine h.imp fun hxy hsame => ?_
  rw [hsame] at hxy
  exact not_keyBefore_self _ hxy

/-- A list in strictly ascending order is determined by its members. -/
theorem eq_of_keyBefore {α : Type} {k : α → String} {xs ys : List α}
    (hxs : xs.Pairwise fun x y => KeyBefore (k x) (k y))
    (hys : ys.Pairwise fun x y => KeyBefore (k x) (k y)) (h : ∀ x, x ∈ xs ↔ x ∈ ys) :
    xs = ys := by
  have hperm := (List.perm_ext_iff_of_nodup (nodup_of_keyBefore hxs) (nodup_of_keyBefore hys)).2 h
  exact hperm.eq_of_pairwise (fun x y _ _ hxy hyx => absurd hyx hxy.asymm) hxs hys

/-! ## Sorted lists -/

/-- Whatever order a list is given in, sorting it gives the same list in strictly ascending
order. -/
theorem mergeSort_eq_of_perm {α β : Type} [LinearOrder β] {f : α → β} {xs ys : List α}
    (hys : ys.Pairwise fun x y => f x < f y) (h : xs.Perm ys) :
    xs.mergeSort (fun x y => f x ≤ f y) = ys := by
  have hsorted : (xs.mergeSort fun x y => f x ≤ f y).Pairwise fun x y => f x ≤ f y := by
    refine (List.pairwise_mergeSort (fun x y z hxy hyz => ?_) (fun x y => ?_) xs).imp
      of_decide_eq_true
    · exact decide_eq_true (le_trans (of_decide_eq_true hxy) (of_decide_eq_true hyz))
    · simpa using le_total (f x) (f y)
  have hperm := (List.mergeSort_perm xs fun x y => decide (f x ≤ f y)).trans h
  refine hperm.eq_of_pairwise (fun x y hx hy hxy hyx => ?_) hsorted (hys.imp le_of_lt)
  have hnodup : (ys.map f).Nodup := List.pairwise_map.2 (hys.imp ne_of_lt)
  exact List.inj_on_of_nodup_map hnodup (hperm.mem_iff.1 hx) hy (le_antisymm hxy hyx)

/-! ## Lists of keys -/

namespace Store

theorem keyBefore_keys (s : Store) : s.objects.keys.Pairwise KeyBefore :=
  s.objects.ordered_keys.imp keyBefore_iff_compare.2

theorem keyBefore_keysUnder (s : Store) (stem : String) :
    (s.keysUnder stem).Pairwise KeyBefore :=
  s.keyBefore_keys.filter _

/-- The keys under a stem, in whatever order the stored keys come, are listed by sorting them. -/
theorem keysUnder_eq_mergeSort {s : Store} {keys : List String} (h : keys.Perm s.objects.keys)
    (stem : String) :
    s.keysUnder stem = (keys.filter (beginsWith stem)).mergeSort (· ≤ ·) :=
  (mergeSort_eq_of_perm (f := id) ((s.keyBefore_keysUnder stem).imp keyBefore_iff_lt.1)
    (h.filter _)).symm

theorem keyBefore_toList_draggable (s : Store) : s.draggable.toList.Pairwise KeyBefore :=
  s.draggable.ordered_toList.imp keyBefore_iff_compare.2

end Store

end LiveScene
