import Mathlib.Data.Nat.ModEq

/-!
# Big-endian bytes

Numbers as strings of a fixed number of bytes, the most significant one first, and
the lexicographic order of byte strings.

* `append_lt_append_iff` — the order of concatenations, when the first parts have
  the same length: by the first parts, and then by the second ones.
* `value` / `digits` — the number a string of bytes stands for, and the string of
  `w` bytes of a number.
* `value_digits` / `digits_value` — the two are inverse to each other.
* `lt_iff_value_lt` — strings of the same length are ordered like their numbers.
* `digits_compl_lt_iff` — and in reverse when the bits are complemented.
-/

namespace Lib

/-- Concatenations of strings whose first parts have the same length are compared by
their first parts, and then by their second ones. -/
theorem append_lt_append_iff {α : Type*} [LT α] [Std.Irrefl (· < · : α → α → Prop)]
    {as bs cs ds : List α} (hLength : as.length = bs.length) :
    as ++ cs < bs ++ ds ↔ as < bs ∨ as = bs ∧ cs < ds := by
  induction as generalizing bs with
  | nil =>
    obtain rfl : bs = [] := List.eq_nil_of_length_eq_zero hLength.symm
    simp
  | cons a as ih =>
    cases bs with
    | nil => cases hLength
    | cons b bs =>
      rw [List.cons_append, List.cons_append, List.cons_lt_cons_iff, List.cons_lt_cons_iff,
        ih (Nat.succ.inj hLength), List.cons.injEq]
      tauto

namespace BigEndian

/-- The number a string of bytes stands for. -/
def value : List UInt8 → ℕ
  | [] => 0
  | b :: bs => b.toNat * 256 ^ bs.length + value bs

/-- The last `w` bytes of a number. -/
def digits : ℕ → ℕ → List UInt8
  | 0, _ => []
  | w + 1, n => UInt8.ofNat (n / 256 ^ w) :: digits w n

@[simp] theorem length_digits (w n : ℕ) : (digits w n).length = w := by
  induction w with
  | zero => rfl
  | succ w ih => rw [digits, List.length_cons, ih]

/-- The last digits are the digits of the same number in fewer places. -/
theorem drop_digits (v w n : ℕ) : (digits (v + w) n).drop v = digits w n := by
  induction v with
  | zero => rw [Nat.zero_add, List.drop_zero]
  | succ v ih =>
    rw [Nat.succ_add, digits, List.drop_succ_cons]
    exact ih

theorem value_lt (bs : List UInt8) : value bs < 256 ^ bs.length := by
  induction bs with
  | nil => exact Nat.one_pos
  | cons b bs ih =>
    have hByte : b.toNat + 1 ≤ 256 := b.toNat_lt
    calc b.toNat * 256 ^ bs.length + value bs
        < b.toNat * 256 ^ bs.length + 256 ^ bs.length := Nat.add_lt_add_left ih _
      _ = (b.toNat + 1) * 256 ^ bs.length := (Nat.succ_mul ..).symm
      _ ≤ 256 * 256 ^ bs.length := Nat.mul_le_mul_right _ hByte
      _ = 256 ^ (bs.length + 1) := (Nat.pow_succ' ..).symm

theorem value_eq_zero_iff {bs : List UInt8} : value bs = 0 ↔ ∀ b ∈ bs, b = 0 := by
  induction bs with
  | nil => simp [value]
  | cons b bs ih =>
    have hByte : b.toNat = 0 ↔ b = 0 := UInt8.toNat_inj (b := 0)
    rw [value, Nat.add_eq_zero_iff, ih, Nat.mul_eq_zero, hByte, List.forall_mem_cons]
    simp

theorem value_digits (w n : ℕ) : value (digits w n) = n % 256 ^ w := by
  induction w with
  | zero => rw [digits, value, Nat.pow_zero, Nat.mod_one]
  | succ w ih =>
    have hByte : (UInt8.ofNat (n / 256 ^ w)).toNat = n / 256 ^ w % 256 := UInt8.toNat_ofNat'
    rw [digits, value, ih, length_digits, hByte, Nat.mod_pow_succ, Nat.mul_comm, Nat.add_comm]

/-- Strings of the same length are compared like the numbers they stand for. -/
theorem lt_iff_value_lt {as bs : List UInt8} (hLength : as.length = bs.length) :
    as < bs ↔ value as < value bs := by
  induction as generalizing bs with
  | nil =>
    obtain rfl : bs = [] := List.eq_nil_of_length_eq_zero hLength.symm
    simp
  | cons a as ih =>
    cases bs with
    | nil => cases hLength
    | cons b bs =>
      have hRest : as.length = bs.length := Nat.succ.inj hLength
      have hAs := value_lt as
      have hBs := value_lt bs
      rw [List.cons_lt_cons_iff, ih hRest, value, value, hRest]
      rw [hRest] at hAs
      rcases Nat.lt_trichotomy a.toNat b.toNat with hLt | hEq | hGt
      · have hStep := Nat.mul_le_mul_right (256 ^ bs.length) hLt
        rw [Nat.succ_mul] at hStep
        exact iff_of_true (Or.inl hLt) (by omega)
      · obtain rfl := UInt8.toNat_inj.mp hEq
        simp
      · have hStep := Nat.mul_le_mul_right (256 ^ bs.length) hGt
        rw [Nat.succ_mul] at hStep
        refine iff_of_false ?_ (by omega)
        rintro (hLt | ⟨rfl, -⟩)
        · exact Nat.lt_asymm hGt hLt
        · exact Nat.lt_irrefl _ hGt

theorem value_inj {as bs : List UInt8} (hLength : as.length = bs.length)
    (hValue : value as = value bs) : as = bs := by
  have hNotLt : ¬ as < bs := fun h => Nat.ne_of_lt ((lt_iff_value_lt hLength).mp h) hValue
  have hNotGt : ¬ bs < as :=
    fun h => Nat.ne_of_gt ((lt_iff_value_lt hLength.symm).mp h) hValue
  exact List.le_antisymm hNotGt hNotLt

theorem digits_value (bs : List UInt8) : digits bs.length (value bs) = bs := by
  refine value_inj (length_digits ..) ?_
  rw [value_digits, Nat.mod_eq_of_lt (value_lt bs)]

/-! ### The bytes of numbers that fit, and of their complements -/

variable {w m n : ℕ}

theorem value_digits_of_lt (hn : n < 256 ^ w) : value (digits w n) = n := by
  rw [value_digits, Nat.mod_eq_of_lt hn]

theorem digits_lt_iff (hm : m < 256 ^ w) (hn : n < 256 ^ w) :
    digits w m < digits w n ↔ m < n := by
  have hLength : (digits w m).length = (digits w n).length := by
    rw [length_digits, length_digits]
  rw [lt_iff_value_lt hLength, value_digits_of_lt hm, value_digits_of_lt hn]

theorem digits_inj (hm : m < 256 ^ w) (hn : n < 256 ^ w) (h : digits w m = digits w n) :
    m = n := by
  rw [← value_digits_of_lt hm, h, value_digits_of_lt hn]

/-- Complementing all bits reverses the order. -/
theorem digits_compl_lt_iff (hm : m < 256 ^ w) (hn : n < 256 ^ w) :
    digits w (256 ^ w - 1 - m) < digits w (256 ^ w - 1 - n) ↔ n < m := by
  rw [digits_lt_iff (by omega) (by omega)]
  omega

theorem digits_compl_inj (hm : m < 256 ^ w) (hn : n < 256 ^ w) :
    digits w (256 ^ w - 1 - m) = digits w (256 ^ w - 1 - n) ↔ m = n := by
  constructor
  · intro h
    have hCompl := digits_inj (by omega) (by omega) h
    omega
  · rintro rfl
    rfl

end BigEndian

end Lib
