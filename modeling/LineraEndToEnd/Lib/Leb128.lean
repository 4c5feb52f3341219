import LineraEndToEnd.Lib.Codec
import Mathlib.Tactic.Ring

/-!
# Numbers in groups of seven bits

A number as bytes of seven bits each, the lowest first, where every byte but the last has
its high bit set.

* `encode` / `value` — the bytes of a number, and the number that bytes stand for.
* `Ends` — bytes of which the last one, and no other, ends the number.
* `shortest_encode` — of all bytes that end with the same value, the encoded ones are the
  shortest.
-/

namespace Lib.Leb128

/-- The number that bytes stand for. -/
def value : List UInt8 → ℕ
  | [] => 0
  | b :: bs => b.toNat % 128 + 128 * value bs

/-- The bytes of a number. -/
def encode (n : ℕ) : List UInt8 :=
  if n < 128 then [UInt8.ofNat n] else UInt8.ofNat (n % 128 + 128) :: encode (n / 128)
termination_by n
decreasing_by omega

/-- The last byte ends the number, and no other one does. -/
inductive Ends : List UInt8 → Prop
  | last {b : UInt8} (h : b.toNat < 128) : Ends [b]
  | more {b : UInt8} {bs : List UInt8} (h : 128 ≤ b.toNat) (hEnds : Ends bs) : Ends (b :: bs)

theorem encode_of_lt {n : ℕ} (h : n < 128) : encode n = [UInt8.ofNat n] := by
  rw [encode, if_pos h]

theorem encode_of_le {n : ℕ} (h : 128 ≤ n) :
    encode n = UInt8.ofNat (n % 128 + 128) :: encode (n / 128) := by
  rw [encode, if_neg (by omega)]

theorem toNat_ofNat_of_lt {n : ℕ} (h : n < 256) : (UInt8.ofNat n).toNat = n := by
  rw [UInt8.toNat_ofNat']
  omega

theorem ends_encode (n : ℕ) : Ends (encode n) := by
  induction n using encode.induct with
  | case1 n h =>
    rw [encode_of_lt h]
    exact .last (by rw [toNat_ofNat_of_lt (by omega)]; exact h)
  | case2 n h ih =>
    rw [encode_of_le (by omega)]
    exact .more (by rw [toNat_ofNat_of_lt (by omega)]; omega) ih

theorem value_encode (n : ℕ) : value (encode n) = n := by
  induction n using encode.induct with
  | case1 n h =>
    rw [encode_of_lt h, value, value, toNat_ofNat_of_lt (by omega)]
    omega
  | case2 n h ih =>
    rw [encode_of_le (by omega), value, ih, toNat_ofNat_of_lt (by omega)]
    omega

theorem value_append (bs bs' : List UInt8) :
    value (bs ++ bs') = value bs + 128 ^ bs.length * value bs' := by
  induction bs with
  | nil => simp [value]
  | cons b bs ih =>
    rw [List.cons_append, value, ih, value, List.length_cons, Nat.pow_succ]
    ring

/-- The bytes before the last one all go on. -/
theorem ends_iff {bs : List UInt8} : Ends bs ↔ ∃ init last, bs = init ++ [last] ∧
    (∀ b ∈ init, 128 ≤ b.toNat) ∧ last.toNat < 128 := by
  constructor
  · intro h
    induction h with
    | @last b h => exact ⟨[], b, rfl, by simp, h⟩
    | @more b bs h _ ih =>
      obtain ⟨init, last, rfl, hMore, hLast⟩ := ih
      exact ⟨b :: init, last, rfl, List.forall_mem_cons.mpr ⟨h, hMore⟩, hLast⟩
  · rintro ⟨init, last, rfl, hMore, hLast⟩
    induction init with
    | nil => exact .last hLast
    | cons b init ih =>
      rw [List.forall_mem_cons] at hMore
      exact .more hMore.1 (ih hMore.2)

/-- A number has no more bytes than it needs. -/
theorem pow_length_le {n : ℕ} (h : 128 ≤ n) : 128 ^ ((encode n).length - 1) ≤ n := by
  induction n using encode.induct with
  | case1 n hLt => omega
  | case2 n _ ih =>
    rw [encode_of_le h, List.length_cons, Nat.add_sub_cancel]
    by_cases hNext : n / 128 < 128
    · rw [encode_of_lt hNext, List.length_singleton]
      omega
    · have hStep := ih (by omega)
      have hLength : (encode (n / 128)).length = (encode (n / 128)).length - 1 + 1 := by
        rw [encode_of_le (by omega), List.length_cons]
        rfl
      rw [hLength, Nat.pow_succ]
      omega

theorem Ends.length_pos {bs : List UInt8} (h : Ends bs) : 0 < bs.length := by
  cases h <;> simp

/-- **The encoded bytes are the shortest.** -/
theorem shortest_encode {bs : List UInt8} (h : Ends bs) : Shortest (encode (value bs)) bs := by
  induction h with
  | @last b hLast =>
    have hValue : value [b] = b.toNat := by
      rw [value, value]
      omega
    rw [hValue, encode_of_lt hLast, UInt8.ofNat_toNat]
    exact Shortest.refl _
  | @more b bs hMore hEnds ih =>
    have hByte := b.toNat_lt
    have hLength := hEnds.length_pos
    by_cases hSmall : value (b :: bs) < 128
    · rw [encode_of_lt hSmall]
      constructor
      · simp
      · intro hEq
        simp only [List.length_cons, List.length_nil] at hEq
        omega
    · rw [encode_of_le (by omega)]
      rw [value]
      have hLow : (b.toNat % 128 + 128 * value bs) % 128 + 128 = b.toNat := by omega
      have hHigh : (b.toNat % 128 + 128 * value bs) / 128 = value bs := by omega
      rw [hLow, hHigh, UInt8.ofNat_toNat]
      exact (Shortest.refl [b]).append ih

end Lib.Leb128
