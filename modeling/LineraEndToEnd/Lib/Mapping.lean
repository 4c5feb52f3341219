import Mathlib.Algebra.BigOperators.Ring.Finset
import Mathlib.Algebra.Order.BigOperators.Group.Finset
import Mathlib.Data.Fintype.BigOperators

/-!
# Totals of a mapping

A mapping is total: every key has a value. Over a finite type of keys the amounts
that a function reads off the values have a total, and writing one key changes it
by what that key had and has.

* `total` — the sum over all keys. Irreducible: a sum over a type of addresses is never
  unfolded.
* `total_update` — writing one key: what is added is what the new value has, what
  is lost is what the old one had.
* `le_total` — one key's amount is part of the total.
-/

namespace Lib

open Function (update)

variable {K V : Type*} [Fintype K]

/-- The sum of `f` over all keys. -/
@[irreducible] def total (f : K → ℕ) : ℕ := ∑ k, f k

theorem total_eq_sum (f : K → ℕ) : total f = ∑ k, f k := by
  unfold total
  rfl

theorem total_zero : total (fun _ : K => 0) = 0 := by
  rw [total_eq_sum, Finset.sum_const_zero]

theorem le_total (f : K → ℕ) (k : K) : f k ≤ total f := by
  rw [total_eq_sum]
  exact Finset.single_le_sum (fun _ _ => Nat.zero_le _) (Finset.mem_univ k)

theorem total_le_total {f g : K → ℕ} (h : ∀ k, f k ≤ g k) : total f ≤ total g := by
  rw [total_eq_sum, total_eq_sum]
  exact Finset.sum_le_sum fun k _ => h k

theorem total_eq_zero {f : K → ℕ} : total f = 0 ↔ ∀ k, f k = 0 := by
  rw [total_eq_sum, Finset.sum_eq_zero_iff]
  simp

theorem total_mul (f : K → ℕ) (c : ℕ) : total (fun k => f k * c) = total f * c := by
  simp only [total_eq_sum, Finset.sum_mul]

variable [DecidableEq K]

/-- Two functions that agree off one key have totals that differ by that key. -/
theorem total_of_eq_off {f g : K → ℕ} (k : K) (h : ∀ k', k' ≠ k → f k' = g k') :
    total f + g k = total g + f k := by
  have hf := Finset.add_sum_erase Finset.univ f (Finset.mem_univ k)
  have hg := Finset.add_sum_erase Finset.univ g (Finset.mem_univ k)
  have hRest : ∑ k' ∈ Finset.univ.erase k, f k' = ∑ k' ∈ Finset.univ.erase k, g k' :=
    Finset.sum_congr rfl fun k' hk' => h k' (Finset.ne_of_mem_erase hk')
  rw [total_eq_sum, total_eq_sum]
  omega

/-- Writing a key moves the total by that key's amount. -/
theorem total_update (m : K → V) (k : K) (v : V) (f : V → ℕ) :
    total (fun k' => f (update m k v k')) + f (m k) = total (fun k' => f (m k')) + f v := by
  have h := total_of_eq_off (f := fun k' => f (update m k v k')) (g := fun k' => f (m k')) k
    fun k' hk' => by rw [Function.update_of_ne hk']
  simpa using h

end Lib
