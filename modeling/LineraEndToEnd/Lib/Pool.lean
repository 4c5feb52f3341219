import Mathlib.Tactic.Linarith
import Mathlib.Tactic.Ring
import LineraEndToEnd.Lib.Mapping

/-!
# Rounded quotients, and pools of assets held in shares

* `mulDivFloor` / `mulDivCeil` — `x * y / d`, rounded down and up; each is
  characterised by which integers lie on its side of the exact quotient
  (`le_mulDivFloor_iff`, `mulDivCeil_le_iff`).
* `Pool` — assets in which shares are held, neither of them empty; a share is worth
  `assets / shares`. `TakesIn` / `PaysOut` — assets that enter and leave it for shares.
* `Pool.PriceLe` — the order on pools by the price of a share, a preorder; what a
  holder has is worth no more in the pool that is lower (`worthDown_le`, `worthUp_le`).
* `priceLe_add` / `priceLe_remove` — assets that enter for too few shares, and shares
  that leave for too few assets, do not lower the price; `priceLe_of_add` and
  `priceLe_of_remove` are the same from the other side.
* `total_worthDown_lt` — all holders together own less than the pool.
-/

namespace Lib

/-! ## Rounded quotients -/

/-- `x * y / d`, rounded down. -/
def mulDivFloor (x y d : ℕ) : ℕ := x * y / d

/-- `x * y / d`, rounded up. -/
def mulDivCeil (x y d : ℕ) : ℕ := (x * y + (d - 1)) / d

theorem le_mulDivFloor_iff {x y d n : ℕ} (hd : 0 < d) :
    n ≤ mulDivFloor x y d ↔ n * d ≤ x * y :=
  Nat.le_div_iff_mul_le hd

theorem mulDivFloor_mul_le (x y d : ℕ) : mulDivFloor x y d * d ≤ x * y :=
  Nat.div_mul_le_self _ _

theorem mulDivCeil_le_iff {x y d n : ℕ} (hd : 0 < d) :
    mulDivCeil x y d ≤ n ↔ x * y ≤ n * d := by
  unfold mulDivCeil
  rw [← Nat.lt_succ_iff, Nat.div_lt_iff_lt_mul hd, Nat.succ_mul]
  omega

theorem le_mulDivCeil_mul {x y d : ℕ} (hd : 0 < d) : x * y ≤ mulDivCeil x y d * d :=
  (mulDivCeil_le_iff hd).mp le_rfl

theorem mulDivCeil_pos {x y d : ℕ} (hd : 0 < d) (h : 0 < x * y) : 0 < mulDivCeil x y d := by
  by_contra hZero
  have hLe := (mulDivCeil_le_iff hd).mp (Nat.le_of_not_lt hZero)
  omega

theorem mulDivFloor_mono {x x' : ℕ} (y d : ℕ) (h : x ≤ x') :
    mulDivFloor x y d ≤ mulDivFloor x' y d :=
  Nat.div_le_div_right (Nat.mul_le_mul_right y h)

theorem mulDivCeil_mono {x x' : ℕ} (y d : ℕ) (h : x ≤ x') :
    mulDivCeil x y d ≤ mulDivCeil x' y d :=
  Nat.div_le_div_right (Nat.add_le_add_right (Nat.mul_le_mul_right y h) _)

@[simp] theorem mulDivFloor_zero (y d : ℕ) : mulDivFloor 0 y d = 0 := by
  simp [mulDivFloor]

@[simp] theorem mulDivCeil_zero (y d : ℕ) : mulDivCeil 0 y d = 0 := by
  unfold mulDivCeil
  rw [Nat.zero_mul, Nat.zero_add]
  rcases Nat.eq_zero_or_pos d with rfl | hd
  · rfl
  · exact Nat.div_eq_of_lt (by omega)

/-! ## Pools -/

/-- Assets in which shares are held. -/
@[ext] structure Pool where
  assets : ℕ
  shares : ℕ
  assets_pos : 0 < assets
  shares_pos : 0 < shares

namespace Pool

/-- What `n` shares are worth, rounded down. -/
def worthDown (p : Pool) (n : ℕ) : ℕ := mulDivFloor n p.assets p.shares

/-- What `n` shares are worth, rounded up. -/
def worthUp (p : Pool) (n : ℕ) : ℕ := mulDivCeil n p.assets p.shares

/-- The shares that are worth some assets, rounded down. -/
def sharesDown (p : Pool) (assets : ℕ) : ℕ := mulDivFloor assets p.shares p.assets

/-- The shares that are worth some assets, rounded up. -/
def sharesUp (p : Pool) (assets : ℕ) : ℕ := mulDivCeil assets p.shares p.assets

@[simp] theorem sharesDown_zero (p : Pool) : p.sharesDown 0 = 0 := mulDivFloor_zero _ _

/-- Shares are given for assets that come in, one computed from the other and rounded for the
pool. -/
def TakesIn (p : Pool) (assets shares : ℕ) : Prop :=
  shares = p.sharesDown assets ∨ assets = p.worthUp shares

/-- Assets go out for shares, one computed from the other and rounded for the pool. -/
def PaysOut (p : Pool) (assets shares : ℕ) : Prop :=
  shares = p.sharesUp assets ∨ assets = p.worthDown shares

instance (p : Pool) (assets shares : ℕ) : Decidable (p.TakesIn assets shares) :=
  inferInstanceAs (Decidable (_ ∨ _))

instance (p : Pool) (assets shares : ℕ) : Decidable (p.PaysOut assets shares) :=
  inferInstanceAs (Decidable (_ ∨ _))

/-- The shares are worth no more than the assets. -/
theorem TakesIn.le {p : Pool} {assets shares : ℕ} (h : p.TakesIn assets shares) :
    shares * p.assets ≤ assets * p.shares := by
  obtain rfl | rfl := h
  · exact mulDivFloor_mul_le _ _ _
  · exact le_mulDivCeil_mul p.shares_pos

/-- The assets are no more than the shares are worth. -/
theorem PaysOut.le {p : Pool} {assets shares : ℕ} (h : p.PaysOut assets shares) :
    assets * p.shares ≤ shares * p.assets := by
  obtain rfl | rfl := h
  · exact le_mulDivCeil_mul p.assets_pos
  · exact mulDivFloor_mul_le _ _ _

/-- A share of `p` is worth no more than one of `q`. -/
def PriceLe (p q : Pool) : Prop := p.assets * q.shares ≤ q.assets * p.shares

theorem PriceLe.refl (p : Pool) : p.PriceLe p := Nat.le_refl _

theorem PriceLe.trans {p q r : Pool} (hpq : p.PriceLe q) (hqr : q.PriceLe r) : p.PriceLe r := by
  refine Nat.le_of_mul_le_mul_right ?_ q.shares_pos
  calc p.assets * r.shares * q.shares
      = p.assets * q.shares * r.shares := by ring
    _ ≤ q.assets * p.shares * r.shares := Nat.mul_le_mul_right _ hpq
    _ = q.assets * r.shares * p.shares := by ring
    _ ≤ r.assets * q.shares * p.shares := Nat.mul_le_mul_right _ hqr
    _ = r.assets * p.shares * q.shares := by ring

theorem PriceLe.worthDown_le {p q : Pool} (h : p.PriceLe q) (n : ℕ) :
    p.worthDown n ≤ q.worthDown n := by
  refine (le_mulDivFloor_iff q.shares_pos).mpr (Nat.le_of_mul_le_mul_right ?_ p.shares_pos)
  have hOwn : p.worthDown n * p.shares ≤ n * p.assets := mulDivFloor_mul_le _ _ _
  calc p.worthDown n * q.shares * p.shares
      = p.worthDown n * p.shares * q.shares := by ring
    _ ≤ n * p.assets * q.shares := Nat.mul_le_mul_right _ hOwn
    _ = n * (p.assets * q.shares) := by ring
    _ ≤ n * (q.assets * p.shares) := Nat.mul_le_mul_left _ h
    _ = n * q.assets * p.shares := by ring

theorem PriceLe.worthUp_le {p q : Pool} (h : p.PriceLe q) (n : ℕ) :
    p.worthUp n ≤ q.worthUp n := by
  refine (mulDivCeil_le_iff p.shares_pos).mpr (Nat.le_of_mul_le_mul_right ?_ q.shares_pos)
  have hOwn : n * q.assets ≤ q.worthUp n * q.shares := le_mulDivCeil_mul q.shares_pos
  calc n * p.assets * q.shares
      = n * (p.assets * q.shares) := by ring
    _ ≤ n * (q.assets * p.shares) := Nat.mul_le_mul_left _ h
    _ = n * q.assets * p.shares := by ring
    _ ≤ q.worthUp n * q.shares * p.shares := Nat.mul_le_mul_right _ hOwn
    _ = q.worthUp n * p.shares * q.shares := by ring

/-- Assets enter for no more shares than they are worth. -/
theorem priceLe_add {p q : Pool} (assets shares : ℕ)
    (hAssets : q.assets = p.assets + assets) (hShares : q.shares = p.shares + shares)
    (hRound : shares * p.assets ≤ assets * p.shares) : p.PriceLe q := by
  unfold PriceLe
  rw [hAssets, hShares]
  linarith

/-- Shares leave for no more assets than they are worth. -/
theorem priceLe_remove {p q : Pool} (assets shares : ℕ)
    (hAssets : p.assets = q.assets + assets) (hShares : p.shares = q.shares + shares)
    (hRound : assets * p.shares ≤ shares * p.assets) : p.PriceLe q := by
  unfold PriceLe
  rw [hAssets, hShares] at *
  linarith

/-- Assets enter for at least the shares they are worth. -/
theorem priceLe_of_add {p q : Pool} (assets shares : ℕ)
    (hAssets : q.assets = p.assets + assets) (hShares : q.shares = p.shares + shares)
    (hRound : assets * p.shares ≤ shares * p.assets) : q.PriceLe p := by
  unfold PriceLe
  rw [hAssets, hShares]
  linarith

/-- Shares leave for at least the assets they are worth. -/
theorem priceLe_of_remove {p q : Pool} (assets shares : ℕ)
    (hAssets : p.assets = q.assets + assets) (hShares : p.shares = q.shares + shares)
    (hRound : shares * p.assets ≤ assets * p.shares) : q.PriceLe p := by
  unfold PriceLe
  rw [hAssets, hShares] at *
  linarith

theorem worthUp_mono (p : Pool) {m n : ℕ} (h : m ≤ n) : p.worthUp m ≤ p.worthUp n :=
  mulDivCeil_mono _ _ h

theorem worthUp_pos (p : Pool) {n : ℕ} (h : 0 < n) : 0 < p.worthUp n :=
  mulDivCeil_pos p.shares_pos (Nat.mul_pos h p.assets_pos)

/-- No part of the shares is worth more than the assets. -/
theorem worthUp_le_assets (p : Pool) {n : ℕ} (h : n ≤ p.shares) : p.worthUp n ≤ p.assets :=
  (mulDivCeil_le_iff p.shares_pos).mpr (by
    rw [Nat.mul_comm p.assets]
    exact Nat.mul_le_mul_right _ h)

/-- The value of all shares is that of some and that of the others. -/
theorem worth_parts (p : Pool) {n others : ℕ} (h : p.shares = n + others) (c : ℕ) :
    n * p.assets * c + others * (p.assets * c) = p.assets * (p.shares * c) := by
  rw [h]
  ring

/-- **No gain.** A holder of `n` shares, who holds `n'` once the pool has become one in which
the others' shares are worth no less, has no more than before, counting what went in and out. -/
theorem worthDown_exchange {p q : Pool} {n n' : ℕ} (others paidIn paidOut : ℕ) (h : p.PriceLe q)
    (hp : p.shares = n + others) (hq : q.shares = n' + others)
    (hFlow : q.assets + paidOut ≤ p.assets + paidIn) :
    q.worthDown n' + paidOut ≤ p.worthDown n + paidIn := by
  have hKey : (q.worthDown n' + paidOut) * (p.shares * q.shares) ≤
      n * p.assets * q.shares + paidIn * (p.shares * q.shares) := by
    have hOwn : q.worthDown n' * q.shares ≤ n' * q.assets := mulDivFloor_mul_le _ _ _
    have hScaled := Nat.mul_le_mul_right p.shares hOwn
    have hOthers := Nat.mul_le_mul_left others h
    have hFlows := Nat.mul_le_mul_right (p.shares * q.shares) hFlow
    have hParts := p.worth_parts hp q.shares
    have hParts' := q.worth_parts hq p.shares
    linarith
  rcases le_or_gt (q.worthDown n' + paidOut) paidIn with hLittle | hMore
  · exact hLittle.trans (Nat.le_add_left _ _)
  · obtain ⟨m, hm⟩ := Nat.exists_eq_add_of_le hMore.le
    have hGain : m ≤ p.worthDown n := by
      refine (le_mulDivFloor_iff p.shares_pos).mpr (Nat.le_of_mul_le_mul_right ?_ q.shares_pos)
      rw [hm] at hKey
      linarith
    omega

/-- **No relief.** Who owes for `n` shares, and for `n'` once the pool has become one in which
the others' shares are worth no more, owes no less than before, counting what was lent and
repaid. -/
theorem worthUp_exchange {p q : Pool} {n n' : ℕ} (others lent repaid : ℕ) (h : q.PriceLe p)
    (hp : p.shares = n + others) (hq : q.shares = n' + others)
    (hFlow : p.assets + lent ≤ q.assets + repaid) :
    p.worthUp n + lent ≤ q.worthUp n' + repaid := by
  have hKey : n * p.assets * q.shares + lent * (p.shares * q.shares) ≤
      (q.worthUp n' + repaid) * (p.shares * q.shares) := by
    have hOwn : n' * q.assets ≤ q.worthUp n' * q.shares := le_mulDivCeil_mul q.shares_pos
    have hScaled := Nat.mul_le_mul_right p.shares hOwn
    have hOthers := Nat.mul_le_mul_left others h
    have hFlows := Nat.mul_le_mul_right (p.shares * q.shares) hFlow
    have hParts := p.worth_parts hp q.shares
    have hParts' := q.worth_parts hq p.shares
    linarith
  have hMore : lent ≤ q.worthUp n' + repaid :=
    Nat.le_of_mul_le_mul_right ((Nat.le_add_left _ _).trans hKey)
      (Nat.mul_pos p.shares_pos q.shares_pos)
  obtain ⟨m, hm⟩ := Nat.exists_eq_add_of_le hMore
  have hOwed : p.worthUp n ≤ m := by
    refine (mulDivCeil_le_iff p.shares_pos).mpr (Nat.le_of_mul_le_mul_right ?_ q.shares_pos)
    rw [hm] at hKey
    linarith
  omega

/-- All holders of a pool in which some shares are nobody's own less than the pool. -/
theorem total_worthDown_lt {K : Type*} [Fintype K] (p : Pool) (held : K → ℕ)
    (h : total held < p.shares) : total (fun k => p.worthDown (held k)) < p.assets := by
  refine Nat.lt_of_mul_lt_mul_right (a := p.shares) ?_
  calc total (fun k => p.worthDown (held k)) * p.shares
      = total (fun k => p.worthDown (held k) * p.shares) := (total_mul _ _).symm
    _ ≤ total (fun k => held k * p.assets) := total_le_total fun _ => mulDivFloor_mul_le _ _ _
    _ = total held * p.assets := total_mul _ _
    _ < p.shares * p.assets := Nat.mul_lt_mul_of_pos_right h p.assets_pos
    _ = p.assets * p.shares := Nat.mul_comm _ _

end Pool

end Lib
