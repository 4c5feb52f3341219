import LineraEndToEnd.Lib.Run
import LineraEndToEnd.Morpho.Contract

/-!
# The book of one market

What a market is for, apart from addresses, hashes and tokens: a supply side and a
borrow side, each a pool in which accounts hold shares, and the accounts' collateral.
A move of the book is what one function of the contract comes to, with the amounts it
has computed; its guard says how those amounts are rounded, and what the function checks
within the market. Times, rates and prices are not part of the book.

* `Book.Guard` / `Book.after` / `Book.step` — when a move is possible, and what it does.
* `Book.Balanced` — the shares of all accounts add up, nothing is lent that was not
  supplied, and who has no collateral has no debt; kept by every move
  (`Balanced.after`), so by every run of moves (`Balanced.run`).
* `priceLe_after` — no move but a liquidation lowers the price of a supply share.
* `debt_after_le` — no move but an accrual raises what another account owes.
-/

namespace LineraEndToEnd.Morpho

open Solidity
open Function (update)
open Lib (total total_update le_total run Pool)

-- ---------------------------------------------------------------------------
-- Moves
-- ---------------------------------------------------------------------------

/-- One market: its totals, and the positions in it. -/
@[ext] structure Book where
  market : Market
  position : Address → Position

/-- The amounts of an accrual. -/
structure Accrual where
  interest : Nat
  feeAmount : Nat
  feeShares : Nat
  lastUpdate : Nat
deriving DecidableEq

/-- The amounts of a liquidation. -/
structure Liquidation where
  repaidAssets : Nat
  repaidShares : Nat
  seizedAssets : Nat
  badDebtAssets : Nat
  badDebtShares : Nat
deriving DecidableEq

/-- What happens to a market. -/
inductive Move
  | create (lastUpdate : Nat)
  | setFee (fee : Nat)
  | accrue (feeRecipient : Address) (amounts : Accrual)
  | supply (onBehalf : Address) (assets shares : Nat)
  | withdraw (onBehalf : Address) (assets shares : Nat)
  | borrow (onBehalf : Address) (assets shares : Nat)
  | repay (onBehalf : Address) (assets shares : Nat)
  | supplyCollateral (onBehalf : Address) (assets : Nat)
  | withdrawCollateral (onBehalf : Address) (assets : Nat)
  | liquidate (borrower : Address) (amounts : Liquidation)
deriving DecidableEq

/-- Whether a move writes off bad debt. -/
def Move.writesOff : Move → Prop
  | .liquidate _ l => l.badDebtAssets ≠ 0
  | _ => False

/-- Whether a move may leave an account owing more: interest is accrued, or the account
borrows. -/
def Move.raisesDebtOf (a : Address) : Move → Prop
  | .accrue _ c => c.interest ≠ 0
  | .borrow onBehalf _ _ => onBehalf = a
  | _ => False

instance : DecidablePred Move.writesOff
  | .liquidate _ l => inferInstanceAs (Decidable (l.badDebtAssets ≠ 0))
  | .create _ | .setFee _ | .accrue _ _ | .supply _ _ _ | .withdraw _ _ _ | .borrow _ _ _
  | .repay _ _ _ | .supplyCollateral _ _ | .withdrawCollateral _ _ => instDecidableFalse

instance (a : Address) : DecidablePred (Move.raisesDebtOf a)
  | .accrue _ c => inferInstanceAs (Decidable (c.interest ≠ 0))
  | .borrow onBehalf _ _ => inferInstanceAs (Decidable (onBehalf = a))
  | .create _ | .setFee _ | .supply _ _ _ | .withdraw _ _ _ | .repay _ _ _
  | .supplyCollateral _ _ | .withdrawCollateral _ _ | .liquidate _ _ => instDecidableFalse

namespace Book

/-- The supply side. -/
def supplySide (b : Book) : Pool :=
  virtualPool b.market.totalSupplyAssets b.market.totalSupplyShares

/-- The borrow side. -/
def borrowSide (b : Book) : Pool :=
  virtualPool b.market.totalBorrowAssets b.market.totalBorrowShares

/-- What an account owes, rounded up. -/
def debt (b : Book) (a : Address) : Nat := b.borrowSide.worthUp (b.position a).borrowShares

/-- What may be borrowed against some collateral, at a price of the collateral. -/
def maxBorrow (collateral collateralPrice lltv : Nat) : Nat :=
  Lib.mulDivFloor (Lib.mulDivFloor collateral collateralPrice ORACLE_PRICE_SCALE) lltv WAD

/-- An account owes no more than its collateral allows. -/
def Healthy (b : Book) (a : Address) (collateralPrice lltv : Nat) : Prop :=
  b.debt a ≤ maxBorrow (b.position a).collateral collateralPrice lltv

instance (b : Book) (a : Address) (collateralPrice lltv : Nat) :
    Decidable (b.Healthy a collateralPrice lltv) := Nat.decLe _ _

/-- The borrow side of a liquidation, once the repayment is in. -/
def repaidSide (b : Book) (l : Liquidation) : Pool :=
  virtualPool (b.market.totalBorrowAssets - l.repaidAssets)
    (b.market.totalBorrowShares - l.repaidShares)

/-- The supply side of an accrual, when the fee is charged: with the interest, less the fee. -/
def feeSide (b : Book) (c : Accrual) : Pool :=
  virtualPool (b.market.totalSupplyAssets + c.interest - c.feeAmount) b.market.totalSupplyShares

/-- When a move is possible. -/
def Guard (b : Book) : Move → Prop
  | .create _ => b.market.lastUpdate = 0
  | .setFee fee => fee ≤ MAX_FEE
  | .accrue _ c =>
    c.feeAmount = Lib.mulDivFloor c.interest b.market.fee WAD ∧
    c.feeShares = (b.feeSide c).sharesDown c.feeAmount
  | .supply _ assets shares => b.supplySide.TakesIn assets shares
  | .withdraw a assets shares =>
    shares ≤ (b.position a).supplyShares ∧
    b.supplySide.PaysOut assets shares ∧
    b.market.totalBorrowAssets + assets ≤ b.market.totalSupplyAssets
  | .borrow a assets shares =>
    b.borrowSide.PaysOut assets shares ∧
    b.market.totalBorrowAssets + assets ≤ b.market.totalSupplyAssets ∧
    ((b.position a).collateral = 0 → (b.position a).borrowShares + shares = 0)
  | .repay a assets shares =>
    shares ≤ (b.position a).borrowShares ∧ b.borrowSide.TakesIn assets shares
  | .supplyCollateral _ _ => True
  | .withdrawCollateral a assets =>
    assets ≤ (b.position a).collateral ∧
    ((b.position a).collateral = assets → (b.position a).borrowShares = 0)
  | .liquidate a l =>
    l.repaidShares ≤ (b.position a).borrowShares ∧
    l.repaidAssets = b.borrowSide.worthUp l.repaidShares ∧
    l.seizedAssets ≤ (b.position a).collateral ∧
    if (b.position a).collateral = l.seizedAssets then
      l.badDebtShares = (b.position a).borrowShares - l.repaidShares ∧
      l.badDebtAssets = min (b.market.totalBorrowAssets - l.repaidAssets)
        ((b.repaidSide l).worthUp l.badDebtShares)
    else l.badDebtShares = 0 ∧ l.badDebtAssets = 0

instance (b : Book) : ∀ m : Move, Decidable (b.Guard m)
  | .create _ => Nat.decEq _ _
  | .setFee _ => Nat.decLe _ _
  | .accrue _ _ => instDecidableAnd
  | .supply _ assets shares => inferInstanceAs (Decidable (b.supplySide.TakesIn assets shares))
  | .withdraw _ _ _ => instDecidableAnd
  | .borrow _ _ _ => instDecidableAnd
  | .repay _ _ _ => instDecidableAnd
  | .supplyCollateral _ _ => isTrue trivial
  | .withdrawCollateral _ _ => instDecidableAnd
  | .liquidate _ _ => instDecidableAnd

/-- The book with one position written. -/
def setPosition (b : Book) (a : Address) (pos : Position) : Book :=
  { b with position := update b.position a pos }

@[simp] theorem setPosition_self (b : Book) (a : Address) (pos : Position) :
    (b.setPosition a pos).position a = pos := Function.update_self ..

theorem setPosition_of_ne (b : Book) {a a' : Address} (pos : Position) (h : a' ≠ a) :
    (b.setPosition a pos).position a' = b.position a' := Function.update_of_ne h ..

@[simp] theorem setPosition_market (b : Book) (a : Address) (pos : Position) :
    (b.setPosition a pos).market = b.market := rfl

/-- What a move does. -/
def after (b : Book) : Move → Book
  | .create lastUpdate => { b with market := { b.market with lastUpdate } }
  | .setFee fee => { b with market := { b.market with fee } }
  | .accrue a c =>
    { b.setPosition a { b.position a with
        supplyShares := (b.position a).supplyShares + c.feeShares } with
      market := { b.market with
        totalSupplyAssets := b.market.totalSupplyAssets + c.interest
        totalSupplyShares := b.market.totalSupplyShares + c.feeShares
        totalBorrowAssets := b.market.totalBorrowAssets + c.interest
        lastUpdate := c.lastUpdate } }
  | .supply a assets shares =>
    { b.setPosition a { b.position a with
        supplyShares := (b.position a).supplyShares + shares } with
      market := { b.market with
        totalSupplyAssets := b.market.totalSupplyAssets + assets
        totalSupplyShares := b.market.totalSupplyShares + shares } }
  | .withdraw a assets shares =>
    { b.setPosition a { b.position a with
        supplyShares := (b.position a).supplyShares - shares } with
      market := { b.market with
        totalSupplyAssets := b.market.totalSupplyAssets - assets
        totalSupplyShares := b.market.totalSupplyShares - shares } }
  | .borrow a assets shares =>
    { b.setPosition a { b.position a with
        borrowShares := (b.position a).borrowShares + shares } with
      market := { b.market with
        totalBorrowAssets := b.market.totalBorrowAssets + assets
        totalBorrowShares := b.market.totalBorrowShares + shares } }
  | .repay a assets shares =>
    { b.setPosition a { b.position a with
        borrowShares := (b.position a).borrowShares - shares } with
      market := { b.market with
        totalBorrowAssets := b.market.totalBorrowAssets - assets
        totalBorrowShares := b.market.totalBorrowShares - shares } }
  | .supplyCollateral a assets =>
    b.setPosition a { b.position a with collateral := (b.position a).collateral + assets }
  | .withdrawCollateral a assets =>
    b.setPosition a { b.position a with collateral := (b.position a).collateral - assets }
  | .liquidate a l =>
    { b.setPosition a { b.position a with
        borrowShares := (b.position a).borrowShares - l.repaidShares - l.badDebtShares
        collateral := (b.position a).collateral - l.seizedAssets } with
      market := { b.market with
        totalSupplyAssets := b.market.totalSupplyAssets - l.badDebtAssets
        totalBorrowAssets := b.market.totalBorrowAssets - l.repaidAssets - l.badDebtAssets
        totalBorrowShares := b.market.totalBorrowShares - l.repaidShares - l.badDebtShares } }

/-- A move of the book, where it is possible. -/
def step (b : Book) (m : Move) : Option Book := if b.Guard m then some (b.after m) else none

theorem step_eq_some_iff {b b' : Book} {m : Move} :
    b.step m = some b' ↔ b.Guard m ∧ b.after m = b' := by
  unfold step
  split <;> simp [*]

-- ---------------------------------------------------------------------------
-- Balance
-- ---------------------------------------------------------------------------

/-- The totals of a book are those of its positions, no more is lent than was supplied,
and there is no debt without collateral. -/
structure Balanced (b : Book) : Prop where
  supplyShares : total (fun a => (b.position a).supplyShares) = b.market.totalSupplyShares
  borrowShares : total (fun a => (b.position a).borrowShares) = b.market.totalBorrowShares
  liquidity : b.market.totalBorrowAssets ≤ b.market.totalSupplyAssets
  collateralized : ∀ a, (b.position a).collateral = 0 → (b.position a).borrowShares = 0
  fee_le : b.market.fee ≤ MAX_FEE

theorem Balanced.empty : Balanced ⟨Market.empty, fun _ => Position.empty⟩ where
  supplyShares := Lib.total_zero
  borrowShares := Lib.total_zero
  liquidity := le_rfl
  collateralized := fun _ _ => rfl
  fee_le := Nat.zero_le _

variable {b : Book} {f : Position → Nat} {a : Address} {pos : Position} {n : Nat}

/-- The total of a field, when one account gains. -/
theorem total_gain (h : f pos = f (b.position a) + n) :
    total (fun a' => f ((b.setPosition a pos).position a')) =
      total (fun a' => f (b.position a')) + n := by
  have hTotal : total (fun a' => f ((b.setPosition a pos).position a')) + f (b.position a) =
    total (fun a' => f (b.position a')) + f pos := total_update b.position a pos f
  omega

/-- The total of a field, when one account loses. -/
theorem total_loss (h : f pos = f (b.position a) - n) (hEnough : n ≤ f (b.position a)) :
    total (fun a' => f ((b.setPosition a pos).position a')) =
      total (fun a' => f (b.position a')) - n := by
  have hTotal : total (fun a' => f ((b.setPosition a pos).position a')) + f (b.position a) =
    total (fun a' => f (b.position a')) + f pos := total_update b.position a pos f
  omega

/-- The total of a field that is not written. -/
theorem total_same (h : f pos = f (b.position a)) :
    total (fun a' => f ((b.setPosition a pos).position a')) =
      total (fun a' => f (b.position a')) := by
  have hTotal : total (fun a' => f ((b.setPosition a pos).position a')) + f (b.position a) =
    total (fun a' => f (b.position a')) + f pos := total_update b.position a pos f
  omega

/-- A liquidation takes no more debt from the borrower than there is. -/
theorem liquidated_le {l : Liquidation} (h : b.Guard (.liquidate a l)) :
    l.repaidShares + l.badDebtShares ≤ (b.position a).borrowShares := by
  obtain ⟨hRepaid, -, -, hBad⟩ := h
  split at hBad
  · omega
  · omega

/-- Who is healthy and has no collateral has no debt. -/
theorem Healthy.collateralized {collateralPrice lltv : Nat} (h : b.Healthy a collateralPrice lltv)
    (hNone : (b.position a).collateral = 0) : (b.position a).borrowShares = 0 := by
  unfold Healthy maxBorrow at h
  rw [hNone, Lib.mulDivFloor_zero, Lib.mulDivFloor_zero] at h
  by_contra hDebt
  have hPos : 0 < b.debt a := Pool.worthUp_pos _ (Nat.pos_of_ne_zero hDebt)
  omega

namespace Balanced

theorem supplyShares_le (h : b.Balanced) (a : Address) :
    (b.position a).supplyShares ≤ b.market.totalSupplyShares :=
  h.supplyShares ▸ le_total (fun a => (b.position a).supplyShares) a

theorem borrowShares_le (h : b.Balanced) (a : Address) :
    (b.position a).borrowShares ≤ b.market.totalBorrowShares :=
  h.borrowShares ▸ le_total (fun a => (b.position a).borrowShares) a

theorem collateralized_setPosition (h : b.Balanced)
    (hPos : pos.collateral = 0 → pos.borrowShares = 0) (a' : Address)
    (hNone : ((b.setPosition a pos).position a').collateral = 0) :
    ((b.setPosition a pos).position a').borrowShares = 0 := by
  by_cases ha : a' = a
  · subst ha
    rw [setPosition_self] at *
    exact hPos hNone
  · rw [setPosition_of_ne b pos ha] at *
    exact h.collateralized a' hNone

/-- **Every move keeps the balance.** -/
theorem after (h : b.Balanced) : ∀ {m : Move}, b.Guard m → (b.after m).Balanced
  | .create _, _ => ⟨h.supplyShares, h.borrowShares, h.liquidity, h.collateralized, h.fee_le⟩
  | .setFee _, hFee => ⟨h.supplyShares, h.borrowShares, h.liquidity, h.collateralized, hFee⟩
  | .accrue a c, _ => {
    supplyShares := (total_gain (f := Position.supplyShares) (by rfl)).trans
      (congrArg (· + c.feeShares) h.supplyShares)
    borrowShares := (total_same (f := Position.borrowShares) (by rfl)).trans h.borrowShares
    liquidity := Nat.add_le_add_right h.liquidity c.interest
    collateralized := h.collateralized_setPosition (h.collateralized a)
    fee_le := h.fee_le }
  | .supply a assets shares, _ => {
    supplyShares := (total_gain (f := Position.supplyShares) (by rfl)).trans
      (congrArg (· + shares) h.supplyShares)
    borrowShares := (total_same (f := Position.borrowShares) (by rfl)).trans h.borrowShares
    liquidity := Nat.le_add_right_of_le h.liquidity
    collateralized := h.collateralized_setPosition (h.collateralized a)
    fee_le := h.fee_le }
  | .withdraw a assets shares, ⟨hEnough, _, hLiquid⟩ => {
    supplyShares := (total_loss (f := Position.supplyShares) (by rfl) hEnough).trans
      (congrArg (· - shares) h.supplyShares)
    borrowShares := (total_same (f := Position.borrowShares) (by rfl)).trans h.borrowShares
    liquidity := Nat.le_sub_of_add_le hLiquid
    collateralized := h.collateralized_setPosition (h.collateralized a)
    fee_le := h.fee_le }
  | .borrow a assets shares, ⟨_, hLiquid, hCollateral⟩ => {
    supplyShares := (total_same (f := Position.supplyShares) (by rfl)).trans h.supplyShares
    borrowShares := (total_gain (f := Position.borrowShares) (by rfl)).trans
      (congrArg (· + shares) h.borrowShares)
    liquidity := hLiquid
    collateralized := h.collateralized_setPosition hCollateral
    fee_le := h.fee_le }
  | .repay a assets shares, ⟨hEnough, _⟩ => {
    supplyShares := (total_same (f := Position.supplyShares) (by rfl)).trans h.supplyShares
    borrowShares := (total_loss (f := Position.borrowShares) (by rfl) hEnough).trans
      (congrArg (· - shares) h.borrowShares)
    liquidity := (Nat.sub_le ..).trans h.liquidity
    collateralized := h.collateralized_setPosition fun hNone => by
      show (b.position a).borrowShares - shares = 0
      rw [h.collateralized a hNone, Nat.zero_sub]
    fee_le := h.fee_le }
  | .supplyCollateral a assets, _ => {
    supplyShares := (total_same (f := Position.supplyShares) (by rfl)).trans h.supplyShares
    borrowShares := (total_same (f := Position.borrowShares) (by rfl)).trans h.borrowShares
    liquidity := h.liquidity
    collateralized := h.collateralized_setPosition fun hNone =>
      h.collateralized a (Nat.add_eq_zero_iff.mp hNone).1
    fee_le := h.fee_le }
  | .withdrawCollateral a assets, ⟨hEnough, hCollateral⟩ => {
    supplyShares := (total_same (f := Position.supplyShares) (by rfl)).trans h.supplyShares
    borrowShares := (total_same (f := Position.borrowShares) (by rfl)).trans h.borrowShares
    liquidity := h.liquidity
    collateralized := h.collateralized_setPosition fun hNone =>
      hCollateral (Nat.le_antisymm (Nat.sub_eq_zero_iff_le.mp hNone) hEnough)
    fee_le := h.fee_le }
  | .liquidate a l, hGuard => {
    supplyShares := (total_same (f := Position.supplyShares) (by rfl)).trans h.supplyShares
    borrowShares := by
      have hEnough := liquidated_le hGuard
      refine (total_loss (f := Position.borrowShares) (n := l.repaidShares + l.badDebtShares)
        (Nat.sub_sub ..) hEnough).trans ?_
      rw [h.borrowShares]
      exact (Nat.sub_sub ..).symm
    liquidity := Nat.sub_le_sub_right ((Nat.sub_le ..).trans h.liquidity) l.badDebtAssets
    collateralized := h.collateralized_setPosition fun hNone => by
      obtain ⟨-, -, hSeized, hBad⟩ := hGuard
      rw [if_pos (Nat.le_antisymm (Nat.sub_eq_zero_iff_le.mp hNone) hSeized)] at hBad
      show (b.position a).borrowShares - l.repaidShares - l.badDebtShares = 0
      rw [hBad.1, Nat.sub_self]
    fee_le := h.fee_le }

/-- **Every run of moves keeps the balance.** -/
theorem run {b' : Book} {ms : List Move} (h : b.Balanced) (hRun : Lib.run step b ms = some b') :
    b'.Balanced := by
  refine Lib.run_invariant (fun b m b' hBalanced hStep => ?_) h hRun
  obtain ⟨hGuard, rfl⟩ := step_eq_some_iff.mp hStep
  exact hBalanced.after hGuard

end Balanced

-- ---------------------------------------------------------------------------
-- The price of a supply share
-- ---------------------------------------------------------------------------

/-- The fee is part of the interest. -/
theorem feeAmount_le (h : b.Balanced) {c : Accrual} (hGuard : b.Guard (.accrue a c)) :
    c.feeAmount ≤ c.interest := by
  have hFee : c.interest * b.market.fee ≤ c.interest * WAD :=
    Nat.mul_le_mul_left _ (h.fee_le.trans (by decide))
  have hFloor := Lib.mulDivFloor_mul_le c.interest b.market.fee WAD
  rw [← hGuard.1] at hFloor
  exact Nat.le_of_mul_le_mul_right (hFloor.trans hFee) (by decide)

/-- **Only bad debt lowers the price of a supply share.** -/
theorem priceLe_after (h : b.Balanced) :
    ∀ {m : Move}, b.Guard m → ¬ m.writesOff → b.supplySide.PriceLe (b.after m).supplySide
  | .create _, _, _ => Pool.PriceLe.refl _
  | .setFee _, _, _ => Pool.PriceLe.refl _
  | .accrue a c, hGuard, _ => by
    have hFee := feeAmount_le h hGuard
    have hRound : c.feeShares * (b.feeSide c).assets ≤ c.feeAmount * (b.feeSide c).shares :=
      Pool.TakesIn.le (.inl hGuard.2)
    refine Pool.priceLe_add c.interest c.feeShares
      (Nat.add_right_comm ..) (Nat.add_right_comm ..) ?_
    calc c.feeShares * (b.market.totalSupplyAssets + 1)
        ≤ c.feeShares * (b.market.totalSupplyAssets + c.interest - c.feeAmount + 1) :=
          Nat.mul_le_mul_left _ (by omega)
      _ ≤ c.feeAmount * (b.market.totalSupplyShares + VIRTUAL_SHARES) := hRound
      _ ≤ c.interest * (b.market.totalSupplyShares + VIRTUAL_SHARES) :=
          Nat.mul_le_mul_right _ hFee
  | .supply _ _ _, hGuard, _ =>
    Pool.priceLe_add _ _ (Nat.add_right_comm ..) (Nat.add_right_comm ..) (Pool.TakesIn.le hGuard)
  | .withdraw a assets shares, ⟨hEnough, hRound, hLiquid⟩, _ => by
    have hShares := hEnough.trans (h.supplyShares_le a)
    refine Pool.priceLe_remove assets shares ?_ ?_ hRound.le
    · show b.market.totalSupplyAssets + 1 = b.market.totalSupplyAssets - assets + 1 + assets
      omega
    · show b.market.totalSupplyShares + VIRTUAL_SHARES =
        b.market.totalSupplyShares - shares + VIRTUAL_SHARES + shares
      omega
  | .borrow _ _ _, _, _ => Pool.PriceLe.refl _
  | .repay _ _ _, _, _ => Pool.PriceLe.refl _
  | .supplyCollateral _ _, _, _ => Pool.PriceLe.refl _
  | .withdrawCollateral _ _, _, _ => Pool.PriceLe.refl _
  | .liquidate _ l, _, hNone => by
    have hZero : l.badDebtAssets = 0 := not_not.mp hNone
    show (virtualPool _ _).PriceLe
      (virtualPool (b.market.totalSupplyAssets - l.badDebtAssets) b.market.totalSupplyShares)
    rw [hZero]
    exact Pool.PriceLe.refl _

-- ---------------------------------------------------------------------------
-- What is owed
-- ---------------------------------------------------------------------------

/-- Shares that leave the borrow side for at least what they are worth leave no other share
worth more. The last of the assets may be taken twice: then every share left is worth one. -/
theorem worthUp_repaid_le {totalAssets totalShares assets shares n : Nat}
    (hRound : shares * (virtualPool totalAssets totalShares).assets ≤
      assets * (virtualPool totalAssets totalShares).shares)
    (hLeft : n + shares ≤ totalShares) :
    (virtualPool (totalAssets - assets) (totalShares - shares)).worthUp n ≤
      (virtualPool totalAssets totalShares).worthUp n := by
  rcases le_or_gt assets totalAssets with hLe | hGt
  · refine (Pool.priceLe_of_remove assets shares ?_ ?_ hRound).worthUp_le n
    · show totalAssets + 1 = totalAssets - assets + 1 + assets
      omega
    · show totalShares + VIRTUAL_SHARES = totalShares - shares + VIRTUAL_SHARES + shares
      omega
  · -- the pool that is left has one asset, the virtual one
    rcases Nat.eq_zero_or_pos n with rfl | hPos
    · exact (Lib.mulDivCeil_zero _ _).le.trans (Nat.zero_le _)
    · have hPart : n ≤ (virtualPool (totalAssets - assets) (totalShares - shares)).shares := by
        rw [virtualPool_shares]
        omega
      calc (virtualPool (totalAssets - assets) (totalShares - shares)).worthUp n
          ≤ (virtualPool (totalAssets - assets) (totalShares - shares)).assets :=
            Pool.worthUp_le_assets _ hPart
        _ = 1 := by rw [virtualPool_assets, Nat.sub_eq_zero_of_le hGt.le]
        _ ≤ (virtualPool totalAssets totalShares).worthUp n := Pool.worthUp_pos _ hPos

/-- A position is written with no more borrow shares than it had. -/
theorem borrowShares_setPosition_le {a' : Address}
    (h : pos.borrowShares ≤ (b.position a).borrowShares) :
    ((b.setPosition a pos).position a').borrowShares ≤ (b.position a').borrowShares := by
  by_cases ha : a' = a
  · subst ha
    rwa [setPosition_self]
  · rw [setPosition_of_ne b pos ha]

/-- A repayment raises nobody's debt. -/
theorem debt_repay_le (h : b.Balanced) {assets shares : Nat}
    (hGuard : b.Guard (.repay a assets shares)) (a' : Address) :
    (b.after (.repay a assets shares)).debt a' ≤ b.debt a' := by
  have hTotal := (h.after hGuard).borrowShares_le a'
  have hEnough := hGuard.1.trans (h.borrowShares_le a)
  refine le_trans (worthUp_repaid_le hGuard.2.le ?_) (Pool.worthUp_mono _ ?_)
  · change _ ≤ b.market.totalBorrowShares - shares at hTotal
    omega
  · exact borrowShares_setPosition_le (Nat.sub_le _ _)

/-- A liquidation raises nobody's debt: it is a repayment, after which bad debt leaves the
borrow side for what it is worth. -/
theorem debt_liquidate_le (h : b.Balanced) {l : Liquidation}
    (hGuard : b.Guard (.liquidate a l)) (a' : Address) :
    (b.after (.liquidate a l)).debt a' ≤ b.debt a' := by
  have hTotal := (h.after hGuard).borrowShares_le a'
  have hLess := (liquidated_le hGuard).trans (h.borrowShares_le a)
  have hOwn : ((b.after (.liquidate a l)).position a').borrowShares ≤
      (b.position a').borrowShares :=
    borrowShares_setPosition_le ((Nat.sub_le ..).trans (Nat.sub_le ..))
  obtain ⟨-, hRound, -, hBad⟩ := hGuard
  change _ ≤ b.market.totalBorrowShares - l.repaidShares - l.badDebtShares at hTotal
  refine (Pool.worthUp_mono _ le_rfl).trans (le_trans ?_ (Pool.worthUp_mono _ hOwn))
  refine le_trans ?_ (worthUp_repaid_le (Pool.TakesIn.le (.inr hRound)) (by omega))
  split at hBad
  case isTrue =>
    obtain ⟨-, hAssets⟩ := hBad
    have hLeft : b.market.totalBorrowAssets - l.repaidAssets - l.badDebtAssets =
        b.market.totalBorrowAssets - l.repaidAssets - (b.repaidSide l).worthUp l.badDebtShares := by
      omega
    show (virtualPool (b.market.totalBorrowAssets - l.repaidAssets - l.badDebtAssets)
      (b.market.totalBorrowShares - l.repaidShares - l.badDebtShares)).worthUp _ ≤ _
    rw [hLeft]
    exact worthUp_repaid_le (Lib.le_mulDivCeil_mul (b.repaidSide l).shares_pos) (by omega)
  case isFalse =>
    show (virtualPool (b.market.totalBorrowAssets - l.repaidAssets - l.badDebtAssets)
      (b.market.totalBorrowShares - l.repaidShares - l.badDebtShares)).worthUp _ ≤ _
    rw [hBad.1, hBad.2]
    exact le_rfl

/-- **Only interest, and what an account borrows itself, raise what it owes.** -/
theorem debt_after_le (h : b.Balanced) {a : Address} :
    ∀ {m : Move}, b.Guard m → ¬ m.raisesDebtOf a → (b.after m).debt a ≤ b.debt a
  | .create _, _, _ => le_rfl
  | .setFee _, _, _ => le_rfl
  | .accrue _ c, _, hNone => by
    have hZero : c.interest = 0 := not_not.mp hNone
    show (virtualPool (b.market.totalBorrowAssets + c.interest) b.market.totalBorrowShares).worthUp
      _ ≤ _
    rw [hZero]
    exact Pool.worthUp_mono _ (borrowShares_setPosition_le le_rfl)
  | .supply _ _ _, _, _ => Pool.worthUp_mono _ (borrowShares_setPosition_le le_rfl)
  | .withdraw _ _ _, _, _ => Pool.worthUp_mono _ (borrowShares_setPosition_le le_rfl)
  | .borrow onBehalf assets shares, hGuard, hOther => by
    have hSame : (b.after (.borrow onBehalf assets shares)).position a = b.position a :=
      setPosition_of_ne b _ (Ne.symm hOther)
    unfold debt
    rw [hSame]
    have hPrice := Pool.priceLe_of_add (p := b.borrowSide)
      (q := (b.after (.borrow onBehalf assets shares)).borrowSide) assets shares
      (Nat.add_right_comm ..) (Nat.add_right_comm ..) hGuard.1.le
    exact hPrice.worthUp_le _
  | .repay _ _ _, hGuard, _ => debt_repay_le h hGuard a
  | .supplyCollateral _ _, _, _ => Pool.worthUp_mono _ (borrowShares_setPosition_le le_rfl)
  | .withdrawCollateral _ _, _, _ => Pool.worthUp_mono _ (borrowShares_setPosition_le le_rfl)
  | .liquidate _ _, hGuard, _ => debt_liquidate_le h hGuard a

end Book

end LineraEndToEnd.Morpho
