import LineraEndToEnd.Morpho.Log
import LineraEndToEnd.Morpho.World

/-!
# What a call of the lending contract can do

Each function, when it goes through, is a few moves of the book of one market
(`Morpho.Book`): it accrues the interest of the market and then makes its own move, with
the amounts it has computed.

* `Storage.book` — the book of a market; `Moved` — the contract has made these moves in
  this market, and has changed nothing else but its log.
* `accrue_moved`, `supply_moved`, … — the functions, one by one.
* `Own`, `Apart`, `Effect` — what a call comes to: moves of one market with the
  interactions that belong to them, or something beside the books; `Call.effect` says so of
  every call that goes through.
-/

namespace LineraEndToEnd.Morpho

open Solidity
open Function (update)
open Lib (mulDivFloor mulDivCeil)

-- ---------------------------------------------------------------------------
-- Moves of the contract
-- ---------------------------------------------------------------------------

/-- The contract has made these moves in one market, and nothing else, and has told them. -/
structure Moved (s s' : Storage) (id : Id) (ms : List Move) : Prop where
  run : Lib.run Book.step (s.book id) ms = some (s'.book id)
  others : ∀ id', id' ≠ id → s'.book id' = s.book id'
  frame : s' = { s with position := s'.position, market := s'.market, logs := s'.logs }
  tells : ∃ es, Tells s s' id ms es

namespace Moved

variable {s s' s₁ : Storage} {id : Id} {ms ms' : List Move}

theorem refl (s : Storage) (id : Id) : Moved s s id [] :=
  ⟨rfl, fun _ _ => rfl, rfl, [], Tells.refl s id⟩

theorem trans (h : Moved s s₁ id ms) (h' : Moved s₁ s' id ms') : Moved s s' id (ms ++ ms') where
  run := Lib.run_append_eq_some.mpr ⟨_, h.run, h'.run⟩
  others := fun id' hne => (h'.others id' hne).trans (h.others id' hne)
  frame := by
    rw [h'.frame, h.frame]
  tells := by
    obtain ⟨es, hTells⟩ := h.tells
    obtain ⟨es', hTells'⟩ := h'.tells
    exact ⟨es ++ es', hTells.trans hTells' (congrArg Storage.feeRecipient h.frame :)⟩

theorem params (h : Moved s s' id ms) : s'.idToMarketParams = s.idToMarketParams := by
  have hParams := congrArg Storage.idToMarketParams h.frame
  exact hParams

/-- One move, by what it leaves in the books, and its event. -/
theorem of_book {m : Move} {e : Event} (hGuard : (s.book id).Guard m)
    (hEvent : e.move s.feeRecipient = some (id, m.published))
    (hBook : s'.book id = (s.book id).after m)
    (hOthers : ∀ id', id' ≠ id → s'.book id' = s.book id')
    (hFrame : s' = { s with position := s'.position, market := s'.market, logs := s.logs ++ [e] }) :
    Moved s s' id [m] where
  run := (Lib.run_singleton _ _).trans (Book.step_eq_some_iff.mpr ⟨hGuard, hBook.symm⟩)
  others := hOthers
  frame := (congrArg Storage.logs hFrame :) ▸ hFrame
  tells := ⟨[e], Tells.of_book hEvent hBook hOthers hFrame⟩

/-- One move, by a write of a position and of the market. -/
theorem of_after {m : Move} {a : Address} {pos : Position} {market : Market} {e : Event}
    (hState : s' = ((s.setPosition id a pos).setMarket id market).emit e)
    (hGuard : (s.book id).Guard m) (hEvent : e.move s.feeRecipient = some (id, m.published))
    (hAfter : (s.book id).after m = { (s.book id).setPosition a pos with market }) :
    Moved s s' id [m] := by
  subst hState
  refine of_book hGuard hEvent (Eq.trans ?_ hAfter.symm) (fun id' hne => ?_) rfl
  · exact (Storage.setMarket_book _ id market).trans (by rw [Storage.setPosition_book])
  · exact (Storage.setMarket_book_of_ne _ id market hne).trans
      (Storage.setPosition_book_of_ne s id a pos hne)

/-- One move, by a write of a position. -/
theorem of_position {m : Move} {a : Address} {pos : Position} {e : Event}
    (hState : s' = (s.setPosition id a pos).emit e) (hGuard : (s.book id).Guard m)
    (hEvent : e.move s.feeRecipient = some (id, m.published))
    (hAfter : (s.book id).after m = (s.book id).setPosition a pos) : Moved s s' id [m] :=
  have hAll : s' = ((s.setPosition id a pos).setMarket id (s.market id)).emit e := by
    rw [← Storage.setPosition_market s id a pos, Storage.setMarket_self]
    exact hState
  of_after hAll hGuard hEvent hAfter

/-- One move, by a write of the market. -/
theorem of_market {m : Move} {market : Market} {e : Event}
    (hState : s' = (s.setMarket id market).emit e) (hGuard : (s.book id).Guard m)
    (hEvent : e.move s.feeRecipient = some (id, m.published))
    (hAfter : (s.book id).after m = { s.book id with market }) : Moved s s' id [m] :=
  have hAll : s' = ((s.setPosition id 0 (s.position id 0)).setMarket id market).emit e := by
    rw [Storage.setPosition_self]
    exact hState
  of_after hAll hGuard hEvent (hAfter.trans (by simp [Book.setPosition]))

/-- An accrual of no interest, which is not told. -/
theorem of_time (s : Storage) (id : Id) (a : Address) (lastUpdate : Nat) :
    Moved s (s.setMarket id { s.market id with lastUpdate }) id
      [.accrue a ⟨0, 0, 0, lastUpdate⟩] where
  run := by
    refine (Lib.run_singleton _ _).trans (Book.step_eq_some_iff.mpr ⟨?_, ?_⟩)
    · exact ⟨(Lib.mulDivFloor_zero _ _).symm, (Lib.Pool.sharesDown_zero _).symm⟩
    · rw [Storage.setMarket_book]
      simp [Book.after, Book.setPosition]
  others := fun _ hne => Storage.setMarket_book_of_ne s id _ hne
  frame := rfl
  tells := by
    refine ⟨[], (List.append_nil _).symm, ?_, rfl, by simp⟩
    refine Storage.ext rfl rfl rfl ?_ rfl rfl rfl rfl rfl rfl
    funext id'
    by_cases hId : id' = id
    · subst hId
      simp [Storage.published]
    · simp [Storage.published, Storage.setMarket, hId]

end Moved

/-- What a liquidation seizes is worth, at a price, no more than what it repays times the market's
liquidation incentive factor. -/
def Liquidation.FairAt (p : MarketParams) (collateralPrice : Nat) (l : Liquidation) : Prop :=
  ∃ factor, Storage.liquidationIncentiveFactor p = .ok factor ∧
    factor ≤ MAX_LIQUIDATION_INCENTIVE_FACTOR ∧
    l.seizedAssets * collateralPrice * WAD ≤ l.repaidAssets * factor * ORACLE_PRICE_SCALE

-- ---------------------------------------------------------------------------
-- Interest
-- ---------------------------------------------------------------------------

namespace Storage

variable {env : Env} {msg : Msg} {price : Address → Result Nat} {s s' : Storage} {id : Id}

theorem toSharesDown_takesIn {assets totalAssets totalShares n : Nat}
    (h : toSharesDown assets totalAssets totalShares = .ok n) :
    (virtualPool totalAssets totalShares).TakesIn assets n := by
  obtain ⟨-, -, -, rfl⟩ := toSharesDown_ok_iff.mp h
  exact .inl rfl

theorem toSharesUp_paysOut {assets totalAssets totalShares n : Nat}
    (h : toSharesUp assets totalAssets totalShares = .ok n) :
    (virtualPool totalAssets totalShares).PaysOut assets n := by
  obtain ⟨-, -, -, rfl⟩ := toSharesUp_ok_iff.mp h
  exact .inl rfl

theorem toAssetsDown_paysOut {shares totalAssets totalShares n : Nat}
    (h : toAssetsDown shares totalAssets totalShares = .ok n) :
    (virtualPool totalAssets totalShares).PaysOut n shares := by
  obtain ⟨-, -, -, rfl⟩ := toAssetsDown_ok_iff.mp h
  exact .inr rfl

theorem toAssetsUp_takesIn {shares totalAssets totalShares n : Nat}
    (h : toAssetsUp shares totalAssets totalShares = .ok n) :
    (virtualPool totalAssets totalShares).TakesIn n shares := by
  obtain ⟨-, -, -, rfl⟩ := toAssetsUp_ok_iff.mp h
  exact .inr rfl

/-- The fee is a part of the interest, and the fee recipient gets the shares that it buys. -/
theorem chargeFee_ok {interest feeShares : Nat}
    (h : s.chargeFee id interest = .ok (feeShares, s')) :
    ∃ feeAmount, feeAmount = mulDivFloor interest (s.market id).fee WAD ∧
      feeShares = (virtualPool ((s.market id).totalSupplyAssets - feeAmount)
        (s.market id).totalSupplyShares).sharesDown feeAmount ∧
      s' = (s.setPosition id s.feeRecipient { s.position id s.feeRecipient with
        supplyShares := (s.position id s.feeRecipient).supplyShares + feeShares }).setMarket id
        { s.market id with totalSupplyShares := (s.market id).totalSupplyShares + feeShares } := by
  simp only [chargeFee] at h
  split at h
  case isTrue =>
    simp only [bind_ok_iff, pure_ok_iff, checkedSub_ok_iff, checkedAdd_ok_iff, toUint128_ok_iff,
      Prod.mk.injEq] at h
    obtain ⟨feeAmount, hFee, _, ⟨-, rfl⟩, _, hShares, _, ⟨-, rfl⟩, _, ⟨-, rfl⟩, _, ⟨-, rfl⟩, rfl,
      rfl⟩ := h
    obtain ⟨-, -, hAmount⟩ := mulDivDown_ok_iff.mp hFee
    obtain ⟨-, -, -, hBought⟩ := toSharesDown_ok_iff.mp hShares
    exact ⟨feeAmount, hAmount.symm, hBought.symm, rfl⟩
  case isFalse hNone =>
    obtain ⟨rfl, rfl⟩ := Prod.mk.inj (pure_ok_iff.mp h)
    refine ⟨0, ?_, (Lib.Pool.sharesDown_zero _).symm, ?_⟩
    · rw [not_not.mp hNone, mulDivFloor, Nat.mul_zero, Nat.zero_div]
    · show s = (s.setPosition id s.feeRecipient (s.position id s.feeRecipient)).setMarket id
        (s.market id)
      rw [setPosition_self, setMarket_self]

/-- The moves of an accrual: none, or one when the market was last updated in an earlier
block. -/
def Accrues (msg : Msg) (s : Storage) (id : Id) (ms : List Move) : Prop :=
  ms = [] ∨ (s.market id).lastUpdate < msg.timestamp ∧
    ∃ c : Accrual, ms = [.accrue s.feeRecipient c] ∧ c.lastUpdate = msg.timestamp % 2 ^ 128

/-- The contract has accrued the interest of a market, which has left the storage `s₁`, and
then made these moves. -/
structure Steps (msg : Msg) (s s₁ s' : Storage) (id : Id) (ms : List Move) : Prop where
  accrued : ∃ acc, Accrues msg s id acc ∧ Moved s s₁ id acc
  moved : Moved s₁ s' id ms

theorem chargeInterest_ok {p : MarketParams} {elapsed : Nat}
    (h : s.chargeInterest env p id elapsed = .ok s') (lastUpdate : Nat) :
    ∃ c : Accrual, c.lastUpdate = lastUpdate ∧
      Moved s (s'.setMarket id { s'.market id with lastUpdate }) id
        [.accrue s.feeRecipient c] := by
  simp only [chargeInterest, bind_ok_iff, pure_ok_iff, checkedAdd_ok_iff, toUint128_ok_iff,
    Prod.exists] at h
  obtain ⟨borrowRate, -, _, -, interest, -, _, ⟨-, rfl⟩, _, ⟨-, rfl⟩, _, ⟨-, rfl⟩, feeShares, s₂,
    hFee, rfl⟩ := h
  obtain ⟨feeAmount, hAmount, hRound, rfl⟩ := chargeFee_ok hFee
  simp only [setMarket_market] at hAmount hRound
  refine ⟨⟨interest, feeAmount, feeShares, lastUpdate⟩, rfl, ?_⟩
  -- the three writes of the market come to one
  refine Moved.of_book (e := .AccrueInterest id borrowRate interest feeShares) ?_ rfl ?_
    (fun id' hne => ?_) ?_
  · exact ⟨hAmount, hRound⟩
  · simp [book, setMarket, setPosition, emit, Book.after, Book.setPosition]
  · simp [book, setMarket, setPosition, emit, hne]
  · rfl

/-- Accruing is at most one move of the book. -/
theorem accrue_moved {p : MarketParams} (h : s._accrueInterest env msg p id = .ok s') :
    ∃ acc, Accrues msg s id acc ∧ Moved s s' id acc := by
  simp only [_accrueInterest, bind_ok_iff, checkedSub_ok_iff] at h
  obtain ⟨_, ⟨hOrder, rfl⟩, h⟩ := h
  split at h
  case isTrue =>
    obtain rfl := pure_ok_iff.mp h
    exact ⟨[], .inl rfl, Moved.refl s id⟩
  case isFalse hLater =>
    split at h
    case isTrue =>
      obtain ⟨s₁, hInterest, h⟩ := bind_ok_iff.mp h
      obtain rfl := pure_ok_iff.mp h
      obtain ⟨c, hTime, hMoved⟩ := chargeInterest_ok hInterest (msg.timestamp % 2 ^ 128)
      exact ⟨_, .inr ⟨by omega, c, rfl, hTime⟩, hMoved⟩
    case isFalse =>
      -- without an interest rate model the time of the update is all that changes
      obtain rfl := pure_ok_iff.mp h
      exact ⟨_, .inr ⟨by omega, ⟨0, 0, 0, msg.timestamp % 2 ^ 128⟩, rfl, rfl⟩, Moved.of_time ..⟩

-- ---------------------------------------------------------------------------
-- Suppliers and borrowers
-- ---------------------------------------------------------------------------

/-- What comes in, and the shares that are given for it. -/
theorem round_in {totalAssets totalShares assets shares a n : Nat}
    (h : assetsAndShares (toSharesDown · totalAssets totalShares)
      (toAssetsUp · totalAssets totalShares) assets shares = .ok (a, n)) :
    (virtualPool totalAssets totalShares).TakesIn a n := by
  unfold assetsAndShares at h
  split at h
  · obtain ⟨_, hShares, hEq⟩ := bind_ok_iff.mp h
    obtain ⟨rfl, rfl⟩ := Prod.mk.inj (pure_ok_iff.mp hEq)
    exact toSharesDown_takesIn hShares
  · obtain ⟨_, hAssets, hEq⟩ := bind_ok_iff.mp h
    obtain ⟨rfl, rfl⟩ := Prod.mk.inj (pure_ok_iff.mp hEq)
    exact toAssetsUp_takesIn hAssets

/-- What goes out, and the shares that are given up for it. -/
theorem round_out {totalAssets totalShares assets shares a n : Nat}
    (h : assetsAndShares (toSharesUp · totalAssets totalShares)
      (toAssetsDown · totalAssets totalShares) assets shares = .ok (a, n)) :
    (virtualPool totalAssets totalShares).PaysOut a n := by
  unfold assetsAndShares at h
  split at h
  · obtain ⟨_, hShares, hEq⟩ := bind_ok_iff.mp h
    obtain ⟨rfl, rfl⟩ := Prod.mk.inj (pure_ok_iff.mp hEq)
    exact toSharesUp_paysOut hShares
  · obtain ⟨_, hAssets, hEq⟩ := bind_ok_iff.mp h
    obtain ⟨rfl, rfl⟩ := Prod.mk.inj (pure_ok_iff.mp hEq)
    exact toAssetsDown_paysOut hAssets

theorem supply_moved {p : MarketParams} {assets shares a n : Nat} {onBehalf : Address}
    (h : s.supply env msg p assets shares onBehalf = .ok (a, n, s')) :
    (s.market (env.id p)).lastUpdate ≠ 0 ∧
      ∃ s₁, Steps msg s s₁ s' (env.id p) [.supply onBehalf a n] := by
  simp only [supply, bind_ok_iff, pure_ok_iff, require_ok_iff, checkedAdd_ok_iff, toUint128_ok_iff,
    Prod.exists, Prod.mk.injEq] at h
  obtain ⟨-, hCreated, -, -, -, -, s₁, hAccrue, _, _, hAmounts, _, ⟨-, rfl⟩, _, ⟨-, rfl⟩, _,
    ⟨-, rfl⟩, _, ⟨-, rfl⟩, _, ⟨-, rfl⟩, rfl, rfl, rfl⟩ := h
  exact ⟨hCreated, s₁, accrue_moved hAccrue, Moved.of_after rfl (round_in hAmounts) rfl rfl⟩

theorem withdraw_moved {p : MarketParams} {assets shares a n : Nat} {onBehalf receiver : Address}
    (h : s.withdraw env msg p assets shares onBehalf receiver = .ok (a, n, s')) :
    (s.market (env.id p)).lastUpdate ≠ 0 ∧ s._isSenderAuthorized msg onBehalf ∧
      ∃ s₁, Steps msg s s₁ s' (env.id p) [.withdraw onBehalf a n] := by
  simp only [withdraw, bind_ok_iff, pure_ok_iff, require_ok_iff, checkedSub_ok_iff,
    toUint128_ok_iff, Prod.exists, Prod.mk.injEq] at h
  obtain ⟨-, hCreated, -, -, -, -, -, hAuthorized, s₁, hAccrue, _, _, hAmounts, _, ⟨hEnough, rfl⟩,
    _, ⟨-, rfl⟩, _, ⟨-, rfl⟩, _, ⟨-, rfl⟩, _, ⟨hAssets, rfl⟩, -, hLiquid, rfl, rfl, rfl⟩ := h
  refine ⟨hCreated, hAuthorized, s₁, accrue_moved hAccrue, Moved.of_after rfl ?_ rfl rfl⟩
  exact ⟨hEnough, round_out hAmounts, Nat.add_le_of_le_sub hAssets hLiquid⟩

theorem repay_moved {p : MarketParams} {assets shares a n : Nat} {onBehalf : Address}
    (h : s.repay env msg p assets shares onBehalf = .ok (a, n, s')) :
    (s.market (env.id p)).lastUpdate ≠ 0 ∧
      ∃ s₁, Steps msg s s₁ s' (env.id p) [.repay onBehalf a n] := by
  simp only [repay, bind_ok_iff, pure_ok_iff, require_ok_iff, checkedSub_ok_iff, toUint128_ok_iff,
    zeroFloorSub_eq, Prod.exists, Prod.mk.injEq] at h
  obtain ⟨-, hCreated, -, -, -, -, s₁, hAccrue, _, _, hAmounts, _, ⟨-, rfl⟩, _, ⟨hEnough, rfl⟩, _,
    ⟨-, rfl⟩, _, ⟨-, rfl⟩, rfl, rfl, rfl⟩ := h
  exact ⟨hCreated, s₁, accrue_moved hAccrue,
    Moved.of_after rfl ⟨hEnough, round_in hAmounts⟩ rfl rfl⟩

-- ---------------------------------------------------------------------------
-- Health
-- ---------------------------------------------------------------------------

theorem isHealthyAt_ok {p : MarketParams} {borrower : Address} {collateralPrice : Nat}
    {healthy : Bool} (h : s._isHealthyAt p id borrower collateralPrice = .ok healthy) :
    healthy ↔ (s.book id).Healthy borrower collateralPrice p.lltv := by
  simp only [_isHealthyAt, wMulDown, bind_ok_iff, pure_ok_iff, toAssetsUp_ok_iff,
    mulDivDown_ok_iff] at h
  obtain ⟨_, ⟨-, -, -, rfl⟩, _, ⟨-, -, rfl⟩, _, ⟨-, -, rfl⟩, rfl⟩ := h
  exact decide_eq_true_iff

/-- A position is healthy when it has no debt, or at the price of the oracle. -/
def HealthyNow (price : Address → Result Nat) (p : MarketParams) (b : Book) (a : Address) : Prop :=
  (b.position a).borrowShares = 0 ∨
    ∃ collateralPrice, price p.oracle = .ok collateralPrice ∧ b.Healthy a collateralPrice p.lltv

theorem isHealthy_ok {p : MarketParams} {borrower : Address}
    (h : s._isHealthy price p id borrower = .ok true) :
    HealthyNow price p (s.book id) borrower := by
  unfold _isHealthy at h
  split at h
  case isTrue hNone => exact .inl hNone
  case isFalse =>
    obtain ⟨collateralPrice, hPrice, hHealthy⟩ := bind_ok_iff.mp h
    exact .inr ⟨collateralPrice, hPrice, (isHealthyAt_ok hHealthy).mp rfl⟩

theorem HealthyNow.collateralized {p : MarketParams} {b : Book} {a : Address}
    (h : HealthyNow price p b a) (hNone : (b.position a).collateral = 0) :
    (b.position a).borrowShares = 0 := by
  obtain hDebt | ⟨_, -, hHealthy⟩ := h
  · exact hDebt
  · exact hHealthy.collateralized hNone

theorem borrow_moved {p : MarketParams} {assets shares a n : Nat} {onBehalf receiver : Address}
    (h : s.borrow env msg price p assets shares onBehalf receiver = .ok (a, n, s')) :
    (s.market (env.id p)).lastUpdate ≠ 0 ∧ s._isSenderAuthorized msg onBehalf ∧
      HealthyNow price p (s'.book (env.id p)) onBehalf ∧
      ∃ s₁, Steps msg s s₁ s' (env.id p) [.borrow onBehalf a n] := by
  simp only [borrow, bind_ok_iff, pure_ok_iff, require_ok_iff, checkedAdd_ok_iff,
    toUint128_ok_iff, Prod.exists, Prod.mk.injEq] at h
  obtain ⟨-, hCreated, -, -, -, -, -, hAuthorized, s₁, hAccrue, _, _, hAmounts, _, ⟨-, rfl⟩, _,
    ⟨-, rfl⟩, _, ⟨-, rfl⟩, _, ⟨-, rfl⟩, _, ⟨-, rfl⟩, healthy, hHealth, -, rfl, -, hLiquid, rfl,
    rfl, rfl⟩ := h
  have hHealthy := isHealthy_ok hHealth
  refine ⟨hCreated, hAuthorized, hHealthy, s₁, accrue_moved hAccrue,
    Moved.of_after rfl ?_ rfl rfl⟩
  have hCollateral := hHealthy.collateralized
  simp only [setMarket_book, setPosition_book, Book.setPosition_self] at hCollateral
  exact ⟨round_out hAmounts, hLiquid, hCollateral⟩

theorem supplyCollateral_moved {p : MarketParams} {assets : Nat} {onBehalf : Address}
    (h : s.supplyCollateral env msg p assets onBehalf = .ok s') :
    (s.market (env.id p)).lastUpdate ≠ 0 ∧
      Moved s s' (env.id p) [.supplyCollateral onBehalf assets] := by
  simp only [supplyCollateral, bind_ok_iff, pure_ok_iff, require_ok_iff, checkedAdd_ok_iff,
    toUint128_ok_iff] at h
  obtain ⟨-, hCreated, -, -, -, -, _, ⟨-, rfl⟩, _, ⟨-, rfl⟩, rfl⟩ := h
  exact ⟨hCreated, Moved.of_position rfl trivial rfl rfl⟩

theorem withdrawCollateral_moved {p : MarketParams} {assets : Nat} {onBehalf receiver : Address}
    (h : s.withdrawCollateral env msg price p assets onBehalf receiver = .ok s') :
    (s.market (env.id p)).lastUpdate ≠ 0 ∧ s._isSenderAuthorized msg onBehalf ∧
      HealthyNow price p (s'.book (env.id p)) onBehalf ∧
      ∃ s₁, Steps msg s s₁ s' (env.id p) [.withdrawCollateral onBehalf assets] := by
  simp only [withdrawCollateral, bind_ok_iff, pure_ok_iff, require_ok_iff, checkedSub_ok_iff,
    toUint128_ok_iff] at h
  obtain ⟨-, hCreated, -, -, -, -, -, hAuthorized, s₁, hAccrue, _, ⟨-, rfl⟩, _, ⟨hEnough, rfl⟩,
    healthy, hHealth, -, rfl, rfl⟩ := h
  have hHealthy := isHealthy_ok hHealth
  refine ⟨hCreated, hAuthorized, hHealthy, s₁, accrue_moved hAccrue, ?_⟩
  refine Moved.of_position rfl ⟨hEnough, fun hAll => ?_⟩ rfl rfl
  have hCollateral := hHealthy.collateralized
  simp only [setPosition_book, Book.setPosition_self] at hCollateral
  exact hCollateral (Nat.sub_eq_zero_of_le (Nat.le_of_eq hAll))

-- ---------------------------------------------------------------------------
-- Liquidation
-- ---------------------------------------------------------------------------

theorem writeOffBadDebt_ok {borrower : Address} {badDebtAssets badDebtShares : Nat}
    (h : s.writeOffBadDebt id borrower = .ok (badDebtAssets, badDebtShares, s')) :
    (if (s.position id borrower).collateral = 0 then
      badDebtShares = (s.position id borrower).borrowShares ∧
      badDebtAssets = min (s.market id).totalBorrowAssets
        ((s.book id).borrowSide.worthUp badDebtShares)
    else badDebtShares = 0 ∧ badDebtAssets = 0) ∧
    s' = (s.setPosition id borrower { s.position id borrower with
        borrowShares := (s.position id borrower).borrowShares - badDebtShares }).setMarket id
      { s.market id with
        totalSupplyAssets := (s.market id).totalSupplyAssets - badDebtAssets
        totalBorrowAssets := (s.market id).totalBorrowAssets - badDebtAssets
        totalBorrowShares := (s.market id).totalBorrowShares - badDebtShares } := by
  simp only [writeOffBadDebt] at h
  split at h
  case isTrue hNone =>
    simp only [bind_ok_iff, pure_ok_iff, checkedSub_ok_iff, toUint128_ok_iff, toAssetsUp_ok_iff,
      Prod.mk.injEq] at h
    obtain ⟨_, ⟨-, -, -, rfl⟩, _, ⟨-, rfl⟩, _, ⟨-, rfl⟩, _, ⟨-, rfl⟩, _, ⟨-, rfl⟩, _, ⟨-, rfl⟩,
      rfl, rfl, rfl⟩ := h
    rw [if_pos hNone, Nat.sub_self]
    exact ⟨⟨rfl, rfl⟩, rfl⟩
  case isFalse hSome =>
    obtain ⟨rfl, hEq⟩ := Prod.mk.inj (pure_ok_iff.mp h)
    obtain ⟨rfl, rfl⟩ := Prod.mk.inj hEq
    rw [if_neg hSome]
    refine ⟨⟨rfl, rfl⟩, ?_⟩
    show s = (s.setPosition id borrower (s.position id borrower)).setMarket id (s.market id)
    rw [setPosition_self, setMarket_self]

/-- The repaid assets are worth what the seized assets are quoted at, less the incentive. -/
theorem liquidationAmounts_ok {m : Market} {factor collateralPrice seizedAssets repaidShares
    seized repaid repaidAssets : Nat}
    (h : liquidationAmounts m factor collateralPrice seizedAssets repaidShares =
      .ok (seized, repaid))
    (hAssets : toAssetsUp repaid m.totalBorrowAssets m.totalBorrowShares = .ok repaidAssets) :
    seized * collateralPrice * WAD ≤ repaidAssets * factor * ORACLE_PRICE_SCALE := by
  have hWorth := (toAssetsUp_takesIn hAssets).le
  have hSharesPos : 0 < m.totalBorrowShares + VIRTUAL_SHARES :=
    Nat.add_pos_right _ VIRTUAL_SHARES_pos
  unfold liquidationAmounts at h
  split at h
  · simp only [wDivUp, bind_ok_iff, pure_ok_iff, mulDivUp_ok_iff, Prod.mk.injEq] at h
    obtain ⟨_, ⟨-, hScale, rfl⟩, _, ⟨-, hFactor, rfl⟩, shares, hShares, rfl, rfl⟩ := h
    have hQuoted := Lib.le_mulDivCeil_mul (x := seizedAssets) (y := collateralPrice) hScale
    generalize mulDivCeil seizedAssets collateralPrice ORACLE_PRICE_SCALE = quoted at *
    have hRepaid := Lib.le_mulDivCeil_mul (x := quoted) (y := WAD) hFactor
    generalize mulDivCeil quoted WAD factor = assets at *
    -- assets turned into shares and back, both rounded up, are no fewer
    have hBack : assets ≤ repaidAssets := by
      have hRound := (toSharesUp_paysOut hShares).le.trans hWorth
      exact Nat.le_of_mul_le_mul_right hRound hSharesPos
    calc seizedAssets * collateralPrice * WAD
        ≤ quoted * ORACLE_PRICE_SCALE * WAD := Nat.mul_le_mul_right _ hQuoted
      _ = quoted * WAD * ORACLE_PRICE_SCALE := Nat.mul_right_comm ..
      _ ≤ assets * factor * ORACLE_PRICE_SCALE := Nat.mul_le_mul_right _ hRepaid
      _ ≤ repaidAssets * factor * ORACLE_PRICE_SCALE :=
          Nat.mul_le_mul_right _ (Nat.mul_le_mul_right _ hBack)
  · simp only [wMulDown, bind_ok_iff, pure_ok_iff, mulDivDown_ok_iff, Prod.mk.injEq] at h
    obtain ⟨assets, hDown, _, ⟨-, -, rfl⟩, _, ⟨-, -, rfl⟩, rfl, rfl⟩ := h
    have hQuoted := Lib.mulDivFloor_mul_le assets factor WAD
    generalize mulDivFloor assets factor WAD = quoted at *
    have hSeized := Lib.mulDivFloor_mul_le quoted ORACLE_PRICE_SCALE collateralPrice
    generalize mulDivFloor quoted ORACLE_PRICE_SCALE collateralPrice = seized at *
    have hBack : assets ≤ repaidAssets := by
      have hRound := (toAssetsDown_paysOut hDown).le.trans hWorth
      exact Nat.le_of_mul_le_mul_right hRound hSharesPos
    calc seized * collateralPrice * WAD
        ≤ quoted * ORACLE_PRICE_SCALE * WAD := Nat.mul_le_mul_right _ hSeized
      _ = quoted * WAD * ORACLE_PRICE_SCALE := Nat.mul_right_comm ..
      _ ≤ assets * factor * ORACLE_PRICE_SCALE := Nat.mul_le_mul_right _ hQuoted
      _ ≤ repaidAssets * factor * ORACLE_PRICE_SCALE :=
          Nat.mul_le_mul_right _ (Nat.mul_le_mul_right _ hBack)

theorem liquidationIncentiveFactor_ok {p : MarketParams} {factor : Nat}
    (h : liquidationIncentiveFactor p = .ok factor) :
    factor ≤ MAX_LIQUIDATION_INCENTIVE_FACTOR := by
  simp only [liquidationIncentiveFactor, bind_ok_iff, pure_ok_iff] at h
  obtain ⟨_, -, _, -, _, -, _, -, rfl⟩ := h
  exact min_le_left _ _

/-- What `liquidate` comes to: the position was not healthy, and the liquidator seizes no
more than the market's incentive allows. -/
theorem liquidate_moved {p : MarketParams} {borrower : Address}
    {seizedAssets repaidShares seized repaid : Nat}
    (h : s.liquidate env msg price p borrower seizedAssets repaidShares =
      .ok (seized, repaid, s')) :
    (s.market (env.id p)).lastUpdate ≠ 0 ∧ ∃ s₁ collateralPrice,
      price p.oracle = .ok collateralPrice ∧
      ¬ (s₁.book (env.id p)).Healthy borrower collateralPrice p.lltv ∧
    ∃ l : Liquidation, l.seizedAssets = seized ∧ l.repaidAssets = repaid ∧
      l.FairAt p collateralPrice ∧ Steps msg s s₁ s' (env.id p) [.liquidate borrower l] := by
  simp only [liquidate, bind_ok_iff, pure_ok_iff, require_ok_iff, checkedSub_ok_iff,
    toUint128_ok_iff, zeroFloorSub_eq, Prod.exists, Prod.mk.injEq] at h
  obtain ⟨-, hCreated, -, -, s₁, hAccrue, collateralPrice, hPrice, healthy, hHealth, -, hUnhealthy,
    factor, hFactor, seized, shares, hAmounts, repaid, hRepaid, _, ⟨-, rfl⟩, _, ⟨hEnough, rfl⟩, _,
    ⟨-, rfl⟩, _, ⟨-, rfl⟩, _, ⟨-, rfl⟩, _, ⟨hSeized, rfl⟩, badDebtAssets, badDebtShares, s₂, hBad,
    rfl, rfl, rfl⟩ := h
  have hFair : Liquidation.FairAt p collateralPrice
      ⟨repaid, shares, seized, badDebtAssets, badDebtShares⟩ :=
    ⟨factor, hFactor, liquidationIncentiveFactor_ok hFactor, liquidationAmounts_ok hAmounts hRepaid⟩
  refine ⟨hCreated, s₁, collateralPrice, hPrice,
    fun hHealthy => hUnhealthy ((isHealthyAt_ok hHealth).mpr hHealthy), _, rfl, rfl, hFair,
    accrue_moved hAccrue, ?_⟩
  obtain ⟨hWritten, rfl⟩ := writeOffBadDebt_ok hBad
  simp only [setMarket_position, setMarket_market, setPosition_position, Function.update_self,
    setMarket_book, Nat.sub_eq_zero_iff_le] at hWritten
  refine Moved.of_book (e := .Liquidate (env.id p) msg.sender borrower repaid shares seized
    badDebtAssets badDebtShares) ?_ rfl ?_ (fun id' hne => ?_) ?_
  · refine ⟨hEnough, (toAssetsUp_ok_iff.mp hRepaid).2.2.2.symm, hSeized, ?_⟩
    -- nothing is left of the collateral exactly when all of it is seized
    by_cases hAll : (s₁.position (env.id p) borrower).collateral = seized
    · rw [if_pos (Nat.le_of_eq hAll)] at hWritten
      exact (if_pos hAll).mpr hWritten
    · rw [if_neg fun hLe => hAll (Nat.le_antisymm hLe hSeized)] at hWritten
      exact (if_neg hAll).mpr hWritten
  · simp [book, setMarket, setPosition, emit, Book.after, Book.setPosition]
  · simp [book, setMarket, setPosition, emit, hne]
  · rfl

-- ---------------------------------------------------------------------------
-- The market's other functions
-- ---------------------------------------------------------------------------

theorem setFee_moved {p : MarketParams} {newFee : Nat}
    (h : s.setFee env msg p newFee = .ok s') :
    msg.sender = s.owner ∧ (s.market (env.id p)).lastUpdate ≠ 0 ∧
      ∃ s₁, Steps msg s s₁ s' (env.id p) [.setFee newFee] := by
  simp only [setFee, bind_ok_iff, pure_ok_iff, require_ok_iff] at h
  obtain ⟨-, hOwner, -, hCreated, -, -, -, hFee, s₁, hAccrue, rfl⟩ := h
  have hCast : newFee % 2 ^ 128 = newFee :=
    Nat.mod_eq_of_lt (Nat.lt_of_le_of_lt hFee (by decide))
  rw [hCast]
  exact ⟨hOwner, hCreated, s₁, accrue_moved hAccrue, Moved.of_market rfl hFee rfl rfl⟩

theorem accrueInterest_moved {p : MarketParams} (h : s.accrueInterest env msg p = .ok s') :
    (s.market (env.id p)).lastUpdate ≠ 0 ∧ Steps msg s s' s' (env.id p) [] := by
  simp only [accrueInterest, bind_ok_iff, require_ok_iff] at h
  obtain ⟨-, hCreated, hAccrue⟩ := h
  exact ⟨hCreated, accrue_moved hAccrue, Moved.refl s' _⟩

/-- The storage with a new market. -/
def created (s : Storage) (id : Id) (p : MarketParams) (lastUpdate : Nat) : Storage :=
  { s.setMarket id { s.market id with lastUpdate } with
    idToMarketParams := update s.idToMarketParams id p }.emit (.CreateMarket id p)

theorem created_book (s : Storage) (id : Id) (p : MarketParams) (lastUpdate : Nat) :
    (s.created id p lastUpdate).book id = (s.book id).after (.create lastUpdate) :=
  Storage.setMarket_book ..

theorem created_book_of_ne (s : Storage) {id id' : Id} (p : MarketParams) (lastUpdate : Nat)
    (h : id' ≠ id) : (s.created id p lastUpdate).book id' = s.book id' :=
  Storage.setMarket_book_of_ne s id _ h

theorem created_params (s : Storage) (id : Id) (p : MarketParams) (lastUpdate : Nat) :
    (s.created id p lastUpdate).idToMarketParams id = p := Function.update_self ..

theorem created_params_of_ne (s : Storage) {id id' : Id} (p : MarketParams) (lastUpdate : Nat)
    (h : id' ≠ id) : (s.created id p lastUpdate).idToMarketParams id' = s.idToMarketParams id' :=
  Function.update_of_ne h ..

theorem createMarket_ok {p : MarketParams} (h : s.createMarket env msg p = .ok s') :
    s.isIrmEnabled p.irm ∧ s.isLltvEnabled p.lltv ∧ (s.market (env.id p)).lastUpdate = 0 ∧
      s' = s.created (env.id p) p (msg.timestamp % 2 ^ 128) := by
  simp only [createMarket, bind_ok_iff, require_ok_iff] at h
  obtain ⟨-, hIrm, -, hLltv, -, hFresh, h⟩ := h
  refine ⟨hIrm, hLltv, hFresh, ?_⟩
  split at h
  · obtain ⟨_, -, h⟩ := bind_ok_iff.mp h
    exact (pure_ok_iff.mp h).symm
  · exact (pure_ok_iff.mp h).symm

-- ---------------------------------------------------------------------------
-- The functions that concern no market
-- ---------------------------------------------------------------------------

theorem setOwner_ok {newOwner : Address} (h : s.setOwner msg newOwner = .ok s') :
    msg.sender = s.owner ∧ s' = { s with owner := newOwner }.emit (.SetOwner newOwner) := by
  simp only [setOwner, bind_ok_iff, pure_ok_iff, require_ok_iff] at h
  obtain ⟨-, hOwner, -, -, rfl⟩ := h
  exact ⟨hOwner, rfl⟩

theorem enableIrm_ok {irm : Address} (h : s.enableIrm msg irm = .ok s') :
    msg.sender = s.owner ∧
      s' = { s with isIrmEnabled := update s.isIrmEnabled irm true }.emit (.EnableIrm irm) := by
  simp only [enableIrm, bind_ok_iff, pure_ok_iff, require_ok_iff] at h
  obtain ⟨-, hOwner, -, -, rfl⟩ := h
  exact ⟨hOwner, rfl⟩

theorem enableLltv_ok {lltv : Nat} (h : s.enableLltv msg lltv = .ok s') :
    msg.sender = s.owner ∧ lltv < WAD ∧
      s' = { s with isLltvEnabled := update s.isLltvEnabled lltv true }.emit
        (.EnableLltv lltv) := by
  simp only [enableLltv, bind_ok_iff, pure_ok_iff, require_ok_iff] at h
  obtain ⟨-, hOwner, -, -, -, hLess, rfl⟩ := h
  exact ⟨hOwner, hLess, rfl⟩

theorem setFeeRecipient_ok {newFeeRecipient : Address}
    (h : s.setFeeRecipient msg newFeeRecipient = .ok s') :
    msg.sender = s.owner ∧ s' = { s with feeRecipient := newFeeRecipient }.emit
      (.SetFeeRecipient newFeeRecipient) := by
  simp only [setFeeRecipient, bind_ok_iff, pure_ok_iff, require_ok_iff] at h
  obtain ⟨-, hOwner, -, -, rfl⟩ := h
  exact ⟨hOwner, rfl⟩

theorem flashLoan_ok {token : Address} {assets : Nat}
    (h : s.flashLoan msg token assets = .ok s') :
    s' = s.emit (.FlashLoan msg.sender token assets) := by
  simp only [flashLoan, bind_ok_iff, pure_ok_iff, require_ok_iff] at h
  obtain ⟨-, -, rfl⟩ := h
  rfl

theorem setAuthorization_ok {authorized : Address} {newIsAuthorized : Bool}
    (h : s.setAuthorization msg authorized newIsAuthorized = .ok s') :
    s' = (s.authorize msg.sender authorized newIsAuthorized).emit
      (.SetAuthorization msg.sender msg.sender authorized newIsAuthorized) := by
  simp only [setAuthorization, bind_ok_iff, pure_ok_iff, require_ok_iff] at h
  obtain ⟨-, -, rfl⟩ := h
  rfl

/-- A signed authorization is the authorizer's, bears the next nonce and uses it up. -/
theorem setAuthorizationWithSig_ok {a : Authorization} {signature : Signature}
    (h : s.setAuthorizationWithSig env msg a signature = .ok s') :
    msg.timestamp ≤ a.deadline ∧ a.nonce = s.nonce a.authorizer ∧ a.authorizer ≠ 0 ∧
      env.ecrecover (env.digest a) signature = a.authorizer ∧
      s' = (({ s with nonce := update s.nonce a.authorizer (s.nonce a.authorizer + 1) }.emit
        (.IncrementNonce msg.sender a.authorizer a.nonce)).authorize a.authorizer a.authorized
        a.isAuthorized).emit
          (.SetAuthorization msg.sender a.authorizer a.authorized a.isAuthorized) := by
  simp only [setAuthorizationWithSig, bind_ok_iff, pure_ok_iff, require_ok_iff,
    checkedAdd_ok_iff] at h
  obtain ⟨-, hDeadline, _, ⟨-, rfl⟩, -, hNonce, -, ⟨hSome, hSigned⟩, rfl⟩ := h
  exact ⟨hDeadline, hNonce, hSigned ▸ hSome, hSigned.symm, rfl⟩

end Storage

-- ---------------------------------------------------------------------------
-- Every call
-- ---------------------------------------------------------------------------

/-- What a call does in a market once its interest is accrued, and the interactions it asks
for. -/
inductive Own (env : Env) (msg : Msg) (price : Address → Result Nat) (s₁ s' : Storage) :
    Call → MarketParams → List Move → List Interaction → Prop
  | setFee (p : MarketParams) (newFee : Nat) (owner : msg.sender = s₁.owner) :
      Own env msg price s₁ s' (.setFee p newFee) p [.setFee newFee] []
  | supply (p : MarketParams) (x y : Nat) (onBehalf : Address) (assets shares : Nat) :
      Own env msg price s₁ s' (.supply p x y onBehalf) p [.supply onBehalf assets shares]
        [.callback, .pull p.loanToken assets]
  | withdraw (p : MarketParams) (x y : Nat) (onBehalf receiver : Address) (assets shares : Nat)
      (authorized : s₁._isSenderAuthorized msg onBehalf) :
      Own env msg price s₁ s' (.withdraw p x y onBehalf receiver) p
        [.withdraw onBehalf assets shares] [.pay p.loanToken receiver assets]
  | borrow (p : MarketParams) (x y : Nat) (onBehalf receiver : Address) (assets shares : Nat)
      (authorized : s₁._isSenderAuthorized msg onBehalf)
      (healthy : Storage.HealthyNow price p (s'.book (env.id p)) onBehalf) :
      Own env msg price s₁ s' (.borrow p x y onBehalf receiver) p
        [.borrow onBehalf assets shares] [.pay p.loanToken receiver assets]
  | repay (p : MarketParams) (x y : Nat) (onBehalf : Address) (assets shares : Nat) :
      Own env msg price s₁ s' (.repay p x y onBehalf) p [.repay onBehalf assets shares]
        [.callback, .pull p.loanToken assets]
  | supplyCollateral (p : MarketParams) (assets : Nat) (onBehalf : Address) :
      Own env msg price s₁ s' (.supplyCollateral p assets onBehalf) p
        [.supplyCollateral onBehalf assets] [.callback, .pull p.collateralToken assets]
  | withdrawCollateral (p : MarketParams) (assets : Nat) (onBehalf receiver : Address)
      (authorized : s₁._isSenderAuthorized msg onBehalf)
      (healthy : Storage.HealthyNow price p (s'.book (env.id p)) onBehalf) :
      Own env msg price s₁ s' (.withdrawCollateral p assets onBehalf receiver) p
        [.withdrawCollateral onBehalf assets] [.pay p.collateralToken receiver assets]
  | liquidate (p : MarketParams) (borrower : Address) (x y : Nat) (l : Liquidation)
      {collateralPrice : Nat} (quoted : price p.oracle = .ok collateralPrice)
      (unhealthy : ¬ (s₁.book (env.id p)).Healthy borrower collateralPrice p.lltv)
      (fair : l.FairAt p collateralPrice) :
      Own env msg price s₁ s' (.liquidate p borrower x y) p [.liquidate borrower l]
        [.pay p.collateralToken msg.sender l.seizedAssets, .callback,
          .pull p.loanToken l.repaidAssets]
  | accrueInterest (p : MarketParams) : Own env msg price s₁ s' (.accrueInterest p) p [] []

/-- What a call that concerns no market does, and the interactions it asks for. -/
inductive Apart (env : Env) (msg : Msg) (s : Storage) : Call → Storage → List Interaction → Prop
  | setOwner (newOwner : Address) (owner : msg.sender = s.owner) :
      Apart env msg s (.setOwner newOwner)
        ({ s with owner := newOwner }.emit (.SetOwner newOwner)) []
  | enableIrm (irm : Address) (owner : msg.sender = s.owner) :
      Apart env msg s (.enableIrm irm)
        ({ s with isIrmEnabled := update s.isIrmEnabled irm true }.emit (.EnableIrm irm)) []
  | enableLltv (lltv : Nat) (owner : msg.sender = s.owner) (less : lltv < WAD) :
      Apart env msg s (.enableLltv lltv)
        ({ s with isLltvEnabled := update s.isLltvEnabled lltv true }.emit (.EnableLltv lltv)) []
  | setFeeRecipient (newFeeRecipient : Address) (owner : msg.sender = s.owner) :
      Apart env msg s (.setFeeRecipient newFeeRecipient)
        ({ s with feeRecipient := newFeeRecipient }.emit (.SetFeeRecipient newFeeRecipient)) []
  | flashLoan (token : Address) (assets : Nat) :
      Apart env msg s (.flashLoan token assets) (s.emit (.FlashLoan msg.sender token assets))
        [.pay token msg.sender assets, .callback, .pull token assets]
  | setAuthorization (authorized : Address) (newIsAuthorized : Bool) :
      Apart env msg s (.setAuthorization authorized newIsAuthorized)
        ((s.authorize msg.sender authorized newIsAuthorized).emit
          (.SetAuthorization msg.sender msg.sender authorized newIsAuthorized)) []
  | setAuthorizationWithSig (a : Authorization) (signature : Signature)
      (nonce : a.nonce = s.nonce a.authorizer) (someone : a.authorizer ≠ 0)
      (signed : env.ecrecover (env.digest a) signature = a.authorizer) :
      Apart env msg s (.setAuthorizationWithSig a signature)
        ((({ s with nonce := update s.nonce a.authorizer (s.nonce a.authorizer + 1) }.emit
          (.IncrementNonce msg.sender a.authorizer a.nonce)).authorize a.authorizer a.authorized
          a.isAuthorized).emit
            (.SetAuthorization msg.sender a.authorizer a.authorized a.isAuthorized)) []

/-- What a call that goes through has done. -/
inductive Effect (env : Env) (msg : Msg) (price : Address → Result Nat) (s : Storage) :
    Call → Storage → List Interaction → Prop
  | market (p : MarketParams) {call s₁ s' ms is} (created : (s.market (env.id p)).lastUpdate ≠ 0)
      (steps : Storage.Steps msg s s₁ s' (env.id p) ms)
      (own : Own env msg price s₁ s' call p ms is) : Effect env msg price s call s' is
  | create (p : MarketParams) (irm : s.isIrmEnabled p.irm) (lltv : s.isLltvEnabled p.lltv)
      (fresh : (s.market (env.id p)).lastUpdate = 0) :
      Effect env msg price s (.createMarket p)
        (s.created (env.id p) p (msg.timestamp % 2 ^ 128)) []
  | other {call s' is} (apart : Apart env msg s call s' is) : Effect env msg price s call s' is

/-- Who may make a move: the owner sets the fee, and only the account and those it has authorized
take something out for it. -/
def Move.Allowed (msg : Msg) (s : Storage) : Move → Prop
  | .setFee _ => msg.sender = s.owner
  | .withdraw onBehalf _ _ => s._isSenderAuthorized msg onBehalf
  | .borrow onBehalf _ _ => s._isSenderAuthorized msg onBehalf
  | .withdrawCollateral onBehalf _ => s._isSenderAuthorized msg onBehalf
  | _ => True

section Effects

variable {env : Env} {msg : Msg} {price : Address → Result Nat} {s s₁ s' : Storage} {call : Call}
  {p : MarketParams} {id : Id} {ms : List Move} {is : List Interaction}

theorem Own.marketParams (h : Own env msg price s₁ s' call p ms is) :
    call.marketParams = some p := by
  cases h <;> rfl

/-- The caller makes no move that it may not make. -/
theorem Own.allowed (h : Own env msg price s₁ s' call p ms is) : ∀ m ∈ ms, m.Allowed msg s₁ := by
  intro m hm
  cases h <;> simp only [List.mem_singleton, List.not_mem_nil] at hm <;> subst hm
  case setFee owner => exact owner
  case withdraw authorized => exact authorized
  case borrow authorized _ => exact authorized
  case withdrawCollateral authorized _ => exact authorized
  all_goals trivial

namespace Apart

theorem book (h : Apart env msg s call s' is) : s'.book = s.book := by
  cases h <;> rfl

theorem params (h : Apart env msg s call s' is) : s'.idToMarketParams = s.idToMarketParams := by
  cases h <;> rfl

/-- Only a flash loan has interactions. -/
theorem interactions (h : Apart env msg s call s' is) :
    is = [] ∨
      ∃ token assets, is = [.pay token msg.sender assets, .callback, .pull token assets] := by
  cases h
  case flashLoan token assets => exact .inr ⟨token, assets, rfl⟩
  all_goals exact .inl rfl

end Apart

namespace Storage

/-- An accrual writes nothing but the market and its positions. -/
theorem Steps.frame (h : Steps msg s s₁ s' id ms) :
    s₁ = { s with position := s₁.position, market := s₁.market, logs := s₁.logs } :=
  let ⟨_, _, hMoved⟩ := h.accrued
  hMoved.frame

theorem Steps.owner (h : Steps msg s s₁ s' id ms) : s₁.owner = s.owner :=
  (congrArg Storage.owner h.frame :)

theorem Steps.authorized (h : Steps msg s s₁ s' id ms) {onBehalf : Address} :
    s₁._isSenderAuthorized msg onBehalf = s._isSenderAuthorized msg onBehalf := by
  have hSame : s₁.isAuthorized = s.isAuthorized := (congrArg Storage.isAuthorized h.frame :)
  unfold _isSenderAuthorized
  rw [hSame]

/-- All moves of a call, those of the accrual first. -/
theorem Steps.all (h : Steps msg s s₁ s' id ms) :
    ∃ acc, Accrues msg s id acc ∧ Moved s s' id (acc ++ ms) :=
  let ⟨acc, hAcc, hMoved⟩ := h.accrued
  ⟨acc, hAcc, hMoved.trans h.moved⟩

/-- What is allowed does not change by the accrual. -/
theorem Steps.allowed (h : Steps msg s s₁ s' id ms) {m : Move} (hm : m.Allowed msg s₁) :
    m.Allowed msg s := by
  cases m <;> simp only [Move.Allowed] at *
  case setFee => exact hm.trans h.owner
  all_goals exact h.authorized ▸ hm

/-- Anyone may accrue the interest. -/
theorem Accrues.allowed {acc : List Move} (h : Accrues msg s id acc) :
    ∀ m ∈ acc, m.Allowed msg s := by
  intro m hm
  obtain rfl | ⟨-, c, rfl, -⟩ := h
  · cases hm
  · rw [List.mem_singleton.mp hm]
    trivial

end Storage

/-- **What a call can do.** -/
theorem Call.effect (h : call.effects env msg price s = .ok (s', is)) :
    Effect env msg price s call s' is := by
  cases call <;> simp only [effects, bind_ok_iff, pure_ok_iff, Prod.exists, Prod.mk.injEq] at h
  case setOwner newOwner =>
    obtain ⟨_, h, rfl, rfl⟩ := h
    obtain ⟨hOwner, rfl⟩ := Storage.setOwner_ok h
    exact .other (.setOwner newOwner hOwner)
  case enableIrm irm =>
    obtain ⟨_, h, rfl, rfl⟩ := h
    obtain ⟨hOwner, rfl⟩ := Storage.enableIrm_ok h
    exact .other (.enableIrm irm hOwner)
  case enableLltv lltv =>
    obtain ⟨_, h, rfl, rfl⟩ := h
    obtain ⟨hOwner, hLess, rfl⟩ := Storage.enableLltv_ok h
    exact .other (.enableLltv lltv hOwner hLess)
  case setFee p newFee =>
    obtain ⟨_, h, rfl, rfl⟩ := h
    obtain ⟨hOwner, hCreated, s₁, hSteps⟩ := Storage.setFee_moved h
    exact .market p hCreated hSteps (.setFee p newFee (hOwner.trans hSteps.owner.symm))
  case setFeeRecipient newFeeRecipient =>
    obtain ⟨_, h, rfl, rfl⟩ := h
    obtain ⟨hOwner, rfl⟩ := Storage.setFeeRecipient_ok h
    exact .other (.setFeeRecipient newFeeRecipient hOwner)
  case createMarket p =>
    obtain ⟨_, h, rfl, rfl⟩ := h
    obtain ⟨hIrm, hLltv, hFresh, rfl⟩ := Storage.createMarket_ok h
    exact .create p hIrm hLltv hFresh
  case supply p x y onBehalf =>
    obtain ⟨a, n, _, h, rfl, rfl⟩ := h
    obtain ⟨hCreated, s₁, hSteps⟩ := Storage.supply_moved h
    exact .market p hCreated hSteps (.supply p x y onBehalf a n)
  case withdraw p x y onBehalf receiver =>
    obtain ⟨a, n, _, h, rfl, rfl⟩ := h
    obtain ⟨hCreated, hAuthorized, s₁, hSteps⟩ := Storage.withdraw_moved h
    rw [← hSteps.authorized] at hAuthorized
    exact .market p hCreated hSteps (.withdraw p x y onBehalf receiver a n hAuthorized)
  case borrow p x y onBehalf receiver =>
    obtain ⟨a, n, _, h, rfl, rfl⟩ := h
    obtain ⟨hCreated, hAuthorized, hHealthy, s₁, hSteps⟩ := Storage.borrow_moved h
    rw [← hSteps.authorized] at hAuthorized
    exact .market p hCreated hSteps (.borrow p x y onBehalf receiver a n hAuthorized hHealthy)
  case repay p x y onBehalf =>
    obtain ⟨a, n, _, h, rfl, rfl⟩ := h
    obtain ⟨hCreated, s₁, hSteps⟩ := Storage.repay_moved h
    exact .market p hCreated hSteps (.repay p x y onBehalf a n)
  case supplyCollateral p assets onBehalf =>
    obtain ⟨_, h, rfl, rfl⟩ := h
    obtain ⟨hCreated, hMoved⟩ := Storage.supplyCollateral_moved h
    have hSteps : Storage.Steps msg s s _ (env.id p) _ :=
      ⟨⟨[], .inl rfl, Moved.refl s _⟩, hMoved⟩
    exact .market p hCreated hSteps (.supplyCollateral p assets onBehalf)
  case withdrawCollateral p assets onBehalf receiver =>
    obtain ⟨_, h, rfl, rfl⟩ := h
    obtain ⟨hCreated, hAuthorized, hHealthy, s₁, hSteps⟩ := Storage.withdrawCollateral_moved h
    rw [← hSteps.authorized] at hAuthorized
    exact .market p hCreated hSteps
      (.withdrawCollateral p assets onBehalf receiver hAuthorized hHealthy)
  case liquidate p borrower x y =>
    obtain ⟨_, _, _, h, rfl, rfl⟩ := h
    obtain ⟨hCreated, s₁, collateralPrice, hPrice, hUnhealthy, l, rfl, rfl, hFair, hSteps⟩ :=
      Storage.liquidate_moved h
    exact .market p hCreated hSteps (.liquidate p borrower x y l hPrice hUnhealthy hFair)
  case flashLoan token assets =>
    obtain ⟨_, h, rfl, rfl⟩ := h
    obtain rfl := Storage.flashLoan_ok h
    exact .other (.flashLoan token assets)
  case setAuthorization authorized newIsAuthorized =>
    obtain ⟨_, h, rfl, rfl⟩ := h
    obtain rfl := Storage.setAuthorization_ok h
    exact .other (.setAuthorization authorized newIsAuthorized)
  case setAuthorizationWithSig a signature =>
    obtain ⟨_, h, rfl, rfl⟩ := h
    obtain ⟨-, hNonce, hSomeone, hSigned, rfl⟩ := Storage.setAuthorizationWithSig_ok h
    exact .other (.setAuthorizationWithSig a signature hNonce hSomeone hSigned)
  case accrueInterest p =>
    obtain ⟨_, h, rfl, rfl⟩ := h
    obtain ⟨hCreated, hSteps⟩ := Storage.accrueInterest_moved h
    exact .market p hCreated hSteps (.accrueInterest p)

end Effects

end LineraEndToEnd.Morpho
