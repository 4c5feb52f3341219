import LineraEndToEnd.Lib.Pool
import LineraEndToEnd.Solidity.Language

/-!
# Arithmetic of the lending contract

The libraries `Morpho.sol` is written over, with Solidity's checked arithmetic.

* `UtilsLib`, `MathLib`, `SharesMathLib` — the libraries; the `_ok_iff` lemma of each
  function says when it goes through and with which value, in the terms of `Lib.Pool`.
-/

namespace LineraEndToEnd.Morpho

open Solidity
open Lib (mulDivFloor mulDivCeil)

-- ---------------------------------------------------------------------------
-- `ConstantsLib`
-- ---------------------------------------------------------------------------

def WAD : Nat := 10 ^ 18

def MAX_FEE : Nat := 25 * 10 ^ 16

def ORACLE_PRICE_SCALE : Nat := 10 ^ 36

def LIQUIDATION_CURSOR : Nat := 3 * 10 ^ 17

def MAX_LIQUIDATION_INCENTIVE_FACTOR : Nat := 115 * 10 ^ 16

-- ---------------------------------------------------------------------------
-- `ErrorsLib`
-- ---------------------------------------------------------------------------

namespace ErrorsLib

def NOT_OWNER := "not owner"
def MAX_LLTV_EXCEEDED := "max LLTV exceeded"
def MAX_FEE_EXCEEDED := "max fee exceeded"
def ALREADY_SET := "already set"
def IRM_NOT_ENABLED := "IRM not enabled"
def LLTV_NOT_ENABLED := "LLTV not enabled"
def MARKET_ALREADY_CREATED := "market already created"
def NO_CODE := "no code"
def MARKET_NOT_CREATED := "market not created"
def INCONSISTENT_INPUT := "inconsistent input"
def ZERO_ASSETS := "zero assets"
def ZERO_ADDRESS := "zero address"
def UNAUTHORIZED := "unauthorized"
def INSUFFICIENT_COLLATERAL := "insufficient collateral"
def INSUFFICIENT_LIQUIDITY := "insufficient liquidity"
def HEALTHY_POSITION := "position is healthy"
def INVALID_SIGNATURE := "invalid signature"
def SIGNATURE_EXPIRED := "signature expired"
def INVALID_NONCE := "invalid nonce"
def TRANSFER_REVERTED := "transfer reverted"
def TRANSFER_FROM_REVERTED := "transferFrom reverted"
def MAX_UINT128_EXCEEDED := "max uint128 exceeded"

end ErrorsLib

-- ---------------------------------------------------------------------------
-- `UtilsLib`
-- ---------------------------------------------------------------------------

/-- `exactlyOneZero`. -/
def exactlyOneZero (x y : Nat) : Bool := (x == 0) ^^ (y == 0)

/-- `toUint128`. -/
def toUint128 (x : Nat) : Result Nat := do
  require (x ≤ maxUint 128) ErrorsLib.MAX_UINT128_EXCEEDED
  return x

/-- `zeroFloorSub`. -/
def zeroFloorSub (x y : Nat) : Nat := if y < x then x - y else 0

@[simp] theorem toUint128_ok_iff {x z : Nat} :
    toUint128 x = .ok z ↔ x ≤ maxUint 128 ∧ x = z := by
  simp only [toUint128, bind_ok_iff, pure_ok_iff, require_ok_iff]
  constructor
  · rintro ⟨_, hFits, hEq⟩
    exact ⟨hFits, hEq⟩
  · rintro ⟨hFits, hEq⟩
    exact ⟨(), hFits, hEq⟩

@[simp] theorem zeroFloorSub_eq (x y : Nat) : zeroFloorSub x y = x - y := by
  unfold zeroFloorSub
  split <;> omega

-- ---------------------------------------------------------------------------
-- `MathLib`
-- ---------------------------------------------------------------------------

/-- `mulDivDown`: `(x * y) / d`. -/
def mulDivDown (x y d : Nat) : Result Nat := do
  let product ← checkedMul x y
  checkedDiv product d

/-- `mulDivUp`: `(x * y + (d - 1)) / d`. -/
def mulDivUp (x y d : Nat) : Result Nat := do
  let product ← checkedMul x y
  let less ← checkedSub d 1
  let sum ← checkedAdd 256 product less
  checkedDiv sum d

/-- `wMulDown`. -/
def wMulDown (x y : Nat) : Result Nat := mulDivDown x y WAD

/-- `wDivDown`. -/
def wDivDown (x y : Nat) : Result Nat := mulDivDown x WAD y

/-- `wDivUp`. -/
def wDivUp (x y : Nat) : Result Nat := mulDivUp x WAD y

/-- `wTaylorCompounded`: three terms of `e ^ (x * n) - 1`. -/
def wTaylorCompounded (x n : Nat) : Result Nat := do
  let firstTerm ← checkedMul x n
  let secondTerm ← mulDivDown firstTerm firstTerm (2 * WAD)
  let thirdTerm ← mulDivDown secondTerm firstTerm (3 * WAD)
  let sum ← checkedAdd 256 firstTerm secondTerm
  checkedAdd 256 sum thirdTerm

theorem mulDivDown_ok_iff {x y d z : Nat} :
    mulDivDown x y d = .ok z ↔ x * y ≤ maxUint 256 ∧ 0 < d ∧ mulDivFloor x y d = z := by
  simp [mulDivDown, bind_ok_iff, mulDivFloor, Nat.pos_iff_ne_zero, and_assoc]

theorem mulDivUp_ok_iff {x y d z : Nat} :
    mulDivUp x y d = .ok z ↔
      x * y + (d - 1) ≤ maxUint 256 ∧ 0 < d ∧ mulDivCeil x y d = z := by
  simp only [mulDivUp, bind_ok_iff, checkedMul_ok_iff, checkedSub_ok_iff, checkedAdd_ok_iff,
    checkedDiv_ok_iff, mulDivCeil]
  constructor
  · rintro ⟨_, ⟨-, rfl⟩, _, ⟨hOne, rfl⟩, _, ⟨hFits, rfl⟩, -, rfl⟩
    exact ⟨hFits, hOne, rfl⟩
  · rintro ⟨hFits, hPos, rfl⟩
    exact ⟨_, ⟨by omega, rfl⟩, _, ⟨hPos, rfl⟩, _, ⟨hFits, rfl⟩, by omega, rfl⟩

-- ---------------------------------------------------------------------------
-- `SharesMathLib`
-- ---------------------------------------------------------------------------

def VIRTUAL_SHARES : Nat := 10 ^ 6

def VIRTUAL_ASSETS : Nat := 1

/-- `toSharesDown`. -/
def toSharesDown (assets totalAssets totalShares : Nat) : Result Nat := do
  let shares ← checkedAdd 256 totalShares VIRTUAL_SHARES
  let virtual ← checkedAdd 256 totalAssets VIRTUAL_ASSETS
  mulDivDown assets shares virtual

/-- `toAssetsDown`. -/
def toAssetsDown (shares totalAssets totalShares : Nat) : Result Nat := do
  let assets ← checkedAdd 256 totalAssets VIRTUAL_ASSETS
  let virtual ← checkedAdd 256 totalShares VIRTUAL_SHARES
  mulDivDown shares assets virtual

/-- `toSharesUp`. -/
def toSharesUp (assets totalAssets totalShares : Nat) : Result Nat := do
  let shares ← checkedAdd 256 totalShares VIRTUAL_SHARES
  let virtual ← checkedAdd 256 totalAssets VIRTUAL_ASSETS
  mulDivUp assets shares virtual

/-- `toAssetsUp`. -/
def toAssetsUp (shares totalAssets totalShares : Nat) : Result Nat := do
  let assets ← checkedAdd 256 totalAssets VIRTUAL_ASSETS
  let virtual ← checkedAdd 256 totalShares VIRTUAL_SHARES
  mulDivUp shares assets virtual

theorem VIRTUAL_SHARES_pos : 0 < VIRTUAL_SHARES := by decide

/-- A side of a market as a pool, with its virtual assets and shares. -/
def virtualPool (totalAssets totalShares : Nat) : Lib.Pool where
  assets := totalAssets + VIRTUAL_ASSETS
  shares := totalShares + VIRTUAL_SHARES
  assets_pos := Nat.succ_pos totalAssets
  shares_pos := Nat.add_pos_right totalShares VIRTUAL_SHARES_pos

@[simp] theorem virtualPool_assets (totalAssets totalShares : Nat) :
    (virtualPool totalAssets totalShares).assets = totalAssets + 1 := rfl

@[simp] theorem virtualPool_shares (totalAssets totalShares : Nat) :
    (virtualPool totalAssets totalShares).shares = totalShares + VIRTUAL_SHARES := rfl

theorem toSharesDown_ok_iff {assets totalAssets totalShares n : Nat} :
    toSharesDown assets totalAssets totalShares = .ok n ↔
      totalAssets + 1 ≤ maxUint 256 ∧ totalShares + VIRTUAL_SHARES ≤ maxUint 256 ∧
      assets * (totalShares + VIRTUAL_SHARES) ≤ maxUint 256 ∧
      (virtualPool totalAssets totalShares).sharesDown assets = n := by
  simp only [toSharesDown, bind_ok_iff, checkedAdd_ok_iff, mulDivDown_ok_iff, VIRTUAL_ASSETS]
  constructor
  · rintro ⟨_, ⟨hShares, rfl⟩, _, ⟨hAssets, rfl⟩, hProduct, -, hEq⟩
    exact ⟨hAssets, hShares, hProduct, hEq⟩
  · rintro ⟨hAssets, hShares, hProduct, hEq⟩
    exact ⟨_, ⟨hShares, rfl⟩, _, ⟨hAssets, rfl⟩, hProduct, Nat.succ_pos _, hEq⟩

theorem toAssetsDown_ok_iff {shares totalAssets totalShares n : Nat} :
    toAssetsDown shares totalAssets totalShares = .ok n ↔
      totalAssets + 1 ≤ maxUint 256 ∧ totalShares + VIRTUAL_SHARES ≤ maxUint 256 ∧
      shares * (totalAssets + 1) ≤ maxUint 256 ∧
      (virtualPool totalAssets totalShares).worthDown shares = n := by
  simp only [toAssetsDown, bind_ok_iff, checkedAdd_ok_iff, mulDivDown_ok_iff, VIRTUAL_ASSETS]
  constructor
  · rintro ⟨_, ⟨hAssets, rfl⟩, _, ⟨hShares, rfl⟩, hProduct, -, hEq⟩
    exact ⟨hAssets, hShares, hProduct, hEq⟩
  · rintro ⟨hAssets, hShares, hProduct, hEq⟩
    exact ⟨_, ⟨hAssets, rfl⟩, _, ⟨hShares, rfl⟩, hProduct,
      (virtualPool totalAssets totalShares).shares_pos, hEq⟩

theorem toSharesUp_ok_iff {assets totalAssets totalShares n : Nat} :
    toSharesUp assets totalAssets totalShares = .ok n ↔
      totalAssets + 1 ≤ maxUint 256 ∧ totalShares + VIRTUAL_SHARES ≤ maxUint 256 ∧
      assets * (totalShares + VIRTUAL_SHARES) + totalAssets ≤ maxUint 256 ∧
      (virtualPool totalAssets totalShares).sharesUp assets = n := by
  simp only [toSharesUp, bind_ok_iff, checkedAdd_ok_iff, mulDivUp_ok_iff, VIRTUAL_ASSETS]
  constructor
  · rintro ⟨_, ⟨hShares, rfl⟩, _, ⟨hAssets, rfl⟩, hProduct, -, hEq⟩
    exact ⟨hAssets, hShares, hProduct, hEq⟩
  · rintro ⟨hAssets, hShares, hProduct, hEq⟩
    exact ⟨_, ⟨hShares, rfl⟩, _, ⟨hAssets, rfl⟩, hProduct, Nat.succ_pos _, hEq⟩

theorem toAssetsUp_ok_iff {shares totalAssets totalShares n : Nat} :
    toAssetsUp shares totalAssets totalShares = .ok n ↔
      totalAssets + 1 ≤ maxUint 256 ∧ totalShares + VIRTUAL_SHARES ≤ maxUint 256 ∧
      shares * (totalAssets + 1) + (totalShares + VIRTUAL_SHARES - 1) ≤ maxUint 256 ∧
      (virtualPool totalAssets totalShares).worthUp shares = n := by
  simp only [toAssetsUp, bind_ok_iff, checkedAdd_ok_iff, mulDivUp_ok_iff, VIRTUAL_ASSETS]
  constructor
  · rintro ⟨_, ⟨hAssets, rfl⟩, _, ⟨hShares, rfl⟩, hProduct, -, hEq⟩
    exact ⟨hAssets, hShares, hProduct, hEq⟩
  · rintro ⟨hAssets, hShares, hProduct, hEq⟩
    exact ⟨_, ⟨hAssets, rfl⟩, _, ⟨hShares, rfl⟩, hProduct,
      (virtualPool totalAssets totalShares).shares_pos, hEq⟩

end LineraEndToEnd.Morpho
