import LineraEndToEnd.Morpho.Math

/-!
# The lending contract

`Morpho.sol`: suppliers lend the loan token of a market, borrowers take it against
collateral, liquidators repay for borrowers who are no longer healthy. Each function
is the part of the source up to its first call of a token: `Morpho.World` continues
with the transfers and callbacks, which all come last.

* `Storage` — the contract's storage, with the log of the events it has emitted.
* `Env` — what is fixed outside the contract: its address, the hash functions, the
  interest rate model.
* `Storage.supply` … `Storage.setAuthorizationWithSig` — the functions. The parameters
  are those of the source, after the environment and the message; the result has the
  values the source returns.
-/

namespace LineraEndToEnd.Morpho

open Solidity
open Function (update)

-- ---------------------------------------------------------------------------
-- Types
-- ---------------------------------------------------------------------------

/-- `address`. -/
abbrev Address := Fin (2 ^ 160)

/-- `bytes32`. -/
abbrev Bytes32 := Fin (2 ^ 256)

/-- The address with this number. -/
def Address.ofNat (n : Nat) : Address := ⟨n % 2 ^ 160, Nat.mod_lt n (Nat.two_pow_pos 160)⟩

/-- The word with this number. -/
def Bytes32.ofNat (n : Nat) : Bytes32 := ⟨n % 2 ^ 256, Nat.mod_lt n (Nat.two_pow_pos 256)⟩

/-- `Id`, a `bytes32`. -/
abbrev Id := Bytes32

/-- `MarketParams`. -/
structure MarketParams where
  loanToken : Address
  collateralToken : Address
  oracle : Address
  irm : Address
  lltv : Nat
deriving DecidableEq

/-- `Position`. -/
@[ext] structure Position where
  supplyShares : Nat
  borrowShares : Nat
  collateral : Nat
deriving DecidableEq

/-- `Market`. -/
@[ext] structure Market where
  totalSupplyAssets : Nat
  totalSupplyShares : Nat
  totalBorrowAssets : Nat
  totalBorrowShares : Nat
  lastUpdate : Nat
  fee : Nat
deriving DecidableEq

/-- `Authorization`. -/
structure Authorization where
  authorizer : Address
  authorized : Address
  isAuthorized : Bool
  nonce : Nat
  deadline : Nat
deriving DecidableEq

/-- `Signature`. -/
structure Signature where
  v : Fin (2 ^ 8)
  r : Bytes32
  s : Bytes32
deriving DecidableEq

/-- The signature with these numbers. -/
def Signature.ofNat (v r s : Nat) : Signature :=
  ⟨⟨v % 2 ^ 8, Nat.mod_lt v (Nat.two_pow_pos 8)⟩, .ofNat r, .ofNat s⟩

/-- `EventsLib`. -/
inductive Event
  | SetOwner (newOwner : Address)
  | SetFee (id : Id) (newFee : Nat)
  | SetFeeRecipient (newFeeRecipient : Address)
  | EnableIrm (irm : Address)
  | EnableLltv (lltv : Nat)
  | CreateMarket (id : Id) (marketParams : MarketParams)
  | Supply (id : Id) (caller onBehalf : Address) (assets shares : Nat)
  | Withdraw (id : Id) (caller onBehalf receiver : Address) (assets shares : Nat)
  | Borrow (id : Id) (caller onBehalf receiver : Address) (assets shares : Nat)
  | Repay (id : Id) (caller onBehalf : Address) (assets shares : Nat)
  | SupplyCollateral (id : Id) (caller onBehalf : Address) (assets : Nat)
  | WithdrawCollateral (id : Id) (caller onBehalf receiver : Address) (assets : Nat)
  | Liquidate (id : Id) (caller borrower : Address)
      (repaidAssets repaidShares seizedAssets badDebtAssets badDebtShares : Nat)
  | FlashLoan (caller token : Address) (assets : Nat)
  | SetAuthorization (caller authorizer authorized : Address) (newIsAuthorized : Bool)
  | IncrementNonce (caller authorizer : Address) (usedNonce : Nat)
  | AccrueInterest (id : Id) (prevBorrowRate interest feeShares : Nat)
deriving DecidableEq

/-- The storage of `Morpho`, with the events it has emitted, oldest first. -/
@[ext] structure Storage where
  owner : Address
  feeRecipient : Address
  position : Id → Address → Position
  market : Id → Market
  isIrmEnabled : Address → Bool
  isLltvEnabled : Nat → Bool
  isAuthorized : Address → Address → Bool
  nonce : Address → Nat
  idToMarketParams : Id → MarketParams
  logs : List Event

/-- What is fixed outside the contract. -/
structure Env where
  /-- `address(this)`. -/
  self : Address
  /-- `MarketParamsLib.id`: the `keccak256` of the five words. -/
  id : MarketParams → Id
  /-- The EIP-712 digest of an authorization, under `DOMAIN_SEPARATOR`. -/
  digest : Authorization → Bytes32
  /-- `ecrecover`. -/
  ecrecover : Bytes32 → Signature → Address
  /-- `IIrm(irm).borrowRate(marketParams, market)`. -/
  borrowRate : Address → MarketParams → Market → Result Nat

/-- `msg.sender` and `block.timestamp`. -/
structure Msg where
  sender : Address
  timestamp : Nat

-- ---------------------------------------------------------------------------
-- Writing the storage
-- ---------------------------------------------------------------------------

/-- The value of a position that was never written. -/
def Position.empty : Position := ⟨0, 0, 0⟩

/-- The value of a market that was never written. -/
def Market.empty : Market := ⟨0, 0, 0, 0, 0, 0⟩

/-- The value of market parameters that were never written. -/
def MarketParams.empty : MarketParams := ⟨0, 0, 0, 0, 0⟩

namespace Storage

/-- `market[id] = m`. -/
def setMarket (s : Storage) (id : Id) (m : Market) : Storage :=
  { s with market := update s.market id m }

/-- `position[id][a] = pos`. -/
def setPosition (s : Storage) (id : Id) (a : Address) (pos : Position) : Storage :=
  { s with position := update s.position id (update (s.position id) a pos) }

/-- `emit`. -/
def emit (s : Storage) (e : Event) : Storage := { s with logs := s.logs ++ [e] }

/-- `constructor`. -/
def new (newOwner : Address) : Result Storage := do
  require (newOwner ≠ 0) ErrorsLib.ZERO_ADDRESS
  return {
    owner := newOwner
    feeRecipient := 0
    position := fun _ _ => Position.empty
    market := fun _ => Market.empty
    isIrmEnabled := fun _ => false
    isLltvEnabled := fun _ => false
    isAuthorized := fun _ _ => false
    nonce := fun _ => 0
    idToMarketParams := fun _ => MarketParams.empty
    logs := [.SetOwner newOwner] }

-- ---------------------------------------------------------------------------
-- Interest
-- ---------------------------------------------------------------------------

/-- The fee of `_accrueInterest`: shares for the fee recipient, out of the interest. -/
def chargeFee (s : Storage) (id : Id) (interest : Nat) : Result (Nat × Storage) :=
  let m := s.market id
  if m.fee ≠ 0 then do
    let feeAmount ← wMulDown interest m.fee
    let otherAssets ← checkedSub m.totalSupplyAssets feeAmount
    let feeShares ← toSharesDown feeAmount otherAssets m.totalSupplyShares
    let pos := s.position id s.feeRecipient
    let supplyShares ← checkedAdd 256 pos.supplyShares feeShares
    let feeShares128 ← toUint128 feeShares
    let totalSupplyShares ← checkedAdd 128 m.totalSupplyShares feeShares128
    return (feeShares, (s.setPosition id s.feeRecipient { pos with supplyShares }).setMarket id
      { m with totalSupplyShares })
  else
    return (0, s)

/-- The interest of `_accrueInterest`, at the rate of the interest rate model. -/
def chargeInterest (env : Env) (s : Storage) (p : MarketParams) (id : Id) (elapsed : Nat) :
    Result Storage := do
  let m := s.market id
  let borrowRate ← env.borrowRate p.irm p m
  let compounded ← wTaylorCompounded borrowRate elapsed
  let interest ← wMulDown m.totalBorrowAssets compounded
  let interest128 ← toUint128 interest
  let totalBorrowAssets ← checkedAdd 128 m.totalBorrowAssets interest128
  let totalSupplyAssets ← checkedAdd 128 m.totalSupplyAssets interest128
  let (feeShares, s) ← chargeFee (s.setMarket id { m with totalBorrowAssets, totalSupplyAssets })
    id interest
  return s.emit (.AccrueInterest id borrowRate interest feeShares)

/-- `_accrueInterest`. -/
def _accrueInterest (env : Env) (msg : Msg) (s : Storage) (p : MarketParams) (id : Id) :
    Result Storage := do
  let elapsed ← checkedSub msg.timestamp (s.market id).lastUpdate
  if elapsed = 0 then
    return s
  else
    let s ← if p.irm ≠ 0 then chargeInterest env s p id elapsed else pure s
    -- the cast to `uint128` is unchecked
    return s.setMarket id { s.market id with lastUpdate := msg.timestamp % 2 ^ 128 }

-- ---------------------------------------------------------------------------
-- Health
-- ---------------------------------------------------------------------------

/-- `_isHealthy`, at a given price of the collateral. -/
def _isHealthyAt (s : Storage) (p : MarketParams) (id : Id) (borrower : Address)
    (collateralPrice : Nat) : Result Bool := do
  let m := s.market id
  let pos := s.position id borrower
  let borrowed ← toAssetsUp pos.borrowShares m.totalBorrowAssets m.totalBorrowShares
  let quoted ← mulDivDown pos.collateral collateralPrice ORACLE_PRICE_SCALE
  let maxBorrow ← wMulDown quoted p.lltv
  return decide (borrowed ≤ maxBorrow)

/-- `_isHealthy`; `price` reads the oracle. -/
def _isHealthy (price : Address → Result Nat) (s : Storage) (p : MarketParams) (id : Id)
    (borrower : Address) : Result Bool :=
  if (s.position id borrower).borrowShares = 0 then
    return true
  else do
    let collateralPrice ← price p.oracle
    s._isHealthyAt p id borrower collateralPrice

/-- `_isSenderAuthorized`. -/
def _isSenderAuthorized (msg : Msg) (s : Storage) (onBehalf : Address) : Bool :=
  decide (msg.sender = onBehalf) || s.isAuthorized onBehalf msg.sender

variable (env : Env) (msg : Msg) (price : Address → Result Nat) (s : Storage)

-- ---------------------------------------------------------------------------
-- The owner's functions
-- ---------------------------------------------------------------------------

/-- `setOwner`. -/
def setOwner (newOwner : Address) : Result Storage := do
  require (msg.sender = s.owner) ErrorsLib.NOT_OWNER
  require (newOwner ≠ s.owner) ErrorsLib.ALREADY_SET
  return { s with owner := newOwner }.emit (.SetOwner newOwner)

/-- `enableIrm`. -/
def enableIrm (irm : Address) : Result Storage := do
  require (msg.sender = s.owner) ErrorsLib.NOT_OWNER
  require (¬ s.isIrmEnabled irm) ErrorsLib.ALREADY_SET
  return { s with isIrmEnabled := update s.isIrmEnabled irm true }.emit (.EnableIrm irm)

/-- `enableLltv`. -/
def enableLltv (lltv : Nat) : Result Storage := do
  require (msg.sender = s.owner) ErrorsLib.NOT_OWNER
  require (¬ s.isLltvEnabled lltv) ErrorsLib.ALREADY_SET
  require (lltv < WAD) ErrorsLib.MAX_LLTV_EXCEEDED
  return { s with isLltvEnabled := update s.isLltvEnabled lltv true }.emit (.EnableLltv lltv)

/-- `setFee`. -/
def setFee (p : MarketParams) (newFee : Nat) : Result Storage := do
  require (msg.sender = s.owner) ErrorsLib.NOT_OWNER
  let id := env.id p
  require ((s.market id).lastUpdate ≠ 0) ErrorsLib.MARKET_NOT_CREATED
  require (newFee ≠ (s.market id).fee) ErrorsLib.ALREADY_SET
  require (newFee ≤ MAX_FEE) ErrorsLib.MAX_FEE_EXCEEDED
  let s ← s._accrueInterest env msg p id
  -- the cast to `uint128` is unchecked
  return (s.setMarket id { s.market id with fee := newFee % 2 ^ 128 }).emit (.SetFee id newFee)

/-- `setFeeRecipient`. -/
def setFeeRecipient (newFeeRecipient : Address) : Result Storage := do
  require (msg.sender = s.owner) ErrorsLib.NOT_OWNER
  require (newFeeRecipient ≠ s.feeRecipient) ErrorsLib.ALREADY_SET
  return { s with feeRecipient := newFeeRecipient }.emit (.SetFeeRecipient newFeeRecipient)

/-- `createMarket`. -/
def createMarket (p : MarketParams) : Result Storage := do
  let id := env.id p
  require (s.isIrmEnabled p.irm) ErrorsLib.IRM_NOT_ENABLED
  require (s.isLltvEnabled p.lltv) ErrorsLib.LLTV_NOT_ENABLED
  require ((s.market id).lastUpdate = 0) ErrorsLib.MARKET_ALREADY_CREATED
  -- the cast to `uint128` is unchecked
  let s := s.setMarket id { s.market id with lastUpdate := msg.timestamp % 2 ^ 128 }
  let s := { s with idToMarketParams := update s.idToMarketParams id p }.emit (.CreateMarket id p)
  if p.irm ≠ 0 then
    -- a stateful interest rate model is initialised; the rate is not used
    let _ ← env.borrowRate p.irm p (s.market id)
    return s
  else
    return s

-- ---------------------------------------------------------------------------
-- Suppliers
-- ---------------------------------------------------------------------------

/-- The assets and the shares of a function that is called with one of them, the other being
zero: `if (assets > 0) shares = toShares(assets); else assets = toAssets(shares);`. -/
def assetsAndShares (toShares toAssets : Nat → Result Nat) (assets shares : Nat) :
    Result (Nat × Nat) :=
  if 0 < assets then do
    let shares ← toShares assets
    return (assets, shares)
  else do
    let assets ← toAssets shares
    return (assets, shares)

/-- `supply`, up to its callback. -/
def supply (p : MarketParams) (assets shares : Nat) (onBehalf : Address) :
    Result (Nat × Nat × Storage) := do
  let id := env.id p
  require ((s.market id).lastUpdate ≠ 0) ErrorsLib.MARKET_NOT_CREATED
  require (exactlyOneZero assets shares) ErrorsLib.INCONSISTENT_INPUT
  require (onBehalf ≠ 0) ErrorsLib.ZERO_ADDRESS
  let s ← s._accrueInterest env msg p id
  let m := s.market id
  let (assets, shares) ← assetsAndShares
    (toSharesDown · m.totalSupplyAssets m.totalSupplyShares)
    (toAssetsUp · m.totalSupplyAssets m.totalSupplyShares) assets shares
  let pos := s.position id onBehalf
  let supplyShares ← checkedAdd 256 pos.supplyShares shares
  let shares128 ← toUint128 shares
  let totalSupplyShares ← checkedAdd 128 m.totalSupplyShares shares128
  let assets128 ← toUint128 assets
  let totalSupplyAssets ← checkedAdd 128 m.totalSupplyAssets assets128
  let s := s.setPosition id onBehalf { pos with supplyShares }
  let s := s.setMarket id { m with totalSupplyShares, totalSupplyAssets }
  return (assets, shares, s.emit (.Supply id msg.sender onBehalf assets shares))

/-- `withdraw`, up to its transfer. -/
def withdraw (p : MarketParams) (assets shares : Nat) (onBehalf receiver : Address) :
    Result (Nat × Nat × Storage) := do
  let id := env.id p
  require ((s.market id).lastUpdate ≠ 0) ErrorsLib.MARKET_NOT_CREATED
  require (exactlyOneZero assets shares) ErrorsLib.INCONSISTENT_INPUT
  require (receiver ≠ 0) ErrorsLib.ZERO_ADDRESS
  require (s._isSenderAuthorized msg onBehalf) ErrorsLib.UNAUTHORIZED
  let s ← s._accrueInterest env msg p id
  let m := s.market id
  let (assets, shares) ← assetsAndShares
    (toSharesUp · m.totalSupplyAssets m.totalSupplyShares)
    (toAssetsDown · m.totalSupplyAssets m.totalSupplyShares) assets shares
  let pos := s.position id onBehalf
  let supplyShares ← checkedSub pos.supplyShares shares
  let shares128 ← toUint128 shares
  let totalSupplyShares ← checkedSub m.totalSupplyShares shares128
  let assets128 ← toUint128 assets
  let totalSupplyAssets ← checkedSub m.totalSupplyAssets assets128
  let s := s.setPosition id onBehalf { pos with supplyShares }
  let s := s.setMarket id { m with totalSupplyShares, totalSupplyAssets }
  require (m.totalBorrowAssets ≤ totalSupplyAssets) ErrorsLib.INSUFFICIENT_LIQUIDITY
  return (assets, shares, s.emit (.Withdraw id msg.sender onBehalf receiver assets shares))

-- ---------------------------------------------------------------------------
-- Borrowers
-- ---------------------------------------------------------------------------

/-- `borrow`, up to its transfer. -/
def borrow (p : MarketParams) (assets shares : Nat) (onBehalf receiver : Address) :
    Result (Nat × Nat × Storage) := do
  let id := env.id p
  require ((s.market id).lastUpdate ≠ 0) ErrorsLib.MARKET_NOT_CREATED
  require (exactlyOneZero assets shares) ErrorsLib.INCONSISTENT_INPUT
  require (receiver ≠ 0) ErrorsLib.ZERO_ADDRESS
  require (s._isSenderAuthorized msg onBehalf) ErrorsLib.UNAUTHORIZED
  let s ← s._accrueInterest env msg p id
  let m := s.market id
  let (assets, shares) ← assetsAndShares
    (toSharesUp · m.totalBorrowAssets m.totalBorrowShares)
    (toAssetsDown · m.totalBorrowAssets m.totalBorrowShares) assets shares
  let pos := s.position id onBehalf
  let shares128 ← toUint128 shares
  let borrowShares ← checkedAdd 128 pos.borrowShares shares128
  let totalBorrowShares ← checkedAdd 128 m.totalBorrowShares shares128
  let assets128 ← toUint128 assets
  let totalBorrowAssets ← checkedAdd 128 m.totalBorrowAssets assets128
  let s := s.setPosition id onBehalf { pos with borrowShares }
  let s := s.setMarket id { m with totalBorrowShares, totalBorrowAssets }
  let healthy ← s._isHealthy price p id onBehalf
  require healthy ErrorsLib.INSUFFICIENT_COLLATERAL
  require (totalBorrowAssets ≤ m.totalSupplyAssets) ErrorsLib.INSUFFICIENT_LIQUIDITY
  return (assets, shares, s.emit (.Borrow id msg.sender onBehalf receiver assets shares))

/-- `repay`, up to its callback. -/
def repay (p : MarketParams) (assets shares : Nat) (onBehalf : Address) :
    Result (Nat × Nat × Storage) := do
  let id := env.id p
  require ((s.market id).lastUpdate ≠ 0) ErrorsLib.MARKET_NOT_CREATED
  require (exactlyOneZero assets shares) ErrorsLib.INCONSISTENT_INPUT
  require (onBehalf ≠ 0) ErrorsLib.ZERO_ADDRESS
  let s ← s._accrueInterest env msg p id
  let m := s.market id
  let (assets, shares) ← assetsAndShares
    (toSharesDown · m.totalBorrowAssets m.totalBorrowShares)
    (toAssetsUp · m.totalBorrowAssets m.totalBorrowShares) assets shares
  let pos := s.position id onBehalf
  let shares128 ← toUint128 shares
  let borrowShares ← checkedSub pos.borrowShares shares128
  let totalBorrowShares ← checkedSub m.totalBorrowShares shares128
  let totalBorrowAssets ← toUint128 (zeroFloorSub m.totalBorrowAssets assets)
  let s := s.setPosition id onBehalf { pos with borrowShares }
  let s := s.setMarket id { m with totalBorrowShares, totalBorrowAssets }
  return (assets, shares, s.emit (.Repay id msg.sender onBehalf assets shares))

-- ---------------------------------------------------------------------------
-- Collateral
-- ---------------------------------------------------------------------------

/-- `supplyCollateral`, up to its callback. -/
def supplyCollateral (p : MarketParams) (assets : Nat) (onBehalf : Address) : Result Storage := do
  let id := env.id p
  require ((s.market id).lastUpdate ≠ 0) ErrorsLib.MARKET_NOT_CREATED
  require (assets ≠ 0) ErrorsLib.ZERO_ASSETS
  require (onBehalf ≠ 0) ErrorsLib.ZERO_ADDRESS
  let pos := s.position id onBehalf
  let assets128 ← toUint128 assets
  let collateral ← checkedAdd 128 pos.collateral assets128
  return (s.setPosition id onBehalf { pos with collateral }).emit
    (.SupplyCollateral id msg.sender onBehalf assets)

/-- `withdrawCollateral`, up to its transfer. -/
def withdrawCollateral (p : MarketParams) (assets : Nat) (onBehalf receiver : Address) :
    Result Storage := do
  let id := env.id p
  require ((s.market id).lastUpdate ≠ 0) ErrorsLib.MARKET_NOT_CREATED
  require (assets ≠ 0) ErrorsLib.ZERO_ASSETS
  require (receiver ≠ 0) ErrorsLib.ZERO_ADDRESS
  require (s._isSenderAuthorized msg onBehalf) ErrorsLib.UNAUTHORIZED
  let s ← s._accrueInterest env msg p id
  let pos := s.position id onBehalf
  let assets128 ← toUint128 assets
  let collateral ← checkedSub pos.collateral assets128
  let s := s.setPosition id onBehalf { pos with collateral }
  let healthy ← s._isHealthy price p id onBehalf
  require healthy ErrorsLib.INSUFFICIENT_COLLATERAL
  return s.emit (.WithdrawCollateral id msg.sender onBehalf receiver assets)

-- ---------------------------------------------------------------------------
-- Liquidation
-- ---------------------------------------------------------------------------

/-- The liquidation incentive factor of `liquidate`. -/
def liquidationIncentiveFactor (p : MarketParams) : Result Nat := do
  let unused ← checkedSub WAD p.lltv
  let cut ← wMulDown LIQUIDATION_CURSOR unused
  let divisor ← checkedSub WAD cut
  let factor ← wDivDown WAD divisor
  return min MAX_LIQUIDATION_INCENTIVE_FACTOR factor

/-- The seized assets and the repaid shares of `liquidate`, each from the other. -/
def liquidationAmounts (m : Market) (factor collateralPrice seizedAssets repaidShares : Nat) :
    Result (Nat × Nat) :=
  if 0 < seizedAssets then do
    let seizedAssetsQuoted ← mulDivUp seizedAssets collateralPrice ORACLE_PRICE_SCALE
    let repaid ← wDivUp seizedAssetsQuoted factor
    let repaidShares ← toSharesUp repaid m.totalBorrowAssets m.totalBorrowShares
    return (seizedAssets, repaidShares)
  else do
    let repaid ← toAssetsDown repaidShares m.totalBorrowAssets m.totalBorrowShares
    let quoted ← wMulDown repaid factor
    let seizedAssets ← mulDivDown quoted ORACLE_PRICE_SCALE collateralPrice
    return (seizedAssets, repaidShares)

/-- The bad debt of `liquidate`: what a borrower without collateral still owes is written
off, in assets and in shares. -/
def writeOffBadDebt (id : Id) (borrower : Address) : Result (Nat × Nat × Storage) :=
  let m := s.market id
  let pos := s.position id borrower
  if pos.collateral = 0 then do
    let badDebtShares := pos.borrowShares
    let owed ← toAssetsUp badDebtShares m.totalBorrowAssets m.totalBorrowShares
    let badDebtAssets := min m.totalBorrowAssets owed
    let badDebtAssets128 ← toUint128 badDebtAssets
    let totalBorrowAssets ← checkedSub m.totalBorrowAssets badDebtAssets128
    let totalSupplyAssets ← checkedSub m.totalSupplyAssets badDebtAssets128
    let badDebtShares128 ← toUint128 badDebtShares
    let totalBorrowShares ← checkedSub m.totalBorrowShares badDebtShares128
    let s := s.setMarket id { m with totalBorrowAssets, totalSupplyAssets, totalBorrowShares }
    return (badDebtAssets, badDebtShares, s.setPosition id borrower { pos with borrowShares := 0 })
  else
    return (0, 0, s)

/-- `liquidate`, up to its first transfer. -/
def liquidate (p : MarketParams) (borrower : Address) (seizedAssets repaidShares : Nat) :
    Result (Nat × Nat × Storage) := do
  let id := env.id p
  require ((s.market id).lastUpdate ≠ 0) ErrorsLib.MARKET_NOT_CREATED
  require (exactlyOneZero seizedAssets repaidShares) ErrorsLib.INCONSISTENT_INPUT
  let s ← s._accrueInterest env msg p id
  let collateralPrice ← price p.oracle
  let healthy ← s._isHealthyAt p id borrower collateralPrice
  require (¬ healthy) ErrorsLib.HEALTHY_POSITION
  let factor ← liquidationIncentiveFactor p
  let m := s.market id
  let (seizedAssets, repaidShares) ←
    liquidationAmounts m factor collateralPrice seizedAssets repaidShares
  let repaidAssets ← toAssetsUp repaidShares m.totalBorrowAssets m.totalBorrowShares
  let pos := s.position id borrower
  let repaidShares128 ← toUint128 repaidShares
  let borrowShares ← checkedSub pos.borrowShares repaidShares128
  let totalBorrowShares ← checkedSub m.totalBorrowShares repaidShares128
  let totalBorrowAssets ← toUint128 (zeroFloorSub m.totalBorrowAssets repaidAssets)
  let seizedAssets128 ← toUint128 seizedAssets
  let collateral ← checkedSub pos.collateral seizedAssets128
  let s := s.setPosition id borrower { pos with borrowShares, collateral }
  let s := s.setMarket id { m with totalBorrowShares, totalBorrowAssets }
  let (badDebtAssets, badDebtShares, s) ← s.writeOffBadDebt id borrower
  return (seizedAssets, repaidAssets, s.emit (.Liquidate id msg.sender borrower repaidAssets
    repaidShares seizedAssets badDebtAssets badDebtShares))

-- ---------------------------------------------------------------------------
-- Flash loans, authorization, interest
-- ---------------------------------------------------------------------------

/-- `flashLoan`, up to its first transfer. -/
def flashLoan (token : Address) (assets : Nat) : Result Storage := do
  require (assets ≠ 0) ErrorsLib.ZERO_ASSETS
  return s.emit (.FlashLoan msg.sender token assets)

/-- `isAuthorized[authorizer][authorized] = newIsAuthorized`. -/
def authorize (authorizer authorized : Address) (newIsAuthorized : Bool) : Storage :=
  let row := update (s.isAuthorized authorizer) authorized newIsAuthorized
  { s with isAuthorized := update s.isAuthorized authorizer row }

/-- `setAuthorization`. -/
def setAuthorization (authorized : Address) (newIsAuthorized : Bool) : Result Storage := do
  require (newIsAuthorized ≠ s.isAuthorized msg.sender authorized) ErrorsLib.ALREADY_SET
  return (s.authorize msg.sender authorized newIsAuthorized).emit
    (.SetAuthorization msg.sender msg.sender authorized newIsAuthorized)

/-- `setAuthorizationWithSig`. -/
def setAuthorizationWithSig (a : Authorization) (signature : Signature) : Result Storage := do
  require (msg.timestamp ≤ a.deadline) ErrorsLib.SIGNATURE_EXPIRED
  let next ← checkedAdd 256 (s.nonce a.authorizer) 1
  require (a.nonce = s.nonce a.authorizer) ErrorsLib.INVALID_NONCE
  let s := { s with nonce := update s.nonce a.authorizer next }
  let signatory := env.ecrecover (env.digest a) signature
  require (signatory ≠ 0 ∧ a.authorizer = signatory) ErrorsLib.INVALID_SIGNATURE
  let s := s.emit (.IncrementNonce msg.sender a.authorizer a.nonce)
  return (s.authorize a.authorizer a.authorized a.isAuthorized).emit
    (.SetAuthorization msg.sender a.authorizer a.authorized a.isAuthorized)

/-- `accrueInterest`. -/
def accrueInterest (p : MarketParams) : Result Storage := do
  let id := env.id p
  require ((s.market id).lastUpdate ≠ 0) ErrorsLib.MARKET_NOT_CREATED
  s._accrueInterest env msg p id

end Storage

-- ---------------------------------------------------------------------------
-- `IrmMock`
-- ---------------------------------------------------------------------------

/-- `borrowRate` of `IrmMock`: the utilization of the market, over a year. -/
def IrmMock.borrowRate (_ : MarketParams) (m : Market) : Result Nat :=
  if m.totalSupplyAssets = 0 then
    return 0
  else do
    let utilization ← wDivDown m.totalBorrowAssets m.totalSupplyAssets
    return utilization / (365 * 24 * 60 * 60)

end LineraEndToEnd.Morpho
