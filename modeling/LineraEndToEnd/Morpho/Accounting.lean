import LineraEndToEnd.Morpho.Effects

/-!
# The books balance

Whatever the callers do, with callbacks into the contract and out of it, from the
deployment on: in every market the shares of all accounts add up to the totals, no more
is lent than was supplied, and there is no debt without collateral. What all suppliers
together could redeem is at most what the market owes them.

* `effects_balanced` — every function keeps the books balanced.
* `shares_add_up`, `debt_has_collateral`, `claims_are_covered` — over runs.
* `Deployment` — the contracts, accounts and calls of `SimpleNonReentrantTest.sol`, on
  which the results are tried.
-/

namespace LineraEndToEnd.Morpho

open Solidity
open Function (update)
open Lib (total)

-- ---------------------------------------------------------------------------
-- One call
-- ---------------------------------------------------------------------------

/-- Every book is balanced. -/
def Storage.Balanced (s : Storage) : Prop := ∀ id, (s.book id).Balanced

theorem Storage.new_balanced {newOwner : Address} {s : Storage}
    (h : Storage.new newOwner = .ok s) : s.Balanced := by
  simp only [Storage.new, bind_ok_iff, pure_ok_iff] at h
  obtain ⟨-, -, rfl⟩ := h
  exact fun _ => Book.Balanced.empty

theorem Moved.balanced {s s' : Storage} {id : Id} {ms : List Move} (h : Moved s s' id ms)
    (hBalanced : s.Balanced) : s'.Balanced := by
  intro id'
  by_cases hId : id' = id
  · subst hId
    exact (hBalanced id').run h.run
  · rw [h.others id' hId]
    exact hBalanced id'

/-- **Every call keeps the books balanced.** -/
theorem effects_balanced {env : Env} {msg : Msg} {price : Address → Result Nat} {s s' : Storage}
    {call : Call} {is : List Interaction} (h : call.effects env msg price s = .ok (s', is))
    (hBalanced : s.Balanced) : s'.Balanced := by
  cases Call.effect h with
  | market _ _ steps _ =>
    obtain ⟨_, -, hMoved⟩ := steps.all
    exact hMoved.balanced hBalanced
  | create p _ _ fresh =>
    intro id
    by_cases hId : id = env.id p
    · subst hId
      rw [Storage.created_book]
      exact (hBalanced _).after fresh
    · rw [Storage.created_book_of_ne _ _ _ hId]
      exact hBalanced id
  | other apart =>
    intro id
    rw [congrFun apart.book id]
    exact hBalanced id

theorem preserved_balanced (env : Env) :
    Preserved env (fun _ _ => True) fun w => w.morpho.Balanced :=
  .ofStorage fun _ hBalanced h => effects_balanced h hBalanced

-- ---------------------------------------------------------------------------
-- The deployment of `SimpleNonReentrantTest.sol`
-- ---------------------------------------------------------------------------

namespace Deployment

def morpho : Address := .ofNat 1
def owner : Address := .ofNat 2
def supplier : Address := .ofNat 3
def borrower : Address := .ofNat 4
def liquidator : Address := .ofNat 5
def loanToken : Address := .ofNat 11
def collateralToken : Address := .ofNat 12
def oracle : Address := .ofNat 13
def irm : Address := .ofNat 14

/-- One `ether`, `10 ^ 18`. -/
def ether : Nat := 10 ^ 18

/-- `marketParams`. -/
def marketParams : MarketParams where
  loanToken := loanToken
  collateralToken := collateralToken
  oracle := oracle
  irm := irm
  lltv := 8 * 10 ^ 17

/-- The contracts' surroundings. The market's id is its loan token, and the supplier has signed
what bears its first nonce, and nobody has signed anything else. -/
def env : Env where
  self := morpho
  id := fun p => .ofNat p.loanToken.val
  digest := fun a => if a.authorizer = supplier ∧ a.nonce = 0 then .ofNat supplier.val else 0
  ecrecover := fun digest _ => .ofNat digest.val
  borrowRate := fun _ => IrmMock.borrowRate

/-- `id`. -/
def id : Id := env.id marketParams

/-- `set_up_part_a`: the deployed contracts, and the oracle's price, one to one. -/
def setUp : Result World :=
  World.new owner (fun a => decide (a = loanToken ∨ a = collateralToken))
    fun a => if a = oracle then some ⟨ORACLE_PRICE_SCALE⟩ else none

/-- A transaction of one call. -/
def single (timestamp : Nat) (sender : Address) (action : Action) : Transaction :=
  ⟨timestamp, .call sender action .done .done⟩

/-- The rest of `setUp`: the market, and the approvals. -/
def market : List Transaction :=
  [ single 100 owner (.morpho (.enableIrm irm)),
    single 100 owner (.morpho (.enableLltv (8 * 10 ^ 17))),
    single 100 supplier (.morpho (.createMarket marketParams)),
    single 100 supplier (.token loanToken (.approve morpho (maxUint 256))),
    single 100 borrower (.token loanToken (.approve morpho (maxUint 256))),
    single 100 borrower (.token collateralToken (.approve morpho (maxUint 256))) ]

/-- A position at 70% of its collateral, of `test_LiquidateWithCallback`. -/
def position : List Transaction :=
  [ single 200 owner (.token loanToken (.setBalance supplier (10000 * ether))),
    single 200 supplier (.morpho (.supply marketParams (10000 * ether) 0 supplier)),
    single 200 owner (.token collateralToken (.setBalance borrower (1000 * ether))),
    single 200 borrower (.morpho (.supplyCollateral marketParams (1000 * ether) borrower)),
    single 200 borrower (.morpho (.borrow marketParams (700 * ether) 0 borrower borrower)) ]

/-- The liquidation of `test_LiquidateWithCallback`: the price drops by 20%, and the liquidator
approves the repayment in the callback. -/
def liquidation : List Transaction :=
  [ single 300 owner (.setPrice oracle (ORACLE_PRICE_SCALE * 80 / 100)),
    single 300 owner (.token loanToken (.setBalance liquidator (1000 * ether))),
    ⟨300, .call liquidator (.morpho (.liquidate marketParams borrower (100 * ether) 0))
      (.call liquidator (.token loanToken (.approve morpho (1000 * ether))) .done .done) .done⟩ ]

/-- The calls above, one after the other. -/
def all : List Transaction := market ++ position ++ liquidation

/-- The world after the deployment and some calls. -/
def runs (ts : List Transaction) : Option World :=
  setUp.toOption.bind fun w => Lib.run (step env) w ts

/-- What a deployment and its calls lead to, and what can be read off it. -/
theorem exists_of_runs (ts : List Transaction) (p : World → Bool) (h : (runs ts).any p) :
    ∃ w₀ w, setUp = .ok w₀ ∧ Lib.run (step env) w₀ ts = some w ∧ p w := by
  unfold runs at h
  cases hSetUp : setUp with
  | error err =>
    rw [hSetUp] at h
    cases h
  | ok w₀ =>
    rw [hSetUp] at h
    obtain ⟨w, hRun, hp⟩ := (Option.any_eq_true _ _).mp h
    exact ⟨w₀, w, rfl, hRun, hp⟩

/-- The same, of a first part of the calls and of all of them. -/
theorem exists_of_runs_append (ts ts' : List Transaction) (p p' : World → Bool)
    (h : (runs ts).any p) (h' : (runs (ts ++ ts')).any p') :
    ∃ w₀ w w', setUp = .ok w₀ ∧ Lib.run (step env) w₀ ts = some w ∧
      Lib.run (step env) w ts' = some w' ∧ p w ∧ p' w' := by
  obtain ⟨w₀, w', hSetUp, hRun, hp'⟩ := exists_of_runs (ts ++ ts') p' h'
  obtain ⟨w, hFirst, hRest⟩ := Lib.run_append_eq_some.mp hRun
  obtain ⟨w₁, w₂, hSetUp₁, hRun₁, hp⟩ := exists_of_runs ts p h
  obtain rfl := Except.ok.inj (hSetUp.symm.trans hSetUp₁)
  obtain rfl := Option.some.inj (hFirst.symm.trans hRun₁)
  exact ⟨w₀, w, w', hSetUp, hFirst, hRest, hp, hp'⟩

end Deployment

-- ---------------------------------------------------------------------------
-- Runs
-- ---------------------------------------------------------------------------

/-- A condition on the time only holds in all calls. -/
theorem Transaction.all_of {φ : Msg → Action → Prop} (t : Transaction)
    (h : ∀ sender action, φ ⟨sender, t.timestamp⟩ action) : t.All φ := by
  unfold Transaction.All
  induction t.script with
  | done => trivial
  | call sender action _ _ ihCallback ihRest => exact ⟨h sender action, ihCallback, ihRest⟩

theorem Transaction.all_true (t : Transaction) : t.All fun _ _ => True :=
  t.all_of fun _ _ => trivial

theorem World.new_morpho {newOwner : Address} {deployed : Address → Bool}
    {oracles : Address → Option OracleMock} {w : World}
    (h : World.new newOwner deployed oracles = .ok w) : Storage.new newOwner = .ok w.morpho := by
  simp only [World.new, bind_ok_iff, pure_ok_iff] at h
  obtain ⟨_, hNew, rfl⟩ := h
  exact hNew

/-- Every book is balanced after every run. -/
theorem run_balanced {env : Env} {newOwner : Address} {deployed : Address → Bool}
    {oracles : Address → Option OracleMock} {w₀ w : World} {ts : List Transaction}
    (hNew : World.new newOwner deployed oracles = .ok w₀)
    (hRun : Lib.run (step env) w₀ ts = some w) : w.morpho.Balanced :=
  (preserved_balanced env).run (fun t _ => t.all_true)
    (Storage.new_balanced (World.new_morpho hNew)) hRun

/-- The balances of every token add up. -/
def Tokens.Backed (tokens : Tokens) : Prop := ∀ token t, tokens token = some t → t.Backed

theorem Tokens.Backed.update {tokens : Tokens} {token : Address} {t : ERC20Mock}
    (h : tokens.Backed) (ht : t.Backed) : Tokens.Backed (update tokens token (some t)) := by
  intro token' t' hToken
  by_cases hEq : token' = token
  · subst hEq
    rw [Function.update_self] at hToken
    exact Option.some.inj hToken ▸ ht
  · rw [Function.update_of_ne hEq] at hToken
    exact h token' t' hToken

theorem preserved_backed (env : Env) :
    Preserved env (fun _ _ => True) fun w => w.tokens.Backed where
  effects := fun _ hBacked _ => hBacked
  pay := fun hBacked h => by
    obtain ⟨t, t', hToken, hMove, rfl⟩ := safeCall_ok_iff.mp h
    exact hBacked.update ((hBacked _ t hToken).move hMove)
  pull := fun _ hBacked h => by
    obtain ⟨t, t', hToken, hCall, rfl⟩ := safeCall_ok_iff.mp h
    have hPerformed : (TokenCall.transferFrom _ _ _).perform _ t = .ok t' := hCall
    exact hBacked.update (TokenCall.perform_backed (hBacked _ t hToken) hPerformed)
  token := fun _ hBacked hToken h =>
    hBacked.update (TokenCall.perform_backed (hBacked _ _ hToken) h)
  setPrice := fun _ hBacked => hBacked

section Runs

variable {env : Env} {newOwner : Address} {deployed : Address → Bool}
  {oracles : Address → Option OracleMock} {w₀ w : World} {ts : List Transaction}

/-- **The balances of a token add up to its supply**, whatever is called in whatever order, so a
transfer fails for want of a balance and for nothing else. -/
theorem tokens_add_up (hNew : World.new newOwner deployed oracles = .ok w₀)
    (hRun : Lib.run (step env) w₀ ts = some w) {token : Address} {t : ERC20Mock}
    (hToken : w.tokens token = some t) :
    total t.balanceOf = t.totalSupply ∧ t.totalSupply ≤ maxUint 256 ∧
    ∀ holder receiver amount, t.move holder receiver amount =
      if amount ≤ t.balanceOf holder then .ok (t.moved holder receiver amount)
      else .error (.error "insufficient balance") := by
  have hStart : w₀.tokens.Backed := by
    intro token' t' hToken'
    simp only [World.new, bind_ok_iff, pure_ok_iff] at hNew
    obtain ⟨_, -, rfl⟩ := hNew
    change (if deployed token' then some ERC20Mock.new else none) = some t' at hToken'
    split at hToken'
    · obtain rfl := Option.some.inj hToken'
      exact .new
    · cases hToken'
  have hBacked := (preserved_backed env).run (fun t _ => t.all_true) hStart hRun token t hToken
  exact ⟨hBacked.sum, hBacked.fits, hBacked.move_eq⟩

theorem tokens_add_up_liquidation : ∃ w₀ w t, Deployment.setUp = .ok w₀ ∧
    Lib.run (step Deployment.env) w₀ Deployment.all = some w ∧
    w.tokens Deployment.loanToken = some t ∧
    total t.balanceOf = t.totalSupply ∧ t.totalSupply ≤ maxUint 256 ∧
    ∀ holder receiver amount, t.move holder receiver amount =
      if amount ≤ t.balanceOf holder then .ok (t.moved holder receiver amount)
      else .error (.error "insufficient balance") := by
  obtain ⟨w₀, w, hNew, hRun, hToken⟩ := Deployment.exists_of_runs Deployment.all
    (fun w => (w.tokens Deployment.loanToken).isSome) (by decide +kernel)
  obtain ⟨t, hToken⟩ := Option.isSome_iff_exists.mp hToken
  exact ⟨w₀, w, t, hNew, hRun, hToken, tokens_add_up hNew hRun hToken⟩

/-- **The shares add up, and no more is lent than was supplied.** -/
theorem shares_add_up (hNew : World.new newOwner deployed oracles = .ok w₀)
    (hRun : Lib.run (step env) w₀ ts = some w) (id : Id) :
    total (fun a => (w.morpho.position id a).supplyShares) =
      (w.morpho.market id).totalSupplyShares ∧
    total (fun a => (w.morpho.position id a).borrowShares) =
      (w.morpho.market id).totalBorrowShares ∧
    (w.morpho.market id).totalBorrowAssets ≤ (w.morpho.market id).totalSupplyAssets :=
  have h := run_balanced hNew hRun id
  ⟨h.supplyShares, h.borrowShares, h.liquidity⟩

theorem shares_add_up_liquidation : ∃ w₀ w, Deployment.setUp = .ok w₀ ∧
    Lib.run (step Deployment.env) w₀ Deployment.all = some w ∧
    total (fun a => (w.morpho.position Deployment.id a).supplyShares) =
      (w.morpho.market Deployment.id).totalSupplyShares ∧
    total (fun a => (w.morpho.position Deployment.id a).borrowShares) =
      (w.morpho.market Deployment.id).totalBorrowShares ∧
    (w.morpho.market Deployment.id).totalBorrowAssets ≤
      (w.morpho.market Deployment.id).totalSupplyAssets := by
  obtain ⟨w₀, w, hNew, hRun, -⟩ := Deployment.exists_of_runs Deployment.all
    (fun _ => true) (by decide +kernel)
  exact ⟨w₀, w, hNew, hRun, shares_add_up hNew hRun Deployment.id⟩

/-- **There is no debt without collateral.** A liquidation that leaves no collateral leaves no
debt either, and nobody else gets into that position. -/
theorem debt_has_collateral (hNew : World.new newOwner deployed oracles = .ok w₀)
    (hRun : Lib.run (step env) w₀ ts = some w) (id : Id) (a : Address)
    (hDebt : 0 < (w.morpho.position id a).borrowShares) :
    0 < (w.morpho.position id a).collateral := by
  by_contra hNone
  have hZero := (run_balanced hNew hRun id).collateralized a (Nat.eq_zero_of_not_pos hNone)
  exact Nat.ne_of_gt hDebt hZero

theorem debt_has_collateral_liquidation : ∃ w₀ w, Deployment.setUp = .ok w₀ ∧
    Lib.run (step Deployment.env) w₀ Deployment.all = some w ∧
    0 < (w.morpho.position Deployment.id Deployment.borrower).borrowShares ∧
    0 < (w.morpho.position Deployment.id Deployment.borrower).collateral := by
  obtain ⟨w₀, w, hNew, hRun, hDebt⟩ := Deployment.exists_of_runs Deployment.all
    (fun w => decide (0 < (w.morpho.position Deployment.id Deployment.borrower).borrowShares))
    (by decide +kernel)
  have hDebt := of_decide_eq_true hDebt
  exact ⟨w₀, w, hNew, hRun, hDebt, debt_has_collateral hNew hRun Deployment.id _ hDebt⟩

/-- **All suppliers together can redeem no more than the market owes.** -/
theorem claims_are_covered (hNew : World.new newOwner deployed oracles = .ok w₀)
    (hRun : Lib.run (step env) w₀ ts = some w) (id : Id) :
    total (fun a => (w.morpho.book id).supplySide.worthDown
      (w.morpho.position id a).supplyShares) ≤ (w.morpho.market id).totalSupplyAssets := by
  have h := run_balanced hNew hRun id
  have hHeld : total (fun a => (w.morpho.position id a).supplyShares) <
      (w.morpho.book id).supplySide.shares := by
    rw [show total (fun a => (w.morpho.position id a).supplyShares) = _ from h.supplyShares]
    exact Nat.lt_add_of_pos_right VIRTUAL_SHARES_pos
  exact Nat.le_of_lt_succ ((w.morpho.book id).supplySide.total_worthDown_lt _ hHeld)

theorem claims_are_covered_liquidation : ∃ w₀ w, Deployment.setUp = .ok w₀ ∧
    Lib.run (step Deployment.env) w₀ Deployment.all = some w ∧
    total (fun a => (w.morpho.book Deployment.id).supplySide.worthDown
      (w.morpho.position Deployment.id a).supplyShares) ≤
        (w.morpho.market Deployment.id).totalSupplyAssets := by
  obtain ⟨w₀, w, hNew, hRun, -⟩ := Deployment.exists_of_runs Deployment.all
    (fun _ => true) (by decide +kernel)
  exact ⟨w₀, w, hNew, hRun, claims_are_covered hNew hRun Deployment.id⟩

end Runs

end LineraEndToEnd.Morpho
