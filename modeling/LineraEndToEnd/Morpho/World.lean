import LineraEndToEnd.Lib.Run
import LineraEndToEnd.Morpho.Token

/-!
# The contracts together

The lending contract, the tokens and the oracles, and the transactions that call them.
A function of the lending contract that is given data calls its caller back before the
last transfer, and the caller may use that to call anything, the lending contract
included: a transaction is a tree of calls.

* `Call.effects` — a function of the lending contract: what it writes, and what it does
  afterwards (`Interaction`), in the order of the source.
* `Script` — what a caller does: calls, each with what the caller does when that call
  calls it back.
* `Script.exec` / `step` — a script run through; a transaction. One that reverts changes
  nothing, so runs (`Lib.run`) are of those that go through.
* `Preserved` — an invariant of the world is kept by every effect, transfer and call;
  `Preserved.exec` and `Preserved.run` carry it over scripts and runs, and
  `Preserved.ofStorage` is for what concerns the lending contract alone.
-/

namespace LineraEndToEnd.Morpho

open Solidity
open Function (update)

-- ---------------------------------------------------------------------------
-- The functions of the lending contract
-- ---------------------------------------------------------------------------

/-- The calls of `Morpho`, less the data of a callback. -/
inductive Call
  | setOwner (newOwner : Address)
  | enableIrm (irm : Address)
  | enableLltv (lltv : Nat)
  | setFee (p : MarketParams) (newFee : Nat)
  | setFeeRecipient (newFeeRecipient : Address)
  | createMarket (p : MarketParams)
  | supply (p : MarketParams) (assets shares : Nat) (onBehalf : Address)
  | withdraw (p : MarketParams) (assets shares : Nat) (onBehalf receiver : Address)
  | borrow (p : MarketParams) (assets shares : Nat) (onBehalf receiver : Address)
  | repay (p : MarketParams) (assets shares : Nat) (onBehalf : Address)
  | supplyCollateral (p : MarketParams) (assets : Nat) (onBehalf : Address)
  | withdrawCollateral (p : MarketParams) (assets : Nat) (onBehalf receiver : Address)
  | liquidate (p : MarketParams) (borrower : Address) (seizedAssets repaidShares : Nat)
  | flashLoan (token : Address) (assets : Nat)
  | setAuthorization (authorized : Address) (newIsAuthorized : Bool)
  | setAuthorizationWithSig (a : Authorization) (signature : Signature)
  | accrueInterest (p : MarketParams)
deriving DecidableEq

/-- The market that a call names. -/
def Call.marketParams : Call → Option MarketParams
  | .setFee p _ => some p
  | .createMarket p => some p
  | .supply p _ _ _ => some p
  | .withdraw p _ _ _ _ => some p
  | .borrow p _ _ _ _ => some p
  | .repay p _ _ _ => some p
  | .supplyCollateral p _ _ => some p
  | .withdrawCollateral p _ _ _ => some p
  | .liquidate p _ _ _ => some p
  | .accrueInterest p => some p
  | _ => none

/-- What a function does after its writes. -/
inductive Interaction
  /-- `safeTransfer(receiver, value)`. -/
  | pay (token receiver : Address) (value : Nat)
  /-- The callback of `msg.sender`. -/
  | callback
  /-- `safeTransferFrom(msg.sender, address(this), value)`. -/
  | pull (token : Address) (value : Nat)
deriving DecidableEq

/-- A function of the lending contract: its storage afterwards, and its interactions. -/
def Call.effects (env : Env) (msg : Msg) (price : Address → Result Nat) (s : Storage) :
    Call → Result (Storage × List Interaction)
  | .setOwner newOwner => do return (← s.setOwner msg newOwner, [])
  | .enableIrm irm => do return (← s.enableIrm msg irm, [])
  | .enableLltv lltv => do return (← s.enableLltv msg lltv, [])
  | .setFee p newFee => do return (← s.setFee env msg p newFee, [])
  | .setFeeRecipient newFeeRecipient => do return (← s.setFeeRecipient msg newFeeRecipient, [])
  | .createMarket p => do return (← s.createMarket env msg p, [])
  | .supply p assets shares onBehalf => do
    let (assets, _, s) ← s.supply env msg p assets shares onBehalf
    return (s, [.callback, .pull p.loanToken assets])
  | .withdraw p assets shares onBehalf receiver => do
    let (assets, _, s) ← s.withdraw env msg p assets shares onBehalf receiver
    return (s, [.pay p.loanToken receiver assets])
  | .borrow p assets shares onBehalf receiver => do
    let (assets, _, s) ← s.borrow env msg price p assets shares onBehalf receiver
    return (s, [.pay p.loanToken receiver assets])
  | .repay p assets shares onBehalf => do
    let (assets, _, s) ← s.repay env msg p assets shares onBehalf
    return (s, [.callback, .pull p.loanToken assets])
  | .supplyCollateral p assets onBehalf => do
    let s ← s.supplyCollateral env msg p assets onBehalf
    return (s, [.callback, .pull p.collateralToken assets])
  | .withdrawCollateral p assets onBehalf receiver => do
    let s ← s.withdrawCollateral env msg price p assets onBehalf receiver
    return (s, [.pay p.collateralToken receiver assets])
  | .liquidate p borrower seizedAssets repaidShares => do
    let (seizedAssets, repaidAssets, s) ←
      s.liquidate env msg price p borrower seizedAssets repaidShares
    return (s, [.pay p.collateralToken msg.sender seizedAssets, .callback,
      .pull p.loanToken repaidAssets])
  | .flashLoan token assets => do
    let s ← s.flashLoan msg token assets
    return (s, [.pay token msg.sender assets, .callback, .pull token assets])
  | .setAuthorization authorized newIsAuthorized => do
    return (← s.setAuthorization msg authorized newIsAuthorized, [])
  | .setAuthorizationWithSig a signature => do
    return (← s.setAuthorizationWithSig env msg a signature, [])
  | .accrueInterest p => do return (← s.accrueInterest env msg p, [])

-- ---------------------------------------------------------------------------
-- The world
-- ---------------------------------------------------------------------------

/-- `OracleMock`. -/
structure OracleMock where
  price : Nat

/-- The contracts. -/
structure World where
  morpho : Storage
  tokens : Tokens
  oracles : Address → Option OracleMock

/-- `IOracle(oracle).price()`: a call of an address without code reverts. -/
def World.price (w : World) (oracle : Address) : Result Nat :=
  match w.oracles oracle with
  | some o => .ok o.price
  | none => .error .empty

theorem World.price_update (w : World) (oracle : Address) (newPrice : Nat) :
    World.price { w with oracles := update w.oracles oracle (some ⟨newPrice⟩) } oracle =
      .ok newPrice := by
  simp [World.price]

theorem World.price_update_of_ne (w : World) {oracle oracle' : Address} (o : Option OracleMock)
    (h : oracle' ≠ oracle) :
    World.price { w with oracles := update w.oracles oracle o } oracle' = w.price oracle' := by
  simp [World.price, h]

/-- The world before the first transaction: the lending contract and the tokens are just
deployed. -/
def World.new (newOwner : Address) (deployed : Address → Bool)
    (oracles : Address → Option OracleMock) : Result World := do
  let morpho ← Storage.new newOwner
  return { morpho, tokens := fun a => if deployed a then some ERC20Mock.new else none, oracles }

/-- A call of one of the contracts. -/
inductive Action
  | morpho (call : Call)
  | token (address : Address) (call : TokenCall)
  | setPrice (oracle : Address) (newPrice : Nat)
deriving DecidableEq

/-- What a caller does: nothing more, or one call, in which it is perhaps called back, and
the rest. -/
inductive Script
  | done
  | call (sender : Address) (action : Action) (onCallback rest : Script)
deriving DecidableEq

/-- A transaction, at the timestamp of its block. -/
structure Transaction where
  timestamp : Nat
  script : Script

/-- One interaction of the lending contract, which `sender` has called. -/
def Interaction.perform (env : Env) (sender : Address) (callback : World → Result World)
    (w : World) : Interaction → Result World
  | .pay token receiver value => do
    let tokens ← safeTransfer w.tokens token env.self receiver value
    return { w with tokens }
  | .callback => callback w
  | .pull token value => do
    let tokens ← safeTransferFrom w.tokens token env.self sender env.self value
    return { w with tokens }

/-- One call. -/
def Action.perform (env : Env) (msg : Msg) (callback : World → Result World) (w : World) :
    Action → Result World
  | .morpho call => do
    let (s, interactions) ← call.effects env msg w.price w.morpho
    interactions.foldlM (Interaction.perform env msg.sender callback) { w with morpho := s }
  | .token address call =>
    match w.tokens address with
    | none => .error .empty
    | some t => do
      let t ← call.perform msg.sender t
      return { w with tokens := update w.tokens address (some t) }
  | .setPrice oracle newPrice =>
    match w.oracles oracle with
    | none => .error .empty
    | some _ => return { w with oracles := update w.oracles oracle (some ⟨newPrice⟩) }

/-- All calls of a script, in one block. -/
def Script.exec (env : Env) (timestamp : Nat) : Script → World → Result World
  | .done, w => return w
  | .call sender action onCallback rest, w => do
    let w ← action.perform env ⟨sender, timestamp⟩ (onCallback.exec env timestamp) w
    rest.exec env timestamp w

/-- A transaction that goes through. -/
def step (env : Env) (w : World) (t : Transaction) : Option World :=
  (t.script.exec env t.timestamp w).toOption

/-- Every call of a script meets a condition. -/
def Script.All (φ : Msg → Action → Prop) (timestamp : Nat) : Script → Prop
  | .done => True
  | .call sender action onCallback rest =>
    φ ⟨sender, timestamp⟩ action ∧ onCallback.All φ timestamp ∧ rest.All φ timestamp

/-- Every call of a transaction meets a condition. -/
def Transaction.All (φ : Msg → Action → Prop) (t : Transaction) : Prop :=
  t.script.All φ t.timestamp

instance decidableAll {φ : Msg → Action → Prop} [∀ msg action, Decidable (φ msg action)]
    (timestamp : Nat) : ∀ script : Script, Decidable (script.All φ timestamp)
  | .done => isTrue trivial
  | .call sender action onCallback rest =>
    have := decidableAll (φ := φ) timestamp onCallback
    have := decidableAll (φ := φ) timestamp rest
    inferInstanceAs (Decidable (φ ⟨sender, timestamp⟩ action ∧ onCallback.All φ timestamp ∧
      rest.All φ timestamp))

instance {φ : Msg → Action → Prop} [∀ msg action, Decidable (φ msg action)] (t : Transaction) :
    Decidable (t.All φ) := decidableAll t.timestamp t.script

-- ---------------------------------------------------------------------------
-- What goes through
-- ---------------------------------------------------------------------------

theorem perform_morpho_ok_iff {env : Env} {msg : Msg} {callback : World → Result World}
    {w w' : World} {call : Call} :
    (Action.morpho call).perform env msg callback w = .ok w' ↔
      ∃ s is, call.effects env msg w.price w.morpho = .ok (s, is) ∧
        is.foldlM (Interaction.perform env msg.sender callback) { w with morpho := s } =
          .ok w' := by
  simp only [Action.perform, bind_ok_iff, Prod.exists]

theorem perform_token_ok_iff {env : Env} {msg : Msg} {callback : World → Result World}
    {w w' : World} {address : Address} {call : TokenCall} :
    (Action.token address call).perform env msg callback w = .ok w' ↔
      ∃ t t', w.tokens address = some t ∧ call.perform msg.sender t = .ok t' ∧
        { w with tokens := update w.tokens address (some t') } = w' := by
  simp only [Action.perform]
  cases w.tokens address with
  | none => simp
  | some t => simp only [bind_ok_iff, pure_ok_iff, Option.some.injEq, exists_eq_left',
      exists_and_left]

theorem perform_setPrice_ok_iff {env : Env} {msg : Msg} {callback : World → Result World}
    {w w' : World} {oracle : Address} {newPrice : Nat} :
    (Action.setPrice oracle newPrice).perform env msg callback w = .ok w' ↔
      (w.oracles oracle).isSome ∧
        { w with oracles := update w.oracles oracle (some ⟨newPrice⟩) } = w' := by
  simp only [Action.perform]
  cases w.oracles oracle with
  | none => simp
  | some o => simp [pure_ok_iff]

theorem exec_call_ok_iff {env : Env} {timestamp : Nat} {sender : Address} {action : Action}
    {onCallback rest : Script} {w w' : World} :
    (Script.call sender action onCallback rest).exec env timestamp w = .ok w' ↔
      ∃ w₁, action.perform env ⟨sender, timestamp⟩ (onCallback.exec env timestamp) w = .ok w₁ ∧
        rest.exec env timestamp w₁ = .ok w' := by
  simp only [Script.exec, bind_ok_iff]

theorem step_eq_some_iff {env : Env} {w w' : World} {t : Transaction} :
    step env w t = some w' ↔ t.script.exec env t.timestamp w = .ok w' := by
  unfold step
  cases t.script.exec env t.timestamp w <;> simp [Except.toOption]

-- ---------------------------------------------------------------------------
-- Invariants
-- ---------------------------------------------------------------------------

/-- What every transaction keeps, a run of them keeps. -/
theorem run_keeps {env : Env} {I : World → Prop} {Q : Transaction → Prop}
    (hStep : ∀ w (t : Transaction) w', I w → Q t → t.script.exec env t.timestamp w = .ok w' → I w')
    {w w' : World} {ts : List Transaction} (hAll : ∀ t ∈ ts, Q t) (hI : I w)
    (hRun : Lib.run (step env) w ts = some w') : I w' := by
  induction ts generalizing w with
  | nil => exact Option.some.inj hRun ▸ hI
  | cons t ts ih =>
    obtain ⟨w₁, hFirst, hRest⟩ := Lib.run_cons_eq_some.mp hRun
    have hI₁ := hStep w t w₁ hI (hAll t List.mem_cons_self) (step_eq_some_iff.mp hFirst)
    exact ih (fun t' ht' => hAll t' (List.mem_cons_of_mem t ht')) hI₁ hRest

/-- `I` is kept by all that happens in calls that meet `φ`. -/
structure Preserved (env : Env) (φ : Msg → Action → Prop) (I : World → Prop) : Prop where
  effects : ∀ {w msg call s is}, φ msg (.morpho call) → I w →
    call.effects env msg w.price w.morpho = .ok (s, is) → I { w with morpho := s }
  pay : ∀ {w tokens token receiver value}, I w →
    safeTransfer w.tokens token env.self receiver value = .ok tokens → I { w with tokens }
  pull : ∀ {w msg call tokens token value}, φ msg (.morpho call) → I w →
    safeTransferFrom w.tokens token env.self msg.sender env.self value = .ok tokens →
      I { w with tokens }
  token : ∀ {w msg token call t t'}, φ msg (.token token call) → I w →
    w.tokens token = some t → call.perform msg.sender t = .ok t' →
      I { w with tokens := update w.tokens token (some t') }
  setPrice : ∀ {w msg oracle newPrice}, φ msg (.setPrice oracle newPrice) → I w →
    I { w with oracles := update w.oracles oracle (some ⟨newPrice⟩) }

namespace Preserved

variable {env : Env} {φ : Msg → Action → Prop} {I : World → Prop}

theorem interaction (h : Preserved env φ I) {msg : Msg} {call : Call} (hφ : φ msg (.morpho call))
    {callback : World → Result World} (hCallback : ∀ w w', I w → callback w = .ok w' → I w')
    {w w' : World} (hI : I w) :
    ∀ {i : Interaction}, i.perform env msg.sender callback w = .ok w' → I w'
  | .pay token receiver value, hOk => by
    obtain ⟨tokens, hPay, hEq⟩ := bind_ok_iff.mp hOk
    exact pure_ok_iff.mp hEq ▸ h.pay hI hPay
  | .callback, hOk => hCallback w w' hI hOk
  | .pull token value, hOk => by
    obtain ⟨tokens, hPull, hEq⟩ := bind_ok_iff.mp hOk
    exact pure_ok_iff.mp hEq ▸ h.pull hφ hI hPull

theorem interactions (h : Preserved env φ I) {msg : Msg} {call : Call} (hφ : φ msg (.morpho call))
    {callback : World → Result World} (hCallback : ∀ w w', I w → callback w = .ok w' → I w') :
    ∀ {is : List Interaction} {w w' : World}, I w →
      is.foldlM (Interaction.perform env msg.sender callback) w = .ok w' → I w'
  | [], w, w', hI, hOk => pure_ok_iff.mp hOk ▸ hI
  | i :: is, w, w', hI, hOk => by
    rw [List.foldlM_cons] at hOk
    obtain ⟨w₁, hFirst, hRest⟩ := bind_ok_iff.mp hOk
    exact h.interactions hφ hCallback (h.interaction hφ hCallback hI hFirst) hRest

theorem action (h : Preserved env φ I) {msg : Msg} {callback : World → Result World}
    (hCallback : ∀ w w', I w → callback w = .ok w' → I w') {w w' : World} (hI : I w) :
    ∀ {action : Action}, φ msg action → action.perform env msg callback w = .ok w' → I w'
  | .morpho call, hφ, hOk => by
    obtain ⟨s, is, hEffects, hInteractions⟩ := perform_morpho_ok_iff.mp hOk
    exact h.interactions hφ hCallback (h.effects hφ hI hEffects) hInteractions
  | .token address call, hφ, hOk => by
    obtain ⟨t, t', hToken, hCall, rfl⟩ := perform_token_ok_iff.mp hOk
    exact h.token hφ hI hToken hCall
  | .setPrice oracle newPrice, hφ, hOk => by
    obtain ⟨-, rfl⟩ := perform_setPrice_ok_iff.mp hOk
    exact h.setPrice hφ hI

/-- **A script keeps what every part of every call keeps**, callbacks included. -/
theorem exec (h : Preserved env φ I) {timestamp : Nat} {script : Script} :
    ∀ {w w' : World}, script.All φ timestamp → I w → script.exec env timestamp w = .ok w' →
      I w' := by
  induction script with
  | done =>
    intro w w' _ hI hOk
    exact pure_ok_iff.mp hOk ▸ hI
  | call sender action onCallback rest ihCallback ihRest =>
    intro w w' ⟨hφ, hCallback, hRest⟩ hI hOk
    obtain ⟨w₁, hAction, hOthers⟩ := exec_call_ok_iff.mp hOk
    exact ihRest hRest (h.action (fun _ _ => ihCallback hCallback) hI hφ hAction) hOthers

/-- **A run keeps what every part of every call keeps.** -/
theorem run (h : Preserved env φ I) {w w' : World} {ts : List Transaction}
    (hAll : ∀ t ∈ ts, t.All φ) (hI : I w) (hRun : Lib.run (step env) w ts = some w') : I w' :=
  run_keeps (fun _ _ _ hI hAll hExec => h.exec hAll hI hExec) hAll hI hRun

/-- An invariant of the lending contract's storage is kept when its functions keep it. -/
theorem ofStorage {I : Storage → Prop} (h : ∀ {msg call price s s' is}, φ msg (.morpho call) →
    I s → call.effects env msg price s = .ok (s', is) → I s') :
    Preserved env φ fun w => I w.morpho where
  effects := fun hφ hI hEffects => h hφ hI hEffects
  pay := fun hI _ => hI
  pull := fun _ hI _ => hI
  token := fun _ hI _ _ => hI
  setPrice := fun _ hI => hI

end Preserved

end LineraEndToEnd.Morpho
