import Mathlib.Data.Set.Function
import LineraEndToEnd.Morpho.Accounting

/-!
# The contract can pay

What the lending contract holds of every token covers what all markets owe in it: what
was supplied and is not lent, and the collateral. This holds after every transaction,
whatever is called from within the callbacks. While a callback runs, a repayment or a
deposit has been booked and not yet been paid, so the contract may be short: what is
preserved there is the balance less what is still to be paid out, plus what is still to
be pulled in.

* `Storage.owes` — what the markets owe in a token.
* `Covers` — the contract's balances cover that, given some amounts still to be paid and
  still to be pulled.
* `exec_covers` — a script, with all it does in callbacks, leaves these amounts open as
  they were.
* `solvent` — after a run, nothing is open.
-/

namespace LineraEndToEnd.Morpho

open Solidity
open Function (update)
open Lib (total)

-- ---------------------------------------------------------------------------
-- What a book owes
-- ---------------------------------------------------------------------------

namespace Move

/-- The loan tokens that come in with a move. -/
def loanIn : Move → Nat
  | .supply _ assets _ => assets
  | .repay _ assets _ => assets
  | .liquidate _ l => l.repaidAssets
  | _ => 0

/-- The loan tokens that go out with a move. -/
def loanOut : Move → Nat
  | .withdraw _ assets _ => assets
  | .borrow _ assets _ => assets
  | _ => 0

/-- The collateral that comes in with a move. -/
def collateralIn : Move → Nat
  | .supplyCollateral _ assets => assets
  | _ => 0

/-- The collateral that goes out with a move. -/
def collateralOut : Move → Nat
  | .withdrawCollateral _ assets => assets
  | .liquidate _ l => l.seizedAssets
  | _ => 0

end Move

namespace Book

/-- What was supplied and is not lent. -/
def idle (b : Book) : Nat := b.market.totalSupplyAssets - b.market.totalBorrowAssets

/-- The collateral of all accounts. -/
def pledged (b : Book) : Nat := total fun a => (b.position a).collateral

variable {b b' : Book} {m : Move}

/-- What is idle grows by no more than comes in. -/
theorem idle_after (h : b.Balanced) (hGuard : b.Guard m) :
    (b.after m).idle + m.loanOut ≤ b.idle + m.loanIn := by
  have hLent := h.liquidity
  cases m <;> simp only [idle, after, Move.loanOut, Move.loanIn, Guard, setPosition_market] at *
  case liquidate l =>
    obtain ⟨-, -, -, hBad⟩ := hGuard
    split at hBad <;> omega
  all_goals omega

/-- The collateral moves by what comes in and what goes out. -/
theorem pledged_after (hGuard : b.Guard m) :
    (b.after m).pledged + m.collateralOut = b.pledged + m.collateralIn := by
  cases m <;> simp only [pledged, after, Move.collateralOut, Move.collateralIn, Guard] at *
  case accrue | supply | withdraw | borrow | repay =>
    rw [total_same (f := Position.collateral) (by rfl)]
  case supplyCollateral =>
    rw [total_gain (f := Position.collateral) (by rfl), Nat.add_zero]
  case withdrawCollateral a assets =>
    have hOne := hGuard.1.trans (Lib.le_total (fun a => (b.position a).collateral) a)
    rw [total_loss (f := Position.collateral) (by rfl) hGuard.1]
    omega
  case liquidate a l =>
    have hOne := hGuard.2.2.1.trans (Lib.le_total (fun a => (b.position a).collateral) a)
    rw [total_loss (f := Position.collateral) (by rfl) hGuard.2.2.1]
    omega

/-- Over several moves. -/
theorem owed_run {ms : List Move} (h : b.Balanced) (hRun : Lib.run step b ms = some b') :
    b'.idle + (ms.map Move.loanOut).sum ≤ b.idle + (ms.map Move.loanIn).sum ∧
    b'.pledged + (ms.map Move.collateralOut).sum = b.pledged + (ms.map Move.collateralIn).sum := by
  induction ms generalizing b with
  | nil =>
    obtain rfl := Option.some.inj hRun
    exact ⟨le_rfl, rfl⟩
  | cons m ms ih =>
    obtain ⟨b₁, hFirst, hRest⟩ := Lib.run_cons_eq_some.mp hRun
    obtain ⟨hGuard, rfl⟩ := step_eq_some_iff.mp hFirst
    have hIdle := idle_after h hGuard
    have hPledged := pledged_after hGuard
    have hLater := ih (h.after hGuard) hRest
    simp only [List.map_cons, List.sum_cons]
    omega

end Book

-- ---------------------------------------------------------------------------
-- What the markets owe
-- ---------------------------------------------------------------------------

/-- The part of a market in a token, of its loan token and of its collateral. -/
def MarketParams.inToken (p : MarketParams) (token : Address) (loan collateral : Nat) : Nat :=
  (if p.loanToken = token then loan else 0) + (if p.collateralToken = token then collateral else 0)

namespace Storage

/-- What one market owes in a token. -/
def marketOwes (s : Storage) (token : Address) (id : Id) : Nat :=
  (s.idToMarketParams id).inToken token (s.book id).idle (s.book id).pledged

/-- What all markets owe in a token. -/
def owes (s : Storage) (token : Address) : Nat := total (s.marketOwes token)

end Storage

/-- What an interaction pays out in a token. -/
def Interaction.paid (token : Address) : Interaction → Nat
  | .pay token' _ value => if token' = token then value else 0
  | _ => 0

/-- What an interaction pulls in. -/
def Interaction.pulled (token : Address) : Interaction → Nat
  | .pull token' value => if token' = token then value else 0
  | _ => 0

/-- A call's own moves pay out and pull in what its interactions do. -/
theorem Own.interactions {env : Env} {msg : Msg} {price : Address → Result Nat} {s₁ s' : Storage}
    {call : Call} {p : MarketParams} {ms : List Move} {is : List Interaction}
    (h : Own env msg price s₁ s' call p ms is) (token : Address) :
    (is.map (Interaction.paid token)).sum =
      p.inToken token (ms.map Move.loanOut).sum (ms.map Move.collateralOut).sum ∧
    (is.map (Interaction.pulled token)).sum =
      p.inToken token (ms.map Move.loanIn).sum (ms.map Move.collateralIn).sum := by
  cases h <;> simp [MarketParams.inToken, Interaction.paid, Interaction.pulled, Move.loanIn,
    Move.loanOut, Move.collateralIn, Move.collateralOut]

/-- An accrual moves no tokens. -/
theorem Storage.Accrues.flows {msg : Msg} {s : Storage} {id : Id} {acc : List Move}
    (h : s.Accrues msg id acc) :
    (acc.map Move.loanIn).sum = 0 ∧ (acc.map Move.loanOut).sum = 0 ∧
    (acc.map Move.collateralIn).sum = 0 ∧ (acc.map Move.collateralOut).sum = 0 := by
  obtain rfl | ⟨-, c, rfl, -⟩ := h
  · simp
  · simp [Move.loanIn, Move.loanOut, Move.collateralIn, Move.collateralOut]

-- ---------------------------------------------------------------------------
-- One call
-- ---------------------------------------------------------------------------

/-- A market was never used, or it is the one its id stands for. -/
def Storage.Known (env : Env) (P : Set MarketParams) (s : Storage) : Prop :=
  ∀ id, s.book id = ⟨Market.empty, fun _ => Position.empty⟩ ∨
    ∃ p ∈ P, env.id p = id ∧ s.idToMarketParams id = p

section Effects

variable {env : Env} {P : Set MarketParams} {msg : Msg} {price : Address → Result Nat}
  {s s' : Storage} {call : Call} {is : List Interaction}

/-- The market of a call that is not new is the one its id stands for. -/
theorem Storage.Known.params (hKnown : s.Known env P) (hInj : Set.InjOn env.id P)
    {p : MarketParams} (hP : p ∈ P) (hCreated : (s.market (env.id p)).lastUpdate ≠ 0) :
    s.idToMarketParams (env.id p) = p := by
  obtain hEmpty | ⟨q, hQ, hId, hParams⟩ := hKnown (env.id p)
  · exact absurd (congrArg (fun b => b.market.lastUpdate) hEmpty) hCreated
  · rw [hParams]
    exact hInj hQ hP hId

theorem effects_known (h : call.effects env msg price s = .ok (s', is))
    (hKnown : s.Known env P) (hInj : Set.InjOn env.id P)
    (hP : ∀ p ∈ call.marketParams, p ∈ P) : s'.Known env P := by
  intro id
  cases Call.effect h with
  | market p created steps own =>
    obtain ⟨_, -, hMoved⟩ := steps.all
    by_cases hId : id = env.id p
    · subst hId
      have hOwn := hP p own.marketParams
      exact .inr ⟨p, hOwn, rfl, (congrFun hMoved.params _).trans (hKnown.params hInj hOwn created)⟩
    · rw [hMoved.others id hId, hMoved.params]
      exact hKnown id
  | create p _ _ _ =>
    by_cases hId : id = env.id p
    · subst hId
      exact .inr ⟨p, hP p rfl, rfl, Storage.created_params ..⟩
    · rw [Storage.created_book_of_ne _ _ _ hId, Storage.created_params_of_ne _ _ _ hId]
      exact hKnown id
  | other apart =>
    rw [apart.book, apart.params]
    exact hKnown id

/-- **What a call makes the markets owe is what it pulls in, less what it pays out.** -/
theorem effects_owes (h : call.effects env msg price s = .ok (s', is)) (hBalanced : s.Balanced)
    (hKnown : s.Known env P) (hInj : Set.InjOn env.id P)
    (hP : ∀ p ∈ call.marketParams, p ∈ P) (token : Address) :
    s'.owes token + (is.map (Interaction.paid token)).sum ≤
      s.owes token + (is.map (Interaction.pulled token)).sum := by
  cases Call.effect h with
  | market p created steps own =>
    obtain ⟨_, accrues, moved⟩ := steps.all
    have hOthers := Lib.total_of_eq_off (f := s'.marketOwes token) (g := s.marketOwes token)
      (env.id p) fun id hne => by
        unfold Storage.marketOwes
        rw [moved.others id hne, moved.params]
    have hParams := hKnown.params hInj (hP p own.marketParams) created
    obtain ⟨hIdle, hPledged⟩ := Book.owed_run (hBalanced _) moved.run
    obtain ⟨hLoanIn, hLoanOut, hIn, hOut⟩ := accrues.flows
    obtain ⟨hPaid, hPulled⟩ := own.interactions token
    simp only [List.map_append, List.sum_append] at hIdle hPledged
    have hOne : s'.marketOwes token (env.id p) + (is.map (Interaction.paid token)).sum ≤
        s.marketOwes token (env.id p) + (is.map (Interaction.pulled token)).sum := by
      unfold Storage.marketOwes
      rw [hPaid, hPulled, moved.params, hParams]
      unfold MarketParams.inToken
      split_ifs <;> omega
    unfold Storage.owes
    omega
  | create p _ _ _ =>
    -- the market owes nothing yet, or it was already the one its id stands for
    have hSame : (s.created (env.id p) p (msg.timestamp % 2 ^ 128)).marketOwes token =
        s.marketOwes token := by
      funext id
      unfold Storage.marketOwes
      by_cases hId : id = env.id p
      · subst hId
        rw [Storage.created_params, Storage.created_book]
        obtain hEmpty | ⟨q, hQ, hEq, hParams⟩ := hKnown (env.id p)
        · have hIdle : (s.book (env.id p)).idle = 0 := by
            rw [hEmpty]
            rfl
          have hPledged : (s.book (env.id p)).pledged = 0 := by
            rw [hEmpty]
            exact Lib.total_zero
          show p.inToken token (s.book (env.id p)).idle (s.book (env.id p)).pledged = _
          rw [hIdle, hPledged]
          simp [MarketParams.inToken]
        · rw [hParams, hInj hQ (hP p rfl) hEq]
          rfl
      · rw [Storage.created_book_of_ne _ _ _ hId, Storage.created_params_of_ne _ _ _ hId]
    unfold Storage.owes
    rw [hSame]
    exact le_rfl
  | other apart =>
    have hSame : s'.owes token = s.owes token := by
      unfold Storage.owes Storage.marketOwes
      rw [apart.book, apart.params]
    rw [hSame]
    obtain rfl | ⟨token', assets, rfl⟩ := apart.interactions
    · exact le_rfl
    · simp [Interaction.paid, Interaction.pulled]

end Effects

-- ---------------------------------------------------------------------------
-- The contract's balances
-- ---------------------------------------------------------------------------

/-- The balance of an account in a token. -/
def Tokens.balance (tokens : Tokens) (token a : Address) : Nat :=
  match tokens token with
  | some t => t.balanceOf a
  | none => 0

/-- Nobody may spend the tokens of an account. -/
def Tokens.Unspendable (tokens : Tokens) (a : Address) : Prop :=
  ∀ token t, tokens token = some t → ∀ spender, t.allowance a spender = 0

namespace Tokens

variable {tokens : Tokens} {token a : Address} {t t' : ERC20Mock}

theorem balance_update (token' : Address) :
    Tokens.balance (update tokens token (some t')) token' a =
      if token' = token then t'.balanceOf a else tokens.balance token' a := by
  unfold balance
  by_cases h : token' = token
  · subst h
    simp
  · simp [h]

theorem balance_eq (h : tokens token = some t) : tokens.balance token a = t.balanceOf a := by
  unfold balance
  rw [h]

/-- A payment costs the account no more than its value, and no other token. -/
theorem pay_balance {tokens' : Tokens} {receiver : Address} {value : Nat}
    (h : safeTransfer tokens token a receiver value = .ok tokens') (token' : Address) :
    tokens.balance token' a ≤
      tokens'.balance token' a + (if token = token' then value else 0) := by
  obtain ⟨t, t', hToken, hMove, rfl⟩ := safeCall_ok_iff.mp h
  have hMoved := ERC20Mock.move_balanceOf hMove a
  rw [balance_update]
  by_cases hEq : token' = token
  · subst hEq
    rw [balance_eq hToken, if_pos rfl, if_pos rfl]
    rw [if_pos rfl] at hMoved
    omega
  · rw [if_neg hEq]
    exact Nat.le_add_right _ _

/-- What is pulled from another account arrives. -/
theorem pull_balance {tokens' : Tokens} {holder : Address} {value : Nat} (hOther : holder ≠ a)
    (h : safeTransferFrom tokens token a holder a value = .ok tokens') (token' : Address) :
    tokens'.balance token' a =
      tokens.balance token' a + (if token = token' then value else 0) := by
  obtain ⟨t, t', hToken, hCall, rfl⟩ := safeCall_ok_iff.mp h
  have hMoved := ERC20Mock.move_balanceOf (ERC20Mock.transferFrom_ok_iff.mp hCall).2 a
  rw [if_neg hOther.symm, if_pos rfl, ERC20Mock.setAllowance_balanceOf] at hMoved
  rw [balance_update]
  by_cases hEq : token' = token
  · subst hEq
    rw [balance_eq hToken, if_pos rfl, if_pos rfl]
    omega
  · rw [if_neg hEq, if_neg (Ne.symm hEq), Nat.add_zero]

end Tokens

/-- A call of a token that leaves an account alone: others call it, and it does not set the
account's balance. -/
def TokenCall.Spares (a sender : Address) : TokenCall → Prop
  | .setBalance account _ => sender ≠ a ∧ account ≠ a
  | _ => sender ≠ a

instance (a sender : Address) : ∀ call : TokenCall, Decidable (call.Spares a sender)
  | .setBalance _ _ => instDecidableAnd
  | .approve _ _ => instDecidableNot
  | .transfer _ _ => instDecidableNot
  | .transferFrom _ _ _ => instDecidableNot

/-- A call that spares an account costs it nothing, as long as nobody may spend its tokens. -/
theorem TokenCall.Spares.balance {a sender : Address} {t t' : ERC20Mock}
    (hNone : ∀ spender, t.allowance a spender = 0) :
    ∀ {call : TokenCall}, call.Spares a sender → call.perform sender t = .ok t' →
      t.balanceOf a ≤ t'.balanceOf a
  | .setBalance account amount, hSpares, h => by
    obtain ⟨-, -, rfl⟩ := ERC20Mock.setBalance_ok_iff.mp h
    exact Nat.le_of_eq (Function.update_of_ne hSpares.2.symm _ _).symm
  | .approve _ _, _, h => by
    obtain rfl := Except.ok.inj h
    exact le_rfl
  | .transfer _ _, hSpares, h => by
    have hMoved := ERC20Mock.move_balanceOf h a
    rw [if_neg (Ne.symm hSpares)] at hMoved
    omega
  | .transferFrom holder receiver amount, _, h => by
    obtain ⟨hAllowed, hMove⟩ := ERC20Mock.transferFrom_ok_iff.mp h
    have hMoved := ERC20Mock.move_balanceOf hMove a
    rw [ERC20Mock.setAllowance_balanceOf] at hMoved
    by_cases hHolder : a = holder
    · -- nothing of the account's may be spent, so nothing is
      subst hHolder
      rw [hNone sender, Nat.le_zero] at hAllowed
      subst hAllowed
      simp only [ite_self] at hMoved
      omega
    · rw [if_neg hHolder] at hMoved
      omega

/-- A call that spares an account lets nobody spend its tokens. -/
theorem TokenCall.Spares.allowance {a sender : Address} {t t' : ERC20Mock}
    (hNone : ∀ spender, t.allowance a spender = 0) :
    ∀ {call : TokenCall}, call.Spares a sender → call.perform sender t = .ok t' →
      ∀ spender, t'.allowance a spender = 0
  | .setBalance account amount, hSpares, h, spender => by
    obtain ⟨-, -, rfl⟩ := ERC20Mock.setBalance_ok_iff.mp h
    exact hNone spender
  | .approve spender' amount, hSpares, h, spender => by
    obtain rfl := Except.ok.inj h
    rw [ERC20Mock.approve, ERC20Mock.setAllowance_allowance, if_neg fun hEq => hSpares hEq.1.symm]
    exact hNone spender
  | .transfer _ _, _, h, spender => by
    rw [ERC20Mock.move_allowance h]
    exact hNone spender
  | .transferFrom holder receiver amount, _, h, spender => by
    obtain ⟨hAllowed, hMove⟩ := ERC20Mock.transferFrom_ok_iff.mp h
    rw [ERC20Mock.move_allowance hMove, ERC20Mock.setAllowance_allowance]
    split
    case isTrue hEq =>
      rw [← hEq.1, hNone sender, Nat.zero_sub]
    case isFalse => exact hNone spender

namespace Tokens

variable {tokens tokens' : Tokens} {token sender a : Address} {t t' : ERC20Mock}

theorem Unspendable.update (h : tokens.Unspendable a) (ht : ∀ spender, t'.allowance a spender = 0) :
    Tokens.Unspendable (update tokens token (some t')) a := by
  intro token' t'' hToken
  by_cases hEq : token' = token
  · subst hEq
    rw [Function.update_self] at hToken
    exact Option.some.inj hToken ▸ ht
  · rw [Function.update_of_ne hEq] at hToken
    exact h token' t'' hToken

theorem Unspendable.pay {receiver : Address} {value : Nat} (h : tokens.Unspendable a)
    (hOk : safeTransfer tokens token sender receiver value = .ok tokens') :
    tokens'.Unspendable a := by
  obtain ⟨t, t', hToken, hMove, rfl⟩ := safeCall_ok_iff.mp hOk
  refine h.update ?_
  rw [ERC20Mock.move_allowance hMove]
  exact h token t hToken

theorem Unspendable.pull {holder receiver : Address} {value : Nat} (h : tokens.Unspendable a)
    (hOther : holder ≠ a)
    (hOk : safeTransferFrom tokens token sender holder receiver value = .ok tokens') :
    tokens'.Unspendable a := by
  obtain ⟨t, t', hToken, hCall, rfl⟩ := safeCall_ok_iff.mp hOk
  obtain ⟨-, hMove⟩ := ERC20Mock.transferFrom_ok_iff.mp hCall
  refine h.update fun spender => ?_
  rw [ERC20Mock.move_allowance hMove, ERC20Mock.setAllowance_allowance,
    if_neg fun hEq => hOther hEq.1.symm]
  exact h token t hToken spender

end Tokens

-- ---------------------------------------------------------------------------
-- Scripts
-- ---------------------------------------------------------------------------

/-- The calls that are made: none by the contract itself, which has only the calls of its own
code, and none of the test function that would set the contract's balance; the market of a
call is one of `P`. -/
def Permitted (env : Env) (P : Set MarketParams) (msg : Msg) : Action → Prop
  | .morpho call => msg.sender ≠ env.self ∧ ∀ p ∈ call.marketParams, p ∈ P
  | .token _ call => call.Spares env.self msg.sender
  | .setPrice _ _ => True

instance (env : Env) (P : Set MarketParams) [DecidablePred (· ∈ P)] (msg : Msg) :
    ∀ action : Action, Decidable (Permitted env P msg action)
  | .morpho call =>
    inferInstanceAs (Decidable (msg.sender ≠ env.self ∧ ∀ p ∈ call.marketParams, p ∈ P))
  | .token _ call => inferInstanceAs (Decidable (call.Spares env.self msg.sender))
  | .setPrice _ _ => isTrue trivial

/-- The world between calls. -/
structure Sound (env : Env) (P : Set MarketParams) (w : World) : Prop where
  balanced : w.morpho.Balanced
  known : w.morpho.Known env P
  unspendable : w.tokens.Unspendable env.self

/-- The contract's balances cover what the markets owe and some amounts to be paid, with some
amounts to be pulled in. -/
def Covers (env : Env) (toPay toPull : Address → Nat) (w : World) : Prop :=
  ∀ token, w.morpho.owes token + toPay token ≤ w.tokens.balance token env.self + toPull token

section Scripts

variable {env : Env} {P : Set MarketParams}

theorem preserved_sound (hInj : Set.InjOn env.id P) :
    Preserved env (Permitted env P) (Sound env P) where
  effects := fun hPermitted hSound h =>
    ⟨effects_balanced h hSound.balanced, effects_known h hSound.known hInj hPermitted.2,
      hSound.unspendable⟩
  pay := fun hSound h => ⟨hSound.balanced, hSound.known, hSound.unspendable.pay h⟩
  pull := fun hPermitted hSound h =>
    ⟨hSound.balanced, hSound.known, hSound.unspendable.pull hPermitted.1 h⟩
  token := fun hPermitted hSound hToken h =>
    ⟨hSound.balanced, hSound.known,
      hSound.unspendable.update (hPermitted.allowance (hSound.unspendable _ _ hToken) h)⟩
  setPrice := fun _ hSound => ⟨hSound.balanced, hSound.known, hSound.unspendable⟩

/-- The interactions of a call settle what the call has left open. -/
theorem interactions_cover (hInj : Set.InjOn env.id P) {msg : Msg} {call : Call}
    (hPermitted : Permitted env P msg (.morpho call)) {callback : World → Result World}
    (hSafe : ∀ w w', Sound env P w → callback w = .ok w' → Sound env P w')
    (hCallback : ∀ w w' toPay toPull, Sound env P w → Covers env toPay toPull w →
      callback w = .ok w' → Covers env toPay toPull w')
    {toPay toPull : Address → Nat} :
    ∀ {is : List Interaction} {w w' : World}, Sound env P w →
      Covers env (fun token => toPay token + (is.map (Interaction.paid token)).sum)
        (fun token => toPull token + (is.map (Interaction.pulled token)).sum) w →
      is.foldlM (Interaction.perform env msg.sender callback) w = .ok w' →
      Covers env toPay toPull w'
  | [], w, w', _, hCovers, hOk => pure_ok_iff.mp hOk ▸ hCovers
  | i :: is, w, w', hSound, hCovers, hOk => by
    rw [List.foldlM_cons] at hOk
    obtain ⟨w₁, hFirst, hRest⟩ := bind_ok_iff.mp hOk
    have hSound₁ := (preserved_sound hInj).interaction hPermitted hSafe hSound hFirst
    refine interactions_cover hInj hPermitted hSafe hCallback hSound₁ ?_ hRest
    cases i with
    | pay token receiver value =>
      obtain ⟨tokens, hPay, hEq⟩ := bind_ok_iff.mp hFirst
      obtain rfl := pure_ok_iff.mp hEq
      intro token'
      have hBefore := hCovers token'
      have hPaid := Tokens.pay_balance hPay token'
      simp only [List.map_cons, List.sum_cons, Interaction.paid, Interaction.pulled] at hBefore
      show w.morpho.owes token' + (toPay token' + (is.map (Interaction.paid token')).sum) ≤
        tokens.balance token' env.self + (toPull token' + (is.map (Interaction.pulled token')).sum)
      omega
    | callback =>
      simp only [List.map_cons, List.sum_cons, Interaction.paid, Interaction.pulled,
        Nat.zero_add] at hCovers
      exact hCallback w w₁ _ _ hSound hCovers hFirst
    | pull token value =>
      obtain ⟨tokens, hPull, hEq⟩ := bind_ok_iff.mp hFirst
      obtain rfl := pure_ok_iff.mp hEq
      intro token'
      have hBefore := hCovers token'
      have hPulled := Tokens.pull_balance hPermitted.1 hPull token'
      simp only [List.map_cons, List.sum_cons, Interaction.paid, Interaction.pulled] at hBefore
      show w.morpho.owes token' + (toPay token' + (is.map (Interaction.paid token')).sum) ≤
        tokens.balance token' env.self + (toPull token' + (is.map (Interaction.pulled token')).sum)
      omega

/-- **A script leaves open what was open, and nothing more**, whatever is called in its
callbacks. -/
theorem exec_covers (hInj : Set.InjOn env.id P) {timestamp : Nat} {script : Script} :
    ∀ {w w' : World} {toPay toPull : Address → Nat}, script.All (Permitted env P) timestamp →
      Sound env P w → Covers env toPay toPull w → script.exec env timestamp w = .ok w' →
      Covers env toPay toPull w' := by
  induction script with
  | done =>
    intro w w' toPay toPull _ _ hCovers hOk
    exact pure_ok_iff.mp hOk ▸ hCovers
  | call sender action onCallback rest ihCallback ihRest =>
    intro w w' toPay toPull ⟨hPermitted, hInner, hOuter⟩ hSound hCovers hOk
    obtain ⟨w₁, hAction, hOthers⟩ := exec_call_ok_iff.mp hOk
    have hSafe : ∀ w w', Sound env P w → onCallback.exec env timestamp w = .ok w' →
        Sound env P w' := fun _ _ => (preserved_sound hInj).exec hInner
    have hSound₁ := (preserved_sound hInj).action hSafe hSound hPermitted hAction
    refine ihRest hOuter hSound₁ ?_ hOthers
    cases action with
    | morpho call =>
      obtain ⟨s, is, hEffects, hInteractions⟩ := perform_morpho_ok_iff.mp hAction
      have hSound₂ := (preserved_sound hInj).effects hPermitted hSound hEffects
      refine interactions_cover hInj hPermitted hSafe
        (fun _ _ _ _ => ihCallback hInner) hSound₂ (fun token => ?_) hInteractions
      have hOwes := effects_owes hEffects hSound.balanced hSound.known hInj hPermitted.2 token
      have hBefore := hCovers token
      show s.owes token + (toPay token + (is.map (Interaction.paid token)).sum) ≤
        w.tokens.balance token env.self + (toPull token + (is.map (Interaction.pulled token)).sum)
      omega
    | token address call =>
      obtain ⟨t, t', hToken, hCall, rfl⟩ := perform_token_ok_iff.mp hAction
      intro token
      have hBefore := hCovers token
      have hKept : w.tokens.balance token env.self ≤
          Tokens.balance (update w.tokens address (some t')) token env.self := by
        rw [Tokens.balance_update]
        split
        case isTrue hEq =>
          subst hEq
          rw [Tokens.balance_eq hToken]
          exact hPermitted.balance (hSound.unspendable _ _ hToken) hCall
        case isFalse => exact le_rfl
      show w.morpho.owes token + _ ≤ Tokens.balance (update w.tokens address (some t')) token
        env.self + _
      omega
    | setPrice oracle newPrice =>
      obtain ⟨-, rfl⟩ := perform_setPrice_ok_iff.mp hAction
      exact hCovers

/-- A new world is sound. -/
theorem World.new_sound {newOwner : Address} {deployed : Address → Bool}
    {oracles : Address → Option OracleMock} {w : World}
    (h : World.new newOwner deployed oracles = .ok w) : Sound env P w := by
  simp only [World.new, Storage.new, bind_ok_iff, pure_ok_iff] at h
  obtain ⟨_, ⟨-, -, rfl⟩, rfl⟩ := h
  refine ⟨fun _ => Book.Balanced.empty, fun _ => .inl rfl, fun token t hToken spender => ?_⟩
  change (if deployed token then some ERC20Mock.new else none) = some t at hToken
  split at hToken
  · obtain rfl := Option.some.inj hToken
    rfl
  · cases hToken

/-- **The contract can pay.** After every run, its balance of every token covers what all
markets owe in it, as long as no two markets of the run have the same id. -/
theorem solvent {newOwner : Address} {deployed : Address → Bool}
    {oracles : Address → Option OracleMock} {w₀ w : World} {ts : List Transaction}
    (hNew : World.new newOwner deployed oracles = .ok w₀) (hInj : Set.InjOn env.id P)
    (hPermitted : ∀ t ∈ ts, t.All (Permitted env P))
    (hRun : Lib.run (step env) w₀ ts = some w) (token : Address) :
    w.morpho.owes token ≤ w.tokens.balance token env.self := by
  have hStart : Covers env (fun _ => 0) (fun _ => 0) w₀ := by
    intro token'
    have hNone : w₀.morpho.owes token' = 0 := by
      simp only [World.new, Storage.new, bind_ok_iff, pure_ok_iff] at hNew
      obtain ⟨_, ⟨-, -, rfl⟩, rfl⟩ := hNew
      refine Lib.total_eq_zero.mpr fun id => ?_
      have hPledged : Book.pledged ⟨Market.empty, fun _ => Position.empty⟩ = 0 := Lib.total_zero
      show MarketParams.inToken _ token' 0
        (Book.pledged ⟨Market.empty, fun _ => Position.empty⟩) = 0
      rw [hPledged]
      simp [MarketParams.inToken]
    rw [hNone]
    exact Nat.zero_le _
  have hEnd : Sound env P w ∧ Covers env (fun _ => 0) (fun _ => 0) w := by
    refine run_keeps (Q := fun t => t.All (Permitted env P))
      (I := fun w => Sound env P w ∧ Covers env (fun _ => 0) (fun _ => 0) w)
      (fun w t w' hBoth hAll hExec => ?_) hPermitted ⟨World.new_sound hNew, hStart⟩ hRun
    exact ⟨(preserved_sound hInj).exec hAll hBoth.1 hExec,
      exec_covers hInj hAll hBoth.1 hBoth.2 hExec⟩
  have hCovers := hEnd.2 token
  dsimp only at hCovers
  rw [Nat.add_zero, Nat.add_zero] at hCovers
  exact hCovers

theorem solvent_liquidation : ∃ w₀ w, Deployment.setUp = .ok w₀ ∧
    Lib.run (step Deployment.env) w₀ Deployment.all = some w ∧
    w.morpho.owes Deployment.loanToken ≤
      w.tokens.balance Deployment.loanToken Deployment.morpho := by
  obtain ⟨w₀, w, hNew, hRun, -⟩ := Deployment.exists_of_runs Deployment.all (fun _ => true)
    (by decide +kernel)
  exact ⟨w₀, w, hNew, hRun, solvent hNew (Set.injOn_singleton _ Deployment.marketParams)
    (by decide +kernel) hRun Deployment.loanToken⟩

end Scripts

end LineraEndToEnd.Morpho
