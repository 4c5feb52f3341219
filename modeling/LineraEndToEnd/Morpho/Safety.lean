import LineraEndToEnd.Morpho.History

/-!
# What others cannot do

An account that has authorized nobody, and of whose signatures only used up ones are
handed in, loses nothing by what others call: its shares and its collateral stay, its
debt does not grow. And a healthy position stays healthy, and is not liquidated, as long
as the price stays, no interest is accrued and the account itself takes nothing out.

* `Storage.Alone` — nobody may act for the account; kept by all calls but those that
  authorize for it (`AuthorizesFor`).
* `nonces_in_order`, `position_safe`, `health_kept` — over runs.
-/

namespace LineraEndToEnd.Morpho

open Solidity
open Function (update)

-- ---------------------------------------------------------------------------
-- Nonces
-- ---------------------------------------------------------------------------

/-- The nonce that an event tells an account has used. -/
def Event.usedNonce (a : Address) : Event → Option Nat
  | .IncrementNonce _ authorizer usedNonce => if authorizer = a then some usedNonce else none
  | _ => none

theorem Event.usedNonce_of_move {feeRecipient : Address} {e : Event} {x : Id × Move}
    (h : e.move feeRecipient = some x) (a : Address) : e.usedNonce a = none := by
  cases e <;> first | rfl | cases h

/-- The nonces that an account has used are all those before its next. -/
def Storage.NoncesInOrder (s : Storage) (a : Address) : Prop :=
  s.logs.filterMap (Event.usedNonce a) = List.range (s.nonce a)

section Effects

variable {env : Env} {msg : Msg} {price : Address → Result Nat} {s s' : Storage} {call : Call}
  {is : List Interaction} {a : Address}

theorem Storage.NoncesInOrder.extend {es : List Event} (h : s.NoncesInOrder a)
    (hLogs : s'.logs = s.logs ++ es) (hNone : es.filterMap (Event.usedNonce a) = [])
    (hNonce : s'.nonce = s.nonce) : s'.NoncesInOrder a := by
  unfold NoncesInOrder
  rw [hLogs, List.filterMap_append, hNone, List.append_nil, hNonce]
  exact h

theorem effects_nonces (h : call.effects env msg price s = .ok (s', is))
    (hOrder : s.NoncesInOrder a) : s'.NoncesInOrder a := by
  cases Call.effect h with
  | market p created steps own =>
    obtain ⟨_, -, hMoved⟩ := steps.all
    obtain ⟨es, hTells⟩ := hMoved.tells
    refine hOrder.extend hTells.logs (List.filterMap_eq_nil_iff.mpr fun e he => ?_)
      (congrArg Storage.nonce hMoved.frame :)
    obtain ⟨m, hMove⟩ := hTells.own e he
    exact Event.usedNonce_of_move hMove a
  | create p _ _ _ => exact hOrder.extend rfl rfl rfl
  | other apart =>
    cases apart
    case setAuthorizationWithSig auth signature nonce _ _ =>
      show (s.logs ++ [Event.IncrementNonce msg.sender auth.authorizer auth.nonce] ++
          [Event.SetAuthorization msg.sender auth.authorizer auth.authorized
            auth.isAuthorized]).filterMap (Event.usedNonce a) =
        List.range (update s.nonce auth.authorizer (s.nonce auth.authorizer + 1) a)
      rw [List.filterMap_append, List.filterMap_append, hOrder, nonce]
      by_cases ha : auth.authorizer = a
      · subst ha
        simp [Event.usedNonce, List.range_succ]
      · simp [Event.usedNonce, ha, Ne.symm ha]
    all_goals exact hOrder.extend rfl rfl rfl

-- ---------------------------------------------------------------------------
-- Positions that only their owner may touch
-- ---------------------------------------------------------------------------

/-- Nobody else may act for an account. -/
def Storage.Alone (a : Address) (s : Storage) : Prop :=
  ∀ authorized, s.isAuthorized a authorized = false

/-- A call that authorizes someone to act for `a`: `a` itself makes it, or it hands in a signature
of `a`'s whose nonce is none of the first `nonce`. -/
def AuthorizesFor (env : Env) (a : Address) (nonce : Nat) (msg : Msg) : Action → Prop
  | .morpho (.setAuthorization _ newIsAuthorized) => msg.sender = a ∧ newIsAuthorized
  | .morpho (.setAuthorizationWithSig auth signature) =>
    auth.authorizer = a ∧ env.ecrecover (env.digest auth) signature = a ∧ auth.isAuthorized ∧
      nonce ≤ auth.nonce
  | _ => False

instance (env : Env) (a : Address) (nonce : Nat) (msg : Msg) :
    DecidablePred (AuthorizesFor env a nonce msg)
  | .morpho (.setAuthorization _ newIsAuthorized) =>
    inferInstanceAs (Decidable (msg.sender = a ∧ newIsAuthorized))
  | .morpho (.setAuthorizationWithSig auth signature) =>
    inferInstanceAs (Decidable (auth.authorizer = a ∧
      env.ecrecover (env.digest auth) signature = a ∧ auth.isAuthorized ∧ nonce ≤ auth.nonce))
  | .morpho (.setOwner _) | .morpho (.enableIrm _) | .morpho (.enableLltv _)
  | .morpho (.setFee _ _) | .morpho (.setFeeRecipient _) | .morpho (.createMarket _)
  | .morpho (.supply _ _ _ _) | .morpho (.withdraw _ _ _ _ _) | .morpho (.borrow _ _ _ _ _)
  | .morpho (.repay _ _ _ _) | .morpho (.supplyCollateral _ _ _)
  | .morpho (.withdrawCollateral _ _ _ _) | .morpho (.liquidate _ _ _ _)
  | .morpho (.flashLoan _ _) | .morpho (.accrueInterest _) | .token _ _ | .setPrice _ _ =>
    instDecidableFalse

theorem Storage.Alone.authorize {authorizer authorized : Address} {newIsAuthorized : Bool}
    (hAlone : s.Alone a) (hNot : authorizer = a → newIsAuthorized = false) :
    (s.authorize authorizer authorized newIsAuthorized).Alone a := by
  intro authorized'
  show update s.isAuthorized authorizer
    (update (s.isAuthorized authorizer) authorized newIsAuthorized) a authorized' = false
  by_cases ha : authorizer = a
  · rw [← ha, Function.update_self, hNot ha]
    by_cases hSame : authorized' = authorized
    · rw [hSame, Function.update_self]
    · rw [Function.update_of_ne hSame, ha]
      exact hAlone authorized'
  · rw [Function.update_of_ne (Ne.symm ha)]
    exact hAlone authorized'

/-- Who authorizes nobody stays alone, and its nonces stay used. -/
theorem effects_alone {nonce : Nat} (h : call.effects env msg price s = .ok (s', is))
    (hQuiet : ¬ AuthorizesFor env a nonce msg (.morpho call)) (hAlone : s.Alone a)
    (hUsed : nonce ≤ s.nonce a) : s'.Alone a ∧ nonce ≤ s'.nonce a := by
  cases Call.effect h with
  | market p created steps own =>
    obtain ⟨_, -, hMoved⟩ := steps.all
    rw [hMoved.frame]
    exact ⟨hAlone, hUsed⟩
  | create p _ _ _ => exact ⟨hAlone, hUsed⟩
  | other apart =>
    cases apart
    case setAuthorization authorized newIsAuthorized =>
      refine ⟨hAlone.authorize fun ha => ?_, hUsed⟩
      exact Bool.eq_false_iff.mpr fun hSet => hQuiet ⟨ha, hSet⟩
    case setAuthorizationWithSig auth signature hNonce someone signed =>
      refine ⟨Storage.Alone.authorize hAlone fun ha => Bool.eq_false_iff.mpr fun hSet => ?_, ?_⟩
      · -- it bears the next nonce, which is none of those used before
        rw [← ha, ← hNonce] at hUsed
        exact hQuiet ⟨ha, signed.trans ha, hSet, hUsed⟩
      · refine hUsed.trans ?_
        show s.nonce a ≤ update s.nonce auth.authorizer (s.nonce auth.authorizer + 1) a
        by_cases ha : a = auth.authorizer
        · rw [← ha, Function.update_self]
          exact Nat.le_succ _
        · rw [Function.update_of_ne ha]
    all_goals exact ⟨hAlone, hUsed⟩

/-- Who is alone is the only one to be authorized. -/
theorem Storage.Alone.not_authorized (hAlone : s.Alone a) (hOther : msg.sender ≠ a) :
    ¬ s._isSenderAuthorized msg a := by
  simp [_isSenderAuthorized, hOther, hAlone msg.sender]

end Effects

-- ---------------------------------------------------------------------------
-- What moves leave of a position
-- ---------------------------------------------------------------------------

namespace Move

/-- Whether a move takes something out for an account. -/
def takesFrom (a : Address) : Move → Prop
  | .withdraw onBehalf _ _ => onBehalf = a
  | .borrow onBehalf _ _ => onBehalf = a
  | .withdrawCollateral onBehalf _ => onBehalf = a
  | _ => False

/-- Whether a move liquidates an account. -/
def liquidates (a : Address) : Move → Prop
  | .liquidate borrower _ => borrower = a
  | _ => False

/-- Whether a move takes collateral of an account. -/
def takesCollateralOf (a : Address) : Move → Prop
  | .withdrawCollateral onBehalf _ => onBehalf = a
  | .liquidate borrower _ => borrower = a
  | _ => False

/-- Whether a move may make an account less healthy: interest is accrued, or it borrows or takes
collateral out. -/
def weakens (a : Address) : Move → Prop
  | .accrue _ c => c.interest ≠ 0
  | .borrow onBehalf _ _ => onBehalf = a
  | .withdrawCollateral onBehalf _ => onBehalf = a
  | _ => False

instance (a : Address) : DecidablePred (Move.liquidates a)
  | .liquidate borrower _ => inferInstanceAs (Decidable (borrower = a))
  | .create _ | .setFee _ | .accrue _ _ | .supply _ _ _ | .withdraw _ _ _ | .borrow _ _ _
  | .repay _ _ _ | .supplyCollateral _ _ | .withdrawCollateral _ _ => instDecidableFalse

instance (a : Address) : DecidablePred (Move.weakens a)
  | .accrue _ c => inferInstanceAs (Decidable (c.interest ≠ 0))
  | .borrow onBehalf _ _ => inferInstanceAs (Decidable (onBehalf = a))
  | .withdrawCollateral onBehalf _ => inferInstanceAs (Decidable (onBehalf = a))
  | .create _ | .setFee _ | .supply _ _ _ | .withdraw _ _ _ | .repay _ _ _
  | .supplyCollateral _ _ | .liquidate _ _ => instDecidableFalse

variable {a : Address} {m : Move}

theorem liquidates.told (h : m.liquidates a) : m.told = some m := by
  cases m with
  | liquidate b l => rfl
  | _ => exact h.elim

theorem weakens.told (h : m.weakens a) : ∃ m', m.told = some m' ∧ m'.weakens a := by
  cases m with
  | accrue b c => exact ⟨_, if_neg fun hZero => h hZero.1, h⟩
  | borrow b assets shares => exact ⟨_, rfl, h⟩
  | withdrawCollateral b assets => exact ⟨_, rfl, h⟩
  | _ => exact h.elim

theorem liquidates_of_told {m' : Move} (h : m.told = some m') (hm : m'.liquidates a) :
    m.liquidates a := by
  cases m with
  | create t => cases h
  | accrue b c =>
    by_cases hZero : c.interest = 0 ∧ c.feeShares = 0
    · cases (if_pos hZero).symm.trans h
    · obtain rfl := Option.some.inj ((if_neg hZero).symm.trans h)
      exact hm.elim
  | _ =>
    obtain rfl := Option.some.inj h
    exact hm

end Move

namespace Position

/-- A position that is no worse: no less is supplied, and no more is owed. -/
structure NoWorse (pos pos' : Position) : Prop where
  supplyShares : pos.supplyShares ≤ pos'.supplyShares
  borrowShares : pos'.borrowShares ≤ pos.borrowShares

theorem NoWorse.refl (pos : Position) : NoWorse pos pos := ⟨le_rfl, le_rfl⟩

theorem NoWorse.trans {pos pos₁ pos' : Position} (h : NoWorse pos pos₁) (h' : NoWorse pos₁ pos') :
    NoWorse pos pos' :=
  ⟨h.supplyShares.trans h'.supplyShares, h'.borrowShares.trans h.borrowShares⟩

end Position

namespace Book

variable {b : Book} {a a' : Address} {pos : Position}

theorem noWorse_setPosition (h : a' = a → Position.NoWorse (b.position a') pos) :
    Position.NoWorse (b.position a) ((b.setPosition a' pos).position a) := by
  by_cases ha : a' = a
  · subst ha
    rw [setPosition_self]
    exact h rfl
  · rw [setPosition_of_ne b pos (Ne.symm ha)]
    exact .refl _

theorem collateral_setPosition (h : a' = a → (b.position a').collateral ≤ pos.collateral) :
    (b.position a).collateral ≤ ((b.setPosition a' pos).position a).collateral := by
  by_cases ha : a' = a
  · subst ha
    rw [setPosition_self]
    exact h rfl
  · rw [setPosition_of_ne b pos (Ne.symm ha)]

/-- A move that takes nothing from an account leaves its position no worse. -/
theorem noWorse_after : ∀ {m : Move}, ¬ m.takesFrom a →
    Position.NoWorse (b.position a) ((b.after m).position a)
  | .create _, _ => .refl _
  | .setFee _, _ => .refl _
  | .accrue _ _, _ => noWorse_setPosition fun _ => ⟨Nat.le_add_right .., le_rfl⟩
  | .supply _ _ _, _ => noWorse_setPosition fun _ => ⟨Nat.le_add_right .., le_rfl⟩
  | .withdraw _ _ _, hOther => noWorse_setPosition fun ha => absurd ha hOther
  | .borrow _ _ _, hOther => noWorse_setPosition fun ha => absurd ha hOther
  | .repay _ _ _, _ => noWorse_setPosition fun _ => ⟨le_rfl, Nat.sub_le ..⟩
  | .supplyCollateral _ _, _ => noWorse_setPosition fun _ => ⟨le_rfl, le_rfl⟩
  | .withdrawCollateral _ _, hOther => noWorse_setPosition fun ha => absurd ha hOther
  | .liquidate _ _, _ =>
    noWorse_setPosition fun _ => ⟨le_rfl, (Nat.sub_le ..).trans (Nat.sub_le ..)⟩

/-- A move that takes no collateral of an account leaves it as much. -/
theorem collateral_after : ∀ {m : Move}, ¬ m.takesCollateralOf a →
    (b.position a).collateral ≤ ((b.after m).position a).collateral
  | .create _, _ => le_rfl
  | .setFee _, _ => le_rfl
  | .accrue _ _, _ => collateral_setPosition fun _ => le_rfl
  | .supply _ _ _, _ => collateral_setPosition fun _ => le_rfl
  | .withdraw _ _ _, _ => collateral_setPosition fun _ => le_rfl
  | .borrow _ _ _, _ => collateral_setPosition fun _ => le_rfl
  | .repay _ _ _, _ => collateral_setPosition fun _ => le_rfl
  | .supplyCollateral _ _, _ => collateral_setPosition fun _ => Nat.le_add_right ..
  | .withdrawCollateral _ _, hOther => collateral_setPosition fun ha => absurd ha hOther
  | .liquidate _ _, hOther => collateral_setPosition fun ha => absurd ha hOther

/-- **A healthy position stays healthy** until interest is accrued, or the account borrows or
takes collateral out. -/
theorem healthy_after (h : b.Balanced) {m : Move} {collateralPrice lltv : Nat}
    (hGuard : b.Guard m) (hStrong : ¬ m.weakens a) (hKept : ¬ m.liquidates a)
    (hHealthy : b.Healthy a collateralPrice lltv) : (b.after m).Healthy a collateralPrice lltv := by
  have hDebt : (b.after m).debt a ≤ b.debt a := by
    refine debt_after_le h hGuard fun hRaises => hStrong ?_
    cases m with
    | accrue b c => exact hRaises
    | borrow b assets shares => exact hRaises
    | _ => exact hRaises.elim
  have hCollateral : (b.position a).collateral ≤ ((b.after m).position a).collateral := by
    refine collateral_after fun hTakes => ?_
    cases m with
    | withdrawCollateral b assets => exact hStrong hTakes
    | liquidate b l => exact hKept hTakes
    | _ => exact hTakes.elim
  calc (b.after m).debt a ≤ b.debt a := hDebt
    _ ≤ maxBorrow (b.position a).collateral collateralPrice lltv := hHealthy
    _ ≤ maxBorrow ((b.after m).position a).collateral collateralPrice lltv :=
        Lib.mulDivFloor_mono _ _ (Lib.mulDivFloor_mono _ _ hCollateral)

end Book

/-- What the events of a stretch leave of a position that nobody else may touch. -/
structure Kept (id : Id) (a : Address) (s s' : Storage) (es : List Event) : Prop where
  logs : s'.logs = s.logs ++ es
  noWorse : Position.NoWorse (s.position id a) (s'.position id a)
  collateral : (∀ m ∈ Event.moves id es, ¬ m.liquidates a) →
    (s.position id a).collateral ≤ (s'.position id a).collateral

theorem Kept.trans {id : Id} {a : Address} {s s₁ s' : Storage} {es es' : List Event}
    (h : Kept id a s s₁ es) (h' : Kept id a s₁ s' es') : Kept id a s s' (es ++ es') where
  logs := by rw [h'.logs, h.logs, List.append_assoc]
  noWorse := h.noWorse.trans h'.noWorse
  collateral := fun hNone => by
    rw [Event.moves_append] at hNone
    exact (h.collateral fun m hm => hNone m (List.mem_append_left _ hm)).trans
      (h'.collateral fun m hm => hNone m (List.mem_append_right _ hm))

/-- A call of another account takes nothing from who is alone. -/
theorem effects_kept {env : Env} {msg : Msg} {price : Address → Result Nat} {s s' : Storage}
    {call : Call} {is : List Interaction} {a : Address}
    (h : call.effects env msg price s = .ok (s', is)) (hOther : msg.sender ≠ a)
    (hAlone : s.Alone a) (id : Id) : ∃ es, Kept id a s s' es := by
  obtain ⟨ms, es, hLogs, hMoves, hTold, hAllowed⟩ := effects_run id h
  have hNone : ∀ m ∈ ms, ¬ m.takesFrom a := by
    intro m hm hTakes
    have hMay := hAllowed m hm
    cases m with
    | withdraw b assets shares => exact hAlone.not_authorized hOther (hTakes ▸ hMay)
    | borrow b assets shares => exact hAlone.not_authorized hOther (hTakes ▸ hMay)
    | withdrawCollateral b assets => exact hAlone.not_authorized hOther (hTakes ▸ hMay)
    | _ => exact hTakes.elim
  refine ⟨es, hLogs, ?_, fun hSpared => ?_⟩
  · refine Lib.run_invariant_mem (P := fun b => Position.NoWorse (s.position id a) (b.position a))
      (fun b m b' hm hSoFar hStep => ?_) (.refl _) hMoves
    obtain ⟨-, rfl⟩ := Book.step_eq_some_iff.mp hStep
    exact hSoFar.trans (Book.noWorse_after (hNone m hm))
  · refine Lib.run_invariant_mem
      (P := fun b => (s.position id a).collateral ≤ (b.position a).collateral)
      (fun b m b' hm hSoFar hStep => ?_) le_rfl hMoves
    obtain ⟨-, rfl⟩ := Book.step_eq_some_iff.mp hStep
    refine hSoFar.trans (Book.collateral_after fun hTakes => ?_)
    cases m with
    | withdrawCollateral b assets => exact hNone _ hm hTakes
    | liquidate b l =>
      have hLogged : .liquidate b l ∈ Event.moves id es := by
        rw [hTold]
        exact List.mem_filterMap.mpr ⟨_, hm, rfl⟩
      exact hSpared _ hLogged hTakes
    | _ => exact hTakes.elim

-- ---------------------------------------------------------------------------
-- Healthy positions
-- ---------------------------------------------------------------------------

/-- The calls that leave the price of a market's collateral at `collateralPrice`, and name no other
market of its id. -/
def Steady (env : Env) (p : MarketParams) (collateralPrice : Nat) : Action → Prop
  | .morpho call => ∀ p' ∈ call.marketParams, env.id p' = env.id p → p' = p
  | .token _ _ => True
  | .setPrice oracle newPrice => oracle = p.oracle → newPrice = collateralPrice

instance (env : Env) (p : MarketParams) (collateralPrice : Nat) :
    DecidablePred (Steady env p collateralPrice)
  | .morpho call =>
    inferInstanceAs (Decidable (∀ p' ∈ call.marketParams, env.id p' = env.id p → p' = p))
  | .token _ _ => instDecidableTrue
  | .setPrice oracle newPrice =>
    inferInstanceAs (Decidable (oracle = p.oracle → newPrice = collateralPrice))

/-- A position has stayed healthy, and was not liquidated, as long as the events tell of nothing
that weakens it. -/
structure StayedHealthy (id : Id) (a : Address) (collateralPrice lltv : Nat) (s s' : Storage)
    (es : List Event) : Prop where
  logs : s'.logs = s.logs ++ es
  healthy : (∀ m ∈ Event.moves id es, ¬ m.weakens a) →
    (s'.book id).Healthy a collateralPrice lltv ∧ ∀ m ∈ Event.moves id es, ¬ m.liquidates a

/-- A run of moves that do not weaken or liquidate a position leaves it healthy. -/
theorem Book.healthy_run {b b' : Book} {a : Address} {ms : List Move} {collateralPrice lltv : Nat}
    (h : b.Balanced) (hStrong : ∀ m ∈ ms, ¬ m.weakens a) (hKept : ∀ m ∈ ms, ¬ m.liquidates a)
    (hRun : Lib.run Book.step b ms = some b') (hHealthy : b.Healthy a collateralPrice lltv) :
    b'.Healthy a collateralPrice lltv := by
  have hBoth : b'.Balanced ∧ b'.Healthy a collateralPrice lltv := by
    refine Lib.run_invariant_mem (P := fun b => b.Balanced ∧ b.Healthy a collateralPrice lltv)
      (fun b m b' hm hBoth hStep => ?_) ⟨h, hHealthy⟩ hRun
    obtain ⟨hGuard, rfl⟩ := Book.step_eq_some_iff.mp hStep
    exact ⟨hBoth.1.after hGuard,
      Book.healthy_after hBoth.1 hGuard (hStrong m hm) (hKept m hm) hBoth.2⟩
  exact hBoth.2

theorem Storage.Accrues.liquidates_none {msg : Msg} {s : Storage} {id : Id} {acc : List Move}
    {a : Address} (h : s.Accrues msg id acc) : ∀ m ∈ acc, ¬ m.liquidates a := by
  intro m hm
  obtain rfl | ⟨-, c, rfl, -⟩ := h
  · cases hm
  · rw [List.mem_singleton.mp hm]
    exact not_false

/-- A call does not liquidate a position that is healthy once the interest is accrued. -/
theorem Own.liquidates_none {env : Env} {msg : Msg} {price : Address → Result Nat}
    {s₁ s' : Storage} {call : Call} {p : MarketParams} {ms : List Move} {is : List Interaction}
    {a : Address} {collateralPrice : Nat} (h : Own env msg price s₁ s' call p ms is)
    (hPrice : price p.oracle = .ok collateralPrice)
    (hHealthy : (s₁.book (env.id p)).Healthy a collateralPrice p.lltv) :
    ∀ m ∈ ms, ¬ m.liquidates a := by
  intro m hm
  cases h <;> simp only [List.mem_singleton, List.not_mem_nil] at hm <;> subst hm
  case liquidate borrower _ _ l collateralPrice' quoted unhealthy _ =>
    rintro rfl
    obtain rfl := Except.ok.inj (quoted.symm.trans hPrice)
    exact unhealthy hHealthy
  all_goals exact not_false

/-- A call does not weaken a healthy position without telling, and does not liquidate it. -/
theorem effects_healthy {env : Env} {msg : Msg} {price : Address → Result Nat} {s s' : Storage}
    {call : Call} {is : List Interaction} {p : MarketParams} {a : Address} {collateralPrice : Nat}
    (h : call.effects env msg price s = .ok (s', is)) (hBalanced : s.Balanced)
    (hSteady : Steady env p collateralPrice (.morpho call))
    (hPrice : price p.oracle = .ok collateralPrice)
    (hHealthy : (s.book (env.id p)).Healthy a collateralPrice p.lltv) :
    ∃ es, StayedHealthy (env.id p) a collateralPrice p.lltv s s' es := by
  cases Call.effect h with
  | market p' created steps own =>
    obtain ⟨acc, hAcc, hAccrued⟩ := steps.accrued
    obtain ⟨es, hTells⟩ := (hAccrued.trans steps.moved).tells
    by_cases hId : env.id p' = env.id p
    · obtain rfl := hSteady p' own.marketParams hId
      refine ⟨es, hTells.logs, fun hStrong => ?_⟩
      have hKeeps : ∀ m ∈ acc ++ _, ¬ m.weakens a := fun m hm hWeakens => by
        obtain ⟨m', hm', hWeakens'⟩ := hWeakens.told
        refine hStrong m' ?_ hWeakens'
        rw [hTells.told]
        exact List.mem_filterMap.mpr ⟨m, hm, hm'⟩
      have hSpared : ∀ m ∈ acc, ¬ m.liquidates a := hAcc.liquidates_none
      have hBefore := Book.healthy_run (hBalanced _)
        (fun m hm => hKeeps m (List.mem_append_left _ hm)) hSpared hAccrued.run hHealthy
      -- a liquidation needs an unhealthy position, and this one is healthy once interest is accrued
      have hOwn := own.liquidates_none hPrice hBefore
      have hAfter := Book.healthy_run ((hBalanced _).run hAccrued.run)
        (fun m hm => hKeeps m (List.mem_append_right _ hm)) hOwn steps.moved.run hBefore
      refine ⟨hAfter, fun m hm hLiquidates => ?_⟩
      rw [hTells.told] at hm
      obtain ⟨m₀, hm₀, hTold⟩ := List.mem_filterMap.mp hm
      have hOrigin := Move.liquidates_of_told hTold hLiquidates
      obtain hm₀ | hm₀ := List.mem_append.mp hm₀
      · exact hSpared m₀ hm₀ hOrigin
      · exact hOwn m₀ hm₀ hOrigin
    · refine ⟨es, hTells.logs, fun _ => ⟨?_, ?_⟩⟩
      · rw [(hAccrued.trans steps.moved).others _ (Ne.symm hId)]
        exact hHealthy
      · rw [hTells.others (Ne.symm hId)]
        exact fun m hm => absurd hm List.not_mem_nil
  | create p' _ _ _ =>
    refine ⟨[.CreateMarket (env.id p') p'], rfl,
      fun _ => ⟨?_, fun m hm => absurd hm List.not_mem_nil⟩⟩
    by_cases hId : env.id p = env.id p'
    · rw [hId, Storage.created_book, ← hId]
      exact hHealthy
    · rw [Storage.created_book_of_ne _ _ _ hId]
      exact hHealthy
  | other apart =>
    obtain ⟨es, hLogs, hSilent⟩ := apart.silent (env.id p)
    refine ⟨es, hLogs, fun _ => ⟨?_, ?_⟩⟩
    · rw [apart.book]
      exact hHealthy
    · rw [hSilent]
      exact fun m hm => absurd hm List.not_mem_nil

/-- One more call. -/
theorem StayedHealthy.extend {env : Env} {msg : Msg} {price : Address → Result Nat}
    {s₀ s s' : Storage} {call : Call} {is : List Interaction} {p : MarketParams} {a : Address}
    {collateralPrice : Nat} {es : List Event}
    (hSoFar : StayedHealthy (env.id p) a collateralPrice p.lltv s₀ s es)
    (h : call.effects env msg price s = .ok (s', is)) (hBalanced : s.Balanced)
    (hSteady : Steady env p collateralPrice (.morpho call))
    (hPrice : price p.oracle = .ok collateralPrice) :
    ∃ es', StayedHealthy (env.id p) a collateralPrice p.lltv s₀ s' es' := by
  obtain ⟨es', hLogs, -⟩ := effects_told h
  refine ⟨es ++ es', by rw [hLogs, hSoFar.logs, List.append_assoc], fun hStrong => ?_⟩
  rw [Event.moves_append] at hStrong ⊢
  obtain ⟨hNow, hSpared⟩ := hSoFar.healthy fun m hm => hStrong m (List.mem_append_left _ hm)
  obtain ⟨es'', hNext⟩ := effects_healthy h hBalanced hSteady hPrice hNow
  obtain rfl := List.append_cancel_left (hLogs.symm.trans hNext.logs)
  obtain ⟨hAfter, hSpared'⟩ := hNext.healthy fun m hm => hStrong m (List.mem_append_right _ hm)
  exact ⟨hAfter, fun m hm => (List.mem_append.mp hm).elim (hSpared m) (hSpared' m)⟩

/-- What a steady run leaves of a healthy position. -/
theorem preserved_healthy {env : Env} {p : MarketParams} {a : Address} {collateralPrice : Nat}
    {s₀ : Storage} : Preserved env (fun _ => Steady env p collateralPrice) fun w =>
      w.morpho.Balanced ∧
      w.price p.oracle = .ok collateralPrice ∧
      ∃ es, StayedHealthy (env.id p) a collateralPrice p.lltv s₀ w.morpho es where
  effects := fun hSteady ⟨hBalanced, hPrice, _, hSoFar⟩ h =>
    ⟨effects_balanced h hBalanced, hPrice, hSoFar.extend h hBalanced hSteady hPrice⟩
  pay := fun hI _ => hI
  pull := fun _ hI _ => hI
  token := fun _ hI _ _ => hI
  setPrice := fun {w _ oracle newPrice} hSteady ⟨hBalanced, hPrice, hSoFar⟩ => by
    refine ⟨hBalanced, ?_, hSoFar⟩
    by_cases hOracle : oracle = p.oracle
    · rw [← hOracle, World.price_update, hSteady hOracle]
    · exact (World.price_update_of_ne w _ (Ne.symm hOracle)).trans hPrice

-- ---------------------------------------------------------------------------
-- Runs
-- ---------------------------------------------------------------------------

/-- The liquidator hands in a signature of the supplier's, which authorizes it or takes that
back. -/
def Deployment.signature (isAuthorized : Bool) : List Transaction :=
  [ single 200 liquidator (.morpho (.setAuthorizationWithSig
      ⟨supplier, liquidator, isAuthorized, 0, 300⟩ (.ofNat 27 1 1))) ]

section Runs

variable {env : Env} {newOwner : Address} {deployed : Address → Bool}
  {oracles : Address → Option OracleMock} {w₀ w w' : World} {ts ts' : List Transaction}

/-- **Every nonce of an account is used once, in order**: the log shows that no signature is
accepted twice. -/
theorem nonces_in_order (hNew : World.new newOwner deployed oracles = .ok w₀)
    (hRun : Lib.run (step env) w₀ ts = some w) (a : Address) :
    w.morpho.logs.filterMap (Event.usedNonce a) = List.range (w.morpho.nonce a) := by
  have hKept : Preserved env (fun _ _ => True) fun w => w.morpho.NoncesInOrder a :=
    .ofStorage (I := fun s => s.NoncesInOrder a) fun _ hOrder h => effects_nonces h hOrder
  refine hKept.run (fun t _ => t.all_true) ?_ hRun
  have hStart := World.new_morpho hNew
  simp only [Storage.new, bind_ok_iff, pure_ok_iff] at hStart
  obtain ⟨-, -, hStart⟩ := hStart
  rw [← hStart]
  rfl

theorem nonces_in_order_signature : ∃ w₀ w, Deployment.setUp = .ok w₀ ∧
    Lib.run (step Deployment.env) w₀ (Deployment.market ++ Deployment.signature true) = some w ∧
    w.morpho.logs.filterMap (Event.usedNonce Deployment.supplier) =
      List.range (w.morpho.nonce Deployment.supplier) := by
  obtain ⟨w₀, w, hNew, hRun, -⟩ := Deployment.exists_of_runs
    (Deployment.market ++ Deployment.signature true) (fun _ => true) (by decide +kernel)
  exact ⟨w₀, w, hNew, hRun, nonces_in_order hNew hRun Deployment.supplier⟩

/-- Nobody may act for who has never authorized anyone. -/
theorem run_alone {a : Address} (hNew : World.new newOwner deployed oracles = .ok w₀)
    (hQuiet : ∀ t ∈ ts, t.All fun msg action => ¬ AuthorizesFor env a 0 msg action)
    (hRun : Lib.run (step env) w₀ ts = some w) : w.morpho.Alone a := by
  have hKept : Preserved env (fun msg action => ¬ AuthorizesFor env a 0 msg action)
      fun w => w.morpho.Alone a :=
    .ofStorage (I := fun s => s.Alone a) fun hQuiet hAlone h =>
      (effects_alone h hQuiet hAlone (Nat.zero_le _)).1
  have hStart := World.new_morpho hNew
  simp only [Storage.new, bind_ok_iff, pure_ok_iff] at hStart
  obtain ⟨-, -, hStart⟩ := hStart
  refine hKept.run hQuiet ?_ hRun
  rw [← hStart]
  exact fun _ => rfl

/-- **What others call takes nothing from an account** for which nobody may act, as long as they
hand in no signature by which it authorizes someone, but for nonces that it has used up: it has no
less supplied, and owes for no more shares; and its collateral is no less, unless it was
liquidated. -/
theorem position_safe {a : Address} (hAlone : w.morpho.Alone a)
    (hOthers : ∀ t ∈ ts', t.All fun msg action =>
      msg.sender ≠ a ∧ ¬ AuthorizesFor env a (w.morpho.nonce a) msg action)
    (hRun : Lib.run (step env) w ts' = some w') (id : Id) {es : List Event}
    (hLogs : w'.morpho.logs = w.morpho.logs ++ es) :
    (w.morpho.position id a).supplyShares ≤ (w'.morpho.position id a).supplyShares ∧
    (w'.morpho.position id a).borrowShares ≤ (w.morpho.position id a).borrowShares ∧
    ((∀ m ∈ Event.moves id es, ¬ m.liquidates a) →
      (w.morpho.position id a).collateral ≤ (w'.morpho.position id a).collateral) := by
  have hKept : Preserved env (fun msg action =>
        msg.sender ≠ a ∧ ¬ AuthorizesFor env a (w.morpho.nonce a) msg action) fun w' =>
      (w'.morpho.Alone a ∧ w.morpho.nonce a ≤ w'.morpho.nonce a) ∧
        ∃ es, Kept id a w.morpho w'.morpho es :=
    .ofStorage (I := fun s => (s.Alone a ∧ w.morpho.nonce a ≤ s.nonce a) ∧
        ∃ es, Kept id a w.morpho s es)
      fun ⟨hOther, hQuiet⟩ ⟨⟨hAlone, hUsed⟩, es, hSoFar⟩ h => by
        obtain ⟨es', hNext⟩ := effects_kept h hOther hAlone id
        exact ⟨effects_alone h hQuiet hAlone hUsed, es ++ es', hSoFar.trans hNext⟩
  have hStart : Kept id a w.morpho w.morpho [] :=
    ⟨(List.append_nil _).symm, .refl _, fun _ => le_rfl⟩
  obtain ⟨-, es', hAll⟩ := hKept.run hOthers ⟨⟨hAlone, le_rfl⟩, [], hStart⟩ hRun
  obtain rfl := List.append_cancel_left (hLogs.symm.trans hAll.logs)
  exact ⟨hAll.noWorse.supplyShares, hAll.noWorse.borrowShares, hAll.collateral⟩

/-- The supplier has signed what bears its first nonce, and that was handed in. -/
theorem position_safe_signature : ∃ w₀ w w' es, Deployment.setUp = .ok w₀ ∧
    Lib.run (step Deployment.env) w₀
      (Deployment.market ++ Deployment.position ++ Deployment.signature false) = some w ∧
    Lib.run (step Deployment.env) w Deployment.liquidation = some w' ∧
    w'.morpho.logs = w.morpho.logs ++ es ∧
    (w.morpho.position Deployment.id Deployment.supplier).supplyShares ≤
      (w'.morpho.position Deployment.id Deployment.supplier).supplyShares ∧
    (w'.morpho.position Deployment.id Deployment.supplier).borrowShares ≤
      (w.morpho.position Deployment.id Deployment.supplier).borrowShares ∧
    ((∀ m ∈ Event.moves Deployment.id es, ¬ m.liquidates Deployment.supplier) →
      (w.morpho.position Deployment.id Deployment.supplier).collateral ≤
        (w'.morpho.position Deployment.id Deployment.supplier).collateral) := by
  obtain ⟨w₀, w, w', es, hNew, hRun, hLater, hLogs, hNonce, -⟩ := Deployment.exists_of_later
    (Deployment.market ++ Deployment.position ++ Deployment.signature false)
    Deployment.liquidation 10 (fun w => w.morpho.nonce Deployment.supplier == 1)
    (fun _ => true) (by decide +kernel) (by decide +kernel)
  have hAlone : w.morpho.Alone Deployment.supplier := run_alone hNew (by decide +kernel) hRun
  have hOthers : ∀ t ∈ Deployment.liquidation, t.All fun msg action =>
      msg.sender ≠ Deployment.supplier ∧
        ¬ AuthorizesFor Deployment.env Deployment.supplier 1 msg action := by
    decide +kernel
  rw [← eq_of_beq hNonce] at hOthers
  exact ⟨w₀, w, w', es, hNew, hRun, hLater, hLogs,
    position_safe hAlone hOthers hLater Deployment.id hLogs⟩

/-- **A healthy position stays healthy and is not liquidated** as long as its price stays, no
interest is accrued, and the account neither borrows nor takes collateral out. -/
theorem health_kept {p : MarketParams} {a : Address} {collateralPrice : Nat}
    (hNew : World.new newOwner deployed oracles = .ok w₀)
    (hRun : Lib.run (step env) w₀ ts = some w) (hPrice : w.price p.oracle = .ok collateralPrice)
    (hHealthy : (w.morpho.book (env.id p)).Healthy a collateralPrice p.lltv)
    (hSteady : ∀ t ∈ ts', t.All fun _ => Steady env p collateralPrice)
    (hLater : Lib.run (step env) w ts' = some w') {es : List Event}
    (hLogs : w'.morpho.logs = w.morpho.logs ++ es)
    (hNone : ∀ m ∈ Event.moves (env.id p) es, ¬ m.weakens a) :
    (w'.morpho.book (env.id p)).Healthy a collateralPrice p.lltv ∧
      ∀ m ∈ Event.moves (env.id p) es, ¬ m.liquidates a := by
  have hStart : StayedHealthy (env.id p) a collateralPrice p.lltv w.morpho w.morpho [] :=
    ⟨(List.append_nil _).symm, fun _ => ⟨hHealthy, fun m hm => absurd hm List.not_mem_nil⟩⟩
  obtain ⟨-, -, es', hAll⟩ := preserved_healthy.run hSteady
    ⟨run_balanced hNew hRun, hPrice, [], hStart⟩ hLater
  obtain rfl := List.append_cancel_left (hLogs.symm.trans hAll.logs)
  exact hAll.healthy hNone

theorem health_kept_lending : ∃ w₀ w w' es, Deployment.setUp = .ok w₀ ∧
    Lib.run (step Deployment.env) w₀ (Deployment.market ++ Deployment.position) = some w ∧
    Lib.run (step Deployment.env) w Deployment.lending = some w' ∧
    w'.morpho.logs = w.morpho.logs ++ es ∧
    (w'.morpho.book Deployment.id).Healthy Deployment.borrower ORACLE_PRICE_SCALE
      Deployment.marketParams.lltv ∧
    ∀ m ∈ Event.moves Deployment.id es, ¬ m.liquidates Deployment.borrower := by
  obtain ⟨w₀, w, w', es, hNew, hRun, hLater, hLogs, hBefore, hNone⟩ := Deployment.exists_of_later
    (Deployment.market ++ Deployment.position) Deployment.lending 8
    (fun w => decide (w.price Deployment.oracle = .ok ORACLE_PRICE_SCALE ∧
      (w.morpho.book Deployment.id).Healthy Deployment.borrower ORACLE_PRICE_SCALE
        Deployment.marketParams.lltv))
    (fun es => decide (∀ m ∈ Event.moves Deployment.id es, ¬ m.weakens Deployment.borrower))
    (by decide +kernel) (by decide +kernel)
  obtain ⟨hPrice, hHealthy⟩ := of_decide_eq_true hBefore
  exact ⟨w₀, w, w', es, hNew, hRun, hLater, hLogs,
    health_kept hNew hRun hPrice hHealthy (by decide +kernel) hLater hLogs
      (of_decide_eq_true hNone)⟩

end Runs

end LineraEndToEnd.Morpho
