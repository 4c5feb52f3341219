import LineraEndToEnd.Morpho.Safety

/-!
# The terms of a market

A market in use has an interest rate model and a liquidation threshold that the owner
has enabled, and keeps the parameters that its id stands for. Who liquidates in it
takes no more collateral than the market's incentive allows.

* `Storage.InTerms` — what holds of all markets in use; kept by every call.
* `markets_in_terms`, `terms_are_permanent`, `liquidations_are_fair` — over runs.
-/

namespace LineraEndToEnd.Morpho

open Solidity
open Function (update)

-- ---------------------------------------------------------------------------
-- Markets in use
-- ---------------------------------------------------------------------------

/-- The parameters of every market in use are those its id stands for, and the owner has enabled
them. -/
structure Storage.InTerms (env : Env) (s : Storage) : Prop where
  lltv_lt : ∀ lltv, s.isLltvEnabled lltv → lltv < WAD
  market : ∀ id, (s.market id).lastUpdate ≠ 0 → env.id (s.idToMarketParams id) = id ∧
    s.isIrmEnabled (s.idToMarketParams id).irm ∧ s.isLltvEnabled (s.idToMarketParams id).lltv

section Effects

variable {env : Env} {msg : Msg} {price : Address → Result Nat} {s s' : Storage} {call : Call}
  {is : List Interaction}

theorem update_true {α : Type} [DecidableEq α] {f : α → Bool} {x : α} (y : α) (h : f x) :
    update f y true x := by
  by_cases hx : x = y
  · subst hx
    rw [Function.update_self]
  · rwa [Function.update_of_ne hx]

theorem effects_inTerms (h : call.effects env msg price s = .ok (s', is))
    (hTerms : s.InTerms env) : s'.InTerms env := by
  cases Call.effect h with
  | market p created steps own =>
    obtain ⟨_, -, hMoved⟩ := steps.all
    have hFrame := hMoved.frame
    have hOthers := hMoved.others
    rw [hFrame]
    refine ⟨hTerms.lltv_lt, fun id hUsed => hTerms.market id ?_⟩
    by_cases hId : id = env.id p
    · exact hId ▸ created
    · have hSame := congrArg Book.market (hOthers id hId)
      exact fun hZero => hUsed ((congrArg Market.lastUpdate hSame).trans hZero)
  | create p irm lltv _ =>
    refine ⟨hTerms.lltv_lt, fun id hUsed => ?_⟩
    by_cases hId : id = env.id p
    · subst hId
      rw [Storage.created_params]
      exact ⟨rfl, irm, lltv⟩
    · have hSame := congrArg Book.market
        (Storage.created_book_of_ne s p (msg.timestamp % 2 ^ 128) hId)
      rw [Storage.created_params_of_ne _ _ _ hId]
      exact hTerms.market id fun hZero => hUsed ((congrArg Market.lastUpdate hSame).trans hZero)
  | other apart =>
    cases apart
    case enableIrm irm _ =>
      refine ⟨hTerms.lltv_lt, fun id hUsed => ?_⟩
      obtain ⟨hId, hIrm, hLltv⟩ := hTerms.market id hUsed
      exact ⟨hId, update_true irm hIrm, hLltv⟩
    case enableLltv lltv _ less =>
      refine ⟨fun lltv' hEnabled => ?_, fun id hUsed => ?_⟩
      · by_cases hLltv : lltv' = lltv
        · exact hLltv ▸ less
        · have hBefore : update s.isLltvEnabled lltv true lltv' := hEnabled
          rw [Function.update_of_ne hLltv] at hBefore
          exact hTerms.lltv_lt lltv' hBefore
      · obtain ⟨hId, hIrm, hLltv⟩ := hTerms.market id hUsed
        exact ⟨hId, hIrm, update_true lltv hLltv⟩
    all_goals exact ⟨hTerms.lltv_lt, hTerms.market⟩

end Effects

-- ---------------------------------------------------------------------------
-- What stays
-- ---------------------------------------------------------------------------

/-- The time that a move sets. -/
def Move.stamp : Move → Option Nat
  | .create lastUpdate => some lastUpdate
  | .accrue _ c => some c.lastUpdate
  | _ => none

theorem Book.lastUpdate_after (b : Book) (m : Move) :
    (b.after m).market.lastUpdate = m.stamp.getD b.market.lastUpdate := by
  cases m <;> rfl

/-- What is never taken back: the parameters of a market in use, and what the owner has
enabled. -/
structure Storage.Extends (s s' : Storage) : Prop where
  market : ∀ id, (s.market id).lastUpdate ≠ 0 →
    (s'.market id).lastUpdate ≠ 0 ∧ s'.idToMarketParams id = s.idToMarketParams id
  irm : ∀ irm, s.isIrmEnabled irm → s'.isIrmEnabled irm
  lltv : ∀ lltv, s.isLltvEnabled lltv → s'.isLltvEnabled lltv

namespace Storage.Extends

variable {s s' s₁ : Storage}

theorem refl (s : Storage) : s.Extends s :=
  ⟨fun _ hUsed => ⟨hUsed, rfl⟩, fun _ h => h, fun _ h => h⟩

theorem trans (h : s.Extends s₁) (h' : s₁.Extends s') : s.Extends s' where
  market := fun id hUsed => by
    obtain ⟨hUsed₁, hParams₁⟩ := h.market id hUsed
    obtain ⟨hUsed', hParams'⟩ := h'.market id hUsed₁
    exact ⟨hUsed', hParams'.trans hParams₁⟩
  irm := fun irm hIrm => h'.irm irm (h.irm irm hIrm)
  lltv := fun lltv hLltv => h'.lltv lltv (h.lltv lltv hLltv)

end Storage.Extends

/-- The moves of a call set no time but that of the accrual. -/
theorem Own.stamp {env : Env} {msg : Msg} {price : Address → Result Nat} {s₁ s' : Storage}
    {call : Call} {p : MarketParams} {ms : List Move} {is : List Interaction}
    (h : Own env msg price s₁ s' call p ms is) : ∀ m ∈ ms, m.stamp = none := by
  intro m hm
  cases h <;> simp only [List.mem_singleton, List.not_mem_nil] at hm <;> subst hm
  all_goals rfl

/-- An accrual sets a time that is not zero. -/
theorem Storage.Accrues.stamp {msg : Msg} {s : Storage} {id : Id} {acc : List Move}
    (h : s.Accrues msg id acc) (hTime : msg.timestamp < 2 ^ 128) :
    ∀ m ∈ acc, m.stamp ≠ some 0 := by
  intro m hm
  obtain rfl | ⟨hLater, c, rfl, hStamp⟩ := h
  · cases hm
  · rw [List.mem_singleton.mp hm]
    rw [Nat.mod_eq_of_lt hTime] at hStamp
    intro hZero
    have hLast : c.lastUpdate = 0 := Option.some.inj hZero
    omega

/-- Nothing of this is taken back by a call. -/
theorem effects_extends {env : Env} {msg : Msg} {price : Address → Result Nat} {s s' : Storage}
    {call : Call} {is : List Interaction} (h : call.effects env msg price s = .ok (s', is))
    (hTime : msg.timestamp < 2 ^ 128) : s.Extends s' := by
  cases Call.effect h with
  | market p created steps own =>
    obtain ⟨acc, hAcc, hMoved⟩ := steps.all
    have hFrame := hMoved.frame
    refine ⟨fun id hUsed => ⟨?_, congrFun hMoved.params id⟩, ?_, ?_⟩
    · by_cases hId : id = env.id p
      · subst hId
        refine Lib.run_invariant_mem (P := fun b => b.market.lastUpdate ≠ 0)
          (fun b m b' hm hUsed hStep => ?_) hUsed hMoved.run
        obtain ⟨-, rfl⟩ := Book.step_eq_some_iff.mp hStep
        rw [Book.lastUpdate_after]
        obtain hm | hm := List.mem_append.mp hm
        · have hStamp := hAcc.stamp hTime m hm
          cases hTold : m.stamp with
          | none => exact hUsed
          | some t => exact fun hZero => hStamp (hTold.trans (congrArg some hZero))
        · rw [own.stamp m hm]
          exact hUsed
      · have hSame := congrArg Book.market (hMoved.others id hId)
        exact fun hZero => hUsed ((congrArg Market.lastUpdate hSame).symm.trans hZero)
    · rw [hFrame]
      exact fun _ hIrm => hIrm
    · rw [hFrame]
      exact fun _ hLltv => hLltv
  | create p _ _ fresh =>
    refine ⟨fun id hUsed => ?_, fun _ hIrm => hIrm, fun _ hLltv => hLltv⟩
    have hId : id ≠ env.id p := fun hEq => hUsed (hEq ▸ fresh)
    have hSame := congrArg Book.market
      (Storage.created_book_of_ne s p (msg.timestamp % 2 ^ 128) hId)
    exact ⟨fun hZero => hUsed ((congrArg Market.lastUpdate hSame).symm.trans hZero),
      Storage.created_params_of_ne _ _ _ hId⟩
  | other apart =>
    cases apart
    case enableIrm irm _ =>
      exact ⟨fun _ hUsed => ⟨hUsed, rfl⟩, fun _ hIrm => update_true irm hIrm, fun _ hLltv => hLltv⟩
    case enableLltv lltv _ _ =>
      exact ⟨fun _ hUsed => ⟨hUsed, rfl⟩, fun _ hIrm => hIrm, fun _ hLltv => update_true lltv hLltv⟩
    all_goals exact ⟨fun _ hUsed => ⟨hUsed, rfl⟩, fun _ hIrm => hIrm, fun _ hLltv => hLltv⟩

-- ---------------------------------------------------------------------------
-- Liquidations
-- ---------------------------------------------------------------------------

/-- If a move is a liquidation, it is fair. -/
def Move.FairAt (p : MarketParams) (collateralPrice : Nat) : Move → Prop
  | .liquidate _ l => l.FairAt p collateralPrice
  | _ => True

/-- What is fair at a price is fair at any lower one. -/
theorem Liquidation.FairAt.mono {p : MarketParams} {floor collateralPrice : Nat} {l : Liquidation}
    (h : l.FairAt p collateralPrice) (hFloor : floor ≤ collateralPrice) : l.FairAt p floor := by
  obtain ⟨factor, hFactor, hMax, hBounded⟩ := h
  refine ⟨factor, hFactor, hMax, ?_⟩
  exact (Nat.mul_le_mul_right _ (Nat.mul_le_mul_left _ hFloor)).trans hBounded

/-- The calls that leave the price of a market at least what is given, and name no other market of
its id. -/
def Above (env : Env) (p : MarketParams) (floor : Nat) : Action → Prop
  | .morpho call => ∀ p' ∈ call.marketParams, env.id p' = env.id p → p' = p
  | .token _ _ => True
  | .setPrice oracle newPrice => oracle = p.oracle → floor ≤ newPrice

instance (env : Env) (p : MarketParams) (floor : Nat) : DecidablePred (Above env p floor)
  | .morpho call =>
    inferInstanceAs (Decidable (∀ p' ∈ call.marketParams, env.id p' = env.id p → p' = p))
  | .token _ _ => instDecidableTrue
  | .setPrice oracle newPrice =>
    inferInstanceAs (Decidable (oracle = p.oracle → floor ≤ newPrice))

theorem Own.fair {env : Env} {msg : Msg} {price : Address → Result Nat} {s₁ s' : Storage}
    {call : Call} {p : MarketParams} {ms : List Move} {is : List Interaction} {floor : Nat}
    (h : Own env msg price s₁ s' call p ms is)
    (hPrice : ∀ collateralPrice, price p.oracle = .ok collateralPrice → floor ≤ collateralPrice) :
    ∀ m ∈ ms, m.FairAt p floor := by
  intro m hm
  cases h <;> simp only [List.mem_singleton, List.not_mem_nil] at hm <;> subst hm
  case liquidate borrower _ _ l collateralPrice quoted _ fair =>
    exact fair.mono (hPrice collateralPrice quoted)
  all_goals trivial

theorem Storage.Accrues.fair {msg : Msg} {s : Storage} {id : Id} {acc : List Move}
    {p : MarketParams} {floor : Nat} (h : s.Accrues msg id acc) : ∀ m ∈ acc, m.FairAt p floor := by
  intro m hm
  obtain rfl | ⟨-, c, rfl, -⟩ := h
  · cases hm
  · rw [List.mem_singleton.mp hm]
    trivial

theorem Move.FairAt.of_told {m m' : Move} {p : MarketParams} {floor : Nat}
    (hFair : m.FairAt p floor) (h : m.told = some m') : m'.FairAt p floor := by
  cases m with
  | create t => cases h
  | accrue b c =>
    by_cases hZero : c.interest = 0 ∧ c.feeShares = 0
    · cases (if_pos hZero).symm.trans h
    · obtain rfl := Option.some.inj ((if_neg hZero).symm.trans h)
      trivial
  | _ =>
    obtain rfl := Option.some.inj h
    exact hFair

/-- The liquidations that a call tells are fair at a price that the oracle's is at least. -/
theorem effects_fair {env : Env} {msg : Msg} {price : Address → Result Nat} {s s' : Storage}
    {call : Call} {is : List Interaction} {p : MarketParams} {floor : Nat}
    (h : call.effects env msg price s = .ok (s', is)) (hAbove : Above env p floor (.morpho call))
    (hPrice : ∀ collateralPrice, price p.oracle = .ok collateralPrice → floor ≤ collateralPrice) :
    ∃ es, s'.logs = s.logs ++ es ∧ ∀ m ∈ Event.moves (env.id p) es, m.FairAt p floor := by
  cases Call.effect h with
  | market p' created steps own =>
    obtain ⟨acc, hAcc, hMoved⟩ := steps.all
    obtain ⟨es, hTells⟩ := hMoved.tells
    refine ⟨es, hTells.logs, fun m hm => ?_⟩
    by_cases hId : env.id p' = env.id p
    · obtain rfl := hAbove p' own.marketParams hId
      rw [hTells.told] at hm
      obtain ⟨m₀, hm₀, hTold⟩ := List.mem_filterMap.mp hm
      obtain hm₀ | hm₀ := List.mem_append.mp hm₀
      · exact (hAcc.fair m₀ hm₀).of_told hTold
      · exact (own.fair hPrice m₀ hm₀).of_told hTold
    · rw [hTells.others (Ne.symm hId)] at hm
      exact absurd hm List.not_mem_nil
  | create p' _ _ _ =>
    exact ⟨[.CreateMarket (env.id p') p'], rfl, fun m hm => absurd hm List.not_mem_nil⟩
  | other apart =>
    obtain ⟨es, hLogs, hSilent⟩ := apart.silent (env.id p)
    refine ⟨es, hLogs, fun m hm => ?_⟩
    rw [hSilent] at hm
    exact absurd hm List.not_mem_nil

theorem preserved_fair {env : Env} {p : MarketParams} {floor : Nat} {s₀ : Storage} :
    Preserved env (fun _ => Above env p floor) fun w =>
      (∀ collateralPrice, w.price p.oracle = .ok collateralPrice → floor ≤ collateralPrice) ∧
      ∃ es, w.morpho.logs = s₀.logs ++ es ∧ ∀ m ∈ Event.moves (env.id p) es, m.FairAt p floor where
  effects := fun hAbove ⟨hPrice, es, hLogs, hFair⟩ h => by
    obtain ⟨es', hLogs', hFair'⟩ := effects_fair h hAbove hPrice
    refine ⟨hPrice, es ++ es', by rw [hLogs', hLogs, List.append_assoc], fun m hm => ?_⟩
    rw [Event.moves_append] at hm
    exact (List.mem_append.mp hm).elim (hFair m) (hFair' m)
  pay := fun hI _ => hI
  pull := fun _ hI _ => hI
  token := fun _ hI _ _ => hI
  setPrice := fun {w _ oracle newPrice} hAbove ⟨hPrice, hSoFar⟩ => by
    refine ⟨fun collateralPrice hOk => ?_, hSoFar⟩
    by_cases hOracle : oracle = p.oracle
    · subst hOracle
      rw [World.price_update] at hOk
      exact Except.ok.inj hOk ▸ hAbove rfl
    · rw [World.price_update_of_ne _ _ (Ne.symm hOracle)] at hOk
      exact hPrice collateralPrice hOk

-- ---------------------------------------------------------------------------
-- Runs
-- ---------------------------------------------------------------------------

section Runs

variable {env : Env} {newOwner : Address} {deployed : Address → Bool}
  {oracles : Address → Option OracleMock} {w₀ w w' : World} {ts ts' : List Transaction}

/-- **Every market in use is one the owner allows**: its parameters are those of its id, with an
enabled interest rate model and an enabled threshold below one, and its fee is at most the
greatest. -/
theorem markets_in_terms (hNew : World.new newOwner deployed oracles = .ok w₀)
    (hRun : Lib.run (step env) w₀ ts = some w) (id : Id)
    (hUsed : (w.morpho.market id).lastUpdate ≠ 0) :
    env.id (w.morpho.idToMarketParams id) = id ∧
    w.morpho.isIrmEnabled (w.morpho.idToMarketParams id).irm ∧
    w.morpho.isLltvEnabled (w.morpho.idToMarketParams id).lltv ∧
    (w.morpho.idToMarketParams id).lltv < WAD ∧ (w.morpho.market id).fee ≤ MAX_FEE := by
  have hKept : Preserved env (fun _ _ => True) fun w => w.morpho.InTerms env :=
    .ofStorage (I := fun s => s.InTerms env) fun _ hTerms h => effects_inTerms h hTerms
  have hStart := World.new_morpho hNew
  simp only [Storage.new, bind_ok_iff, pure_ok_iff] at hStart
  obtain ⟨-, -, hStart⟩ := hStart
  have hTerms : w.morpho.InTerms env := by
    refine hKept.run (fun t _ => t.all_true) ?_ hRun
    rw [← hStart]
    exact ⟨fun _ hNone => absurd hNone Bool.false_ne_true, fun _ hNone => absurd rfl hNone⟩
  obtain ⟨hId, hIrm, hLltv⟩ := hTerms.market id hUsed
  exact ⟨hId, hIrm, hLltv, hTerms.lltv_lt _ hLltv, (run_balanced hNew hRun id).fee_le⟩

theorem markets_in_terms_liquidation : ∃ w₀ w, Deployment.setUp = .ok w₀ ∧
    Lib.run (step Deployment.env) w₀ Deployment.all = some w ∧
    (w.morpho.market Deployment.id).lastUpdate ≠ 0 ∧
    Deployment.env.id (w.morpho.idToMarketParams Deployment.id) = Deployment.id ∧
    w.morpho.isIrmEnabled (w.morpho.idToMarketParams Deployment.id).irm ∧
    w.morpho.isLltvEnabled (w.morpho.idToMarketParams Deployment.id).lltv ∧
    (w.morpho.idToMarketParams Deployment.id).lltv < WAD ∧
    (w.morpho.market Deployment.id).fee ≤ MAX_FEE := by
  obtain ⟨w₀, w, hNew, hRun, hUsed⟩ := Deployment.exists_of_runs Deployment.all
    (fun w => decide ((w.morpho.market Deployment.id).lastUpdate ≠ 0)) (by decide +kernel)
  have hUsed := of_decide_eq_true hUsed
  exact ⟨w₀, w, hNew, hRun, hUsed, markets_in_terms hNew hRun Deployment.id hUsed⟩

/-- **What is agreed stays agreed**: a market that was created is never created anew or given other
parameters, and nothing that was enabled is disabled. -/
theorem terms_are_permanent (hTimes : ∀ t ∈ ts, t.timestamp < 2 ^ 128)
    (hRun : Lib.run (step env) w ts = some w') : w.morpho.Extends w'.morpho := by
  have hKept : Preserved env (fun msg _ => msg.timestamp < 2 ^ 128) fun w' =>
      w.morpho.Extends w'.morpho :=
    .ofStorage (I := fun s => w.morpho.Extends s) fun hTime hSoFar h =>
      hSoFar.trans (effects_extends h hTime)
  exact hKept.run (fun t ht => t.all_of fun _ _ => hTimes t ht) (.refl _) hRun

theorem terms_are_permanent_liquidation : ∃ w₀ w w', Deployment.setUp = .ok w₀ ∧
    Lib.run (step Deployment.env) w₀ Deployment.market = some w ∧
    Lib.run (step Deployment.env) w (Deployment.position ++ Deployment.liquidation) = some w' ∧
    w.morpho.Extends w'.morpho := by
  obtain ⟨w₀, w, w', hNew, hRun, hLater, -⟩ := Deployment.exists_of_runs_append Deployment.market
    (Deployment.position ++ Deployment.liquidation) (fun _ => true) (fun _ => true)
    (by decide +kernel) (by decide +kernel)
  exact ⟨w₀, w, w', hNew, hRun, hLater, terms_are_permanent (by decide +kernel) hLater⟩

/-- **Liquidations are fair.** As long as the oracle's price of the collateral is at least `floor`,
every liquidation seizes collateral that is worth, at that price, no more than the repaid assets
times the market's incentive factor. -/
theorem liquidations_are_fair {p : MarketParams} {floor : Nat}
    (hPrice : ∀ collateralPrice, w.price p.oracle = .ok collateralPrice → floor ≤ collateralPrice)
    (hAbove : ∀ t ∈ ts, t.All fun _ => Above env p floor)
    (hRun : Lib.run (step env) w ts = some w') {es : List Event}
    (hLogs : w'.morpho.logs = w.morpho.logs ++ es) :
    ∀ m ∈ Event.moves (env.id p) es, m.FairAt p floor := by
  obtain ⟨-, es', hLogs', hFair⟩ := preserved_fair.run hAbove
    ⟨hPrice, [], (List.append_nil _).symm, fun m hm => absurd hm List.not_mem_nil⟩ hRun
  obtain rfl := List.append_cancel_left (hLogs.symm.trans hLogs')
  exact hFair

theorem liquidations_are_fair_liquidation : ∃ w₀ w w' es, Deployment.setUp = .ok w₀ ∧
    Lib.run (step Deployment.env) w₀ (Deployment.market ++ Deployment.position) = some w ∧
    Lib.run (step Deployment.env) w Deployment.liquidation = some w' ∧
    w'.morpho.logs = w.morpho.logs ++ es ∧
    ∀ m ∈ Event.moves Deployment.id es,
      m.FairAt Deployment.marketParams (ORACLE_PRICE_SCALE * 80 / 100) := by
  obtain ⟨w₀, w, w', es, hNew, hRun, hLater, hLogs, hPrice, -⟩ := Deployment.exists_of_later
    (Deployment.market ++ Deployment.position) Deployment.liquidation 8
    (fun w => decide (w.price Deployment.oracle = .ok ORACLE_PRICE_SCALE)) (fun _ => true)
    (by decide +kernel) (by decide +kernel)
  have hFloor : ∀ collateralPrice, w.price Deployment.marketParams.oracle = .ok collateralPrice →
      ORACLE_PRICE_SCALE * 80 / 100 ≤ collateralPrice := fun collateralPrice hOk => by
    obtain rfl := Except.ok.inj ((of_decide_eq_true hPrice).symm.trans hOk)
    decide
  exact ⟨w₀, w, w', es, hNew, hRun, hLater, hLogs,
    liquidations_are_fair hFloor (by decide +kernel) hLater hLogs⟩

end Runs

end LineraEndToEnd.Morpho
