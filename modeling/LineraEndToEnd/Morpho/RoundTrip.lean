import LineraEndToEnd.Morpho.History

/-!
# Nobody gains by rounding

Assets are turned into shares and back with every call, and rounded each time. However
an account supplies and withdraws, it ends with no more than it began with, counting
what it has paid and got; and however it borrows and repays, it owes no less. Rounding
favours those who do nothing, so what others do in between is excluded here.

* `Book.claim_after`, `Book.debt_after` — one move.
* `Book.claim_run`, `Book.debt_run` — a run of moves.
* `no_gain_by_supplying`, `no_relief_by_borrowing` — a run of the contracts.
-/

namespace LineraEndToEnd.Morpho

open Solidity
open Lib (Pool)

-- ---------------------------------------------------------------------------
-- What an account pays and gets
-- ---------------------------------------------------------------------------

namespace Move

variable (a : Address)

/-- What is supplied for an account. -/
def supplied : Move → Nat
  | .supply onBehalf assets _ => if onBehalf = a then assets else 0
  | _ => 0

/-- What is withdrawn for it. -/
def withdrawn : Move → Nat
  | .withdraw onBehalf assets _ => if onBehalf = a then assets else 0
  | _ => 0

/-- What is borrowed for it. -/
def borrowed : Move → Nat
  | .borrow onBehalf assets _ => if onBehalf = a then assets else 0
  | _ => 0

/-- What is repaid for it. -/
def repaid : Move → Nat
  | .repay onBehalf assets _ => if onBehalf = a then assets else 0
  | _ => 0

/-- Whether a move may make an account's shares worth more without its paying: interest is
accrued, or the rounding of another account's assets is left to it. -/
def enriches : Move → Prop
  | .accrue _ c => c.interest ≠ 0
  | .supply onBehalf _ _ => onBehalf ≠ a
  | .withdraw onBehalf _ _ => onBehalf ≠ a
  | _ => False

/-- Whether a move may make an account owe less without its paying: another account borrows or
repays, whose rounding is left to it, or a position is liquidated. -/
def relieves : Move → Prop
  | .borrow onBehalf _ _ => onBehalf ≠ a
  | .repay onBehalf _ _ => onBehalf ≠ a
  | .liquidate _ _ => True
  | _ => False

instance : DecidablePred (Move.enriches a)
  | .accrue _ c => inferInstanceAs (Decidable (c.interest ≠ 0))
  | .supply onBehalf _ _ => inferInstanceAs (Decidable (onBehalf ≠ a))
  | .withdraw onBehalf _ _ => inferInstanceAs (Decidable (onBehalf ≠ a))
  | .create _ | .setFee _ | .borrow _ _ _ | .repay _ _ _ | .supplyCollateral _ _
  | .withdrawCollateral _ _ | .liquidate _ _ => instDecidableFalse

instance : DecidablePred (Move.relieves a)
  | .borrow onBehalf _ _ => inferInstanceAs (Decidable (onBehalf ≠ a))
  | .repay onBehalf _ _ => inferInstanceAs (Decidable (onBehalf ≠ a))
  | .liquidate _ _ => instDecidableTrue
  | .create _ | .setFee _ | .accrue _ _ | .supply _ _ _ | .withdraw _ _ _
  | .supplyCollateral _ _ | .withdrawCollateral _ _ => instDecidableFalse

end Move

-- ---------------------------------------------------------------------------
-- One move
-- ---------------------------------------------------------------------------

namespace Book

/-- What an account could withdraw, rounded down. -/
def claim (b : Book) (a : Address) : Nat := b.supplySide.worthDown (b.position a).supplyShares

variable {b b' : Book} {a : Address} {pos : Position}

/-- A position is written with the supply shares it had. -/
theorem supplyShares_setPosition {a' : Address}
    (h : pos.supplyShares = (b.position a).supplyShares) :
    ((b.setPosition a pos).position a').supplyShares = (b.position a').supplyShares := by
  by_cases ha : a' = a
  · subst ha
    rwa [setPosition_self]
  · rw [setPosition_of_ne b pos ha]

/-- A position is written with the borrow shares it had. -/
theorem borrowShares_setPosition {a' : Address}
    (h : pos.borrowShares = (b.position a).borrowShares) :
    ((b.setPosition a pos).position a').borrowShares = (b.position a').borrowShares := by
  by_cases ha : a' = a
  · subst ha
    rwa [setPosition_self]
  · rw [setPosition_of_ne b pos ha]

/-- Without more shares, or a higher price, a claim does not grow. -/
theorem claim_le {paidIn paidOut : Nat} (hOut : paidOut = 0)
    (hPrice : b'.supplySide.PriceLe b.supplySide)
    (hShares : (b'.position a).supplyShares = (b.position a).supplyShares) :
    b'.claim a + paidOut ≤ b.claim a + paidIn := by
  unfold claim
  rw [hShares, hOut]
  exact Nat.add_le_add (hPrice.worthDown_le _) (Nat.zero_le _)

/-- Without fewer shares, or a lower price, a debt does not shrink. -/
theorem debt_le {lent repaid : Nat} (hLent : lent = 0) (hPrice : b.borrowSide.PriceLe b'.borrowSide)
    (hShares : (b'.position a).borrowShares = (b.position a).borrowShares) :
    b.debt a + lent ≤ b'.debt a + repaid := by
  unfold debt
  rw [hShares, hLent]
  exact Nat.add_le_add (hPrice.worthUp_le _) (Nat.zero_le _)

/-- The shares of the supply side that are not an account's. -/
def othersSupply (b : Book) (a : Address) : Nat :=
  b.market.totalSupplyShares - (b.position a).supplyShares + VIRTUAL_SHARES

/-- The shares of the borrow side that are not an account's. -/
def othersBorrow (b : Book) (a : Address) : Nat :=
  b.market.totalBorrowShares - (b.position a).borrowShares + VIRTUAL_SHARES

theorem supplySide_shares (h : b.Balanced) (a : Address) :
    b.supplySide.shares = (b.position a).supplyShares + b.othersSupply a := by
  have hHeld := h.supplyShares_le a
  show b.market.totalSupplyShares + VIRTUAL_SHARES = _
  unfold othersSupply
  omega

theorem borrowSide_shares (h : b.Balanced) (a : Address) :
    b.borrowSide.shares = (b.position a).borrowShares + b.othersBorrow a := by
  have hHeld := h.borrowShares_le a
  show b.market.totalBorrowShares + VIRTUAL_SHARES = _
  unfold othersBorrow
  omega

/-- A supply is worth no more to the supplier than what is paid. -/
theorem claim_supply (h : b.Balanced) {assets shares : Nat}
    (hGuard : b.Guard (.supply a assets shares)) :
    (b.after (.supply a assets shares)).claim a ≤ b.claim a + assets := by
  have hOthers : (b.after (.supply a assets shares)).othersSupply a = b.othersSupply a := by
    simp only [othersSupply, after, setPosition_self]
    omega
  have hShares := supplySide_shares (h.after hGuard) a
  rw [hOthers] at hShares
  have hExchange := Pool.worthDown_exchange (b.othersSupply a) assets 0
    (priceLe_after h hGuard not_false) (supplySide_shares h a) hShares
    (Nat.le_of_eq (Nat.add_right_comm b.market.totalSupplyAssets assets 1))
  rw [Nat.add_zero] at hExchange
  exact hExchange

/-- What is withdrawn was worth no less before. -/
theorem claim_withdraw (h : b.Balanced) {assets shares : Nat}
    (hGuard : b.Guard (.withdraw a assets shares)) :
    (b.after (.withdraw a assets shares)).claim a + assets ≤ b.claim a := by
  have hHeld := h.supplyShares_le a
  have hOthers : (b.after (.withdraw a assets shares)).othersSupply a = b.othersSupply a := by
    have hEnough := hGuard.1
    simp only [othersSupply, after, setPosition_self]
    omega
  have hShares := supplySide_shares (h.after hGuard) a
  rw [hOthers] at hShares
  have hFlow : b.market.totalSupplyAssets - assets + 1 + assets =
      b.market.totalSupplyAssets + 1 := by
    have hLiquid := hGuard.2.2
    omega
  have hExchange := Pool.worthDown_exchange (b.othersSupply a) 0 assets
    (priceLe_after h hGuard not_false) (supplySide_shares h a) hShares (Nat.le_of_eq hFlow)
  rw [Nat.add_zero] at hExchange
  exact hExchange

/-- What is borrowed is owed. -/
theorem debt_borrow (h : b.Balanced) {assets shares : Nat}
    (hGuard : b.Guard (.borrow a assets shares)) :
    b.debt a + assets ≤ (b.after (.borrow a assets shares)).debt a := by
  have hOthers : (b.after (.borrow a assets shares)).othersBorrow a = b.othersBorrow a := by
    simp only [othersBorrow, after, setPosition_self]
    omega
  have hShares := borrowSide_shares (h.after hGuard) a
  rw [hOthers] at hShares
  have hPrice : (b.after (.borrow a assets shares)).borrowSide.PriceLe b.borrowSide :=
    Pool.priceLe_of_add _ _ (Nat.add_right_comm ..) (Nat.add_right_comm ..) hGuard.1.le
  have hExchange := Pool.worthUp_exchange (b.othersBorrow a) assets 0 hPrice
    (borrowSide_shares h a) hShares
    (Nat.le_of_eq (Nat.add_right_comm b.market.totalBorrowAssets 1 assets))
  rw [Nat.add_zero] at hExchange
  exact hExchange

/-- A repayment lowers the debt by no more than what is paid. -/
theorem debt_repay (h : b.Balanced) {assets shares : Nat}
    (hGuard : b.Guard (.repay a assets shares)) :
    b.debt a ≤ (b.after (.repay a assets shares)).debt a + assets := by
  have hHeld := h.borrowShares_le a
  rcases le_or_gt assets b.market.totalBorrowAssets with hLe | hGt
  · have hEnough := hGuard.1
    have hOthers : (b.after (.repay a assets shares)).othersBorrow a = b.othersBorrow a := by
      simp only [othersBorrow, after, setPosition_self]
      omega
    have hShares := borrowSide_shares (h.after hGuard) a
    rw [hOthers] at hShares
    have hFlow : b.market.totalBorrowAssets + 1 =
        b.market.totalBorrowAssets - assets + 1 + assets := by
      omega
    have hLeave : b.market.totalBorrowShares + VIRTUAL_SHARES =
        b.market.totalBorrowShares - shares + VIRTUAL_SHARES + shares := by
      omega
    have hPrice : (b.after (.repay a assets shares)).borrowSide.PriceLe b.borrowSide :=
      Pool.priceLe_of_remove assets shares hFlow hLeave hGuard.2.le
    have hExchange := Pool.worthUp_exchange (b.othersBorrow a) 0 assets hPrice
      (borrowSide_shares h a) hShares (Nat.le_of_eq hFlow)
    rw [Nat.add_zero] at hExchange
    exact hExchange
  · -- more is repaid than all accounts owe together
    have hAll : b.debt a ≤ b.market.totalBorrowAssets + 1 :=
      Pool.worthUp_le_assets _ (hHeld.trans (Nat.le_add_right _ _))
    omega

/-- **An account gains nothing by a move of its own.** -/
theorem claim_after (h : b.Balanced) : ∀ {m : Move}, b.Guard m → ¬ m.enriches a →
    (b.after m).claim a + m.withdrawn a ≤ b.claim a + m.supplied a
  | .create _, _, _ => claim_le rfl (Pool.PriceLe.refl _) rfl
  | .setFee _, _, _ => claim_le rfl (Pool.PriceLe.refl _) rfl
  | .accrue onBehalf c, hGuard, hNone => by
    have hZero : c.interest = 0 := not_not.mp hNone
    have hFee : c.feeAmount = 0 := Nat.le_zero.mp (hZero ▸ feeAmount_le h hGuard)
    have hShares : c.feeShares = 0 := by
      rw [hGuard.2, hFee]
      exact Lib.mulDivFloor_zero _ _
    refine claim_le rfl ?_ (supplyShares_setPosition (congrArg (_ + ·) hShares))
    show (virtualPool (b.market.totalSupplyAssets + c.interest)
      (b.market.totalSupplyShares + c.feeShares)).PriceLe b.supplySide
    rw [hZero, hShares]
    exact Pool.PriceLe.refl _
  | .supply onBehalf assets shares, hGuard, hOwn => by
    obtain rfl : onBehalf = a := not_not.mp hOwn
    have hOut : Move.withdrawn onBehalf (.supply onBehalf assets shares) = 0 := rfl
    have hIn : Move.supplied onBehalf (.supply onBehalf assets shares) = assets := if_pos rfl
    rw [hOut, hIn, Nat.add_zero]
    exact claim_supply h hGuard
  | .withdraw onBehalf assets shares, hGuard, hOwn => by
    obtain rfl : onBehalf = a := not_not.mp hOwn
    have hOut : Move.withdrawn onBehalf (.withdraw onBehalf assets shares) = assets := if_pos rfl
    have hIn : Move.supplied onBehalf (.withdraw onBehalf assets shares) = 0 := rfl
    rw [hOut, hIn, Nat.add_zero]
    exact claim_withdraw h hGuard
  | .borrow _ _ _, _, _ => claim_le rfl (Pool.PriceLe.refl _) (supplyShares_setPosition rfl)
  | .repay _ _ _, _, _ => claim_le rfl (Pool.PriceLe.refl _) (supplyShares_setPosition rfl)
  | .supplyCollateral _ _, _, _ => claim_le rfl (Pool.PriceLe.refl _) (supplyShares_setPosition rfl)
  | .withdrawCollateral _ _, _, _ =>
    claim_le rfl (Pool.PriceLe.refl _) (supplyShares_setPosition rfl)
  | .liquidate _ _, _, _ =>
    claim_le rfl (Nat.mul_le_mul_right _ (Nat.add_le_add_right (Nat.sub_le ..) 1))
      (supplyShares_setPosition rfl)

/-- **An account is relieved of nothing by a move of its own.** -/
theorem debt_after (h : b.Balanced) : ∀ {m : Move}, b.Guard m → ¬ m.relieves a →
    b.debt a + m.borrowed a ≤ (b.after m).debt a + m.repaid a
  | .create _, _, _ => debt_le rfl (Pool.PriceLe.refl _) rfl
  | .setFee _, _, _ => debt_le rfl (Pool.PriceLe.refl _) rfl
  | .accrue _ _, _, _ =>
    debt_le rfl (Nat.mul_le_mul_right _ (Nat.add_le_add_right (Nat.le_add_right ..) 1))
      (borrowShares_setPosition rfl)
  | .supply _ _ _, _, _ => debt_le rfl (Pool.PriceLe.refl _) (borrowShares_setPosition rfl)
  | .withdraw _ _ _, _, _ => debt_le rfl (Pool.PriceLe.refl _) (borrowShares_setPosition rfl)
  | .borrow onBehalf assets shares, hGuard, hOwn => by
    obtain rfl : onBehalf = a := not_not.mp hOwn
    have hLent : Move.borrowed onBehalf (.borrow onBehalf assets shares) = assets := if_pos rfl
    have hRepaid : Move.repaid onBehalf (.borrow onBehalf assets shares) = 0 := rfl
    rw [hLent, hRepaid, Nat.add_zero]
    exact debt_borrow h hGuard
  | .repay onBehalf assets shares, hGuard, hOwn => by
    obtain rfl : onBehalf = a := not_not.mp hOwn
    have hLent : Move.borrowed onBehalf (.repay onBehalf assets shares) = 0 := rfl
    have hRepaid : Move.repaid onBehalf (.repay onBehalf assets shares) = assets := if_pos rfl
    rw [hLent, hRepaid, Nat.add_zero]
    exact debt_repay h hGuard
  | .supplyCollateral _ _, _, _ => debt_le rfl (Pool.PriceLe.refl _) (borrowShares_setPosition rfl)
  | .withdrawCollateral _ _, _, _ =>
    debt_le rfl (Pool.PriceLe.refl _) (borrowShares_setPosition rfl)
  | .liquidate _ _, _, hNone => absurd trivial hNone

-- ---------------------------------------------------------------------------
-- Runs of moves
-- ---------------------------------------------------------------------------

/-- **An account gains nothing by moves of its own.** -/
theorem claim_run {ms : List Move} (h : b.Balanced) (hNone : ∀ m ∈ ms, ¬ m.enriches a)
    (hRun : Lib.run step b ms = some b') :
    b'.claim a + (ms.map (Move.withdrawn a)).sum ≤ b.claim a + (ms.map (Move.supplied a)).sum := by
  induction ms generalizing b with
  | nil => exact Option.some.inj hRun ▸ le_rfl
  | cons m ms ih =>
    obtain ⟨b₁, hFirst, hRest⟩ := Lib.run_cons_eq_some.mp hRun
    obtain ⟨hGuard, rfl⟩ := step_eq_some_iff.mp hFirst
    have hOne := claim_after h hGuard (hNone m List.mem_cons_self)
    have hLater := ih (h.after hGuard) (fun m' hm' => hNone m' (List.mem_cons_of_mem m hm')) hRest
    simp only [List.map_cons, List.sum_cons]
    omega

/-- **An account is relieved of nothing by moves of its own.** -/
theorem debt_run {ms : List Move} (h : b.Balanced) (hNone : ∀ m ∈ ms, ¬ m.relieves a)
    (hRun : Lib.run step b ms = some b') :
    b.debt a + (ms.map (Move.borrowed a)).sum ≤ b'.debt a + (ms.map (Move.repaid a)).sum := by
  induction ms generalizing b with
  | nil => exact Option.some.inj hRun ▸ le_rfl
  | cons m ms ih =>
    obtain ⟨b₁, hFirst, hRest⟩ := Lib.run_cons_eq_some.mp hRun
    obtain ⟨hGuard, rfl⟩ := step_eq_some_iff.mp hFirst
    have hOne := debt_after h hGuard (hNone m List.mem_cons_self)
    have hLater := ih (h.after hGuard) (fun m' hm' => hNone m' (List.mem_cons_of_mem m hm')) hRest
    simp only [List.map_cons, List.sum_cons]
    omega

end Book

-- ---------------------------------------------------------------------------
-- What the log tells
-- ---------------------------------------------------------------------------

namespace Move

variable {a : Address} {m : Move} {ms : List Move}

/-- An amount that no accrual has is the same in what is told. -/
theorem sum_told {f : Move → Nat} (hCreate : ∀ t, f (.create t) = 0)
    (hAccrue : ∀ a c, f (.accrue a c) = 0) (ms : List Move) :
    ((ms.filterMap told).map f).sum = (ms.map f).sum := by
  induction ms with
  | nil => rfl
  | cons m ms ih =>
    rw [List.map_cons, List.sum_cons, ← ih]
    cases m with
    | create t => rw [hCreate, Nat.zero_add, List.filterMap_cons, told]
    | accrue a c =>
      rw [hAccrue, Nat.zero_add, List.filterMap_cons, told]
      by_cases hZero : c.interest = 0 ∧ c.feeShares = 0
      · rw [if_pos hZero]
      · rw [if_neg hZero, List.map_cons, List.sum_cons, hAccrue, Nat.zero_add]
    | _ => rfl

theorem enriches.told (h : m.enriches a) : ∃ m', m.told = some m' ∧ m'.enriches a := by
  cases m with
  | accrue b c => exact ⟨_, if_neg fun hZero => h hZero.1, h⟩
  | supply b assets shares => exact ⟨_, rfl, h⟩
  | withdraw b assets shares => exact ⟨_, rfl, h⟩
  | _ => exact h.elim

theorem relieves.told (h : m.relieves a) : m.told = some m := by
  cases m with
  | borrow b assets shares => rfl
  | repay b assets shares => rfl
  | liquidate b l => rfl
  | _ => exact h.elim

end Move

-- ---------------------------------------------------------------------------
-- Runs of the contracts
-- ---------------------------------------------------------------------------

section Runs

variable {env : Env} {newOwner : Address} {deployed : Address → Bool}
  {oracles : Address → Option OracleMock} {w₀ w w' : World} {ts ts' : List Transaction}

/-- **Nobody gains by supplying and withdrawing**, in whatever order and amounts: what an account
has withdrawn and can still withdraw is no more than what it could before and has supplied. -/
theorem no_gain_by_supplying (hNew : World.new newOwner deployed oracles = .ok w₀)
    (hRun : Lib.run (step env) w₀ ts = some w) (hLater : Lib.run (step env) w ts' = some w')
    (id : Id) (a : Address) {es : List Event} (hLogs : w'.morpho.logs = w.morpho.logs ++ es)
    (hNone : ∀ m ∈ Event.moves id es, ¬ m.enriches a) :
    (w'.morpho.book id).claim a + ((Event.moves id es).map (Move.withdrawn a)).sum ≤
      (w.morpho.book id).claim a + ((Event.moves id es).map (Move.supplied a)).sum := by
  obtain ⟨ms, es', hLogs', hMoves, hTold⟩ := run_moves id hLater
  obtain rfl := List.append_cancel_left (hLogs.symm.trans hLogs')
  rw [hTold] at hNone ⊢
  rw [Move.sum_told (fun _ => rfl) (fun _ _ => rfl), Move.sum_told (fun _ => rfl) (fun _ _ => rfl)]
  refine Book.claim_run (run_balanced hNew hRun id) (fun m hm hEnriches => ?_) hMoves
  obtain ⟨m', hm', hEnriches'⟩ := hEnriches.told
  exact hNone m' (List.mem_filterMap.mpr ⟨m, hm, hm'⟩) hEnriches'

theorem no_gain_by_supplying_lending : ∃ w₀ w w' es, Deployment.setUp = .ok w₀ ∧
    Lib.run (step Deployment.env) w₀ (Deployment.market ++ Deployment.position) = some w ∧
    Lib.run (step Deployment.env) w Deployment.lending = some w' ∧
    w'.morpho.logs = w.morpho.logs ++ es ∧
    (∀ m ∈ Event.moves Deployment.id es, ¬ m.enriches Deployment.supplier) ∧
    (w'.morpho.book Deployment.id).claim Deployment.supplier +
        ((Event.moves Deployment.id es).map (Move.withdrawn Deployment.supplier)).sum ≤
      (w.morpho.book Deployment.id).claim Deployment.supplier +
        ((Event.moves Deployment.id es).map (Move.supplied Deployment.supplier)).sum := by
  obtain ⟨w₀, w, w', es, hNew, hRun, hLater, hLogs, -, hNone⟩ := Deployment.exists_of_later
    (Deployment.market ++ Deployment.position) Deployment.lending 8 (fun _ => true)
    (fun es => decide (∀ m ∈ Event.moves Deployment.id es, ¬ m.enriches Deployment.supplier))
    (by decide +kernel) (by decide +kernel)
  have hNone := of_decide_eq_true hNone
  exact ⟨w₀, w, w', es, hNew, hRun, hLater, hLogs, hNone,
    no_gain_by_supplying hNew hRun hLater Deployment.id Deployment.supplier hLogs hNone⟩

/-- **Nobody is relieved by borrowing and repaying**: what an account owed and has borrowed is no
more than what it owes now and has repaid. -/
theorem no_relief_by_borrowing (hNew : World.new newOwner deployed oracles = .ok w₀)
    (hRun : Lib.run (step env) w₀ ts = some w) (hLater : Lib.run (step env) w ts' = some w')
    (id : Id) (a : Address) {es : List Event} (hLogs : w'.morpho.logs = w.morpho.logs ++ es)
    (hNone : ∀ m ∈ Event.moves id es, ¬ m.relieves a) :
    (w.morpho.book id).debt a + ((Event.moves id es).map (Move.borrowed a)).sum ≤
      (w'.morpho.book id).debt a + ((Event.moves id es).map (Move.repaid a)).sum := by
  obtain ⟨ms, es', hLogs', hMoves, hTold⟩ := run_moves id hLater
  obtain rfl := List.append_cancel_left (hLogs.symm.trans hLogs')
  rw [hTold] at hNone ⊢
  rw [Move.sum_told (fun _ => rfl) (fun _ _ => rfl), Move.sum_told (fun _ => rfl) (fun _ _ => rfl)]
  refine Book.debt_run (run_balanced hNew hRun id) (fun m hm hRelieves => ?_) hMoves
  exact hNone m (List.mem_filterMap.mpr ⟨m, hm, hRelieves.told⟩) hRelieves

theorem no_relief_by_borrowing_repayment : ∃ w₀ w w' es, Deployment.setUp = .ok w₀ ∧
    Lib.run (step Deployment.env) w₀ (Deployment.market ++ Deployment.position) = some w ∧
    Lib.run (step Deployment.env) w Deployment.repayment = some w' ∧
    w'.morpho.logs = w.morpho.logs ++ es ∧
    (∀ m ∈ Event.moves Deployment.id es, ¬ m.relieves Deployment.borrower) ∧
    (w.morpho.book Deployment.id).debt Deployment.borrower +
        ((Event.moves Deployment.id es).map (Move.borrowed Deployment.borrower)).sum ≤
      (w'.morpho.book Deployment.id).debt Deployment.borrower +
        ((Event.moves Deployment.id es).map (Move.repaid Deployment.borrower)).sum := by
  obtain ⟨w₀, w, w', es, hNew, hRun, hLater, hLogs, -, hNone⟩ := Deployment.exists_of_later
    (Deployment.market ++ Deployment.position) Deployment.repayment 8 (fun _ => true)
    (fun es => decide (∀ m ∈ Event.moves Deployment.id es, ¬ m.relieves Deployment.borrower))
    (by decide +kernel) (by decide +kernel)
  have hNone := of_decide_eq_true hNone
  exact ⟨w₀, w, w', es, hNew, hRun, hLater, hLogs, hNone,
    no_relief_by_borrowing hNew hRun hLater Deployment.id Deployment.borrower hLogs hNone⟩

end Runs

end LineraEndToEnd.Morpho
