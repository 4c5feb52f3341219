import LineraEndToEnd.Morpho.Accounting

/-!
# What the log says of a run

The log of the contract is enough to know its storage, and to know what cannot have
happened: a supply share is worth no less unless bad debt was written off, and nobody
owes more unless interest was accrued or the account itself borrowed.

* `effects_told` — every call tells what it has done.
* `run_book_unless` — what only moves of one kind break, no run breaks whose log tells of
  none of that kind.
* `log_tells_all`, `refines_book`, `worth_never_falls`, `debt_never_grows` — over runs.
-/

namespace LineraEndToEnd.Morpho

open Solidity
open Function (update)

-- ---------------------------------------------------------------------------
-- One call
-- ---------------------------------------------------------------------------

/-- What a reader knows before the first event. -/
def Storage.blank : Storage where
  owner := .ofNat 0
  feeRecipient := .ofNat 0
  position := fun _ _ => Position.empty
  market := fun _ => Market.empty
  isIrmEnabled := fun _ => false
  isLltvEnabled := fun _ => false
  isAuthorized := fun _ _ => false
  nonce := fun _ => 0
  idToMarketParams := fun _ => MarketParams.empty
  logs := []

section Effects

variable {env : Env} {msg : Msg} {price : Address → Result Nat} {s s' : Storage} {call : Call}
  {is : List Interaction}

theorem Storage.created_published (s : Storage) (id : Id) (p : MarketParams) (lastUpdate : Nat) :
    s.published.replay (.CreateMarket id p) = (s.created id p lastUpdate).published := by
  refine Storage.ext rfl rfl rfl ?_ rfl rfl rfl rfl rfl rfl
  funext id'
  by_cases hId : id' = id
  · subst hId
    simp [published, replay, created, emit]
  · simp [published, replay, created, emit, setMarket, hId]

theorem Apart.told (h : Apart env msg s call s' is) :
    ∃ es, s'.logs = s.logs ++ es ∧ es.foldl Storage.replay s.published = s'.published := by
  cases h
  case setAuthorizationWithSig a signature nonce someone signed =>
    refine ⟨[_, _], List.append_assoc .., ?_⟩
    rw [← nonce]
    rfl
  all_goals exact ⟨[_], rfl, rfl⟩

/-- **Every call tells what it has done.** -/
theorem effects_told (h : call.effects env msg price s = .ok (s', is)) :
    ∃ es, s'.logs = s.logs ++ es ∧ es.foldl Storage.replay s.published = s'.published := by
  cases Call.effect h with
  | market p created steps own =>
    obtain ⟨_, -, hMoved⟩ := steps.all
    obtain ⟨es, hTells⟩ := hMoved.tells
    exact ⟨es, hTells.logs, hTells.replayed⟩
  | create p _ _ _ => exact ⟨[_], rfl, Storage.created_published ..⟩
  | other apart => exact apart.told

/-- What is apart from the markets tells nothing of them. -/
theorem Apart.silent (h : Apart env msg s call s' is) (id : Id) :
    ∃ es, s'.logs = s.logs ++ es ∧ Event.moves id es = [] := by
  cases h
  case setAuthorizationWithSig => exact ⟨[_, _], List.append_assoc .., rfl⟩
  all_goals exact ⟨[_], rfl, rfl⟩

/-- **Every call is, in every market, a run of moves** that the caller may make, and it tells
them. -/
theorem effects_run (id : Id) (h : call.effects env msg price s = .ok (s', is)) :
    ∃ ms es, s'.logs = s.logs ++ es ∧ Lib.run Book.step (s.book id) ms = some (s'.book id) ∧
      Event.moves id es = ms.filterMap Move.told ∧ ∀ m ∈ ms, m.Allowed msg s := by
  cases Call.effect h with
  | market p created steps own =>
    obtain ⟨acc, hAcc, hMoved⟩ := steps.all
    obtain ⟨es, hTells⟩ := hMoved.tells
    by_cases hId : id = env.id p
    · subst hId
      refine ⟨_, es, hTells.logs, hMoved.run, hTells.told, fun m hm => ?_⟩
      obtain hm | hm := List.mem_append.mp hm
      · exact hAcc.allowed m hm
      · exact steps.allowed (own.allowed m hm)
    · exact ⟨[], es, hTells.logs, congrArg some (hMoved.others id hId).symm, hTells.others hId,
        by simp⟩
  | create p _ _ fresh =>
    by_cases hId : id = env.id p
    · subst hId
      refine ⟨[.create (msg.timestamp % 2 ^ 128)], [_], rfl, ?_, rfl, by simp [Move.Allowed]⟩
      exact (Lib.run_singleton ..).trans
        (Book.step_eq_some_iff.mpr ⟨fresh, (Storage.created_book ..).symm⟩)
    · exact ⟨[], [_], rfl, congrArg some (Storage.created_book_of_ne _ _ _ hId).symm, rfl, by simp⟩
  | other apart =>
    obtain ⟨es, hLogs, hSilent⟩ := apart.silent id
    exact ⟨[], es, hLogs, congrArg some (congrFun apart.book id).symm, hSilent, by simp⟩

end Effects

-- ---------------------------------------------------------------------------
-- Runs
-- ---------------------------------------------------------------------------

section Runs

variable {env : Env} {newOwner : Address} {deployed : Address → Bool}
  {oracles : Address → Option OracleMock} {w₀ w w' : World} {ts ts' : List Transaction}

/-- **The log tells all of the storage** but the times of the last updates. -/
theorem log_tells_all (hNew : World.new newOwner deployed oracles = .ok w₀)
    (hRun : Lib.run (step env) w₀ ts = some w) :
    w.morpho.logs.foldl Storage.replay Storage.blank = w.morpho.published := by
  have hKept : Preserved env (fun _ _ => True) fun w =>
      w.morpho.logs.foldl Storage.replay Storage.blank = w.morpho.published :=
    .ofStorage (I := fun s => s.logs.foldl Storage.replay Storage.blank = s.published)
      fun _ hTold h => by
        obtain ⟨es, hLogs, hReplay⟩ := effects_told h
        rw [hLogs, List.foldl_append, hTold, hReplay]
  refine hKept.run (fun t _ => t.all_true) ?_ hRun
  have hStart := World.new_morpho hNew
  simp only [Storage.new, bind_ok_iff, pure_ok_iff] at hStart
  obtain ⟨-, -, hStart⟩ := hStart
  rw [← hStart]
  rfl

theorem log_tells_all_liquidation : ∃ w₀ w, Deployment.setUp = .ok w₀ ∧
    Lib.run (step Deployment.env) w₀ Deployment.all = some w ∧
    w.morpho.logs.foldl Storage.replay Storage.blank = w.morpho.published := by
  obtain ⟨w₀, w, hNew, hRun, -⟩ := Deployment.exists_of_runs Deployment.all
    (fun _ => true) (by decide +kernel)
  exact ⟨w₀, w, hNew, hRun, log_tells_all hNew hRun⟩

/-- **Every run is, in every market, a run of moves**, and the log tells them in their order. -/
theorem run_moves (id : Id) (hRun : Lib.run (step env) w ts = some w') :
    ∃ ms es, w'.morpho.logs = w.morpho.logs ++ es ∧
      Lib.run Book.step (w.morpho.book id) ms = some (w'.morpho.book id) ∧
      Event.moves id es = ms.filterMap Move.told := by
  have hKept : Preserved env (fun _ _ => True) fun w' => ∃ ms es,
      w'.morpho.logs = w.morpho.logs ++ es ∧
      Lib.run Book.step (w.morpho.book id) ms = some (w'.morpho.book id) ∧
      Event.moves id es = ms.filterMap Move.told :=
    .ofStorage (I := fun s => ∃ ms es, s.logs = w.morpho.logs ++ es ∧
      Lib.run Book.step (w.morpho.book id) ms = some (s.book id) ∧
      Event.moves id es = ms.filterMap Move.told) fun _ ⟨ms, es, hLogs, hMoves, hTold⟩ h => by
        obtain ⟨ms', es', hLogs', hMoves', hTold', -⟩ := effects_run id h
        refine ⟨ms ++ ms', es ++ es', ?_, Lib.run_append_eq_some.mpr ⟨_, hMoves, hMoves'⟩, ?_⟩
        · rw [hLogs', hLogs, List.append_assoc]
        · rw [Event.moves_append, List.filterMap_append, hTold, hTold']
  exact hKept.run (fun t _ => t.all_true) ⟨[], [], (List.append_nil _).symm, rfl, rfl⟩ hRun

namespace Deployment

/-- A repayment after `position`, in the same block. -/
def repayment : List Transaction :=
  [ single 200 borrower (.morpho (.repay marketParams (100 * ether) 0 borrower)) ]

/-- A withdrawal and a supply after `position`, in the same block. -/
def lending : List Transaction :=
  [ single 200 supplier (.morpho (.withdraw marketParams (1000 * ether) 0 supplier supplier)),
    single 200 supplier (.morpho (.supply marketParams 333 0 supplier)) ]

/-- What more calls lead to, and what can be read off the world before them, and off the log from
then on, when the log before has `n` events. -/
theorem exists_of_later (ts ts' : List Transaction) (n : Nat) (q : World → Bool)
    (p : List Event → Bool) (h : (runs ts).any fun w => w.morpho.logs.length == n && q w)
    (h' : (runs (ts ++ ts')).any fun w => p (w.morpho.logs.drop n)) :
    ∃ w₀ w w' es, setUp = .ok w₀ ∧ Lib.run (step Deployment.env) w₀ ts = some w ∧
      Lib.run (step Deployment.env) w ts' = some w' ∧ w'.morpho.logs = w.morpho.logs ++ es ∧
      q w ∧ p es := by
  obtain ⟨w₀, w, w', hNew, hRun, hLater, hBefore, hp⟩ := exists_of_runs_append ts ts' _ _ h h'
  obtain ⟨-, es, hLogs, -⟩ := run_moves id hLater
  obtain ⟨hLength, hq⟩ := Bool.and_eq_true_iff.mp hBefore
  rw [hLogs, ← eq_of_beq hLength, List.drop_left] at hp
  exact ⟨w₀, w, w', es, hNew, hRun, hLater, hLogs, hq, hp⟩

end Deployment

/-- **The contracts refine the book.** From the deployment on, a market is always where some moves
of an empty book lead, each of them possible when it was made, and the log tells these moves. -/
theorem refines_book (hNew : World.new newOwner deployed oracles = .ok w₀)
    (hRun : Lib.run (step env) w₀ ts = some w) (id : Id) :
    ∃ ms, Lib.run Book.step ⟨Market.empty, fun _ => Position.empty⟩ ms =
        some (w.morpho.book id) ∧
      Event.moves id w.morpho.logs = ms.filterMap Move.told := by
  obtain ⟨ms, es, hLogs, hMoves, hTold⟩ := run_moves id hRun
  have hStart := World.new_morpho hNew
  simp only [Storage.new, bind_ok_iff, pure_ok_iff] at hStart
  obtain ⟨-, -, hStart⟩ := hStart
  rw [← hStart] at hLogs hMoves
  refine ⟨ms, hMoves, ?_⟩
  rw [hLogs, Event.moves_append, hTold]
  rfl

theorem refines_book_liquidation : ∃ w₀ w ms, Deployment.setUp = .ok w₀ ∧
    Lib.run (step Deployment.env) w₀ Deployment.all = some w ∧
    Lib.run Book.step ⟨Market.empty, fun _ => Position.empty⟩ ms =
      some (w.morpho.book Deployment.id) ∧
    Event.moves Deployment.id w.morpho.logs = ms.filterMap Move.told := by
  obtain ⟨w₀, w, hNew, hRun, -⟩ := Deployment.exists_of_runs Deployment.all
    (fun _ => true) (by decide +kernel)
  obtain ⟨ms, hMoves⟩ := refines_book hNew hRun Deployment.id
  exact ⟨w₀, w, ms, hNew, hRun, hMoves⟩

/-- What no move breaks that does not tell something of a kind, a run does not break whose
log tells nothing of this kind. -/
theorem run_book_unless {broken : Move → Prop} {R : Book → Prop} (id : Id)
    (hTold : ∀ m, broken m → ∃ m', m.told = some m' ∧ broken m')
    (hAfter : ∀ b m, b.Balanced → b.Guard m → ¬ broken m → R b → R (b.after m))
    (hBalanced : w.morpho.Balanced) (hRun : Lib.run (step env) w ts = some w')
    {es : List Event} (hLogs : w'.morpho.logs = w.morpho.logs ++ es)
    (hNone : ∀ m ∈ Event.moves id es, ¬ broken m)
    (hR : R (w.morpho.book id)) : R (w'.morpho.book id) := by
  obtain ⟨ms, es', hLogs', hMoves, hAll⟩ := run_moves id hRun
  obtain rfl := List.append_cancel_left (hLogs.symm.trans hLogs')
  have hBoth : (w'.morpho.book id).Balanced ∧ R (w'.morpho.book id) := by
    refine Lib.run_invariant_mem (P := fun b => b.Balanced ∧ R b)
      (fun b m b' hm hBoth hStep => ?_) ⟨hBalanced id, hR⟩ hMoves
    obtain ⟨hGuard, rfl⟩ := Book.step_eq_some_iff.mp hStep
    refine ⟨hBoth.1.after hGuard, hAfter b m hBoth.1 hGuard (fun hBroken => ?_) hBoth.2⟩
    obtain ⟨m', hm', hBroken'⟩ := hTold m hBroken
    exact hNone m' (hAll ▸ List.mem_filterMap.mpr ⟨m, hm, hm'⟩) hBroken'
  exact hBoth.2

-- ---------------------------------------------------------------------------
-- Suppliers
-- ---------------------------------------------------------------------------

/-- **A supply share is never worth less**, unless bad debt of its market is written off. -/
theorem worth_never_falls (hNew : World.new newOwner deployed oracles = .ok w₀)
    (hRun : Lib.run (step env) w₀ ts = some w) (hLater : Lib.run (step env) w ts' = some w')
    (id : Id) {es : List Event} (hLogs : w'.morpho.logs = w.morpho.logs ++ es)
    (hNone : ∀ m ∈ Event.moves id es, ¬ m.writesOff) (shares : Nat) :
    (w.morpho.book id).supplySide.worthDown shares ≤
      (w'.morpho.book id).supplySide.worthDown shares := by
  refine Lib.Pool.PriceLe.worthDown_le ?_ shares
  exact run_book_unless (R := fun b => (w.morpho.book id).supplySide.PriceLe b.supplySide) id
    (fun m hm => ⟨m, hm.told, hm⟩)
    (fun _ _ hBalanced hGuard hm hPrice => hPrice.trans (Book.priceLe_after hBalanced hGuard hm))
    (run_balanced hNew hRun) hLater hLogs hNone (Lib.Pool.PriceLe.refl _)

theorem worth_never_falls_liquidation : ∃ w₀ w w' es, Deployment.setUp = .ok w₀ ∧
    Lib.run (step Deployment.env) w₀ (Deployment.market ++ Deployment.position) = some w ∧
    Lib.run (step Deployment.env) w Deployment.liquidation = some w' ∧
    w'.morpho.logs = w.morpho.logs ++ es ∧ (∀ m ∈ Event.moves Deployment.id es, ¬ m.writesOff) ∧
    (w.morpho.book Deployment.id).supplySide.worthDown Deployment.ether ≤
      (w'.morpho.book Deployment.id).supplySide.worthDown Deployment.ether := by
  obtain ⟨w₀, w, w', es, hNew, hRun, hLater, hLogs, -, hNone⟩ := Deployment.exists_of_later
    (Deployment.market ++ Deployment.position) Deployment.liquidation 8 (fun _ => true)
    (fun es => decide (∀ m ∈ Event.moves Deployment.id es, ¬ m.writesOff))
    (by decide +kernel) (by decide +kernel)
  have hNone := of_decide_eq_true hNone
  exact ⟨w₀, w, w', es, hNew, hRun, hLater, hLogs, hNone,
    worth_never_falls hNew hRun hLater Deployment.id hLogs hNone Deployment.ether⟩

-- ---------------------------------------------------------------------------
-- Borrowers
-- ---------------------------------------------------------------------------

/-- **Nobody comes to owe more** unless interest is accrued or the account itself borrows:
whatever the others supply, withdraw, borrow, repay and liquidate. -/
theorem debt_never_grows (hNew : World.new newOwner deployed oracles = .ok w₀)
    (hRun : Lib.run (step env) w₀ ts = some w) (hLater : Lib.run (step env) w ts' = some w')
    (id : Id) (a : Address) {es : List Event} (hLogs : w'.morpho.logs = w.morpho.logs ++ es)
    (hNone : ∀ m ∈ Event.moves id es, ¬ m.raisesDebtOf a) :
    (w'.morpho.book id).debt a ≤ (w.morpho.book id).debt a :=
  run_book_unless (R := fun b => b.debt a ≤ (w.morpho.book id).debt a) id
    (fun _ hm => hm.told)
    (fun _ _ hBalanced hGuard hm hDebt => (Book.debt_after_le hBalanced hGuard hm).trans hDebt)
    (run_balanced hNew hRun) hLater hLogs hNone le_rfl

theorem debt_never_grows_repayment : ∃ w₀ w w' es, Deployment.setUp = .ok w₀ ∧
    Lib.run (step Deployment.env) w₀ (Deployment.market ++ Deployment.position) = some w ∧
    Lib.run (step Deployment.env) w Deployment.repayment = some w' ∧
    w'.morpho.logs = w.morpho.logs ++ es ∧
    (∀ m ∈ Event.moves Deployment.id es, ¬ m.raisesDebtOf Deployment.borrower) ∧
    (w'.morpho.book Deployment.id).debt Deployment.borrower ≤
      (w.morpho.book Deployment.id).debt Deployment.borrower := by
  obtain ⟨w₀, w, w', es, hNew, hRun, hLater, hLogs, -, hNone⟩ := Deployment.exists_of_later
    (Deployment.market ++ Deployment.position) Deployment.repayment 8 (fun _ => true)
    (fun es => decide (∀ m ∈ Event.moves Deployment.id es, ¬ m.raisesDebtOf Deployment.borrower))
    (by decide +kernel) (by decide +kernel)
  have hNone := of_decide_eq_true hNone
  exact ⟨w₀, w, w', es, hNew, hRun, hLater, hLogs, hNone,
    debt_never_grows hNew hRun hLater Deployment.id Deployment.borrower hLogs hNone⟩

end Runs

end LineraEndToEnd.Morpho
