import LineraEndToEnd.Fungible.Refinement

/-!
# Fungible — nobody's tokens are taken without authority

The authority for a debit may be in the step itself, in an approval made long
before, or in a claim on another chain, carried by a message.

* `exists_debits_of_bal_lt` — a balance only decreases in a step that debits
  it, by exactly the amount of the step.
* `Justified` — the invariant over histories: every stored allowance was
  approved by its owner, and every `Withdraw` in flight was sent by a claim of
  its owner on another chain.
* `no_theft` — every decrease of a balance is authorized by its owner
  (`Authorized` lists the ways).
-/

namespace LineraEndToEnd.Fungible

open Lib

variable {ChainId AccountOwner : Type} [DecidableEq ChainId] [DecidableEq AccountOwner]
  {n n' n₀ : Network ChainId AccountOwner} {a : Action ChainId AccountOwner}
  {c : ChainId} {o : AccountOwner}

-- ---------------------------------------------------------------------------
-- Debits
-- ---------------------------------------------------------------------------

/-- The step debits `amount` tokens of `o` on `c`. -/
inductive Debits (c : ChainId) (o : AccountOwner) (amount : Amount) :
    Action ChainId AccountOwner → Prop where
  | transfer (id : Nat) (signer caller : Option AccountOwner)
      (target : Account ChainId AccountOwner) :
      Debits c o amount (.operation id c signer caller (.transfer o amount target))
  | claim (id : Nat) (signer caller : Option AccountOwner)
      (target : Account ChainId AccountOwner) :
      Debits c o amount (.operation id c signer caller (.claim ⟨c, o⟩ amount target))
  | transferFrom (id : Nat) (signer caller : Option AccountOwner) (spender : AccountOwner)
      (target : Account ChainId AccountOwner) :
      Debits c o amount (.operation id c signer caller (.transferFrom o spender amount target))
  | withdraw (id : Nat) (e : Envelope ChainId AccountOwner)
      (target : Account ChainId AccountOwner) (hDest : e.destination = c)
      (hMessage : e.message = .withdraw o amount target) :
      Debits c o amount (.execute id e)

/-- What an action takes from a balance, a debit of that balance takes. -/
theorem exists_debits_of_take_pos (hTake : 0 < a.move.take.1 (c, o)) :
    ∃ amount, Debits c o amount a ∧ a.move.take.1 (c, o) = amount.val := by
  rcases a with ⟨id, c', signer, caller, op⟩ | ⟨id, e⟩ | e
  · cases op with
    | balance | tickerSymbol | approve => simp [Action.move] at hTake
    | transfer owner amount target =>
      obtain ⟨rfl, rfl⟩ := eq_of_tokens_pos hTake
      exact ⟨amount, .transfer .., by simp [Action.move]⟩
    | transferFrom owner spender amount target =>
      obtain ⟨rfl, rfl⟩ := eq_of_tokens_pos hTake
      exact ⟨amount, .transferFrom .., by simp [Action.move]⟩
    | claim source amount target =>
      by_cases hLocal : source.chainId = c'
      · simp only [Action.move, if_pos hLocal] at hTake ⊢
        obtain ⟨rfl, rfl⟩ := eq_of_tokens_pos hTake
        subst hLocal
        exact ⟨amount, .claim .., by simp⟩
      · simp [Action.move, hLocal] at hTake
  · cases hMsg : e.message with
    | credit target amount source => simp [Action.move, hMsg] at hTake
    | withdraw owner amount target =>
      simp only [Action.move, hMsg, Prod.fst_add, letters_fst, add_zero] at hTake ⊢
      obtain ⟨rfl, rfl⟩ := eq_of_tokens_pos hTake
      exact ⟨amount, .withdraw id e target rfl hMsg, by simp⟩
  · simp [Action.move] at hTake

/-- What a debit gives back to the balance it debits is all of it or nothing. -/
theorem Debits.give_eq {amount : Amount} (h : Debits c o amount a) :
    a.move.give.1 (c, o) = amount.val ∨ a.move.give.1 (c, o) = 0 := by
  have hArrival : ∀ id signer (target : Account ChainId AccountOwner),
      (arrival id c signer amount target o).1 (c, o) = amount.val ∨
        (arrival id c signer amount target o).1 (c, o) = 0 := by
    intro id signer target
    rw [arrival_apply]
    split
    · exact Or.inl rfl
    · exact Or.inr rfl
  cases h with
  | transfer id signer caller target => exact hArrival id signer target
  | transferFrom id signer caller spender target => exact hArrival id signer target
  | claim id signer caller target =>
    simp only [Action.move, if_true]
    exact hArrival id signer target
  | withdraw id e target hDest hMessage =>
    subst hDest
    simp only [Action.move, hMessage]
    exact hArrival id _ target

/-- A balance only decreases in a step that debits it, by the amount of the
step. -/
theorem exists_debits_of_bal_lt (hStep : n.step a = some n')
    (hLess : (n'.states c).bal o < (n.states c).bal o) :
    ∃ amount, Debits c o amount a ∧ (n'.states c).bal o + amount.val = (n.states c).bal o := by
  have hBal := step_bal hStep c o
  have hHeld : a.move.take.1 (c, o) ≤ (n.states c).bal o := (Network.holds_of_step hStep).1 c o
  have hMax : (n.states c).bal o ≤ Amount.MAX.val := FungibleTokenState.bal_le_max ..
  unfold settle at hBal
  have hTake : 0 < a.move.take.1 (c, o) := by omega
  obtain ⟨amount, hDebits, hAmount⟩ := exists_debits_of_take_pos hTake
  refine ⟨amount, hDebits, ?_⟩
  -- a transfer of the owner to itself would give the amount back
  rcases hDebits.give_eq with hGive | hGive
  · omega
  · omega

-- ---------------------------------------------------------------------------
-- Histories
-- ---------------------------------------------------------------------------

/-- An earlier step on `c` was an `Approve` for the pair, with permission of
the owner. -/
def ApprovedEarlier (as : List (Action ChainId AccountOwner)) (c : ChainId)
    (owner spender : AccountOwner) : Prop :=
  ∃ id signer caller allowance,
    .operation id c signer caller (.approve owner spender allowance) ∈ as ∧
      (Action.operation id c signer caller (.approve owner spender allowance)).Permits owner

/-- An earlier step on another chain than `c` was a `Claim` on the account of
the owner on `c`, with permission of the owner, and sent the message. -/
def ClaimedEarlier (as : List (Action ChainId AccountOwner)) (c : ChainId)
    (owner : AccountOwner) (e : Envelope ChainId AccountOwner) : Prop :=
  ∃ id c' signer caller amount target, c' ≠ c ∧
    .operation id c' signer caller (.claim ⟨c, owner⟩ amount target) ∈ as ∧
      (Action.operation id c' signer caller (.claim ⟨c, owner⟩ amount target)).Permits owner ∧
      e ∈ (Action.operation id c' signer caller (.claim ⟨c, owner⟩ amount target)).sent

/-- What entitles a step after the history `as`, from `n` to `n'`, to debit. -/
def Action.Authorized (as : List (Action ChainId AccountOwner))
    (n n' : Network ChainId AccountOwner) (a : Action ChainId AccountOwner) : Prop :=
  match a with
  | .operation _ _ _ _ (.transfer owner _ _) => a.Permits owner
  | .operation _ _ _ _ (.claim source _ _) => a.Permits source.owner
  | .operation _ c _ _ (.transferFrom owner spender amount _) =>
    a.Permits spender ∧
      (n'.states c).alw ⟨owner, spender⟩ + amount.val = (n.states c).alw ⟨owner, spender⟩ ∧
      ApprovedEarlier as c owner spender
  | .execute _ e =>
    match e.message with
    | .withdraw owner _ _ => a.Permits owner ∧ ClaimedEarlier as e.destination owner e
    | .credit _ _ _ => True
  | _ => True

/-- The invariant: stored allowances were approved, and `Withdraw` messages in
flight were sent by claims. -/
structure Justified (as : List (Action ChainId AccountOwner))
    (n : Network ChainId AccountOwner) : Prop where
  allowance : ∀ c owner spender, 0 < (n.states c).alw ⟨owner, spender⟩ →
    ApprovedEarlier as c owner spender
  withdrawal : ∀ e ∈ n.inFlight, ∀ owner amount target,
    e.message = .withdraw owner amount target → ClaimedEarlier as e.destination owner e

section
omit [DecidableEq AccountOwner]

omit [DecidableEq ChainId] in
theorem ApprovedEarlier.concat {as : List (Action ChainId AccountOwner)}
    {owner spender : AccountOwner} (h : ApprovedEarlier as c owner spender)
    (a : Action ChainId AccountOwner) : ApprovedEarlier (as ++ [a]) c owner spender := by
  obtain ⟨id, signer, caller, allowance, hMem, hPermits⟩ := h
  exact ⟨id, signer, caller, allowance, List.mem_append_left _ hMem, hPermits⟩

theorem ClaimedEarlier.concat {as : List (Action ChainId AccountOwner)}
    {owner : AccountOwner} {e : Envelope ChainId AccountOwner}
    (h : ClaimedEarlier as c owner e) (a : Action ChainId AccountOwner) :
    ClaimedEarlier (as ++ [a]) c owner e := by
  obtain ⟨id, c', signer, caller, amount, target, hNe, hMem, hPermits, hSent⟩ := h
  exact ⟨id, c', signer, caller, amount, target, hNe, List.mem_append_left _ hMem, hPermits,
    hSent⟩

end

/-- An allowance that is stored after a step was stored before, or the step
approved it. -/
theorem allowance_step {as : List (Action ChainId AccountOwner)} (h : Justified as n)
    (hStep : n.step a = some n') {owner spender : AccountOwner}
    (hStored : 0 < (n'.states c).alw ⟨owner, spender⟩) :
    ApprovedEarlier (as ++ [a]) c owner spender := by
  have hPermitted : a.Permitted := Network.permitted_of_step hStep
  have hOld : 0 < (n.states c).alw ⟨owner, spender⟩ →
      ApprovedEarlier (as ++ [a]) c owner spender := fun hPos =>
    (h.allowance c owner spender hPos).concat a
  rw [step_alw hStep] at hStored
  unfold Action.allowanceAfter at hStored
  split at hStored
  · next id c' signer caller owner' spender' allowance =>
    split at hStored
    · next hHit =>
      -- the step is the approval
      obtain ⟨rfl, hPair⟩ := hHit
      obtain ⟨rfl, rfl⟩ := (OwnerSpender.mk.injEq ..).mp hPair
      exact ⟨id, signer, caller, allowance, by simp, hPermitted.1⟩
    · exact hOld hStored
  · split at hStored
    · exact hOld (by omega)
    · exact hOld hStored
  · exact hOld hStored

/-- A `Withdraw` is only sent by a claim on another chain. -/
theorem withdrawal_sent (hWell : n.WellFormed) (hStep : n.step a = some n')
    {e : Envelope ChainId AccountOwner} (hSent : e ∈ a.sent) {owner : AccountOwner}
    {amount : Amount} {target : Account ChainId AccountOwner}
    (hMessage : e.message = .withdraw owner amount target) :
    ClaimedEarlier [a] e.destination owner e := by
  have hPermitted : a.Permitted := Network.permitted_of_step hStep
  cases sends_of_mem hSent with
  | transfer signer amount' target' source hNumber hEnvelope hMove =>
    rw [hEnvelope] at hMessage
    cases hMessage
  | claim signer caller source amount' target' hRemote hEnvelope =>
    have hWithdraw : e.message = .withdraw source.owner amount' target' := by rw [hEnvelope]; rfl
    have hDestination : e.destination = source.chainId := by rw [hEnvelope]; rfl
    obtain ⟨rfl, rfl, rfl⟩ := (Message.withdraw.injEq ..).mp (hMessage.symm.trans hWithdraw)
    rw [hDestination]
    exact ⟨e.id, e.sender, signer, caller, _, _, hRemote, List.mem_singleton_self _, hPermitted,
      hSent⟩
  | bounce m hTracked hEnvelope =>
    -- a message that comes back is tracked, so it is a `Credit`
    have hMem : m ∈ n.inFlight := by
      simpa [Action.consumed] using Network.consumed_le hStep
    have hReg := hWell.regular m hMem
    have hMsg : m.message = .withdraw owner amount target := by
      rw [← hMessage, hEnvelope]
      rfl
    simp [Envelope.Regular, hMsg, hTracked] at hReg

theorem Justified.step {as : List (Action ChainId AccountOwner)} (h : Justified as n)
    (hWell : n.WellFormed) (hStep : n.step a = some n') : Justified (as ++ [a]) n' := by
  refine ⟨fun c owner spender hStored => allowance_step h hStep hStored, ?_⟩
  intro e hMem owner amount target hMessage
  have hFlight : e ∈ n.inFlight + a.sent := by
    rw [← step_inFlight hStep]
    exact Multiset.mem_add.mpr (Or.inl hMem)
  rcases Multiset.mem_add.mp hFlight with hOld | hSent
  · exact (h.withdrawal e hOld owner amount target hMessage).concat a
  · obtain ⟨id, c', signer, caller, amount', target', hNe, hLast, hRest⟩ :=
      withdrawal_sent hWell hStep hSent hMessage
    exact ⟨id, c', signer, caller, amount', target', hNe, List.mem_append_right _ hLast, hRest⟩

theorem justified_run {parameters : Parameters} {c₀ : ChainId}
    {state : InitialState AccountOwner} {as : List (Action ChainId AccountOwner)}
    (hInit : Network.instantiate parameters c₀ state = .ok n₀) (hRun : n₀.run as = some n) :
    Justified as n := by
  refine run_induction (P := Justified) ?_ ?_ hRun
  · refine ⟨fun c owner spender hStored => ?_, fun e hMem => ?_⟩
    · rw [alw_instantiate hInit] at hStored
      exact absurd hStored (Nat.lt_irrefl 0)
    · obtain ⟨-, rfl⟩ := Network.instantiate_ok_iff.mp hInit
      exact absurd hMem (Multiset.notMem_zero e)
  · intro as m a m' hBefore ih hStep
    exact ih.step (wellFormed_run hInit hBefore) hStep

-- ---------------------------------------------------------------------------
-- No theft
-- ---------------------------------------------------------------------------

/-- **No theft.** When a step of a run leaves an owner fewer tokens on a chain,
it is a `Transfer`, a `Claim`, a `TransferFrom` or a `Withdraw` of exactly that
many tokens of the owner on that chain, and it is authorized: by the owner in
the step itself; by the spender, out of an allowance the owner approved
earlier; or by the owner in an earlier claim on another chain. -/
theorem no_theft {parameters : Parameters} {c₀ : ChainId} {state : InitialState AccountOwner}
    {as : List (Action ChainId AccountOwner)}
    (hInit : Network.instantiate parameters c₀ state = .ok n₀) (hRun : n₀.run as = some n)
    (hStep : n.step a = some n') (hLess : (n'.states c).bal o < (n.states c).bal o) :
    ∃ amount, Debits c o amount a ∧
      (n'.states c).bal o + amount.val = (n.states c).bal o ∧ a.Authorized as n n' := by
  obtain ⟨amount, hDebits, hTaken⟩ := exists_debits_of_bal_lt hStep hLess
  have hJustified : Justified as n := justified_run hInit hRun
  have hPermitted : a.Permitted := Network.permitted_of_step hStep
  refine ⟨amount, hDebits, hTaken, ?_⟩
  cases hDebits with
  | transfer => exact hPermitted
  | claim => exact hPermitted
  | transferFrom id signer caller spender target =>
    have hAllowed : amount.val ≤ (n.states c).alw ⟨o, spender⟩ :=
      Network.allowed_of_step hStep
    have hAlw := step_alw hStep c ⟨o, spender⟩
    rw [Action.allowanceAfter, if_pos ⟨rfl, rfl⟩] at hAlw
    refine ⟨hPermitted.1, by omega, hJustified.allowance c o spender (by omega)⟩
  | withdraw id e target hDest hMessage =>
    have hMem : e ∈ n.inFlight := by
      simpa [Action.consumed] using Network.consumed_le hStep
    simp only [Action.Permitted, hMessage] at hPermitted
    simp only [Action.Authorized, hMessage]
    exact ⟨hPermitted, hJustified.withdrawal e hMem o amount target hMessage⟩

/-- A claim by the owner `0` on the chain `1` of 5 of its tokens on the chain `0`. -/
def sampleClaim : Action Nat Nat :=
  .operation 0 1 (some 0) none (.claim ⟨0, 0⟩ (.fromAttos 5) ⟨1, 0⟩)

/-- The `Withdraw` it sends. -/
def sampleWithdraw : Envelope Nat Nat :=
  withdrawEnvelope 0 1 (some 0) ⟨0, 0⟩ (.fromAttos 5) ⟨1, 0⟩

theorem no_theft_sample :
    ∃ n n', sampleNetwork.run [sampleClaim] = some n ∧
      n.step (.execute 1 sampleWithdraw) = some n' ∧
      (n'.states 0).bal 0 < (n.states 0).bal 0 ∧
      (Action.execute 1 sampleWithdraw).Authorized [sampleClaim] n n' := by
  refine ⟨_, _, rfl, rfl, by decide, ?_⟩
  have hRun : sampleNetwork.run [sampleClaim] = some _ := rfl
  obtain ⟨_, -, -, hAuthorized⟩ := no_theft (a := .execute 1 sampleWithdraw) (c := 0) (o := 0)
    instantiate_sampleState hRun rfl (by decide)
  exact hAuthorized

end LineraEndToEnd.Fungible
