import LineraEndToEnd.Fungible.Marking

/-!
# Fungible — the network refines the token game

The invariants of a run, and the step theorems every later module rests on.

* `step_outcome` — what a step can do at all: the only case analysis over the
  operations and messages of the contract.
* `step_alw` / `step_bal` / `step_inFlight` — what an action does to an
  allowance, to a balance and to the messages in flight, read off its label.
* `Network.WellFormed` — all states are canonical and all messages in flight
  carry the flags the contract sets; kept by every step, without any
  assumption on the supply (`WellFormed.step`).
* `Sound n M` — the network is well formed, is the marking `M`, and its supply
  is at most `Amount::MAX`.
* `Sound.step` — every step of a sound network is the move of its action and
  leads to a sound network; no addition has saturated.
* `Sound.instantiate` / `Sound.run` — every run from an instantiation whose
  exact total is an amount is sound, with the supply of the start.
* `Sound.ext` — a sound network is determined by its marking and allowances.
-/

namespace LineraEndToEnd.Fungible

open Lib

variable {ChainId AccountOwner : Type} [DecidableEq ChainId] [DecidableEq AccountOwner]
  {n n' : Network ChainId AccountOwner} {M M' : Marking ChainId AccountOwner}
  {a : Action ChainId AccountOwner} {e : Envelope ChainId AccountOwner}

/-! ## The final step of a transfer -/

section
variable {ctx : Context ChainId AccountOwner} {t s' : FungibleTokenState AccountOwner}
  {amount : Amount} {target : Account ChainId AccountOwner} {source : AccountOwner}
  {sent : List (OutgoingMessage ChainId AccountOwner)}

theorem envelopes_finish (h : finishTransferToAccount ctx t amount target source = (s', sent))
    (id : Nat) (signer : Option AccountOwner) :
    envelopes id ctx.chainId signer sent =
      if target.chainId = ctx.chainId then 0
      else {creditEnvelope id ctx.chainId signer amount target source} := by
  rw [finishTransferToAccount_eq, Prod.mk.injEq] at h
  rw [← h.2]
  split <;> rfl

theorem state_finish (h : finishTransferToAccount ctx t amount target source = (s', sent)) :
    s' = if target.chainId = ctx.chainId then t.credit target.owner amount else t := by
  rw [finishTransferToAccount_eq, Prod.mk.injEq] at h
  exact h.1.symm

theorem FungibleTokenState.Canonical.finish (hs : t.Canonical)
    (h : finishTransferToAccount ctx t amount target source = (s', sent)) : s'.Canonical := by
  rw [state_finish h]
  split
  · exact hs.credit ..
  · exact hs

theorem alw_finish (h : finishTransferToAccount ctx t amount target source = (s', sent))
    (p : OwnerSpender AccountOwner) : s'.alw p = t.alw p := by
  rw [state_finish h]
  split
  · exact alw_eq_of_allowances_eq (FungibleTokenState.allowances_credit ..) p
  · rfl

end

/-! ## The chain of an action -/

/-- What an action makes of the allowance `x` stored for `p` on `c`. -/
def Action.allowanceAfter (c : ChainId) (p : OwnerSpender AccountOwner) (x : Nat) :
    Action ChainId AccountOwner → Nat
  | .operation _ c' _ _ (.approve owner spender allowance) =>
    if c' = c ∧ p = ⟨owner, spender⟩ then min (x + allowance.val) Amount.MAX.val else x
  | .operation _ c' _ _ (.transferFrom owner spender amount _) =>
    if c' = c ∧ p = ⟨owner, spender⟩ then x - amount.val else x
  | _ => x

/-- The chain an action runs on. -/
def Action.chain : Action ChainId AccountOwner → ChainId
  | .operation _ chain _ _ _ => chain
  | .execute _ e => e.destination
  | .reject e => e.destination

/-- An action moves no tokens on other chains. -/
theorem Action.move_elsewhere {c : ChainId} (hc : c ≠ a.chain) (o : AccountOwner) :
    a.move.take.1 (c, o) = 0 ∧ a.move.give.1 (c, o) = 0 := by
  rcases a with ⟨id, c', signer, caller, op⟩ | ⟨id, e⟩ | e
  · have hOther : c ≠ c' := hc
    cases op with
    | balance | tickerSymbol | approve => exact ⟨rfl, rfl⟩
    | transfer | transferFrom => simp [Action.move, hOther]
    | claim source amount target =>
      by_cases hLocal : source.chainId = c'
      · simp [Action.move, hLocal, hOther]
      · simp [Action.move, hLocal]
  · have hOther : c ≠ e.destination := hc
    cases hMsg : e.message <;> simp [Action.move, hMsg, hOther]
  · exact ⟨rfl, rfl⟩

theorem Action.allowanceAfter_elsewhere {c : ChainId} (hc : c ≠ a.chain)
    (p : OwnerSpender AccountOwner) (x : Nat) : a.allowanceAfter c p x = x := by
  unfold Action.allowanceAfter
  split
  · exact if_neg fun hHere => hc hHere.1.symm
  · exact if_neg fun hHere => hc hHere.1.symm
  · rfl

/-- A balance after an amount was taken from it and another given to it, the
addition saturating. -/
def settle (x take give : Nat) : Nat := min (x - take + give) Amount.MAX.val

theorem settle_bal_zero (s : FungibleTokenState AccountOwner) (o : AccountOwner) :
    settle (s.bal o) 0 0 = s.bal o :=
  Nat.min_eq_left (s.bal_le_max o)

/-- What an action makes of the state of its chain: the balances and allowances
are read off its label, and a canonical state stays canonical. -/
structure Outcome (a : Action ChainId AccountOwner) (s s' : FungibleTokenState AccountOwner) :
    Prop where
  bal : ∀ o, s'.bal o = settle (s.bal o) (a.move.take.1 (a.chain, o)) (a.move.give.1 (a.chain, o))
  alw : ∀ p, s'.alw p = a.allowanceAfter a.chain p (s.alw p)
  canonical : s.Canonical → s'.Canonical

section
variable {s t s' : FungibleTokenState AccountOwner}

/-- Nothing happens to the state. -/
theorem Outcome.quiet (hTake : a.move.take.1 = 0) (hGive : a.move.give.1 = 0)
    (hAlw : ∀ p x, a.allowanceAfter a.chain p x = x) : Outcome a s s where
  bal o := by
    rw [hTake, hGive]
    exact (settle_bal_zero s o).symm
  alw p := (hAlw p _).symm
  canonical hs := hs

/-- A transfer: a debit leaves the state `t`, and the final step follows. -/
theorem transfer_outcome {ctx : Context ChainId AccountOwner} {id : Nat}
    {signer : Option AccountOwner} {owner : AccountOwner} {amount : Amount}
    {target : Account ChainId AccountOwner} {sent : List (OutgoingMessage ChainId AccountOwner)}
    (hChain : ctx.chainId = a.chain)
    (hTake : a.move.take.1 = (tokens a.chain owner amount : Marking ChainId AccountOwner).1)
    (hGive : a.move.give = arrival id a.chain signer amount target owner)
    (hDebit : ∀ o, t.bal o + (if o = owner then amount.val else 0) = s.bal o)
    (hAlw : ∀ p, t.alw p = a.allowanceAfter a.chain p (s.alw p))
    (hCanonical : s.Canonical → t.Canonical)
    (hFinish : finishTransferToAccount ctx t amount target owner = (s', sent)) :
    Outcome a s s' ∧ envelopes id a.chain signer sent = a.sent := by
  refine ⟨⟨fun o => ?_, fun p => ?_, fun hs => (hCanonical hs).finish hFinish⟩, ?_⟩
  · have hLeft := hDebit o
    have hMax := t.bal_le_max o
    rw [hTake, hGive, tokens_apply, arrival_apply, state_finish hFinish, hChain, settle]
    simp only [true_and]
    by_cases hLocal : target.chainId = a.chain
    · rw [if_pos hLocal, FungibleTokenState.bal_credit]
      simp only [hLocal, true_and]
      split <;> omega
    · simp only [hLocal, if_false, false_and]
      omega
  · rw [alw_finish hFinish, hAlw]
  · rw [Action.sent, hGive, arrival_snd, ← hChain, envelopes_finish hFinish]

/-- What an operation does. -/
theorem operation_outcome (n : Network ChainId AccountOwner) (id : Nat) {c : ChainId}
    {signer caller : Option AccountOwner} {op : FungibleOperation ChainId AccountOwner}
    {response : FungibleResponse} {sent : List (OutgoingMessage ChainId AccountOwner)}
    (hOp : executeOperation (n.operationContext c signer caller) s op = .ok (s', response, sent)) :
    Outcome (.operation id c signer caller op) s s' ∧
      envelopes id c signer sent = (Action.operation id c signer caller op).sent := by
  cases op with
  | balance owner =>
    obtain ⟨rfl, -, rfl⟩ := executeOperation_ok_iff.mp hOp
    exact ⟨.quiet rfl rfl fun _ _ => rfl, rfl⟩
  | tickerSymbol =>
    obtain ⟨rfl, -, rfl⟩ := executeOperation_ok_iff.mp hOp
    exact ⟨.quiet rfl rfl fun _ _ => rfl, rfl⟩
  | approve owner spender allowance =>
    obtain ⟨-, hApprove, -, rfl⟩ := executeOperation_ok_iff.mp hOp
    refine ⟨⟨fun o => ?_, fun p => ?_, fun hs => hs.approve hApprove⟩, rfl⟩
    · rw [bal_eq_of_accounts_eq (FungibleTokenState.accounts_approve hApprove)]
      exact (settle_bal_zero s o).symm
    · rw [FungibleTokenState.alw_approve hApprove]
      simp [Action.allowanceAfter, Action.chain]
  | transfer owner amount target =>
    obtain ⟨-, hMove, -⟩ := executeOperation_ok_iff.mp hOp
    obtain ⟨t, hDebit, hFinish⟩ := moveTokens_ok_iff.mp hMove
    exact transfer_outcome rfl rfl rfl (FungibleTokenState.bal_debit hDebit)
      (alw_eq_of_allowances_eq (FungibleTokenState.allowances_debit hDebit))
      (fun hs => hs.debit hDebit) hFinish
  | transferFrom owner spender amount target =>
    obtain ⟨-, hMove, -⟩ := executeOperation_ok_iff.mp hOp
    obtain ⟨t, hDebit, hFinish⟩ := moveTokensFrom_ok_iff.mp hMove
    refine transfer_outcome rfl rfl rfl (FungibleTokenState.bal_debitForTransferFrom hDebit)
      (fun p => ?_)
      (fun hs => hs.debitForTransferFrom hDebit) hFinish
    have hAlw := FungibleTokenState.alw_debitForTransferFrom hDebit p
    show t.alw p = if c = c ∧ p = ⟨owner, spender⟩ then s.alw p - amount.val else s.alw p
    by_cases hp : p = ⟨owner, spender⟩
    · rw [if_pos hp] at hAlw
      rw [if_pos ⟨rfl, hp⟩]
      omega
    · rw [if_neg hp] at hAlw
      rw [if_neg fun hHere => hp hHere.2]
      omega
  | claim source amount target =>
    obtain ⟨-, -, hClaim⟩ := executeOperation_ok_iff.mp hOp
    by_cases hLocal : source.chainId = c
    · obtain ⟨t, hDebit, hFinish⟩ := moveTokens_ok_iff.mp ((if_pos hLocal).mp hClaim)
      have hMove : (Action.operation id c signer caller (.claim source amount target)).move =
          ⟨tokens c source.owner amount, arrival id c signer amount target source.owner⟩ :=
        if_pos hLocal
      exact transfer_outcome rfl (by rw [hMove]; rfl) (by rw [hMove]; rfl)
        (FungibleTokenState.bal_debit hDebit)
        (alw_eq_of_allowances_eq (FungibleTokenState.allowances_debit hDebit))
        (fun hs => hs.debit hDebit) hFinish
    · obtain ⟨rfl, rfl⟩ := (if_neg hLocal).mp hClaim
      have hMove : (Action.operation id c signer caller (.claim source amount target)).move =
          ⟨0, letters {withdrawEnvelope id c signer source amount target}⟩ := if_neg hLocal
      refine ⟨.quiet (by rw [hMove]; rfl) (by rw [hMove]; rfl) fun _ _ => rfl, ?_⟩
      rw [Action.sent, hMove]
      rfl

/-- What a message does. -/
theorem message_outcome (n : Network ChainId AccountOwner) (id : Nat)
    {e : Envelope ChainId AccountOwner} {sent : List (OutgoingMessage ChainId AccountOwner)}
    (hMessage : executeMessage (n.messageContext e) s e.message = .ok (s', sent)) :
    Outcome (.execute id e) s s' ∧
      envelopes id e.destination e.authenticatedSigner sent = (Action.execute id e).sent := by
  rw [executeMessage_ok_iff] at hMessage
  cases hMsg : e.message with
  | credit target amount source =>
    simp only [hMsg] at hMessage
    obtain ⟨isBouncing, hBouncing, rfl, rfl⟩ := hMessage
    obtain rfl : e.bouncing = isBouncing := Option.some.inj hBouncing
    have hMove : (Action.execute id e).move =
        ⟨letters {e}, tokens e.destination (e.receiver target source) amount⟩ := by
      simp only [Action.move, hMsg]
    refine ⟨⟨fun o => ?_, fun p => ?_, fun hs => hs.credit ..⟩, by rw [Action.sent, hMove]; rfl⟩
    · have hMax := s.bal_le_max o
      show FungibleTokenState.bal (s.credit (e.receiver target source) amount) o = _
      rw [hMove, FungibleTokenState.bal_credit, tokens_apply, settle]
      simp only [Action.chain, true_and, letters_fst, Finsupp.coe_zero, Pi.zero_apply]
      split <;> omega
    · exact alw_eq_of_allowances_eq (FungibleTokenState.allowances_credit ..) p
  | withdraw owner amount target =>
    simp only [hMsg] at hMessage
    obtain ⟨-, hTransfer⟩ := hMessage
    obtain ⟨t, hDebit, hFinish⟩ := moveTokens_ok_iff.mp hTransfer
    have hMove : (Action.execute id e).move =
        ⟨tokens e.destination owner amount + letters {e},
          arrival id e.destination e.authenticatedSigner amount target owner⟩ := by
      simp only [Action.move, hMsg]
    exact transfer_outcome (a := .execute id e) rfl
      (by rw [hMove, Prod.fst_add, letters_fst, add_zero]; rfl) (by rw [hMove]; rfl)
      (FungibleTokenState.bal_debit hDebit)
      (alw_eq_of_allowances_eq (FungibleTokenState.allowances_debit hDebit))
      (fun hs => hs.debit hDebit) hFinish

end

/-! ## One step -/

theorem receive_add (he : e ∈ n.inFlight) : (n.receive e).inFlight + {e} = n.inFlight :=
  erase_add he

/-- **What a step does**: it changes the state of the chain of its action, and
the messages in flight. -/
theorem step_outcome (hStep : n.step a = some n') :
    (∃ s', Outcome a (n.states a.chain) s' ∧
      n'.states = Function.update n.states a.chain s') ∧
    n'.inFlight + a.consumed = n.inFlight + a.sent := by
  rcases a with ⟨id, c, signer, caller, op⟩ | ⟨id, e⟩ | e
  · obtain ⟨s, response, sent, hOp, rfl⟩ := Network.step_operation_iff.mp hStep
    obtain ⟨hOutcome, hSent⟩ := operation_outcome n id hOp
    refine ⟨⟨s, hOutcome, rfl⟩, ?_⟩
    rw [Action.consumed, add_zero, ← hSent]
    rfl
  · obtain ⟨hMem, s, sent, hMessage, rfl⟩ := Network.step_execute_iff.mp hStep
    obtain ⟨hOutcome, hSent⟩ := message_outcome n id hMessage
    refine ⟨⟨s, hOutcome, rfl⟩, ?_⟩
    rw [Action.consumed, Network.commit, add_right_comm, receive_add hMem, hSent]
  · obtain ⟨hMem, -, rfl⟩ := Network.step_reject_iff.mp hStep
    refine ⟨⟨_, .quiet rfl rfl fun _ _ => rfl, (Function.update_eq_self ..).symm⟩, ?_⟩
    rw [Action.consumed, add_right_comm, receive_add hMem]
    rfl

theorem step_alw (hStep : n.step a = some n') (c : ChainId) (p : OwnerSpender AccountOwner) :
    (n'.states c).alw p = a.allowanceAfter c p ((n.states c).alw p) := by
  obtain ⟨⟨s', hOutcome, hStates⟩, -⟩ := step_outcome hStep
  rw [hStates]
  by_cases hc : c = a.chain
  · subst hc
    rw [Function.update_self, hOutcome.alw]
  · rw [Function.update_of_ne hc, Action.allowanceAfter_elsewhere hc]

/-- **What a step does to a balance**: what the move of the action says, with
a saturating addition. -/
theorem step_bal (hStep : n.step a = some n') (c : ChainId) (o : AccountOwner) :
    (n'.states c).bal o =
      settle ((n.states c).bal o) (a.move.take.1 (c, o)) (a.move.give.1 (c, o)) := by
  obtain ⟨⟨s', hOutcome, hStates⟩, -⟩ := step_outcome hStep
  rw [hStates]
  by_cases hc : c = a.chain
  · subst hc
    rw [Function.update_self, hOutcome.bal]
  · obtain ⟨hTake, hGive⟩ := Action.move_elsewhere hc o
    rw [Function.update_of_ne hc, hTake, hGive]
    exact (settle_bal_zero ..).symm

/-- **What a step does to the messages in flight.** -/
theorem step_inFlight (hStep : n.step a = some n') :
    n'.inFlight + a.consumed = n.inFlight + a.sent :=
  (step_outcome hStep).2

/-! ## Well-formed networks -/

/-- Every state is canonical, and every message in flight has the flags of its
kind. -/
structure Network.WellFormed (n : Network ChainId AccountOwner) : Prop where
  canonical : ∀ c, (n.states c).Canonical
  regular : ∀ e ∈ n.inFlight, e.Regular

omit [DecidableEq AccountOwner] in
/-- What an action sends has the flags of its kind, if what it takes has. -/
theorem regular_sent {m : Envelope ChainId AccountOwner} (hSent : m ∈ a.sent)
    (hConsumed : ∀ e ∈ a.consumed, e.Regular) : m.Regular := by
  cases sends_of_mem hSent with
  | transfer signer amount target source hNumber hEnvelope hMove =>
    rw [hEnvelope]
    rfl
  | claim signer caller source amount target hRemote hEnvelope =>
    rw [hEnvelope]
    exact ⟨rfl, rfl⟩
  | bounce e hTracked hEnvelope =>
    -- only a tracked message comes back, so it is a `Credit`
    have hReg := hConsumed e (Multiset.mem_singleton_self e)
    rw [hEnvelope]
    unfold Envelope.Regular at hReg ⊢
    unfold Envelope.bounced
    cases hMsg : e.message <;> simp_all

/-- Every step keeps a network well formed. -/
theorem Network.WellFormed.step (h : n.WellFormed) (hStep : n.step a = some n') :
    n'.WellFormed := by
  obtain ⟨⟨s', hOutcome, hStates⟩, hFlight⟩ := step_outcome hStep
  refine ⟨fun c => ?_, fun m hm => ?_⟩
  · rw [hStates]
    by_cases hc : c = a.chain
    · subst hc
      rw [Function.update_self]
      exact hOutcome.canonical (h.canonical _)
    · rw [Function.update_of_ne hc]
      exact h.canonical c
  · have hMem : m ∈ n.inFlight + a.sent := hFlight ▸ Multiset.mem_add.mpr (Or.inl hm)
    rcases Multiset.mem_add.mp hMem with hOld | hSent
    · exact h.regular m hOld
    · exact regular_sent hSent fun e he =>
        h.regular e (Multiset.mem_of_le (Network.consumed_le hStep) he)

/-! ## Sound networks -/

/-- A well-formed network, its marking, and a supply that is an amount. -/
structure Sound (n : Network ChainId AccountOwner) (M : Marking ChainId AccountOwner) :
    Prop where
  marks : Marks n M
  wellFormed : n.WellFormed
  fits : supply M ≤ Amount.MAX.val

/-- In a sound network an action keeps the supply. -/
theorem Sound.supply_move (hS : Sound n M) (hStep : n.step a = some n') :
    supply a.move.take = supply a.move.give :=
  Fungible.supply_move a fun e he =>
    hS.wellFormed.regular e (Multiset.mem_of_le (Network.consumed_le hStep) he)

/-- What is left of a balance and what an action gives to it is an amount. -/
theorem Sound.room (hS : Sound n M) (hStep : n.step a = some n') (c : ChainId)
    (o : AccountOwner) :
    (n.states c).bal o - a.move.take.1 (c, o) + a.move.give.1 (c, o) ≤ Amount.MAX.val := by
  have hSupply := hS.supply_move hStep
  have hFits := hS.fits
  have hBal := hS.marks.bal c o
  obtain ⟨rest, rfl⟩ := exists_add_of_le (hS.marks.holds_iff.mp (Network.holds_of_step hStep))
  have hBound := bal_le_supply (a.move.give + rest) (c, o)
  rw [map_add] at hBound hFits
  simp only [Prod.fst_add, Finsupp.add_apply] at hBal hBound
  omega

/-- **Refinement.** A step of a sound network is the move of its action, keeps
the supply, and leads to a sound network: no addition has saturated. -/
theorem Sound.step (hS : Sound n M) (hStep : n.step a = some n') :
    ∃ M', a.move.Fires M M' ∧ supply M' = supply M ∧ Sound n' M' := by
  have hSupply := hS.supply_move hStep
  have hRoom := hS.room hStep
  obtain ⟨rest, rfl⟩ := exists_add_of_le (hS.marks.holds_iff.mp (Network.holds_of_step hStep))
  have hFires : a.move.Fires (a.move.take + rest) (a.move.give + rest) := ⟨rest, rfl, rfl⟩
  have hKeep := hFires.conserves supply hSupply
  refine ⟨a.move.give + rest, hFires, hKeep, ⟨fun c o => ?_, ?_⟩, hS.wellFormed.step hStep,
    hKeep ▸ hS.fits⟩
  · have hBal := hS.marks.bal c o
    have hRoom' := hRoom c o
    rw [step_bal hStep, settle, Nat.min_eq_left hRoom', ← hBal]
    simp only [Prod.fst_add, Finsupp.add_apply]
    omega
  · have hFlight := step_inFlight hStep
    have hOld := hS.marks.inFlight
    rw [Prod.snd_add, a.move_take_snd] at hOld
    refine (add_right_cancel (b := a.consumed) ?_).symm
    calc n'.inFlight + a.consumed = a.consumed + rest.2 + a.sent := by rw [hFlight, hOld]
      _ = a.move.give.2 + rest.2 + a.consumed := by
        rw [add_comm, add_comm a.consumed, add_assoc, Action.sent]

/-- What the step does not take is still there after it. -/
theorem Sound.step_rest {K : Marking ChainId AccountOwner} (hS : Sound n M)
    (hStep : n.step a = some n') (hRest : M = a.move.take + K) :
    Sound n' (a.move.give + K) := by
  obtain ⟨M', hFires, -, hS'⟩ := hS.step hStep
  exact hFires.eq_give_add hRest ▸ hS'

/-- The converse: where the marking allows the move, the step is possible. -/
theorem Sound.exists_step {K : Marking ChainId AccountOwner} (hS : Sound n M)
    (hPermitted : a.Permitted) (hAllowed : a.Allowed n) (hRest : M = a.move.take + K) :
    ∃ n', n.step a = some n' ∧ Sound n' (a.move.give + K) := by
  have hHolds : n.Holds a.move.take := by
    rw [hS.marks.holds_iff, hRest]
    exact le_self_add
  obtain ⟨n', hStep⟩ := Network.exists_step_iff.mpr ⟨hPermitted, hAllowed, hHolds⟩
  exact ⟨n', hStep, hS.step_rest hStep hRest⟩

/-- A run of a sound network is the sequence of the moves of its actions. -/
theorem Sound.run {as : List (Action ChainId AccountOwner)} (hS : Sound n M)
    (hRun : n.run as = some n') :
    ∃ M', FiresAll (as.map Action.move) M M' ∧ supply M' = supply M ∧ Sound n' M' := by
  induction as generalizing n M with
  | nil =>
    obtain rfl := Option.some.inj hRun
    exact ⟨M, rfl, rfl, hS⟩
  | cons a as ih =>
    obtain ⟨n₁, hFirst, hRest⟩ := run_cons_eq_some.mp hRun
    obtain ⟨M₁, hFires, hSupply, hS₁⟩ := hS.step hFirst
    obtain ⟨M', hAll, hSupply', hS'⟩ := ih hS₁ hRest
    exact ⟨M', ⟨M₁, hFires, hAll⟩, hSupply'.trans hSupply, hS'⟩

omit [DecidableEq ChainId] in
/-- Sound networks with one marking hold the same accounts and messages. -/
theorem Sound.accounts_eq (hS : Sound n M) (hS' : Sound n' M) (c : ChainId) :
    (n.states c).accounts = (n'.states c).accounts :=
  (hS.wellFormed.canonical c).accounts.ext (hS'.wellFormed.canonical c).accounts fun o =>
    Amount.ext ((hS.marks.bal c o).symm.trans (hS'.marks.bal c o))

omit [DecidableEq ChainId] in
/-- A sound network is determined by its marking and its allowances. -/
theorem Sound.ext (hS : Sound n M) (hS' : Sound n' M) (hParams : n.parameters = n'.parameters)
    (hAlw : ∀ c p, (n.states c).alw p = (n'.states c).alw p) : n = n' := by
  refine Network.ext hParams (funext fun c => ?_)
    (hS.marks.inFlight.symm.trans hS'.marks.inFlight)
  exact (hS.wellFormed.canonical c).ext (hS'.wellFormed.canonical c)
    (fun o => (hS.marks.bal c o).symm.trans (hS'.marks.bal c o)) (hAlw c)

theorem step_parameters (hStep : n.step a = some n') : n'.parameters = n.parameters := by
  rcases a with ⟨id, c, signer, caller, op⟩ | ⟨id, e⟩ | e
  · obtain ⟨_, _, _, -, rfl⟩ := Network.step_operation_iff.mp hStep
    rfl
  · obtain ⟨-, _, _, -, rfl⟩ := Network.step_execute_iff.mp hStep
    rfl
  · obtain ⟨-, -, rfl⟩ := Network.step_reject_iff.mp hStep
    rfl

theorem run_parameters {as : List (Action ChainId AccountOwner)} (hRun : n.run as = some n') :
    n'.parameters = n.parameters := by
  refine run_invariant (P := fun m => m.parameters = n.parameters) ?_ rfl hRun
  intro m a m' hParameters hStep
  exact (step_parameters hStep).trans hParameters

/-! ## The start of a run -/

/-- The marking of an instantiation on the chain `c₀`. -/
noncomputable def initialMarking (c₀ : ChainId) (state : InitialState AccountOwner) :
    Marking ChainId AccountOwner :=
  ((state.accounts.entries.map fun e => Finsupp.single (c₀, e.1) e.2.val).sum, 0)

omit [DecidableEq ChainId] [DecidableEq AccountOwner] in
theorem supply_initialMarking (c₀ : ChainId) (state : InitialState AccountOwner) :
    supply (initialMarking c₀ state) = state.total := by
  rw [supply_apply, initialMarking, map_list_sum, List.map_map]
  simp [Function.comp_def, InitialState.total]

theorem wellFormed_instantiate {parameters : Parameters} {c₀ : ChainId}
    {state : InitialState AccountOwner}
    (hInit : Network.instantiate parameters c₀ state = .ok n) : n.WellFormed := by
  obtain ⟨-, rfl⟩ := Network.instantiate_ok_iff.mp hInit
  refine ⟨fun c => ?_, by simp⟩
  by_cases hc : c = c₀
  · subst hc
    simpa using FungibleTokenState.Canonical.initializeAccounts state
  · simpa [hc] using FungibleTokenState.Canonical.empty

/-- Every run from an instantiation stays well formed. -/
theorem wellFormed_run {parameters : Parameters} {c₀ : ChainId}
    {state : InitialState AccountOwner} {as : List (Action ChainId AccountOwner)}
    (hInit : Network.instantiate parameters c₀ state = .ok n₀) (hRun : n₀.run as = some n) :
    n.WellFormed := by
  refine run_invariant (P := Network.WellFormed) ?_ (wellFormed_instantiate hInit) hRun
  intro m a m' hWell hStep
  exact hWell.step hStep

theorem alw_instantiate {parameters : Parameters} {c₀ : ChainId}
    {state : InitialState AccountOwner}
    (hInit : Network.instantiate parameters c₀ state = .ok n) (c : ChainId)
    (p : OwnerSpender AccountOwner) : (n.states c).alw p = 0 := by
  obtain ⟨-, rfl⟩ := Network.instantiate_ok_iff.mp hInit
  by_cases hc : c = c₀
  · subst hc
    simp [FungibleTokenState.alw, FungibleTokenState.allowances_initializeAccounts]
  · simp [hc]

/-- **Instantiation is sound** when the exact total is an amount. -/
theorem Sound.instantiate {parameters : Parameters} {c₀ : ChainId}
    {state : InitialState AccountOwner}
    (hInit : Network.instantiate parameters c₀ state = .ok n)
    (hTotal : state.total ≤ Amount.MAX.val) : Sound n (initialMarking c₀ state) := by
  refine ⟨⟨fun c o => ?_, ?_⟩, wellFormed_instantiate hInit,
    (supply_initialMarking c₀ state).symm ▸ hTotal⟩
  · obtain ⟨-, rfl⟩ := Network.instantiate_ok_iff.mp hInit
    have hApply : (initialMarking c₀ state).1 (c, o) =
        (state.accounts.entries.map fun e =>
          Finsupp.single (c₀, e.1) e.2.val (c, o)).sum := by
      rw [initialMarking, ← Finsupp.applyAddHom_apply, map_list_sum, List.map_map]
      rfl
    rw [hApply]
    by_cases hc : c = c₀
    · subst hc
      simp [FungibleTokenState.bal_initializeAccounts, Finsupp.single_apply]
    · simp [hc]
  · obtain ⟨-, rfl⟩ := Network.instantiate_ok_iff.mp hInit
    rfl

end LineraEndToEnd.Fungible
