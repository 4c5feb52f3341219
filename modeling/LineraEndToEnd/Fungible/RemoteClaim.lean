import LineraEndToEnd.Fungible.Reorder

/-!
# Fungible — a claim is a transfer

`Claim` and the `Withdraw` message it sends move tokens the way `Transfer` does:
the same permission, the same debit, the same final step with the same source.
So every run can be told without them.

* `Action.unclaimed` — what takes the place of an action: the transfer a local
  claim or a `Withdraw` amounts to, nothing for a claim on another chain and for
  the rejection of a `Withdraw`.
* `claim_eq_transfer` / `withdraw_eq_transfer` — the three code paths agree.
* `Unclaimed n n'` — `n'` is `n` without its `Withdraw` messages; kept by every
  step (`Unclaimed.step`).
* `claims_add_nothing` — the two runs agree after every step.
-/

namespace LineraEndToEnd.Fungible

open Lib

variable {ChainId AccountOwner : Type} [DecidableEq ChainId] [DecidableEq AccountOwner]
  {n n' n₀ n₁ : Network ChainId AccountOwner} {a : Action ChainId AccountOwner}
  {m e : Envelope ChainId AccountOwner}

-- ---------------------------------------------------------------------------
-- Runs without claims
-- ---------------------------------------------------------------------------

/-- What takes the place of an action in a run without claims. A `Withdraw` is
executed as the transfer of the signer it carries. -/
def Action.unclaimed : Action ChainId AccountOwner → List (Action ChainId AccountOwner)
  | .operation id chain signer caller (.claim source amount target) =>
    if source.chainId = chain then
      [.operation id chain signer caller (.transfer source.owner amount target)]
    else []
  | .operation id chain signer caller op => [.operation id chain signer caller op]
  | .execute id e =>
    match e.message with
    | .credit _ _ _ => [.execute id e]
    | .withdraw owner amount target =>
      [.operation id e.destination e.authenticatedSigner none (.transfer owner amount target)]
  | .reject e => if e.IsCredit then [.reject e] else []

/-- Neither a claim nor a step of a `Withdraw`. -/
def Action.ClaimFree : Action ChainId AccountOwner → Prop
  | .operation _ _ _ _ (.claim _ _ _) => False
  | .operation _ _ _ _ _ => True
  | .execute _ e => e.IsCredit
  | .reject e => e.IsCredit

omit [DecidableEq AccountOwner] in
theorem claimFree_of_mem_unclaimed {b : Action ChainId AccountOwner} (hb : b ∈ a.unclaimed) :
    b.ClaimFree := by
  rcases a with ⟨id, c, signer, caller, op⟩ | ⟨id, e⟩ | e
  · cases op with
    | claim source amount target =>
      simp only [Action.unclaimed] at hb
      split at hb
      · rw [List.mem_singleton.mp hb]
        trivial
      · cases hb
    | balance | tickerSymbol | approve | transfer | transferFrom =>
      rw [List.mem_singleton.mp hb]
      trivial
  · cases hMsg : e.message with
    | credit target amount source =>
      simp only [Action.unclaimed, hMsg, List.mem_singleton] at hb
      subst hb
      simp [Action.ClaimFree, Envelope.IsCredit, hMsg]
    | withdraw owner amount target =>
      simp only [Action.unclaimed, hMsg, List.mem_singleton] at hb
      subst hb
      trivial
  · simp only [Action.unclaimed] at hb
    split at hb
    · next hCredit =>
      rw [List.mem_singleton.mp hb]
      exact hCredit
    · cases hb

-- ---------------------------------------------------------------------------
-- The three code paths
-- ---------------------------------------------------------------------------

section
variable {ctx ctx' : Context ChainId AccountOwner} {s s' : FungibleTokenState AccountOwner}
  {sent : List (OutgoingMessage ChainId AccountOwner)} {owner : AccountOwner} {amount : Amount}
  {target : Account ChainId AccountOwner}

/-- A claim on the chain of the source is a transfer. -/
theorem claim_eq_transfer {source : Account ChainId AccountOwner} {response : FungibleResponse}
    (hLocal : source.chainId = ctx.chainId) :
    executeOperation ctx s (.claim source amount target) = .ok (s', response, sent) ↔
      executeOperation ctx s (.transfer source.owner amount target) =
        .ok (s', response, sent) := by
  rw [executeOperation_ok_iff, executeOperation_ok_iff]
  simp only [if_pos hLocal]
  exact and_congr_right' and_comm

omit [DecidableEq ChainId] in
/-- Of its context, moving tokens only looks at the chain. -/
theorem moveTokens_congr [DecidableEq ChainId] (hChain : ctx.chainId = ctx'.chainId) :
    moveTokens ctx s owner amount target = moveTokens ctx' s owner amount target := by
  unfold moveTokens
  simp only [finishTransferToAccount_eq, hChain]

/-- A `Withdraw` is a transfer of the signer it carries. -/
theorem withdraw_eq_transfer (n : Network ChainId AccountOwner)
    (hMsg : e.message = .withdraw owner amount target) :
    executeMessage (n.messageContext e) s e.message = .ok (s', sent) ↔
      executeOperation (n.operationContext e.destination e.authenticatedSigner none) s
        (.transfer owner amount target) = .ok (s', .ok, sent) := by
  rw [hMsg, executeMessage_ok_iff, executeOperation_ok_iff]
  refine and_congr Iff.rfl ?_
  have hMove : moveTokens (n.messageContext e) s owner amount target =
      moveTokens (n.operationContext e.destination e.authenticatedSigner none) s owner amount
        target := moveTokens_congr rfl
  rw [hMove]
  simp

end

omit [DecidableEq AccountOwner] in
/-- What is sent is a credit, but for a claim on another chain. -/
theorem isCredit_of_mem_sent (hSent : m ∈ a.sent) (hFree : a.ClaimFree) : m.IsCredit := by
  cases sends_of_mem hSent with
  | transfer signer amount target source hNumber hEnvelope hMove =>
    rw [hEnvelope]
    trivial
  | claim signer caller source amount target hRemote hEnvelope => exact hFree.elim
  | bounce e hTracked hEnvelope =>
    rw [hEnvelope]
    exact hFree

-- ---------------------------------------------------------------------------
-- Two networks side by side
-- ---------------------------------------------------------------------------

/-- The second network is the first one without its `Withdraw` messages. -/
structure Unclaimed (n n' : Network ChainId AccountOwner) : Prop where
  parameters : n'.parameters = n.parameters
  states : n'.states = n.states
  inFlight : n'.inFlight = n.inFlight.filter Envelope.IsCredit

namespace Unclaimed

omit [DecidableEq AccountOwner] in
/-- Both networks commit the same state and send the same credits. -/
theorem commit (h : Unclaimed n n') (c : ChainId) (s : FungibleTokenState AccountOwner)
    {sent : Multiset (Envelope ChainId AccountOwner)} (hSent : ∀ m ∈ sent, m.IsCredit) :
    Unclaimed (n.commit c s sent) (n'.commit c s sent) := by
  refine ⟨h.parameters, ?_, ?_⟩
  · show Function.update n'.states c s = Function.update n.states c s
    rw [h.states]
  · show n'.inFlight + sent = (n.inFlight + sent).filter Envelope.IsCredit
    rw [Multiset.filter_add, Multiset.filter_eq_self.mpr hSent, h.inFlight]

/-- The first network receives a `Withdraw`. -/
theorem receive_withdraw (h : Unclaimed n n') (hMem : e ∈ n.inFlight) (hNot : ¬ e.IsCredit) :
    Unclaimed (n.receive e) n' := by
  refine ⟨h.parameters, h.states, ?_⟩
  rw [h.inFlight, ← Multiset.cons_erase hMem, Multiset.filter_cons_of_neg _ hNot]
  rfl

/-- Both networks receive a credit. -/
theorem receive_credit (h : Unclaimed n n') (hMem : e ∈ n.inFlight) (hCredit : e.IsCredit) :
    e ∈ n'.inFlight ∧ Unclaimed (n.receive e) (n'.receive e) := by
  have hFlight : n'.inFlight = e ::ₘ (n.inFlight.erase e).filter Envelope.IsCredit := by
    rw [h.inFlight, ← Multiset.filter_cons_of_pos _ hCredit, Multiset.cons_erase hMem]
  refine ⟨hFlight ▸ Multiset.mem_cons_self e _, h.parameters, h.states, ?_⟩
  show n'.inFlight.erase e = _
  rw [hFlight, Multiset.erase_cons_head]
  rfl

/-- An operation other than a claim runs the same in both networks. -/
theorem operation (h : Unclaimed n n') {id : Nat} {c : ChainId}
    {signer caller : Option AccountOwner} {op : FungibleOperation ChainId AccountOwner}
    (hStep : n.step (.operation id c signer caller op) = some n₁)
    (hFree : (Action.operation id c signer caller op).ClaimFree) :
    ∃ n₁', n'.step (.operation id c signer caller op) = some n₁' ∧ Unclaimed n₁ n₁' := by
  obtain ⟨s, response, sent, hOp, rfl⟩ := Network.step_operation_iff.mp hStep
  obtain ⟨-, hSent⟩ := operation_outcome n id hOp
  refine ⟨_, Network.step_operation_iff.mpr ⟨s, response, sent, ?_, rfl⟩, h.commit c s ?_⟩
  · rw [← hOp, h.states, Network.operationContext, h.parameters]
    rfl
  · intro m hm
    exact isCredit_of_mem_sent (hSent ▸ hm) hFree

/-- A claim is a transfer, or only sends a `Withdraw`. -/
theorem claim (h : Unclaimed n n') {id : Nat} {c : ChainId} {signer caller : Option AccountOwner}
    {source target : Account ChainId AccountOwner} {amount : Amount}
    (hStep : n.step (.operation id c signer caller (.claim source amount target)) = some n₁) :
    ∃ n₁', n'.run (Action.operation id c signer caller
      (.claim source amount target)).unclaimed = some n₁' ∧ Unclaimed n₁ n₁' := by
  obtain ⟨s, response, sent, hOp, rfl⟩ := Network.step_operation_iff.mp hStep
  by_cases hLocal : source.chainId = c
  · have hTransfer : n.step (.operation id c signer caller
        (.transfer source.owner amount target)) =
        some (n.commit c s (envelopes id c signer sent)) :=
      Network.step_operation_iff.mpr ⟨s, response, sent, (claim_eq_transfer hLocal).mp hOp, rfl⟩
    obtain ⟨n₁', hStep', h₁⟩ := h.operation hTransfer trivial
    refine ⟨n₁', ?_, h₁⟩
    simp only [Action.unclaimed, if_pos hLocal]
    exact (run_singleton ..).trans hStep'
  · obtain ⟨-, -, hSent⟩ := executeOperation_ok_iff.mp hOp
    obtain ⟨rfl, rfl⟩ := (if_neg hLocal).mp hSent
    refine ⟨n', by simp only [Action.unclaimed, if_neg hLocal, run_nil], h.parameters, ?_, ?_⟩
    · exact h.states.trans (Function.update_eq_self ..).symm
    · show n'.inFlight = (n.inFlight + {withdrawEnvelope id c signer source amount target}).filter
        Envelope.IsCredit
      have hNone : ({withdrawEnvelope id c signer source amount target} :
          Multiset (Envelope ChainId AccountOwner)).filter Envelope.IsCredit = 0 := rfl
      rw [Multiset.filter_add, hNone, add_zero, h.inFlight]

/-- A credit runs the same in both networks, a `Withdraw` runs as a transfer. -/
theorem execute (h : Unclaimed n n') {id : Nat} (hStep : n.step (.execute id e) = some n₁) :
    ∃ n₁', n'.run (Action.execute id e).unclaimed = some n₁' ∧ Unclaimed n₁ n₁' := by
  obtain ⟨hMem, s, sent, hMessage, rfl⟩ := Network.step_execute_iff.mp hStep
  obtain ⟨-, hSent⟩ := message_outcome n id hMessage
  cases hMsg : e.message with
  | credit target amount source =>
    have hCredit : e.IsCredit := by simp [Envelope.IsCredit, hMsg]
    obtain ⟨hMem', h₁⟩ := h.receive_credit hMem hCredit
    refine ⟨_, ?_, h₁.commit e.destination s ?_⟩
    · simp only [Action.unclaimed, hMsg]
      refine (run_singleton ..).trans (Network.step_execute_iff.mpr ⟨hMem', s, sent, ?_, rfl⟩)
      rw [← hMessage, h.states, Network.messageContext, h.parameters]
      rfl
    · intro m hm
      exact isCredit_of_mem_sent (a := .execute id e) (hSent ▸ hm) hCredit
  | withdraw owner amount target =>
    have hNot : ¬ e.IsCredit := by simp [Envelope.IsCredit, hMsg]
    have hTransfer : (n.receive e).step (.operation id e.destination e.authenticatedSigner none
        (.transfer owner amount target)) = some ((n.receive e).commit e.destination s
          (envelopes id e.destination e.authenticatedSigner sent)) :=
      Network.step_operation_iff.mpr
        ⟨s, .ok, sent, (withdraw_eq_transfer n hMsg).mp hMessage, rfl⟩
    obtain ⟨n₁', hStep', h₁⟩ := (h.receive_withdraw hMem hNot).operation hTransfer trivial
    refine ⟨n₁', ?_, h₁⟩
    simp only [Action.unclaimed, hMsg]
    exact (run_singleton ..).trans hStep'

/-- A credit is rejected in both networks, a `Withdraw` without a trace. -/
theorem reject (h : Unclaimed n n') (hWell : n.WellFormed)
    (hStep : n.step (.reject e) = some n₁) :
    ∃ n₁', n'.run (Action.reject e).unclaimed = some n₁' ∧ Unclaimed n₁ n₁' := by
  obtain ⟨hMem, hBouncing, rfl⟩ := Network.step_reject_iff.mp hStep
  by_cases hCredit : e.IsCredit
  · obtain ⟨hMem', h₁⟩ := h.receive_credit hMem hCredit
    have hCopies : ∀ m ∈ (if e.tracked then {e.bounced} else 0 : Multiset _), m.IsCredit := by
      intro m hm
      split at hm
      · rw [Multiset.mem_singleton.mp hm]
        exact hCredit
      · exact absurd hm (Multiset.notMem_zero m)
    have hStep' := Network.step_reject_iff.mpr ⟨hMem', hBouncing, rfl⟩
    have hBoth := h₁.commit e.destination (n.states e.destination) hCopies
    simp only [Action.unclaimed, if_pos hCredit]
    exact ⟨_, (run_singleton ..).trans hStep', h₁.parameters, h₁.states, hBoth.inFlight⟩
  · -- a `Withdraw` is not tracked, so nothing comes back
    have hReg := hWell.regular e hMem
    unfold Envelope.Regular at hReg
    cases hMsg : e.message with
    | credit => simp [Envelope.IsCredit, hMsg] at hCredit
    | withdraw owner amount target =>
      rw [hMsg] at hReg
      have h₁ := h.receive_withdraw hMem hCredit
      refine ⟨n', by simp only [Action.unclaimed, if_neg hCredit, run_nil], h₁.parameters,
        h₁.states, ?_⟩
      simp only [hReg.1, Bool.false_eq_true, if_false, add_zero]
      exact h₁.inFlight

/-- **Simulation step.** -/
theorem step (h : Unclaimed n n') (hWell : n.WellFormed) (hStep : n.step a = some n₁) :
    ∃ n₁', n'.run a.unclaimed = some n₁' ∧ Unclaimed n₁ n₁' := by
  cases a with
  | operation id c signer caller op =>
    cases op with
    | balance | tickerSymbol | approve | transfer | transferFrom =>
      obtain ⟨n₁', hStep', h₁⟩ := h.operation hStep trivial
      exact ⟨n₁', (run_singleton ..).trans hStep', h₁⟩
    | claim source amount target => exact h.claim hStep
  | execute id e => exact h.execute hStep
  | reject e => exact h.reject hWell hStep

end Unclaimed

/-- **Remote claims add no behaviour of their own.** Every run can be told
without claims and `Withdraw` messages: after every step, the run in which each
action is replaced as `Action.unclaimed` says has the same state on every chain,
and the same credits in flight. -/
theorem claims_add_nothing {parameters : Parameters} {c₀ : ChainId}
    {state : InitialState AccountOwner} {as : List (Action ChainId AccountOwner)}
    {n : Network ChainId AccountOwner}
    (hInit : Network.instantiate parameters c₀ state = .ok n₀) (hRun : n₀.run as = some n) :
    (∀ b ∈ as.flatMap Action.unclaimed, b.ClaimFree) ∧
    ∀ before, before <+: as → ∃ m m', n₀.run before = some m ∧
      n₀.run (before.flatMap Action.unclaimed) = some m' ∧
      (∀ c, (m'.states c).accounts = (m.states c).accounts ∧
        (m'.states c).allowances = (m.states c).allowances) ∧
      m'.inFlight = m.inFlight.filter Envelope.IsCredit := by
  constructor
  · intro b hb
    obtain ⟨a, -, hMem⟩ := List.mem_flatMap.mp hb
    exact claimFree_of_mem_unclaimed hMem
  · intro before hBefore
    obtain ⟨after, rfl⟩ := hBefore
    obtain ⟨m, hFirst, -⟩ := run_append_eq_some.mp hRun
    have hStart : n₀.WellFormed ∧ Unclaimed n₀ n₀ := by
      refine ⟨wellFormed_instantiate hInit, rfl, rfl, ?_⟩
      obtain ⟨-, rfl⟩ := Network.instantiate_ok_iff.mp hInit
      rfl
    obtain ⟨m', hRun', -, hSame⟩ := run_simulates_by
      (R := fun n n' => n.WellFormed ∧ Unclaimed n n') (Q := fun _ => True)
      (fun n n' a n₁ hBoth _ hStep => by
        obtain ⟨n₁', hRun', h₁⟩ := hBoth.2.step hBoth.1 hStep
        exact ⟨n₁', hRun', hBoth.1.step hStep, h₁⟩)
      hStart (fun _ _ => trivial) hFirst
    refine ⟨m, m', hFirst, hRun', fun c => ?_, hSame.inFlight⟩
    rw [hSame.states]
    exact ⟨rfl, rfl⟩

/-- The owner `0` claims 5 of its tokens on the chain `0` for its account on the
chain `1`. -/
def sampleClaiming : List (Action Nat Nat) :=
  [.operation 0 1 (some 0) none (.claim ⟨0, 0⟩ (.fromAttos 5) ⟨1, 0⟩),
    .execute 1 (withdrawEnvelope 0 1 (some 0) ⟨0, 0⟩ (.fromAttos 5) ⟨1, 0⟩),
    .execute 2 (creditEnvelope 1 0 (some 0) (.fromAttos 5) ⟨1, 0⟩ 0)]

theorem claims_add_nothing_sample :
    ∃ m m', sampleNetwork.run sampleClaiming = some m ∧
      sampleNetwork.run
        [.operation 1 0 (some 0) none (.transfer 0 ⟨5, by decide⟩ ⟨1, 0⟩),
          .execute 2 (creditEnvelope 1 0 (some 0) ⟨5, by decide⟩ ⟨1, 0⟩ 0)] = some m' ∧
      ∀ c, (m'.states c).accounts = (m.states c).accounts := by
  obtain ⟨n, hRun⟩ := Option.isSome_iff_exists.mp
    (by decide : (sampleNetwork.run sampleClaiming).isSome = true)
  obtain ⟨m, m', hBefore, hUnclaimed, hSame, -⟩ :=
    (claims_add_nothing instantiate_sampleState hRun).2 sampleClaiming List.prefix_rfl
  exact ⟨m, m', hBefore, hUnclaimed, fun c => (hSame c).1⟩

end LineraEndToEnd.Fungible
