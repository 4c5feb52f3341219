import LineraEndToEnd.Fungible.Allowance
import LineraEndToEnd.Fungible.Bounce

/-!
# Fungible — what a refund gives back

A `TransferFrom` to another chain takes from two maps, the balance of the owner
and the allowance of the spender. Its `Credit` carries the owner only, so when
it is rejected and comes back, the balance is restored and the allowance is not.

* `neverSaturates_of_approved_le` — no approval saturates as long as all of them
  together are an amount.
* `refund_without_allowance` — the run with the rejected `TransferFrom` against
  the run without it: the same accounts, and an allowance that is less by exactly
  what was sent.
-/

namespace LineraEndToEnd.Fungible

open Lib

variable {ChainId AccountOwner : Type} [DecidableEq ChainId] [DecidableEq AccountOwner]
  {n n' n₀ : Network ChainId AccountOwner} {t : Action ChainId AccountOwner}
  {m : Envelope ChainId AccountOwner} {c : ChainId} {p : OwnerSpender AccountOwner}

/-- No approval saturates when all of them together are an amount. -/
theorem neverSaturates_of_approved_le {parameters : Parameters} {c₀ : ChainId}
    {state : InitialState AccountOwner} {as : List (Action ChainId AccountOwner)}
    (hInit : Network.instantiate parameters c₀ state = .ok n₀)
    (hFits : approved c p as ≤ Amount.MAX.val) : NeverSaturates n₀ c p as := by
  intro before a n hPrefix hRun
  obtain ⟨after, rfl⟩ := hPrefix
  have hSpent := spent_add_alw_le (p := p) (c := c) hInit hRun
  have hSplit : approved c p (before ++ [a] ++ after) =
      approved c p before + a.approves c p + approved c p after := by
    simp [approved, Nat.add_assoc]
  omega

/-- A `TransferFrom` and what becomes of its `Credit` approve nothing, and spend
exactly the amount of the `TransferFrom`. -/
theorem ledger_of_refund {id : Nat} (id' : Nat) {signer caller : Option AccountOwner}
    {owner spender : AccountOwner} {amount : Amount} {target : Account ChainId AccountOwner}
    (ht : t = .operation id c signer caller (.transferFrom owner spender amount target))
    (pre mid mid' post : List (Action ChainId AccountOwner)) :
    approved c ⟨owner, spender⟩
        (pre ++ t :: mid ++ .reject m :: mid' ++ .execute id' m.bounced :: post) =
      approved c ⟨owner, spender⟩ (pre ++ mid ++ mid' ++ post) ∧
    spent c ⟨owner, spender⟩
        (pre ++ t :: mid ++ .reject m :: mid' ++ .execute id' m.bounced :: post) =
      spent c ⟨owner, spender⟩ (pre ++ mid ++ mid' ++ post) + amount.val := by
  subst ht
  constructor
  · simp [approved, Action.approves]
  · simp only [spent, Action.spends, List.map_append, List.map_cons, List.sum_append,
      List.sum_cons, and_self, if_true]
    omega

/-- **A refund gives the tokens back, and not the allowance.** Take a run in which
a `TransferFrom` sends a credit to another chain, which is rejected and comes
back, and the run without these three steps; no approval for the pair saturates
in either. At the end the allowance is less by the amount that was sent, so it is
the same exactly when this amount is zero; the accounts are the same on every
chain, when the exact total of the instantiation is an amount. -/
theorem refund_without_allowance {parameters : Parameters} {c₀ : ChainId}
    {state : InitialState AccountOwner} {pre mid mid' post : List (Action ChainId AccountOwner)}
    {id id' : Nat} {signer caller : Option AccountOwner} {owner spender : AccountOwner}
    {amount : Amount} {target : Account ChainId AccountOwner}
    (hInit : Network.instantiate parameters c₀ state = .ok n₀)
    (ht : t = .operation id c signer caller (.transferFrom owner spender amount target))
    (hm : m = creditEnvelope id c signer amount target owner) (hRemote : target.chainId ≠ c)
    (hRun : n₀.run (pre ++ t :: mid ++ .reject m :: mid' ++ .execute id' m.bounced :: post) =
      some n)
    (hIds : ((pre ++ t :: mid ++ .reject m :: mid' ++ .execute id' m.bounced :: post).filterMap
      Action.transaction).Nodup)
    (hRun' : n₀.run (pre ++ mid ++ mid' ++ post) = some n')
    (hNever : NeverSaturates n₀ c ⟨owner, spender⟩
      (pre ++ t :: mid ++ .reject m :: mid' ++ .execute id' m.bounced :: post))
    (hNever' : NeverSaturates n₀ c ⟨owner, spender⟩ (pre ++ mid ++ mid' ++ post)) :
    (n.states c).alw ⟨owner, spender⟩ + amount.val = (n'.states c).alw ⟨owner, spender⟩ ∧
    ((n.states c).allowances.lookup ⟨owner, spender⟩ =
      (n'.states c).allowances.lookup ⟨owner, spender⟩ ↔ amount = 0) ∧
    (state.total ≤ Amount.MAX.val →
      ∀ d, (n.states d).accounts = (n'.states d).accounts) := by
  obtain ⟨hApproved, hSpent⟩ := ledger_of_refund (m := m) id' ht pre mid mid' post
  have hLeft := spent_add_alw_eq hInit hRun hNever
  have hLeft' := spent_add_alw_eq hInit hRun' hNever'
  have hAlw : (n.states c).alw ⟨owner, spender⟩ + amount.val =
      (n'.states c).alw ⟨owner, spender⟩ := by omega
  refine ⟨hAlw, ⟨?_, ?_⟩, ?_⟩
  · intro hSame
    have hEq : (n.states c).alw ⟨owner, spender⟩ = (n'.states c).alw ⟨owner, spender⟩ := by
      unfold FungibleTokenState.alw MapView.getOrDefault
      rw [hSame]
    exact Amount.val_eq_zero.mp (by omega)
  · intro hZero
    have hZero' : amount.val = 0 := Amount.val_eq_zero.mpr hZero
    have hCanonical := (wellFormed_run hInit hRun).canonical c
    have hCanonical' := (wellFormed_run hInit hRun').canonical c
    exact hCanonical.allowances.lookup_eq hCanonical'.allowances
      (Amount.ext (by rw [hZero', Nat.add_zero] at hAlw; exact hAlw))
  · intro hTotal
    have hUndone : t.undone = [] := by rw [ht]; rfl
    have hSent : m ∈ t.sent := by
      rw [ht, hm, Action.sent, Action.move, arrival_snd, if_neg hRemote]
      exact Multiset.mem_singleton_self _
    obtain ⟨k, hRunK, hShadow⟩ := shadow_of_bounce hInit hTotal hRun hIds hSent
      (by rw [hm]; rfl) (by rw [hm]; rfl)
    have hSame : k = n' := by
      rw [hUndone, List.append_nil, hRun'] at hRunK
      exact (Option.some.inj hRunK).symm
    intro d
    rw [← hSame, hShadow.agree.1 d]

/-- The spender `2` sends 4 of the 10 tokens the owner `0` allows it, to the chain
`1`, which rejects them. -/
def sampleRefused : Action Nat Nat :=
  .operation 1 0 none (some 2) (.transferFrom 0 2 (.fromAttos 4) ⟨1, 2⟩)

/-- The `Credit` it sends. -/
def sampleRefusedCredit : Envelope Nat Nat := creditEnvelope 1 0 none (.fromAttos 4) ⟨1, 2⟩ 0

/-- The approval before it. -/
def sampleApproval : Action Nat Nat :=
  .operation 0 0 (some 0) none (.approve 0 2 (.fromAttos 10))

theorem refund_without_allowance_sample :
    ∃ n n', sampleNetwork.run [sampleApproval, sampleRefused, .reject sampleRefusedCredit,
        .execute 2 sampleRefusedCredit.bounced] = some n ∧
      sampleNetwork.run [sampleApproval] = some n' ∧
      (n.states 0).alw ⟨0, 2⟩ + 4 = (n'.states 0).alw ⟨0, 2⟩ := by
  obtain ⟨n, hRun⟩ := Option.isSome_iff_exists.mp
    (by decide : (sampleNetwork.run ([sampleApproval] ++ sampleRefused :: [] ++
      .reject sampleRefusedCredit :: [] ++
      .execute 2 sampleRefusedCredit.bounced :: [])).isSome = true)
  obtain ⟨n', hRun'⟩ := Option.isSome_iff_exists.mp
    (by decide : (sampleNetwork.run ([sampleApproval] ++ [] ++ [] ++ [])).isSome = true)
  have hNever : NeverSaturates sampleNetwork 0 ⟨0, 2⟩ ([sampleApproval] ++ sampleRefused :: [] ++
      .reject sampleRefusedCredit :: [] ++ .execute 2 sampleRefusedCredit.bounced :: []) :=
    neverSaturates_of_approved_le instantiate_sampleState (by decide)
  have hNever' : NeverSaturates sampleNetwork 0 ⟨0, 2⟩ ([sampleApproval] ++ [] ++ [] ++ []) :=
    neverSaturates_of_approved_le instantiate_sampleState (by decide)
  exact ⟨n, n', hRun, hRun', (refund_without_allowance instantiate_sampleState rfl rfl (by decide)
    hRun (by decide) hRun' hNever hNever').1⟩

/-- After the refund the spender has 6 of its 10 tokens left, and the owner all of
its own. -/
theorem refund_loses_allowance :
    ∃ n n', sampleNetwork.run [sampleApproval, sampleRefused, .reject sampleRefusedCredit,
        .execute 2 sampleRefusedCredit.bounced] = some n ∧
      sampleNetwork.run [sampleApproval] = some n' ∧
      (n.states 0).bal 0 = (n'.states 0).bal 0 ∧
      (n.states 0).alw ⟨0, 2⟩ = 6 ∧ (n'.states 0).alw ⟨0, 2⟩ = 10 :=
  ⟨_, _, rfl, rfl, by decide, by decide, by decide⟩

end LineraEndToEnd.Fungible
