import LineraEndToEnd.Fungible.Refinement

/-!
# Fungible — allowances over a whole run

An allowance is an account of its own: approvals pay in, with a saturating
addition, and `TransferFrom` spends. Nothing else touches it.

* `step_ledger` — one step: what is stored after it, and what it spends, is
  what was stored before and what it approves, cut off at `Amount::MAX`.
* `spent_add_allowance` — one run: never more is spent than was approved, and
  exactly what is left is stored unless an approval has saturated.
-/

namespace LineraEndToEnd.Fungible

open Lib

variable {ChainId AccountOwner : Type} [DecidableEq ChainId] [DecidableEq AccountOwner]
  {n n' n₀ : Network ChainId AccountOwner} {a : Action ChainId AccountOwner}
  {c : ChainId} {p : OwnerSpender AccountOwner}

-- ---------------------------------------------------------------------------
-- What an action approves and spends
-- ---------------------------------------------------------------------------

/-- The amount an action approves for `p` on `c`. -/
def Action.approves (c : ChainId) (p : OwnerSpender AccountOwner) :
    Action ChainId AccountOwner → Nat
  | .operation _ c' _ _ (.approve owner spender allowance) =>
    if c' = c ∧ p = ⟨owner, spender⟩ then allowance.val else 0
  | _ => 0

/-- The amount an action spends of what is allowed for `p` on `c`. -/
def Action.spends (c : ChainId) (p : OwnerSpender AccountOwner) :
    Action ChainId AccountOwner → Nat
  | .operation _ c' _ _ (.transferFrom owner spender amount _) =>
    if c' = c ∧ p = ⟨owner, spender⟩ then amount.val else 0
  | _ => 0

/-- The action is an `Approve` or a `TransferFrom` for `p` on `c`. -/
def Action.Concerns (c : ChainId) (p : OwnerSpender AccountOwner) :
    Action ChainId AccountOwner → Prop
  | .operation _ c' _ _ (.approve owner spender _) => c' = c ∧ p = ⟨owner, spender⟩
  | .operation _ c' _ _ (.transferFrom owner spender _ _) => c' = c ∧ p = ⟨owner, spender⟩
  | _ => False

/-- The exact sum of the allowances approved for `p` on `c` in a run. -/
def approved (c : ChainId) (p : OwnerSpender AccountOwner)
    (as : List (Action ChainId AccountOwner)) : Nat :=
  (as.map (Action.approves c p)).sum

/-- The exact sum of the amounts spent for `p` on `c` in a run. -/
def spent (c : ChainId) (p : OwnerSpender AccountOwner)
    (as : List (Action ChainId AccountOwner)) : Nat :=
  (as.map (Action.spends c p)).sum

/-- No approval for `p` on `c` has saturated in the run `as` from `n₀`. -/
def NeverSaturates (n₀ : Network ChainId AccountOwner) (c : ChainId)
    (p : OwnerSpender AccountOwner) (as : List (Action ChainId AccountOwner)) : Prop :=
  ∀ before a n, before ++ [a] <+: as → n₀.run before = some n →
    (n.states c).alw p + a.approves c p ≤ Amount.MAX.val

@[simp] theorem approved_concat (c : ChainId) (p : OwnerSpender AccountOwner)
    (as : List (Action ChainId AccountOwner)) (a : Action ChainId AccountOwner) :
    approved c p (as ++ [a]) = approved c p as + a.approves c p := by
  simp [approved]

@[simp] theorem spent_concat (c : ChainId) (p : OwnerSpender AccountOwner)
    (as : List (Action ChainId AccountOwner)) (a : Action ChainId AccountOwner) :
    spent c p (as ++ [a]) = spent c p as + a.spends c p := by
  simp [spent]

-- ---------------------------------------------------------------------------
-- One step
-- ---------------------------------------------------------------------------

/-- An action spends no more than what is stored. -/
theorem spends_le (hStep : n.step a = some n') : a.spends c p ≤ (n.states c).alw p := by
  have hAllowed : a.Allowed n := Network.allowed_of_step hStep
  unfold Action.spends
  split
  · next id c' signer caller owner spender amount target =>
    split
    · next h =>
      obtain ⟨rfl, rfl⟩ := h
      exact hAllowed
    · exact Nat.zero_le _
  · exact Nat.zero_le _

/-- **One step of the ledger of an allowance.** -/
theorem step_ledger (hStep : n.step a = some n') (c : ChainId)
    (p : OwnerSpender AccountOwner) :
    (n'.states c).alw p + a.spends c p =
      min ((n.states c).alw p + a.approves c p) Amount.MAX.val := by
  have hSpends : a.spends c p ≤ (n.states c).alw p := spends_le hStep
  have hMax : (n.states c).alw p ≤ Amount.MAX.val := FungibleTokenState.alw_le_max ..
  rw [step_alw hStep c p]
  unfold Action.allowanceAfter Action.spends Action.approves at *
  split
  · next id c' signer caller owner spender allowance =>
    -- `Approve` pays in, for its own pair and chain
    by_cases hHit : c' = c ∧ p = ⟨owner, spender⟩
    · simp only [if_pos hHit, Nat.add_zero]
    · simp only [if_neg hHit, Nat.add_zero, Nat.min_eq_left hMax]
  · next id c' signer caller owner spender amount target =>
    -- `TransferFrom` spends, for its own pair and chain
    by_cases hHit : c' = c ∧ p = ⟨owner, spender⟩
    · simp only [if_pos hHit] at hSpends ⊢
      omega
    · simp only [if_neg hHit, Nat.add_zero, Nat.min_eq_left hMax]
  · next hApprove hTransferFrom =>
    -- every other action does neither
    simp_all

/-- Only an `Approve` or a `TransferFrom` for `p` on `c` changes the allowance. -/
theorem alw_eq_of_not_concerns (hStep : n.step a = some n') (hNot : ¬ a.Concerns c p) :
    (n'.states c).alw p = (n.states c).alw p := by
  rw [step_alw hStep c p]
  unfold Action.allowanceAfter
  unfold Action.Concerns at hNot
  split
  · exact if_neg hNot
  · exact if_neg hNot
  · rfl

-- ---------------------------------------------------------------------------
-- A whole run
-- ---------------------------------------------------------------------------

theorem NeverSaturates.of_concat {as : List (Action ChainId AccountOwner)}
    (h : NeverSaturates n₀ c p (as ++ [a])) : NeverSaturates n₀ c p as := by
  intro before b n hPrefix
  exact h before b n (hPrefix.trans (List.prefix_append as [a]))

/-- Never more is spent than was approved. -/
theorem spent_add_alw_le {parameters : Parameters} {c₀ : ChainId}
    {state : InitialState AccountOwner} {as : List (Action ChainId AccountOwner)}
    (hInit : Network.instantiate parameters c₀ state = .ok n₀) (hRun : n₀.run as = some n) :
    spent c p as + (n.states c).alw p ≤ approved c p as := by
  refine run_induction (P := fun as n => spent c p as + (n.states c).alw p ≤ approved c p as)
    ?_ ?_ hRun
  · simp [spent, approved, alw_instantiate hInit]
  · intro as m a m' _ ih hStep
    have hLedger := step_ledger hStep c p
    rw [spent_concat, approved_concat]
    omega

/-- What is left of the approvals is stored, when none has saturated. -/
theorem spent_add_alw_eq {parameters : Parameters} {c₀ : ChainId}
    {state : InitialState AccountOwner} {as : List (Action ChainId AccountOwner)}
    (hInit : Network.instantiate parameters c₀ state = .ok n₀) (hRun : n₀.run as = some n)
    (hNever : NeverSaturates n₀ c p as) :
    spent c p as + (n.states c).alw p = approved c p as := by
  refine run_induction (P := fun as n => NeverSaturates n₀ c p as →
    spent c p as + (n.states c).alw p = approved c p as) ?_ ?_ hRun hNever
  · intro _
    simp [spent, approved, alw_instantiate hInit]
  · intro as m a m' hBefore ih hStep hNever
    have hLedger := step_ledger hStep c p
    have hFits := hNever as a m List.prefix_rfl hBefore
    have hOld := ih hNever.of_concat
    rw [spent_concat, approved_concat]
    omega

/-- **A spender never spends more than was approved.** In every run, for every
chain `c` and every pair of an owner and a spender: what `TransferFrom` has
spent and what is stored is at most what was approved, exactly that if no
approval for the pair has saturated; no other action of the run changes the
stored allowance; and no allowance of an owner to itself is stored. -/
theorem spent_add_allowance {parameters : Parameters} {c₀ : ChainId}
    {state : InitialState AccountOwner} {as : List (Action ChainId AccountOwner)}
    (hInit : Network.instantiate parameters c₀ state = .ok n₀) (hRun : n₀.run as = some n)
    (c : ChainId) (owner spender : AccountOwner) :
    spent c ⟨owner, spender⟩ as + (n.states c).alw ⟨owner, spender⟩ ≤
        approved c ⟨owner, spender⟩ as ∧
      (NeverSaturates n₀ c ⟨owner, spender⟩ as →
        spent c ⟨owner, spender⟩ as + (n.states c).alw ⟨owner, spender⟩ =
          approved c ⟨owner, spender⟩ as) ∧
      (∀ a n', n.step a = some n' → ¬ a.Concerns c ⟨owner, spender⟩ →
        (n'.states c).allowances.lookup ⟨owner, spender⟩ =
          (n.states c).allowances.lookup ⟨owner, spender⟩) ∧
      (n.states c).allowances.lookup ⟨owner, owner⟩ = none := by
  have hWell : n.WellFormed := wellFormed_run hInit hRun
  refine ⟨spent_add_alw_le hInit hRun, spent_add_alw_eq hInit hRun, ?_, ?_⟩
  · intro a n' hStep hNot
    have hAlw := alw_eq_of_not_concerns hStep hNot
    exact ((hWell.step hStep).canonical c).allowances.lookup_eq (hWell.canonical c).allowances
      (Amount.ext hAlw)
  · by_contra hStored
    exact (hWell.canonical c).spender_ne ⟨owner, owner⟩ hStored rfl

/-- An approval of 10 tokens of the owner `0` on the chain `0`, of which the
spender `2` sends 4 to the chain `1`. -/
def sampleSpending : List (Action Nat Nat) :=
  [.operation 0 0 (some 0) none (.approve 0 2 (.fromAttos 10)),
    .operation 1 0 none (some 2) (.transferFrom 0 2 (.fromAttos 4) ⟨1, 2⟩)]

theorem spent_add_allowance_sample :
    ∃ n, sampleNetwork.run sampleSpending = some n ∧ spent 0 ⟨0, 2⟩ sampleSpending = 4 ∧
      4 + (n.states 0).alw ⟨0, 2⟩ ≤ 10 := by
  obtain ⟨n, hRun⟩ := Option.isSome_iff_exists.mp
    (by decide : (sampleNetwork.run sampleSpending).isSome = true)
  exact ⟨n, hRun, rfl, (spent_add_allowance instantiate_sampleState hRun 0 0 2).1⟩

end LineraEndToEnd.Fungible
