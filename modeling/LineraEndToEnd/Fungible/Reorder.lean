import Mathlib.Data.Multiset.Filter
import LineraEndToEnd.Fungible.Refinement

/-!
# Fungible — the order in which credits are delivered

Executing a `Credit` takes nothing but its message, so it can be exchanged with
every other step. The two orders go through different states (an entry removed
and recreated, or kept), and end in the same one.

* `Sound.diamond` — the execution of a message and another step which the
  network can afford together commute.
* `Sound.run_eq` — runs with the same credits delivered, in any order, and the
  same other steps, in this order, end in the same network.
* `credit_commutes` — both, for every reachable network.
-/

namespace LineraEndToEnd.Fungible

open Lib

variable {ChainId AccountOwner : Type} [DecidableEq ChainId] [DecidableEq AccountOwner]
  {n n' n₀ n₁ n₂ : Network ChainId AccountOwner} {M : Marking ChainId AccountOwner}
  {a t : Action ChainId AccountOwner} {m : Envelope ChainId AccountOwner}

-- ---------------------------------------------------------------------------
-- Two steps
-- ---------------------------------------------------------------------------

theorem alw_execute {id : Nat} (hStep : n.step (.execute id m) = some n') (c : ChainId)
    (p : OwnerSpender AccountOwner) : (n'.states c).alw p = (n.states c).alw p :=
  step_alw hStep c p

/-- **Diamond.** The execution of a message and another step which the network
can afford together lead to the same network in both orders. -/
theorem Sound.diamond (hS : Sound n M) {id : Nat} (hm : n.step (.execute id m) = some n₁)
    (ht : n.step t = some n₂) (hBoth : (Action.execute id m).move.take + t.move.take ≤ M) :
    ∃ n', n₁.step t = some n' ∧ n₂.step (.execute id m) = some n' := by
  obtain ⟨rest, hRest⟩ := exists_add_of_le hBoth
  -- what the one step takes lies untouched in the rest of the other
  have hS₁ : Sound n₁ ((Action.execute id m).move.give + (t.move.take + rest)) :=
    hS.step_rest hm (by rw [hRest, add_assoc])
  have hS₂ : Sound n₂ (t.move.give + ((Action.execute id m).move.take + rest)) :=
    hS.step_rest ht (by rw [hRest, add_comm (Action.move _).take, add_assoc])
  have hAllowed : t.Allowed n₁ :=
    (Network.allowed_of_step ht).mono fun c p => (alw_execute hm c p).ge
  obtain ⟨n₁', hStep₁, hS₁'⟩ :=
    hS₁.exists_step (Network.permitted_of_step ht) hAllowed (add_left_comm ..)
  obtain ⟨n₂', hStep₂, hS₂'⟩ :=
    hS₂.exists_step (a := .execute id m) (Network.permitted_of_step hm) trivial (add_left_comm ..)
  have hParameters : n₁'.parameters = n₂'.parameters := by
    rw [step_parameters hStep₁, step_parameters hm, step_parameters hStep₂, step_parameters ht]
  have hAlw : ∀ c p, (n₁'.states c).alw p = (n₂'.states c).alw p := by
    intro c p
    rw [step_alw hStep₁, alw_execute hm, alw_execute hStep₂, step_alw ht]
  rw [add_left_comm] at hS₂'
  obtain rfl : n₁' = n₂' := hS₁'.ext hS₂' hParameters hAlw
  exact ⟨n₁', hStep₁, hStep₂⟩

-- ---------------------------------------------------------------------------
-- Whole runs
-- ---------------------------------------------------------------------------

/-- The message carries tokens. -/
def Envelope.IsCredit (e : Envelope ChainId AccountOwner) : Prop :=
  match e.message with
  | .credit _ _ _ => True
  | .withdraw _ _ _ => False

instance (e : Envelope ChainId AccountOwner) : Decidable e.IsCredit :=
  match h : e.message with
  | .credit _ _ _ => isTrue (by simp [Envelope.IsCredit, h])
  | .withdraw _ _ _ => isFalse (by simp [Envelope.IsCredit, h])

/-- The `Credit` message an action delivers. -/
def Action.delivers : Action ChainId AccountOwner → Option (Envelope ChainId AccountOwner)
  | .execute _ e => if e.IsCredit then some e else none
  | _ => none

section
omit [DecidableEq ChainId] [DecidableEq AccountOwner]

theorem Action.delivers_eq_some (h : a.delivers = some m) :
    ∃ id, a = .execute id m ∧ m.IsCredit := by
  unfold Action.delivers at h
  split at h
  · next id e =>
    split at h
    · next hCredit =>
      obtain rfl := Option.some.inj h
      exact ⟨id, rfl, hCredit⟩
    · cases h
  · cases h

end

omit [DecidableEq AccountOwner] in
/-- The number of the transaction that delivers a credit does not show. -/
theorem move_of_delivers (h : a.delivers = some m) : a.move = (Action.execute 0 m).move := by
  obtain ⟨id, rfl, hCredit⟩ := Action.delivers_eq_some h
  unfold Envelope.IsCredit at hCredit
  cases hMsg : m.message with
  | credit target amount source => simp only [Action.move, hMsg]
  | withdraw owner amount target => simp [hMsg] at hCredit

theorem allowanceAfter_of_delivers (h : a.delivers = some m) (c : ChainId)
    (p : OwnerSpender AccountOwner) (x : Nat) : a.allowanceAfter c p x = x := by
  obtain ⟨id, rfl, -⟩ := Action.delivers_eq_some h
  rfl

/-- The other steps of a run. -/
def otherSteps (as : List (Action ChainId AccountOwner)) : List (Action ChainId AccountOwner) :=
  as.filter fun a => a.delivers.isNone

omit [DecidableEq AccountOwner] in
/-- The moves of a run are those of its deliveries and those of its other steps. -/
theorem moves_perm (as : List (Action ChainId AccountOwner)) :
    (as.map Action.move).Perm
      (((as.filterMap Action.delivers).map fun e => (Action.execute 0 e).move) ++
        (otherSteps as).map Action.move) := by
  induction as with
  | nil => exact List.Perm.refl _
  | cons a as ih =>
    cases hDelivers : a.delivers with
    | none =>
      have hOther : otherSteps (a :: as) = a :: otherSteps as := by
        simp [otherSteps, hDelivers]
      rw [List.filterMap_cons_none hDelivers, hOther]
      exact (ih.cons a.move).trans List.perm_middle.symm
    | some e =>
      have hOther : otherSteps (a :: as) = otherSteps as := by
        simp [otherSteps, hDelivers]
      rw [List.filterMap_cons_some hDelivers, hOther, List.map_cons, List.map_cons,
        move_of_delivers hDelivers]
      exact ih.cons _

/-- Deliveries leave all allowances alone, so a run does to an allowance what
its other steps do to it. -/
theorem run_alw {as : List (Action ChainId AccountOwner)} (hRun : n.run as = some n')
    (c : ChainId) (p : OwnerSpender AccountOwner) :
    (n'.states c).alw p =
      (otherSteps as).foldl (fun x a => a.allowanceAfter c p x) ((n.states c).alw p) := by
  induction as generalizing n with
  | nil =>
    obtain rfl := Option.some.inj hRun
    rfl
  | cons a as ih =>
    obtain ⟨n₁, hFirst, hRest⟩ := run_cons_eq_some.mp hRun
    rw [ih hRest, step_alw hFirst]
    cases hDelivers : a.delivers with
    | none => simp [otherSteps, hDelivers]
    | some e =>
      rw [allowanceAfter_of_delivers hDelivers]
      simp [otherSteps, hDelivers]

/-- Runs with the same deliveries, in any order, and the same other steps, in
this order, end in the same network. -/
theorem Sound.run_eq (hS : Sound n M) {as bs : List (Action ChainId AccountOwner)}
    (hAs : n.run as = some n₁) (hBs : n.run bs = some n₂)
    (hCredits : (as.filterMap Action.delivers).Perm (bs.filterMap Action.delivers))
    (hOthers : otherSteps as = otherSteps bs) : n₁ = n₂ := by
  obtain ⟨M₁, hFires₁, -, hS₁⟩ := hS.run hAs
  obtain ⟨M₂, hFires₂, -, hS₂⟩ := hS.run hBs
  have hMoves : (as.map Action.move).Perm (bs.map Action.move) := by
    refine (moves_perm as).trans (List.Perm.trans ?_ (moves_perm bs).symm)
    rw [hOthers]
    exact (hCredits.map _).append_right _
  obtain rfl : M₁ = M₂ := hFires₁.eq_of_perm hMoves hFires₂
  refine hS₁.ext hS₂ ?_ fun c p => ?_
  · rw [run_parameters hAs, run_parameters hBs]
  · rw [run_alw hAs, run_alw hBs, hOthers]

-- ---------------------------------------------------------------------------
-- Reachable networks
-- ---------------------------------------------------------------------------

omit [DecidableEq AccountOwner] in
theorem Envelope.IsCredit.take_eq (hCredit : m.IsCredit) (id : Nat) :
    (Action.execute id m).move.take = letters {m} := by
  unfold Envelope.IsCredit at hCredit
  cases hMsg : m.message with
  | credit target amount source => simp only [Action.move, hMsg]
  | withdraw owner amount target => simp [hMsg] at hCredit

/-- A credit in flight can be executed. -/
theorem exists_step_credit (hCredit : m.IsCredit) (hMem : m ∈ n.inFlight) (id : Nat) :
    ∃ n', n.step (.execute id m) = some n' := by
  refine Network.exists_step_iff.mpr ⟨?_, trivial, ?_⟩
  · unfold Envelope.IsCredit at hCredit
    cases hMsg : m.message with
    | credit target amount source => simp only [Action.Permitted, hMsg]
    | withdraw owner amount target => simp [hMsg] at hCredit
  · rw [hCredit.take_eq id]
    exact holds_letters.mpr hMem

/-- **Delivering a credit earlier never changes the outcome.** In a reachable
network, a credit `m` in flight can be executed before or after any other step
`t`, with the same result. Hence the network at the end of a run does not
depend on when and in which order the credits are delivered. -/
theorem credit_commutes {parameters : Parameters} {c₀ : ChainId}
    {state : InitialState AccountOwner} {as : List (Action ChainId AccountOwner)}
    (hInit : Network.instantiate parameters c₀ state = .ok n₀)
    (hTotal : state.total ≤ Amount.MAX.val) (hRun : n₀.run as = some n) :
    (∀ m ∈ n.inFlight, m.IsCredit → ∀ id t n₂, n.step t = some n₂ →
      t.consumed ≤ n.inFlight.erase m →
      ∃ n₁ n', n.step (.execute id m) = some n₁ ∧ n₁.step t = some n' ∧
        n₂.step (.execute id m) = some n') ∧
    (∀ as' bs' n₁ n₂, n.run as' = some n₁ → n.run bs' = some n₂ →
      (as'.filterMap Action.delivers).Perm (bs'.filterMap Action.delivers) →
      otherSteps as' = otherSteps bs' → n₁ = n₂) := by
  obtain ⟨M, -, -, hS⟩ := (Sound.instantiate hInit hTotal).run hRun
  refine ⟨?_, fun as' bs' n₁ n₂ hAs hBs => hS.run_eq hAs hBs⟩
  intro m hMem hCredit id t n₂ ht hOther
  obtain ⟨n₁, hm⟩ := exists_step_credit hCredit hMem id
  have hBoth : (Action.execute id m).move.take + t.move.take ≤ M := by
    have hHeld : t.move.take ≤ M := hS.marks.holds_iff.mp (Network.holds_of_step ht)
    rw [hCredit.take_eq id]
    refine ⟨?_, ?_⟩
    · rw [Prod.fst_add, letters_fst, zero_add]
      exact hHeld.1
    · -- the other step takes its message from what is left without `m`
      rw [Prod.snd_add, letters_snd, t.move_take_snd, hS.marks.inFlight,
        Multiset.singleton_add]
      exact (Multiset.cons_le_cons m hOther).trans (Multiset.cons_erase hMem).le
  obtain ⟨n', hFirst, hSecond⟩ := hS.diamond hm ht hBoth
  exact ⟨n₁, n', hm, hFirst, hSecond⟩

theorem credit_commutes_sample :
    ∃ n n₁ n', sampleNetwork.run [sampleTransfer] = some n ∧
      n.step (.execute 1 sampleCredit) = some n₁ ∧ n₁.step sampleTransfer = some n' := by
  have hRun : sampleNetwork.run [sampleTransfer] = some _ := rfl
  obtain ⟨n₁, n', hFirst, hSecond, -⟩ :=
    (credit_commutes instantiate_sampleState (by decide) hRun).1 sampleCredit
      (by decide) trivial 1 sampleTransfer _ rfl (Multiset.zero_le _)
  exact ⟨_, n₁, n', hRun, hFirst, hSecond⟩

end LineraEndToEnd.Fungible
