import Mathlib.Algebra.BigOperators.Finprod
import Mathlib.Data.Finsupp.Basic
import LineraEndToEnd.Fungible.Refinement

/-!
# Fungible — conservation of tokens

* `conservation` — in every reachable network, the balances stored on all
  chains and the credits in flight add up to the exact initial total, if this
  is an amount.
* `credits_exact_iff` — the saturating addition of `credit` is exact in every
  run, and no step destroys tokens, iff the exact initial total is an amount.
  `instantiate` does not check this: its own sum saturates and is only compared
  with zero (`credit_truncates`).
-/

namespace LineraEndToEnd.Fungible

open Lib

variable {ChainId AccountOwner : Type} [DecidableEq ChainId] [DecidableEq AccountOwner]
  {n n' n₀ : Network ChainId AccountOwner} {M M' : Marking ChainId AccountOwner}
  {a : Action ChainId AccountOwner}

/-- The exact sum of the balances in `accounts`. -/
def FungibleTokenState.totalBalance (s : FungibleTokenState AccountOwner) : ℕ :=
  ∑ o ∈ s.accounts.keys, s.bal o

/-- The exact sum of the balances on all chains. -/
noncomputable def Network.totalBalance (n : Network ChainId AccountOwner) : ℕ :=
  ∑ᶠ c, (n.states c).totalBalance

/-- The amounts of the credits in flight, bouncing or not. -/
def Network.creditsInFlight (n : Network ChainId AccountOwner) : ℕ :=
  (n.inFlight.map Envelope.carried).sum

/-! ## The supply, read off the network -/

omit [DecidableEq ChainId] in
theorem Marks.degree_curry (hM : Marks n M) (c : ChainId) :
    (M.1.curry c).degree = (n.states c).totalBalance := by
  have hVal : ∀ o, M.1.curry c o = (n.states c).bal o := fun o => by
    rw [Finsupp.curry_apply, hM.bal]
  rw [Finsupp.degree_apply, FungibleTokenState.totalBalance]
  calc ∑ o ∈ (M.1.curry c).support, M.1.curry c o
      = ∑ o ∈ (n.states c).accounts.keys, M.1.curry c o := by
        refine Finset.sum_subset (fun o ho => ?_) fun o _ ho => Finsupp.notMem_support_iff.mp ho
        rw [Finsupp.mem_support_iff, hVal] at ho
        rw [Finmap.mem_keys]
        by_contra hNot
        exact ho (by simp [FungibleTokenState.bal, MapView.getOrDefault,
          Finmap.lookup_eq_none.mpr hNot])
    _ = ∑ o ∈ (n.states c).accounts.keys, (n.states c).bal o :=
        Finset.sum_congr rfl fun o _ => hVal o

omit [DecidableEq ChainId] in
theorem Marks.support_totalBalance (hM : Marks n M) :
    (Function.support fun c => (n.states c).totalBalance) ⊆ M.1.curry.support := by
  intro c hc
  rw [Function.mem_support, ← hM.degree_curry] at hc
  rw [Finset.mem_coe, Finsupp.mem_support_iff]
  intro hZero
  simp [hZero] at hc

omit [DecidableEq ChainId] in
/-- The supply of a marking is what is stored on the chains and carried by the
credits in flight. -/
theorem Marks.supply_eq (hM : Marks n M) : supply M = n.totalBalance + n.creditsInFlight := by
  rw [supply_apply, Network.totalBalance, Network.creditsInFlight, hM.inFlight,
    finsum_eq_sum_of_support_subset _ hM.support_totalBalance]
  congr 1
  calc M.1.degree = M.1.curry.sum fun _ f => f.sum fun _ x => x :=
        (Finsupp.sum_curry_index M.1 fun _ _ x => x).symm
    _ = ∑ c ∈ M.1.curry.support, (n.states c).totalBalance :=
        Finset.sum_congr rfl fun c _ => hM.degree_curry c

/-! ## Conservation -/

/-- **Conservation of tokens.** Whatever operations, messages and rejections
are run in whatever order on whatever chains, only finitely many chains hold
tokens, and the balances stored on all chains and the credits in flight add up
to the initial total. -/
theorem conservation {parameters : Parameters} {c₀ : ChainId}
    {state : InitialState AccountOwner} {as : List (Action ChainId AccountOwner)}
    (hInit : Network.instantiate parameters c₀ state = .ok n₀)
    (hTotal : state.total ≤ Amount.MAX.val) (hRun : n₀.run as = some n) :
    {c | (n.states c).totalBalance ≠ 0}.Finite ∧
      n.totalBalance + n.creditsInFlight = state.total := by
  obtain ⟨M, -, hSupply, hS⟩ := (Sound.instantiate hInit hTotal).run hRun
  refine ⟨(Finset.finite_toSet _).subset hS.marks.support_totalBalance, ?_⟩
  rw [← hS.marks.supply_eq, hSupply, supply_initialMarking]

/-- A transfer to another chain, its rejection there, and its return. -/
def sampleBounce : List (Action Nat Nat) :=
  [sampleTransfer, .reject sampleCredit, .execute 1 sampleCredit.bounced]

theorem conservation_sample :
    ∃ n, sampleNetwork.run sampleBounce = some n ∧
      n.totalBalance + n.creditsInFlight = sampleState.total := by
  obtain ⟨n, hRun⟩ := Option.isSome_iff_exists.mp
    (by decide : (sampleNetwork.run sampleBounce).isSome = true)
  exact ⟨n, hRun, (conservation instantiate_sampleState (by decide) hRun).2⟩

/-! ## Exact credits -/

/-- The call of `credit` in the final step of a transfer whose debit gave `r`. -/
def localCredit (chain : ChainId)
    (r : Except (Panic AccountOwner) (FungibleTokenState AccountOwner)) (amount : Amount)
    (target : Account ChainId AccountOwner) :
    Option (FungibleTokenState AccountOwner × AccountOwner × Amount) :=
  match r with
  | .ok s => if target.chainId = chain then some (s, target.owner, amount) else none
  | .error _ => none

/-- The call of `credit` an action makes in a network, if it makes one: the
state on which it is called, the account and the amount. -/
def Network.creditCall (n : Network ChainId AccountOwner) :
    Action ChainId AccountOwner →
      Option (FungibleTokenState AccountOwner × AccountOwner × Amount)
  | .operation _ chain _ _ op =>
    match op with
    | .balance _ | .tickerSymbol | .approve _ _ _ => none
    | .transfer owner amount target =>
      localCredit chain ((n.states chain).debit owner amount) amount target
    | .transferFrom owner spender amount target =>
      localCredit chain ((n.states chain).debitForTransferFrom owner spender amount) amount target
    | .claim source amount target =>
      if source.chainId = chain then
        localCredit chain ((n.states chain).debit source.owner amount) amount target
      else none
  | .execute _ e =>
    match e.message with
    | .credit target amount source =>
      some (n.states e.destination, e.receiver target source, amount)
    | .withdraw owner amount target =>
      localCredit e.destination ((n.states e.destination).debit owner amount) amount target
  | .reject _ => none

/-- A call of `credit` leaves the exact sum. -/
def CreditExact (call : FungibleTokenState AccountOwner × AccountOwner × Amount) : Prop :=
  (call.1.credit call.2.1 call.2.2).bal call.2.1 = call.1.bal call.2.1 + call.2.2.val

/-- The credit in the final step of a transfer, as a move. -/
theorem localCredit_move {chain : ChainId} {owner : AccountOwner} {amount : Amount}
    {target : Account ChainId AccountOwner}
    {r : Except (Panic AccountOwner) (FungibleTokenState AccountOwner)}
    {call : FungibleTokenState AccountOwner × AccountOwner × Amount}
    (hDebit : ∀ s, r = .ok s → ∀ o, s.bal o + (if o = owner then amount.val else 0) =
      (n.states chain).bal o)
    (hCall : localCredit chain r amount target = some call) (id : Nat)
    (signer : Option AccountOwner) :
    call.1.bal call.2.1 +
        (tokens chain owner amount : Marking ChainId AccountOwner).1 (chain, call.2.1) =
      (n.states chain).bal call.2.1 ∧
    (arrival id chain signer amount target owner).1 (chain, call.2.1) = call.2.2.val := by
  unfold localCredit at hCall
  split at hCall
  · next s =>
    split at hCall
    · next hLocal =>
      obtain rfl := Option.some.inj hCall
      refine ⟨?_, by simp [arrival_apply, hLocal]⟩
      simpa using hDebit s rfl target.owner
    · cases hCall
  · cases hCall

theorem creditCall_move {call : FungibleTokenState AccountOwner × AccountOwner × Amount}
    (hCall : n.creditCall a = some call) :
    ∃ c, call.1.bal call.2.1 + a.move.take.1 (c, call.2.1) = (n.states c).bal call.2.1 ∧
      a.move.give.1 (c, call.2.1) = call.2.2.val := by
  rcases a with ⟨id, c, signer, caller, op⟩ | ⟨id, e⟩ | e
  · refine ⟨c, ?_⟩
    cases op with
    | balance | tickerSymbol | approve => cases hCall
    | transfer owner amount target =>
      exact localCredit_move (fun _ h => FungibleTokenState.bal_debit h) hCall id signer
    | transferFrom owner spender amount target =>
      exact localCredit_move (fun _ h => FungibleTokenState.bal_debitForTransferFrom h) hCall id
        signer
    | claim source amount target =>
      simp only [Network.creditCall] at hCall
      simp only [Action.move]
      split at hCall
      · next hLocal =>
        rw [if_pos hLocal]
        exact localCredit_move (fun _ h => FungibleTokenState.bal_debit h) hCall id signer
      · cases hCall
  · refine ⟨e.destination, ?_⟩
    cases hMsg : e.message with
    | credit target amount source =>
      simp only [Network.creditCall, hMsg, Option.some.injEq] at hCall
      obtain rfl := hCall
      simp [Action.move, hMsg]
    | withdraw owner amount target =>
      simp only [Network.creditCall, hMsg] at hCall
      have hMove := localCredit_move (fun _ h => FungibleTokenState.bal_debit h) hCall id
        e.authenticatedSigner
      simpa [Action.move, hMsg] using hMove
  · cases hCall

/-- In a sound network every credit is exact. -/
theorem Sound.creditExact (hS : Sound n M) (hStep : n.step a = some n')
    {call : FungibleTokenState AccountOwner × AccountOwner × Amount}
    (hCall : n.creditCall a = some call) : CreditExact call := by
  obtain ⟨c, hLeft, hGive⟩ := creditCall_move hCall
  have hRoom := hS.room hStep c call.2.1
  rw [← hLeft, hGive, Nat.add_sub_cancel] at hRoom
  rw [CreditExact, FungibleTokenState.bal_credit_exact hRoom, if_pos rfl]

/-- The operation that moves the whole initial balance `e` to `o`. -/
def gatherOperation (c₀ : ChainId) (o : AccountOwner) (e : (_ : AccountOwner) × Amount) :
    Action ChainId AccountOwner :=
  .operation 0 c₀ (some e.1) none (.transfer e.1 e.2 ⟨c₀, o⟩)

theorem bal_commit (n : Network ChainId AccountOwner) (c : ChainId)
    (s : FungibleTokenState AccountOwner) (sent : Multiset (Envelope ChainId AccountOwner))
    (o : AccountOwner) : ((n.commit c s sent).states c).bal o = s.bal o := by
  show FungibleTokenState.bal (Function.update n.states c s c) o = s.bal o
  rw [Function.update_self]

/-- Moving one balance to `o` by a local transfer, when its credit is exact. -/
theorem step_gather {c₀ : ChainId} {o : AccountOwner} {e : (_ : AccountOwner) × Amount}
    (hNe : e.1 ≠ o) (hBal : e.2.val ≤ (n.states c₀).bal e.1)
    (hExact : ∀ n' call, n.step (gatherOperation c₀ o e) = some n' →
      n.creditCall (gatherOperation c₀ o e) = some call → CreditExact call) :
    ∃ n', n.step (gatherOperation c₀ o e) = some n' ∧
      (n'.states c₀).bal o = (n.states c₀).bal o + e.2.val ∧
      ∀ o', o' ≠ e.1 → o' ≠ o → (n'.states c₀).bal o' = (n.states c₀).bal o' := by
  obtain ⟨t, hDebit⟩ := FungibleTokenState.exists_debit hBal
  have hLeft := FungibleTokenState.bal_debit hDebit
  have hStep : n.step (gatherOperation c₀ o e) = some (n.commit c₀ (t.credit o e.2) 0) := by
    refine Network.step_operation_iff.mpr ⟨t.credit o e.2, .ok, [], ?_, rfl⟩
    refine executeOperation_ok_iff.mpr ⟨Or.inl rfl, ?_, rfl⟩
    exact moveTokens_ok_iff.mpr ⟨t, hDebit, if_pos rfl⟩
  have hCredit : CreditExact (t, o, e.2) :=
    hExact _ _ hStep (by simp [Network.creditCall, gatherOperation, localCredit, hDebit])
  refine ⟨_, hStep, ?_, fun o' hSource hTarget => ?_⟩
  · rw [bal_commit, hCredit, ← hLeft o, if_neg (Ne.symm hNe), add_zero]
  · rw [bal_commit, FungibleTokenState.bal_credit, if_neg hTarget, ← hLeft o',
      if_neg hSource, add_zero]

/-- As long as all credits are exact, any part of the initial balances can be
gathered in one account. -/
theorem run_gather {c₀ : ChainId} {o : AccountOwner}
    (hExact : ∀ as n a n' call, n₀.run as = some n → n.step a = some n' →
      n.creditCall a = some call → CreditExact call)
    {entries : List ((_ : AccountOwner) × Amount)} (hNodup : entries.NodupKeys)
    (hNe : ∀ e ∈ entries, e.1 ≠ o) {as : List (Action ChainId AccountOwner)}
    (hRun : n₀.run as = some n) (hBal : ∀ e ∈ entries, (n.states c₀).bal e.1 = e.2.val) :
    ∃ as' n', n₀.run as' = some n' ∧
      (n'.states c₀).bal o = (n.states c₀).bal o + (entries.map fun e => e.2.val).sum := by
  induction entries generalizing as n with
  | nil => exact ⟨as, n, hRun, by simp⟩
  | cons e rest ih =>
    obtain ⟨hHead, hRest⟩ := List.nodupKeys_cons.mp hNodup
    obtain ⟨n₁, hStep, hTarget, hOthers⟩ := step_gather (hNe e List.mem_cons_self)
      (hBal e List.mem_cons_self).ge fun n' call hStep hCall => hExact _ _ _ _ _ hRun hStep hCall
    have hBal' : ∀ e' ∈ rest, (n₁.states c₀).bal e'.1 = e'.2.val := by
      intro e' he'
      have hKey : e'.1 ≠ e.1 := fun h => hHead (h ▸ List.mem_keys_of_mem he')
      rw [hOthers e'.1 hKey (hNe e' (List.mem_cons_of_mem _ he'))]
      exact hBal e' (List.mem_cons_of_mem _ he')
    obtain ⟨as', n', hRun', hSum⟩ := ih hRest (fun e' he' => hNe e' (List.mem_cons_of_mem _ he'))
      (run_concat_eq_some.mpr ⟨n, hRun, hStep⟩) hBal'
    exact ⟨as', n', hRun', by rw [hSum, hTarget, List.map_cons, List.sum_cons, add_assoc]⟩

/-- If all credits of all runs are exact, then the initial total is an amount:
otherwise gathering all initial balances in one account would overflow it. -/
theorem total_le_of_creditExact {parameters : Parameters} {c₀ : ChainId}
    {state : InitialState AccountOwner}
    (hInit : Network.instantiate parameters c₀ state = .ok n₀)
    (hExact : ∀ as n a n' call, n₀.run as = some n → n.step a = some n' →
      n.creditCall a = some call → CreditExact call) : state.total ≤ Amount.MAX.val := by
  have hNodup := state.accounts.nodupKeys
  have hBal : ∀ e ∈ state.accounts.entries, (n₀.states c₀).bal e.1 = e.2.val := by
    obtain ⟨-, rfl⟩ := Network.instantiate_ok_iff.mp hInit
    intro e he
    simpa using FungibleTokenState.bal_initializeAccounts_of_mem he
  unfold InitialState.total
  cases hEntries : state.accounts.entries with
  | nil => simp
  | cons e rest =>
    rw [hEntries] at hNodup hBal
    obtain ⟨hHead, hRest⟩ := List.nodupKeys_cons.mp hNodup
    obtain ⟨_, n, -, hSum⟩ := run_gather hExact hRest
      (fun e' he' (h : e'.1 = e.1) => hHead (h ▸ List.mem_keys_of_mem he')) (run_nil n₀)
      fun e' he' => hBal e' (List.mem_cons_of_mem _ he')
    rw [hBal e List.mem_cons_self] at hSum
    rw [List.map_cons, List.sum_cons, ← hSum]
    exact FungibleTokenState.bal_le_max ..

/-- **Exactness of credits.** Every initial state with tokens in it is accepted, and from
there the saturating addition of `credit` is exact in every run, and no step destroys or
creates tokens, iff the exact initial total is an amount. -/
theorem credits_exact_iff {parameters : Parameters} {c₀ : ChainId}
    {state : InitialState AccountOwner} :
    ((∃ n₀, Network.instantiate parameters c₀ state = .ok n₀) ↔ state.total ≠ 0) ∧
    ∀ n₀, Network.instantiate parameters c₀ state = .ok n₀ →
      ((∀ as n a n', n₀.run as = some n → n.step a = some n' →
        (∀ call, n.creditCall a = some call → CreditExact call) ∧
        n'.totalBalance + n'.creditsInFlight = n.totalBalance + n.creditsInFlight) ↔
      state.total ≤ Amount.MAX.val) := by
  refine ⟨⟨?_, fun hTotal => ⟨_, Network.instantiate_ok_iff.mpr ⟨hTotal, rfl⟩⟩⟩,
    fun n₀ hInit => ⟨fun h => ?_, fun hTotal as n a n' hRun hStep => ?_⟩⟩
  · rintro ⟨n₀, hInit⟩
    exact (Network.instantiate_ok_iff.mp hInit).1
  · exact total_le_of_creditExact hInit fun as n a n' call hRun hStep hCall =>
      (h as n a n' hRun hStep).1 call hCall
  · obtain ⟨M, -, -, hS⟩ := (Sound.instantiate hInit hTotal).run hRun
    obtain ⟨M', -, hSupply, hS'⟩ := hS.step hStep
    refine ⟨fun call hCall => hS.creditExact hStep hCall, ?_⟩
    rw [← hS.marks.supply_eq, ← hS'.marks.supply_eq, hSupply]

theorem credits_exact_iff_sample :
    (∀ as n a n', sampleNetwork.run as = some n → n.step a = some n' →
      (∀ call, n.creditCall a = some call → CreditExact call) ∧
      n'.totalBalance + n'.creditsInFlight = n.totalBalance + n.creditsInFlight) ↔
    sampleState.total ≤ Amount.MAX.val :=
  credits_exact_iff.2 _ instantiate_sampleState

/-- An initial state that is accepted although its total is not an amount. -/
def overfullState : InitialState Nat :=
  ⟨⟨[⟨0, Amount.MAX⟩, ⟨1, .fromAttos 7⟩], nodup_owners⟩⟩

/-- `overfullState` is accepted, and a local transfer of the second owner to the
first one then destroys its 7 tokens: the balance credited was at the maximum. -/
theorem credit_truncates :
    ∃ n₀ n' call, Network.instantiate ⟨"FUN"⟩ 0 overfullState = .ok n₀ ∧
      n₀.step (.operation 0 0 (some 1) none (.transfer 1 ⟨7, by decide⟩ ⟨0, 0⟩)) = some n' ∧
      n₀.creditCall (.operation 0 0 (some 1) none (.transfer 1 ⟨7, by decide⟩ ⟨0, 0⟩)) =
        some call ∧
      ¬ CreditExact call ∧
      (n₀.states 0).bal 0 = Amount.MAX.val ∧ (n₀.states 0).bal 1 = 7 ∧
      (n'.states 0).bal 0 = Amount.MAX.val ∧ (n'.states 0).bal 1 = 0 := by
  refine ⟨_, _, _, rfl, rfl, rfl, ?_, ?_, ?_, ?_, ?_⟩
  · unfold CreditExact
    decide
  all_goals decide

end LineraEndToEnd.Fungible
