import LineraEndToEnd.Fungible.Marking

/-!
# Fungible — distributing the initial tokens

`create_with_accounts` in `fungible/src/lib.rs`: the test helper that creates the
application on a token chain and lets every account claim its initial amount to
a chain of its own. What it uses of the SDK's test validator is a block that
executes one operation, or the messages of another block, under the key of its
chain; the chains are those which `new_chain` returned.

* `InitialStateBuilder` — the builder of the SDK, with what it is relied on for.
* `TestValidator.createAccount` — one round: a claim, the `Withdraw` it sends, the
  `Credit` this sends, and the two assertions on the numbers of messages.
* `createAccount_ok` — a round goes through when the token chain has the tokens.
* `createWithAccounts_distributes` — all rounds go through, and every account ends
  up with exactly its amount.
-/

namespace LineraEndToEnd.Fungible

open Lib

variable {ChainId AccountOwner : Type} [DecidableEq ChainId] [DecidableEq AccountOwner]

-- ---------------------------------------------------------------------------
-- The test validator
-- ---------------------------------------------------------------------------

/-- `InitialStateBuilder`: `with_account` records an account with its amount. -/
structure InitialStateBuilder (Builder AccountOwner : Type) [DecidableEq AccountOwner] where
  default : Builder
  withAccount : Builder → AccountOwner → Amount → Builder
  build : Builder → InitialState AccountOwner
  lookup_default : ∀ o, (build default).accounts.lookup o = none
  lookup_withAccount : ∀ b owner amount o,
    (build (withAccount b owner amount)).accounts.lookup o =
      if o = owner then some amount else (build b).accounts.lookup o

/-- `ActiveChain`: a chain, and the owner its public key stands for. -/
structure ActiveChain (ChainId AccountOwner : Type) where
  id : ChainId
  owner : AccountOwner

/-- `TestValidator`: the network, and the number of transactions so far. -/
structure TestValidator (ChainId AccountOwner : Type) where
  network : Network ChainId AccountOwner
  transactions : Nat

/-- What is left of a block: the messages it sent, in order. -/
abbrev Certificate (ChainId AccountOwner : Type) := List (Envelope ChainId AccountOwner)

/-- The messages sent by the transaction `id` of `signer` on `sender`, in order. -/
def outbox (id : Nat) (sender : ChainId) (signer : Option AccountOwner)
    (sent : List (OutgoingMessage ChainId AccountOwner)) : Certificate ChainId AccountOwner :=
  sent.map fun m =>
    { id := id
      sender := sender
      destination := m.destination
      authenticatedSigner := if m.authenticated then signer else none
      message := m.message
      tracked := m.tracked
      bouncing := false }

/-- The messages an action sends, in order. -/
def Network.outgoing (n : Network ChainId AccountOwner) :
    Action ChainId AccountOwner → Certificate ChainId AccountOwner
  | .operation id chain signer caller op =>
    match executeOperation (n.operationContext chain signer caller) (n.states chain) op with
    | .error _ => []
    | .ok (_, _, sent) => outbox id chain signer sent
  | .execute id e =>
    match executeMessage (n.messageContext e) (n.states e.destination) e.message with
    | .error _ => []
    | .ok (_, sent) => outbox id e.destination e.authenticatedSigner sent
  | .reject _ => []

namespace TestValidator

/-- One transaction. -/
def transact (v : TestValidator ChainId AccountOwner)
    (a : Nat → Action ChainId AccountOwner) :
    Option (TestValidator ChainId AccountOwner × Certificate ChainId AccountOwner) :=
  (v.network.step (a v.transactions)).map fun n =>
    ({ network := n, transactions := v.transactions + 1 }, v.network.outgoing (a v.transactions))

/-- `add_block(|block| block.with_operation(..))`. -/
def addBlockWithOperation (v : TestValidator ChainId AccountOwner)
    (chain : ActiveChain ChainId AccountOwner) (op : FungibleOperation ChainId AccountOwner) :
    Option (TestValidator ChainId AccountOwner × Certificate ChainId AccountOwner) :=
  v.transact fun id => .operation id chain.id (some chain.owner) none op

/-- `add_block(|block| block.with_messages_from(..))`: the chain executes the
messages of the certificate that are for it. -/
def addBlockWithMessagesFrom (v : TestValidator ChainId AccountOwner)
    (chain : ActiveChain ChainId AccountOwner) (certificate : Certificate ChainId AccountOwner) :
    Option (TestValidator ChainId AccountOwner × Certificate ChainId AccountOwner) :=
  (certificate.filter fun e => e.destination = chain.id).foldlM
    (fun (v, sent) e => (v.transact fun id => .execute id e).map fun (v, more) => (v, sent ++ more))
    (v, [])

/-- One round of `create_with_accounts`, for one chain and its initial amount. -/
def createAccount (tokenChain : ActiveChain ChainId AccountOwner)
    (v : TestValidator ChainId AccountOwner)
    (account : ActiveChain ChainId AccountOwner × Amount) :
    Option (TestValidator ChainId AccountOwner) := do
  let (chain, initialAmount) := account
  let (v, claimCertificate) ← v.addBlockWithOperation chain
    (.claim ⟨tokenChain.id, chain.owner⟩ initialAmount ⟨chain.id, chain.owner⟩)
  guard (claimCertificate.length = 1)
  let (v, transferCertificate) ← v.addBlockWithMessagesFrom tokenChain claimCertificate
  guard (transferCertificate.length = 1)
  let (v, _) ← v.addBlockWithMessagesFrom chain transferCertificate
  return v

end TestValidator

/-- The instantiation argument of `create_with_accounts`. -/
def initialStateOf {Builder : Type} (builder : InitialStateBuilder Builder AccountOwner)
    (accounts : List (ActiveChain ChainId AccountOwner × Amount)) : InitialState AccountOwner :=
  builder.build <| accounts.foldl (fun b x => builder.withAccount b x.1.owner x.2) builder.default

/-- `create_with_accounts`: `none` when a block or an assertion fails. -/
def createWithAccounts {Builder : Type} (builder : InitialStateBuilder Builder AccountOwner)
    (tokenChain : ActiveChain ChainId AccountOwner)
    (accounts : List (ActiveChain ChainId AccountOwner × Amount)) :
    Option (TestValidator ChainId AccountOwner) :=
  match Network.instantiate ⟨"FUN"⟩ tokenChain.id (initialStateOf builder accounts) with
  | .error _ => none
  | .ok n =>
    accounts.foldlM (TestValidator.createAccount tokenChain) { network := n, transactions := 0 }

-- ---------------------------------------------------------------------------
-- One round
-- ---------------------------------------------------------------------------

section
variable {n : Network ChainId AccountOwner} {v : TestValidator ChainId AccountOwner}
  {s t : FungibleTokenState AccountOwner}
  {sent : List (OutgoingMessage ChainId AccountOwner)}

theorem transact_operation {c : ChainId} {signer caller : Option AccountOwner}
    {op : FungibleOperation ChainId AccountOwner} {response : FungibleResponse}
    (hOp : executeOperation (v.network.operationContext c signer caller) (v.network.states c) op =
      .ok (s, response, sent)) :
    v.transact (fun id => .operation id c signer caller op) =
      some (⟨v.network.commit c s (outbox v.transactions c signer sent), v.transactions + 1⟩,
        outbox v.transactions c signer sent) := by
  have hStep : v.network.step (.operation v.transactions c signer caller op) = some _ :=
    Network.step_operation_iff.mpr ⟨s, response, sent, hOp, rfl⟩
  unfold TestValidator.transact
  rw [hStep]
  simp only [Option.map_some, Network.outgoing, hOp]
  rfl

theorem transact_execute {e : Envelope ChainId AccountOwner} (hMem : e ∈ v.network.inFlight)
    (hMessage : executeMessage (v.network.messageContext e) (v.network.states e.destination)
      e.message = .ok (s, sent)) :
    v.transact (fun id => .execute id e) =
      some (⟨(v.network.receive e).commit e.destination s
          (outbox v.transactions e.destination e.authenticatedSigner sent), v.transactions + 1⟩,
        outbox v.transactions e.destination e.authenticatedSigner sent) := by
  have hStep : v.network.step (.execute v.transactions e) = some _ :=
    Network.step_execute_iff.mpr ⟨hMem, s, sent, hMessage, rfl⟩
  unfold TestValidator.transact
  rw [hStep]
  simp only [Option.map_some, Network.outgoing, hMessage]
  rfl

/-- A block with the one message of a certificate. -/
theorem addBlockWithMessagesFrom_singleton {chain : ActiveChain ChainId AccountOwner}
    {e : Envelope ChainId AccountOwner} (hHere : e.destination = chain.id) :
    v.addBlockWithMessagesFrom chain [e] = v.transact fun id => .execute id e := by
  have hFilter : [e].filter (fun e => e.destination = chain.id) = [e] := by simp [hHere]
  rw [TestValidator.addBlockWithMessagesFrom, hFilter, List.foldlM_cons]
  cases hTransact : v.transact fun id => .execute id e <;> simp [hTransact]

variable {tokenChain chain : ActiveChain ChainId AccountOwner} {amount : Amount} {id : Nat}

/-- The `Withdraw` of a round. -/
def roundWithdraw (tokenChain chain : ActiveChain ChainId AccountOwner) (amount : Amount)
    (id : Nat) : Envelope ChainId AccountOwner :=
  withdrawEnvelope id chain.id (some chain.owner) ⟨tokenChain.id, chain.owner⟩ amount
    ⟨chain.id, chain.owner⟩

/-- Its `Credit`. -/
def roundCredit (tokenChain chain : ActiveChain ChainId AccountOwner) (amount : Amount)
    (id : Nat) : Envelope ChainId AccountOwner :=
  creditEnvelope id tokenChain.id (some chain.owner) amount ⟨chain.id, chain.owner⟩ chain.owner

/-- The claim only sends a `Withdraw`. -/
theorem addBlock_claim (hOther : chain.id ≠ tokenChain.id) :
    v.addBlockWithOperation chain
        (.claim ⟨tokenChain.id, chain.owner⟩ amount ⟨chain.id, chain.owner⟩) =
      some (⟨v.network.commit chain.id (v.network.states chain.id)
          {roundWithdraw tokenChain chain amount v.transactions}, v.transactions + 1⟩,
        [roundWithdraw tokenChain chain amount v.transactions]) := by
  have hOp : executeOperation (v.network.operationContext chain.id (some chain.owner) none)
      (v.network.states chain.id)
      (.claim ⟨tokenChain.id, chain.owner⟩ amount ⟨chain.id, chain.owner⟩) =
        .ok (v.network.states chain.id, .ok,
          [{ message := .withdraw chain.owner amount ⟨chain.id, chain.owner⟩
             authenticated := true
             tracked := false
             destination := tokenChain.id }]) := by
    have hRemote : tokenChain.id ≠
        (v.network.operationContext chain.id (some chain.owner) none).chainId := Ne.symm hOther
    refine executeOperation_ok_iff.mpr ⟨Or.inl rfl, rfl, ?_⟩
    rw [if_neg hRemote]
    exact ⟨rfl, rfl⟩
  exact transact_operation hOp

/-- The `Withdraw` debits the token chain and sends a `Credit`. -/
theorem addBlock_withdraw (hOther : chain.id ≠ tokenChain.id)
    (hFlight : v.network.inFlight = {roundWithdraw tokenChain chain amount id})
    (hDebit : (v.network.states tokenChain.id).debit chain.owner amount = .ok t) :
    v.addBlockWithMessagesFrom tokenChain [roundWithdraw tokenChain chain amount id] =
      some (⟨(v.network.receive (roundWithdraw tokenChain chain amount id)).commit tokenChain.id t
          {roundCredit tokenChain chain amount v.transactions}, v.transactions + 1⟩,
        [roundCredit tokenChain chain amount v.transactions]) := by
  have hMove : executeMessage
      (v.network.messageContext (roundWithdraw tokenChain chain amount id))
      (v.network.states tokenChain.id) (.withdraw chain.owner amount ⟨chain.id, chain.owner⟩) =
        .ok (t, [{ message := .credit chain.owner amount chain.owner
                   authenticated := true
                   tracked := true
                   destination := chain.id }]) := by
    refine executeMessage_ok_iff.mpr ⟨Or.inl rfl, moveTokens_ok_iff.mpr ⟨t, hDebit, ?_⟩⟩
    exact if_neg hOther
  rw [addBlockWithMessagesFrom_singleton rfl]
  exact transact_execute (hFlight ▸ Multiset.mem_singleton_self _) hMove

/-- The `Credit` arrives. -/
theorem addBlock_credit
    (hFlight : v.network.inFlight = {roundCredit tokenChain chain amount id}) :
    v.addBlockWithMessagesFrom chain [roundCredit tokenChain chain amount id] =
      some (⟨(v.network.receive (roundCredit tokenChain chain amount id)).commit chain.id
          ((v.network.states chain.id).credit chain.owner amount) 0, v.transactions + 1⟩, []) := by
  have hArrive : executeMessage (v.network.messageContext (roundCredit tokenChain chain amount id))
      (v.network.states chain.id) (.credit chain.owner amount chain.owner) =
        .ok ((v.network.states chain.id).credit chain.owner amount, []) :=
    executeMessage_ok_iff.mpr ⟨false, rfl, rfl, rfl⟩
  rw [addBlockWithMessagesFrom_singleton rfl]
  exact transact_execute (hFlight ▸ Multiset.mem_singleton_self _) hArrive

end

/-- **One round.** The account gets its amount from the token chain, if it is
there, and nothing else happens. -/
theorem createAccount_ok {tokenChain chain : ActiveChain ChainId AccountOwner} {amount : Amount}
    {v : TestValidator ChainId AccountOwner} {t : FungibleTokenState AccountOwner}
    (hEmpty : v.network.inFlight = 0) (hOther : chain.id ≠ tokenChain.id)
    (hDebit : (v.network.states tokenChain.id).debit chain.owner amount = .ok t) :
    ∃ v', v.createAccount tokenChain (chain, amount) = some v' ∧ v'.network.inFlight = 0 ∧
      v'.network.states = Function.update (Function.update v.network.states tokenChain.id t)
        chain.id ((v.network.states chain.id).credit chain.owner amount) := by
  let withdraw := roundWithdraw tokenChain chain amount v.transactions
  let credit := roundCredit tokenChain chain amount (v.transactions + 1)
  let v₁ : TestValidator ChainId AccountOwner :=
    ⟨v.network.commit chain.id (v.network.states chain.id) {withdraw}, v.transactions + 1⟩
  have hStates₁ : v₁.network.states = v.network.states := Function.update_eq_self ..
  have hFlight₁ : v₁.network.inFlight = {withdraw} := by
    show v.network.inFlight + {withdraw} = _
    rw [hEmpty, zero_add]
  have hDebit₁ : (v₁.network.states tokenChain.id).debit chain.owner amount = .ok t := by
    rw [hStates₁]
    exact hDebit
  let v₂ : TestValidator ChainId AccountOwner :=
    ⟨(v₁.network.receive withdraw).commit tokenChain.id t {credit}, v.transactions + 2⟩
  have hStates₂ : v₂.network.states = Function.update v.network.states tokenChain.id t := by
    rw [← hStates₁]
    rfl
  have hFlight₂ : v₂.network.inFlight = {credit} := by
    show v₁.network.inFlight.erase withdraw + {credit} = _
    rw [hFlight₁, ← Multiset.cons_zero, Multiset.erase_cons_head, zero_add]
  let v₃ : TestValidator ChainId AccountOwner :=
    ⟨(v₂.network.receive credit).commit chain.id
      ((v₂.network.states chain.id).credit chain.owner amount) 0, v.transactions + 3⟩
  have hClaim : v.addBlockWithOperation chain
      (.claim ⟨tokenChain.id, chain.owner⟩ amount ⟨chain.id, chain.owner⟩) =
        some (v₁, [withdraw]) := addBlock_claim hOther
  have hWithdraw : v₁.addBlockWithMessagesFrom tokenChain [withdraw] = some (v₂, [credit]) :=
    addBlock_withdraw hOther hFlight₁ hDebit₁
  have hCredit : v₂.addBlockWithMessagesFrom chain [credit] = some (v₃, []) :=
    addBlock_credit hFlight₂
  refine ⟨v₃, ?_, ?_, ?_⟩
  · simp [TestValidator.createAccount, hClaim, hWithdraw, hCredit]
  · show v₂.network.inFlight.erase credit + 0 = 0
    rw [hFlight₂, ← Multiset.cons_zero, Multiset.erase_cons_head]
    rfl
  · show Function.update v₂.network.states chain.id _ = _
    rw [hStates₂, Function.update_of_ne hOther]

-- ---------------------------------------------------------------------------
-- All rounds
-- ---------------------------------------------------------------------------

/-- What an owner is to get from all rounds together. -/
def owed (accounts : List (ActiveChain ChainId AccountOwner × Amount)) (o : AccountOwner) : Nat :=
  (accounts.map fun x => if o = x.1.owner then x.2.val else 0).sum

omit [DecidableEq ChainId] in
@[simp] theorem owed_nil (o : AccountOwner) :
    owed ([] : List (ActiveChain ChainId AccountOwner × Amount)) o = 0 := rfl

omit [DecidableEq ChainId] in
@[simp] theorem owed_cons (x : ActiveChain ChainId AccountOwner × Amount)
    (rest : List (ActiveChain ChainId AccountOwner × Amount)) (o : AccountOwner) :
    owed (x :: rest) o = (if o = x.1.owner then x.2.val else 0) + owed rest o := by
  simp [owed]

omit [DecidableEq ChainId] in
theorem le_owed {x : ActiveChain ChainId AccountOwner × Amount}
    {accounts : List (ActiveChain ChainId AccountOwner × Amount)} (hMem : x ∈ accounts) :
    x.2.val ≤ owed accounts x.1.owner := by
  have hEntry := List.mem_map_of_mem (f := fun y : ActiveChain ChainId AccountOwner × Amount =>
    if x.1.owner = y.1.owner then y.2.val else 0) hMem
  rw [if_pos rfl] at hEntry
  exact List.le_sum_of_mem hEntry

/-- **All rounds.** A token chain that holds what is owed pays everyone. -/
theorem createAccounts_ok {tokenChain : ActiveChain ChainId AccountOwner}
    {accounts : List (ActiveChain ChainId AccountOwner × Amount)}
    {v : TestValidator ChainId AccountOwner} (hEmpty : v.network.inFlight = 0)
    (hIds : (tokenChain.id :: accounts.map fun x => x.1.id).Nodup)
    (hCanonical : (v.network.states tokenChain.id).Canonical)
    (hBal : ∀ o, (v.network.states tokenChain.id).bal o = owed accounts o) :
    ∃ v', accounts.foldlM (TestValidator.createAccount tokenChain) v = some v' ∧
      v'.network.inFlight = 0 ∧ (v'.network.states tokenChain.id).Canonical ∧
      (∀ o, (v'.network.states tokenChain.id).bal o = 0) ∧
      (∀ c ∉ tokenChain.id :: accounts.map fun x => x.1.id,
        v'.network.states c = v.network.states c) ∧
      ∀ x ∈ accounts, v'.network.states x.1.id =
        (v.network.states x.1.id).credit x.1.owner x.2 := by
  induction accounts generalizing v with
  | nil => exact ⟨v, rfl, hEmpty, hCanonical, hBal, fun _ _ => rfl, by simp⟩
  | cons x rest ih =>
    obtain ⟨chain, amount⟩ := x
    simp only [List.map_cons, List.nodup_cons, List.mem_cons, not_or] at hIds
    obtain ⟨⟨hOther, hToken⟩, hFresh, hNodup⟩ := hIds
    have hLe : amount.val ≤ (v.network.states tokenChain.id).bal chain.owner := by
      rw [hBal]
      exact le_owed (x := (chain, amount)) List.mem_cons_self
    obtain ⟨t, hDebit⟩ := FungibleTokenState.exists_debit hLe
    obtain ⟨v₁, hRound, hEmpty₁, hStates⟩ := createAccount_ok hEmpty (Ne.symm hOther) hDebit
    have hToken₁ : v₁.network.states tokenChain.id = t := by
      rw [hStates, Function.update_of_ne hOther, Function.update_self]
    have hElse : ∀ c, c ≠ tokenChain.id → c ≠ chain.id →
        v₁.network.states c = v.network.states c := by
      intro c hc hc'
      rw [hStates, Function.update_of_ne hc', Function.update_of_ne hc]
    have hOwed : ∀ o, t.bal o = owed rest o := by
      intro o
      have hTaken := FungibleTokenState.bal_debit hDebit o
      have hDue : (v.network.states tokenChain.id).bal o =
          (if o = chain.owner then amount.val else 0) + owed rest o := by rw [hBal, owed_cons]
      omega
    obtain ⟨v', hRest, hEmpty', hCanonical', hZero, hSame, hPaid⟩ :=
      ih hEmpty₁ (List.nodup_cons.mpr ⟨hToken, hNodup⟩)
        (hToken₁ ▸ hCanonical.debit hDebit) (hToken₁ ▸ hOwed)
    refine ⟨v', ?_, hEmpty', hCanonical', hZero, ?_, ?_⟩
    · rw [List.foldlM_cons, hRound]
      exact hRest
    · intro c hc
      simp only [List.map_cons, List.mem_cons, not_or] at hc
      rw [hSame c (by simp [hc]), hElse c hc.1 hc.2.1]
    · intro y hy
      rcases List.mem_cons.mp hy with rfl | hy
      · rw [hSame _ (by simp [Ne.symm hOther, hFresh]), hStates, Function.update_self]
      · have hId : y.1.id ∈ rest.map fun x => x.1.id := List.mem_map_of_mem hy
        rw [hPaid y hy, hElse _ (fun h => hToken (h ▸ hId)) (fun h => hFresh (h ▸ hId))]

section
variable {Builder : Type} {builder : InitialStateBuilder Builder AccountOwner}

omit [DecidableEq ChainId] in
theorem lookup_foldl_withAccount {accounts : List (ActiveChain ChainId AccountOwner × Amount)}
    (hOwners : (accounts.map fun x => x.1.owner).Nodup) (b : Builder) (o : AccountOwner) :
    (((builder.build (accounts.foldl (fun b x => builder.withAccount b x.1.owner x.2)
        b)).accounts.lookup o).getD 0).val =
      owed accounts o + if o ∈ accounts.map fun x => x.1.owner then 0
        else (((builder.build b).accounts.lookup o).getD 0).val := by
  induction accounts generalizing b with
  | nil => simp
  | cons x rest ih =>
    obtain ⟨hHead, hRest⟩ := List.nodup_cons.mp hOwners
    rw [List.foldl_cons, ih hRest, builder.lookup_withAccount, owed_cons]
    by_cases hOwner : o = x.1.owner
    · subst hOwner
      rw [if_neg hHead]
      simp [Nat.add_comm]
    · simp only [hOwner, if_false, Nat.zero_add, List.map_cons, List.mem_cons, false_or]

omit [DecidableEq ChainId] in
/-- The builder records what is owed. -/
theorem bal_initialStateOf (builder : InitialStateBuilder Builder AccountOwner)
    {accounts : List (ActiveChain ChainId AccountOwner × Amount)}
    (hOwners : (accounts.map fun x => x.1.owner).Nodup) (o : AccountOwner) :
    (FungibleTokenState.initializeAccounts ∅ (initialStateOf builder accounts)).bal o =
      owed accounts o := by
  rw [FungibleTokenState.bal_initializeAccounts_eq_lookup, initialStateOf,
    lookup_foldl_withAccount hOwners, builder.lookup_default]
  simp

end

theorem bal_initializeAccounts_le_total (state : InitialState AccountOwner) (o : AccountOwner) :
    (FungibleTokenState.initializeAccounts ∅ state).bal o ≤ state.total := by
  rw [FungibleTokenState.bal_initializeAccounts]
  refine List.sum_le_sum ?_
  intro e _
  split
  · exact Nat.le_refl _
  · exact Nat.zero_le _

/-- **What `create_with_accounts` hands out.** On chains and owners that are all
different, with some tokens to give, every block and every assertion goes through;
each account then holds its amount on its own chain, and nothing is left on the
token chain or in flight. -/
theorem createWithAccounts_distributes {Builder : Type}
    (builder : InitialStateBuilder Builder AccountOwner)
    (tokenChain : ActiveChain ChainId AccountOwner)
    (accounts : List (ActiveChain ChainId AccountOwner × Amount))
    (hSum : (accounts.map fun x => x.2.val).sum ≠ 0)
    (hIds : (tokenChain.id :: accounts.map fun x => x.1.id).Nodup)
    (hOwners : (accounts.map fun x => x.1.owner).Nodup) :
    ∃ v, createWithAccounts builder tokenChain accounts = some v ∧
      (∀ x ∈ accounts, ∀ o, (v.network.states x.1.id).balance o =
        if o = x.1.owner ∧ x.2 ≠ 0 then some x.2 else none) ∧
      (v.network.states tokenChain.id).accounts = ∅ ∧ v.network.inFlight = 0 := by
  have hTotal : (initialStateOf builder accounts).total ≠ 0 := by
    intro hZero
    refine hSum (List.sum_eq_zero ?_)
    intro a ha
    obtain ⟨x, hx, rfl⟩ := List.mem_map.mp ha
    have hOwed := (le_owed hx).trans_eq (bal_initialStateOf builder hOwners _).symm
    have hLe := bal_initializeAccounts_le_total (initialStateOf builder accounts) x.1.owner
    exact Nat.eq_zero_of_le_zero (hOwed.trans (hLe.trans_eq hZero))
  let n : Network ChainId AccountOwner :=
    { parameters := ⟨"FUN"⟩
      states := Function.update (fun _ => ∅) tokenChain.id
        (FungibleTokenState.initializeAccounts ∅ (initialStateOf builder accounts))
      inFlight := 0 }
  have hInstantiate : Network.instantiate ⟨"FUN"⟩ tokenChain.id (initialStateOf builder accounts) =
      .ok n := Network.instantiate_ok_iff.mpr ⟨hTotal, rfl⟩
  have hToken : n.states tokenChain.id =
      FungibleTokenState.initializeAccounts ∅ (initialStateOf builder accounts) := by
    simp [n]
  obtain ⟨v, hRounds, hEmpty, hCanonical, hZero, -, hPaid⟩ :=
    createAccounts_ok (v := ⟨n, 0⟩) rfl hIds
      (hToken ▸ FungibleTokenState.Canonical.initializeAccounts _)
      (fun o => (congrArg (·.bal o) hToken).trans (bal_initialStateOf builder hOwners o))
  refine ⟨v, ?_, ?_, ?_, hEmpty⟩
  · unfold createWithAccounts
    rw [hInstantiate]
    exact hRounds
  · intro x hx o
    have hId : x.1.id ≠ tokenChain.id := by
      intro h
      exact (List.nodup_cons.mp hIds).1 (h ▸ List.mem_map_of_mem hx)
    have hFresh : n.states x.1.id = ∅ := by simp [n, hId]
    rw [hPaid x hx, hFresh, FungibleTokenState.balance_credit_empty]
  · refine hCanonical.accounts.ext MapView.NoZero.empty fun o => Amount.ext ?_
    exact hZero o

/-- The builder as a map that the account is inserted into. -/
def sampleBuilder : InitialStateBuilder (InitialState Nat) Nat where
  default := ⟨∅⟩
  withAccount b owner amount := ⟨b.accounts.insert owner amount⟩
  build b := b
  lookup_default _ := rfl
  lookup_withAccount b owner amount o := by
    by_cases h : o = owner
    · rw [if_pos h, h, AList.lookup_insert]
    · rw [if_neg h, AList.lookup_insert_ne h]

/-- Three accounts, one of them with nothing. -/
def sampleAccounts : List (ActiveChain Nat Nat × Amount) :=
  [(⟨1, 11⟩, .fromAttos 19), (⟨2, 12⟩, 0), (⟨3, 13⟩, .fromAttos 7)]

theorem createWithAccounts_distributes_sample :
    ∃ v, createWithAccounts sampleBuilder (⟨0, 10⟩ : ActiveChain Nat Nat) sampleAccounts = some v ∧
      (∀ x ∈ sampleAccounts, ∀ o, (v.network.states x.1.id).balance o =
        if o = x.1.owner ∧ x.2 ≠ 0 then some x.2 else none) ∧
      (v.network.states 0).accounts = ∅ ∧ v.network.inFlight = 0 :=
  createWithAccounts_distributes sampleBuilder ⟨0, 10⟩ sampleAccounts (by decide) (by decide)
    (by decide)

end LineraEndToEnd.Fungible
