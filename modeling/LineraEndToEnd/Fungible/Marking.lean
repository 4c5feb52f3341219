import Mathlib.Data.Finsupp.Weight
import Mathlib.Data.Finsupp.Order
import Mathlib.Algebra.Order.Group.Multiset
import Mathlib.Algebra.Order.Monoid.Prod
import LineraEndToEnd.Lib.TokenGame
import LineraEndToEnd.Fungible.Network

/-!
# Fungible — tokens and messages as a token game

The abstract model of the application: what matters about a network, but for
the allowances, is how many tokens each owner has on each chain and which
messages are in flight. Every action is a move of the token game on these
markings: it takes tokens and a message away and gives tokens and a message
back, whatever the rest of the network is.

* `Action.move` — the move of an action, read off its label alone.
* `supply` — the exact number of tokens: all balances and the credits in
  flight. Every move of a network of regular messages keeps it (`supply_move`).
* `Network.exists_step_iff` — an action is possible iff its authentication is
  in order (`Action.Permitted`), the allowance it uses is there
  (`Action.Allowed`), and the network holds what its move takes.

The other half of the refinement, what an action does, is `Fungible.Refinement`.
-/

namespace LineraEndToEnd.Fungible

open Lib

variable {ChainId AccountOwner : Type} [DecidableEq ChainId] [DecidableEq AccountOwner]

/-- Tokens of each owner on each chain, and messages in flight. -/
abbrev Marking (ChainId AccountOwner : Type) :=
  ((ChainId × AccountOwner) →₀ ℕ) × Multiset (Envelope ChainId AccountOwner)

/-- Tokens of one owner on one chain. -/
noncomputable def tokens (chain : ChainId) (owner : AccountOwner) (amount : Amount) :
    Marking ChainId AccountOwner :=
  (Finsupp.single (chain, owner) amount.val, 0)

/-- Messages in flight. -/
def letters (s : Multiset (Envelope ChainId AccountOwner)) : Marking ChainId AccountOwner :=
  (0, s)

/-- The marking stands for the network. -/
structure Marks (n : Network ChainId AccountOwner) (M : Marking ChainId AccountOwner) :
    Prop where
  bal : ∀ c o, M.1 (c, o) = (n.states c).bal o
  inFlight : M.2 = n.inFlight

/-! ## Messages and moves -/

/-- The message a transfer sends to another chain. -/
def creditEnvelope (id : Nat) (sender : ChainId) (signer : Option AccountOwner)
    (amount : Amount) (target : Account ChainId AccountOwner) (source : AccountOwner) :
    Envelope ChainId AccountOwner :=
  { id := id
    sender := sender
    destination := target.chainId
    authenticatedSigner := signer
    message := .credit target.owner amount source
    tracked := true
    bouncing := false }

/-- The message a claim sends to the source chain. -/
def withdrawEnvelope (id : Nat) (sender : ChainId) (signer : Option AccountOwner)
    (source : Account ChainId AccountOwner) (amount : Amount)
    (target : Account ChainId AccountOwner) : Envelope ChainId AccountOwner :=
  { id := id
    sender := sender
    destination := source.chainId
    authenticatedSigner := signer
    message := .withdraw source.owner amount target
    tracked := false
    bouncing := false }

/-- What the tokens of a transfer become: tokens of the target on the same
chain, a message to another. -/
noncomputable def arrival (id : Nat) (chain : ChainId) (signer : Option AccountOwner)
    (amount : Amount) (target : Account ChainId AccountOwner) (source : AccountOwner) :
    Marking ChainId AccountOwner :=
  if target.chainId = chain then tokens chain target.owner amount
  else letters {creditEnvelope id chain signer amount target source}

/-- Who is credited when a `Credit` message is executed. -/
def Envelope.receiver (e : Envelope ChainId AccountOwner) (target source : AccountOwner) :
    AccountOwner :=
  if e.bouncing then source else target

/-- The move of an action. -/
noncomputable def Action.move :
    Action ChainId AccountOwner → Move (Marking ChainId AccountOwner)
  | .operation id chain signer _ op =>
    match op with
    | .balance _ | .tickerSymbol | .approve _ _ _ => ⟨0, 0⟩
    | .transfer owner amount target =>
      ⟨tokens chain owner amount, arrival id chain signer amount target owner⟩
    | .transferFrom owner _ amount target =>
      ⟨tokens chain owner amount, arrival id chain signer amount target owner⟩
    | .claim source amount target =>
      if source.chainId = chain then
        ⟨tokens chain source.owner amount, arrival id chain signer amount target source.owner⟩
      else ⟨0, letters {withdrawEnvelope id chain signer source amount target}⟩
  | .execute id e =>
    match e.message with
    | .credit target amount source =>
      ⟨letters {e}, tokens e.destination (e.receiver target source) amount⟩
    | .withdraw owner amount target =>
      ⟨tokens e.destination owner amount + letters {e},
        arrival id e.destination e.authenticatedSigner amount target owner⟩
  | .reject e => ⟨letters {e}, letters (if e.tracked then {e.bounced} else 0)⟩

/-- The messages an action takes out of flight. -/
def Action.consumed : Action ChainId AccountOwner → Multiset (Envelope ChainId AccountOwner)
  | .operation _ _ _ _ _ => 0
  | .execute _ e => {e}
  | .reject e => {e}

/-- The messages an action puts in flight. -/
noncomputable def Action.sent (a : Action ChainId AccountOwner) :
    Multiset (Envelope ChainId AccountOwner) :=
  a.move.give.2

section
omit [DecidableEq ChainId] [DecidableEq AccountOwner]

theorem tokens_fst (c : ChainId) (o : AccountOwner) (amount : Amount) :
    (tokens c o amount).1 = Finsupp.single (c, o) amount.val := rfl

@[simp] theorem tokens_snd (c : ChainId) (o : AccountOwner) (amount : Amount) :
    (tokens c o amount).2 = (0 : Multiset (Envelope ChainId AccountOwner)) := rfl

@[simp] theorem letters_fst (s : Multiset (Envelope ChainId AccountOwner)) :
    (letters s).1 = 0 := rfl

@[simp] theorem letters_snd (s : Multiset (Envelope ChainId AccountOwner)) :
    (letters s).2 = s := rfl

end

@[simp] theorem tokens_apply (c c' : ChainId) (o o' : AccountOwner) (amount : Amount) :
    (tokens c o amount : Marking ChainId AccountOwner).1 (c', o') =
      if c' = c ∧ o' = o then amount.val else 0 := by
  rw [tokens_fst, Finsupp.single_apply]
  simp only [Prod.mk.injEq, eq_comm]

theorem eq_of_tokens_pos {c c' : ChainId} {o o' : AccountOwner} {amount : Amount}
    (h : 0 < (tokens c o amount : Marking ChainId AccountOwner).1 (c', o')) :
    c' = c ∧ o' = o := by
  rw [tokens_apply] at h
  by_contra hNot
  rw [if_neg hNot] at h
  exact Nat.lt_irrefl 0 h

@[simp] theorem arrival_apply (id : Nat) (c c' : ChainId) (signer : Option AccountOwner)
    (amount : Amount) (target : Account ChainId AccountOwner) (source o : AccountOwner) :
    (arrival id c signer amount target source).1 (c', o) =
      if c' = c ∧ target.chainId = c ∧ o = target.owner then amount.val else 0 := by
  unfold arrival
  by_cases hLocal : target.chainId = c <;> simp [hLocal]

omit [DecidableEq AccountOwner] in
@[simp] theorem arrival_snd (id : Nat) (c : ChainId) (signer : Option AccountOwner)
    (amount : Amount) (target : Account ChainId AccountOwner) (source : AccountOwner) :
    (arrival id c signer amount target source).2 =
      if target.chainId = c then 0 else {creditEnvelope id c signer amount target source} := by
  unfold arrival
  split <;> rfl

omit [DecidableEq AccountOwner] in
theorem Action.move_take_snd (a : Action ChainId AccountOwner) : a.move.take.2 = a.consumed := by
  rcases a with ⟨id, chain, signer, caller, op⟩ | ⟨id, e⟩ | e
  · cases op with
    | balance | tickerSymbol | approve | transfer | transferFrom => rfl
    | claim source amount target =>
      simp only [move, consumed]
      split <;> rfl
  · simp only [move, consumed]
    split <;> simp
  · rfl

/-! ## Who sends a message -/

/-- The ways an action sends the message `m`. -/
inductive Sends (m : Envelope ChainId AccountOwner) : Action ChainId AccountOwner → Prop where
  /-- A transfer to another chain: the message is all the action gives. -/
  | transfer {a : Action ChainId AccountOwner} (signer : Option AccountOwner) (amount : Amount)
      (target : Account ChainId AccountOwner) (source : AccountOwner)
      (hNumber : a.transaction = some m.id)
      (hEnvelope : m = creditEnvelope m.id m.sender signer amount target source)
      (hMove : a.move = ⟨tokens m.sender source amount + letters a.consumed, letters {m}⟩) :
      Sends m a
  /-- A claim on an account of another chain. -/
  | claim (signer caller : Option AccountOwner) (source : Account ChainId AccountOwner)
      (amount : Amount) (target : Account ChainId AccountOwner)
      (hRemote : m.sender ≠ source.chainId)
      (hEnvelope : m = withdrawEnvelope m.id m.sender signer source amount target) :
      Sends m (.operation m.id m.sender signer caller (.claim source amount target))
  /-- The rejection of a tracked message. -/
  | bounce (e : Envelope ChainId AccountOwner) (hTracked : e.tracked = true)
      (hEnvelope : m = e.bounced) : Sends m (.reject e)

omit [DecidableEq AccountOwner] in
/-- What a transfer to another chain sends. -/
theorem of_mem_arrival {id : Nat} {c : ChainId} {signer : Option AccountOwner} {amount : Amount}
    {target : Account ChainId AccountOwner} {source : AccountOwner}
    {m : Envelope ChainId AccountOwner}
    (hMem : m ∈ (arrival id c signer amount target source).2) :
    m = creditEnvelope id c signer amount target source ∧
      arrival id c signer amount target source = letters {m} := by
  unfold arrival at *
  split at hMem
  · exact absurd hMem (Multiset.notMem_zero m)
  · next hRemote =>
    rw [letters_snd, Multiset.mem_singleton] at hMem
    rw [if_neg hRemote, hMem]
    exact ⟨rfl, rfl⟩

omit [DecidableEq AccountOwner] in
theorem sends_of_mem {a : Action ChainId AccountOwner} {m : Envelope ChainId AccountOwner}
    (hSent : m ∈ a.sent) : Sends m a := by
  have hZero : (letters 0 : Marking ChainId AccountOwner) = 0 := rfl
  rcases a with ⟨id, c, signer, caller, op⟩ | ⟨id, e⟩ | e
  · cases op with
    | balance | tickerSymbol | approve => exact absurd hSent (Multiset.notMem_zero m)
    | transfer owner amount target =>
      obtain ⟨rfl, hGive⟩ := of_mem_arrival hSent
      refine .transfer signer amount target owner rfl rfl ?_
      rw [Action.move, hGive, Action.consumed, hZero, add_zero]
      rfl
    | transferFrom owner spender amount target =>
      obtain ⟨rfl, hGive⟩ := of_mem_arrival hSent
      refine .transfer signer amount target owner rfl rfl ?_
      rw [Action.move, hGive, Action.consumed, hZero, add_zero]
      rfl
    | claim source amount target =>
      by_cases hLocal : source.chainId = c
      · simp only [Action.sent, Action.move, if_pos hLocal] at hSent
        obtain ⟨rfl, hGive⟩ := of_mem_arrival hSent
        refine .transfer signer amount target source.owner rfl rfl ?_
        simp only [Action.move, if_pos hLocal]
        rw [hGive, Action.consumed, hZero, add_zero]
        rfl
      · simp only [Action.sent, Action.move, if_neg hLocal, letters_snd] at hSent
        obtain rfl := Multiset.mem_singleton.mp hSent
        exact .claim signer caller source amount target (Ne.symm hLocal) rfl
  · cases hMsg : e.message with
    | credit => simp [Action.sent, Action.move, hMsg] at hSent
    | withdraw owner amount target =>
      simp only [Action.sent, Action.move, hMsg] at hSent
      obtain ⟨rfl, hGive⟩ := of_mem_arrival hSent
      refine .transfer e.authenticatedSigner amount target owner rfl rfl ?_
      simp only [Action.move, hMsg]
      rw [hGive]
      rfl
  · cases hTracked : e.tracked with
    | false => simp [Action.sent, Action.move, hTracked] at hSent
    | true => exact .bounce e hTracked (by simpa [Action.sent, Action.move, hTracked] using hSent)

/-! ## The supply -/

/-- The tokens a message carries. -/
def Envelope.carried (e : Envelope ChainId AccountOwner) : ℕ :=
  match e.message with
  | .credit _ amount _ => amount.val
  | .withdraw _ _ _ => 0

/-- The exact number of tokens: all balances, and the credits in flight. -/
noncomputable def supply : Marking ChainId AccountOwner →+ ℕ :=
  Finsupp.degree.comp (AddMonoidHom.fst _ _) +
    (Multiset.sumAddMonoidHom.comp (Multiset.mapAddMonoidHom Envelope.carried)).comp
      (AddMonoidHom.snd _ _)

/-- The flags the contract sets: a `Credit` is tracked, a `Withdraw` is not and
never bounces. -/
def Envelope.Regular (e : Envelope ChainId AccountOwner) : Prop :=
  match e.message with
  | .credit _ _ _ => e.tracked = true
  | .withdraw _ _ _ => e.tracked = false ∧ e.bouncing = false

section
omit [DecidableEq ChainId] [DecidableEq AccountOwner]

theorem supply_apply (M : Marking ChainId AccountOwner) :
    supply M = M.1.degree + (M.2.map Envelope.carried).sum := rfl

@[simp] theorem supply_tokens (c : ChainId) (o : AccountOwner) (amount : Amount) :
    supply (tokens c o amount) = amount.val := by
  simp [supply_apply, tokens]

@[simp] theorem supply_letters_singleton (e : Envelope ChainId AccountOwner) :
    supply (letters {e}) = e.carried := by
  simp [supply_apply, letters]

@[simp] theorem supply_letters_zero :
    supply (letters (0 : Multiset (Envelope ChainId AccountOwner))) = 0 := by
  simp [supply_apply, letters]

theorem bal_le_supply (M : Marking ChainId AccountOwner) (p : ChainId × AccountOwner) :
    M.1 p ≤ supply M :=
  Nat.le_trans (Finsupp.le_degree p M.1) (Nat.le_add_right ..)

end

omit [DecidableEq AccountOwner] in
@[simp] theorem supply_arrival (id : Nat) (c : ChainId) (signer : Option AccountOwner)
    (amount : Amount) (target : Account ChainId AccountOwner) (source : AccountOwner) :
    supply (arrival id c signer amount target source) = amount.val := by
  unfold arrival
  split
  · exact supply_tokens ..
  · exact supply_letters_singleton _

omit [DecidableEq AccountOwner] in
/-- Every move keeps the supply, when the message it takes is regular. -/
theorem supply_move (a : Action ChainId AccountOwner) (hReg : ∀ e ∈ a.consumed, e.Regular) :
    supply a.move.take = supply a.move.give := by
  rcases a with ⟨id, chain, signer, caller, op⟩ | ⟨id, e⟩ | e
  · cases op with
    | balance | tickerSymbol | approve => simp [Action.move]
    | transfer | transferFrom => simp [Action.move]
    | claim source amount target =>
      simp only [Action.move]
      split
      · simp
      · simp [withdrawEnvelope, Envelope.carried]
  · simp only [Action.move]
    split
    · next h => simp [Envelope.carried, h]
    · next h => simp [Envelope.carried, h]
  · have hReg' := hReg e (Multiset.mem_singleton_self e)
    cases hTracked : e.tracked with
    | true => simp [Action.move, hTracked, Envelope.carried, Envelope.bounced]
    | false =>
      cases hMsg : e.message with
      | credit => simp [Envelope.Regular, hMsg, hTracked] at hReg'
      | withdraw => simp [Action.move, hTracked, Envelope.carried, hMsg]

/-! ## When an action is possible -/

/-- The authentication an action needs, the guards of the code that only look
at its arguments, and the runtime's rule for rejections. -/
def Action.Permitted (a : Action ChainId AccountOwner) : Prop :=
  match a with
  | .operation _ _ _ _ op =>
    match op with
    | .balance _ | .tickerSymbol => True
    | .approve owner spender allowance => a.Permits owner ∧ (allowance ≠ 0 → owner ≠ spender)
    | .transfer owner _ _ => a.Permits owner
    | .transferFrom owner spender amount _ => a.Permits spender ∧ (amount ≠ 0 → owner ≠ spender)
    | .claim source _ _ => a.Permits source.owner
  | .execute _ e =>
    match e.message with
    | .credit _ _ _ => True
    | .withdraw owner _ _ => a.Permits owner
  | .reject e => e.bouncing = false

/-- The allowance an action uses is there. -/
def Action.Allowed (n : Network ChainId AccountOwner) : Action ChainId AccountOwner → Prop
  | .operation _ chain _ _ (.transferFrom owner spender amount _) =>
    amount.val ≤ (n.states chain).alw ⟨owner, spender⟩
  | _ => True

variable {n n' : Network ChainId AccountOwner} {M M' : Marking ChainId AccountOwner}
  {a : Action ChainId AccountOwner}

/-- The network holds at least the marking. -/
def Network.Holds (n : Network ChainId AccountOwner) (M : Marking ChainId AccountOwner) :
    Prop :=
  (∀ c o, M.1 (c, o) ≤ (n.states c).bal o) ∧ M.2 ≤ n.inFlight

omit [DecidableEq ChainId] in
theorem Action.Allowed.mono (h : a.Allowed n)
    (hAlw : ∀ c p, (n.states c).alw p ≤ (n'.states c).alw p) : a.Allowed n' := by
  unfold Action.Allowed at *
  split
  · exact Nat.le_trans h (hAlw ..)
  · trivial

omit [DecidableEq ChainId] in
theorem Marks.holds_iff {N : Marking ChainId AccountOwner} (hM : Marks n M) :
    n.Holds N ↔ N ≤ M := by
  rw [Prod.le_def, hM.inFlight]
  refine and_congr_left' ⟨fun h p => ?_, fun h c o => ?_⟩
  · rw [hM.bal p.1 p.2]
    exact h p.1 p.2
  · rw [← hM.bal c o]
    exact h (c, o)

omit [DecidableEq ChainId] in
@[simp] theorem holds_zero : n.Holds 0 :=
  ⟨fun _ _ => Nat.zero_le _, Multiset.zero_le _⟩

theorem forall_tokens_le_iff {c : ChainId} {o : AccountOwner} {amount : Amount} :
    (∀ c' o', (tokens c o amount : Marking ChainId AccountOwner).1 (c', o') ≤
      (n.states c').bal o') ↔ amount.val ≤ (n.states c).bal o := by
  constructor
  · intro h
    simpa using h c o
  · intro h c' o'
    rw [tokens_apply]
    split
    · next hEq => rw [hEq.1, hEq.2]; exact h
    · exact Nat.zero_le _

@[simp] theorem holds_tokens {c : ChainId} {o : AccountOwner} {amount : Amount} :
    n.Holds (tokens c o amount) ↔ amount.val ≤ (n.states c).bal o := by
  rw [Network.Holds, forall_tokens_le_iff]
  simp

omit [DecidableEq ChainId] in
@[simp] theorem holds_letters {e : Envelope ChainId AccountOwner} :
    n.Holds (letters {e}) ↔ e ∈ n.inFlight := by
  simp [Network.Holds]

@[simp] theorem holds_tokens_add_letters {c : ChainId} {o : AccountOwner} {amount : Amount}
    {e : Envelope ChainId AccountOwner} :
    n.Holds (tokens c o amount + letters {e}) ↔
      amount.val ≤ (n.states c).bal o ∧ e ∈ n.inFlight := by
  rw [← forall_tokens_le_iff (n := n)]
  simp [Network.Holds]

theorem exists_moveTokens_iff (ctx : Context ChainId AccountOwner)
    (s : FungibleTokenState AccountOwner) (owner : AccountOwner) (amount : Amount)
    (target : Account ChainId AccountOwner) :
    (∃ s' sent, moveTokens ctx s owner amount target = .ok (s', sent)) ↔
      amount.val ≤ s.bal owner := by
  simp only [moveTokens_ok_iff]
  constructor
  · rintro ⟨s', sent, t, hDebit, -⟩
    exact FungibleTokenState.debit_le hDebit
  · intro hLe
    obtain ⟨t, hDebit⟩ := FungibleTokenState.exists_debit hLe
    exact ⟨_, _, t, hDebit, rfl⟩

theorem exists_moveTokensFrom_iff (ctx : Context ChainId AccountOwner)
    (s : FungibleTokenState AccountOwner) (owner spender : AccountOwner) (amount : Amount)
    (target : Account ChainId AccountOwner) :
    (∃ s' sent, moveTokensFrom ctx s owner spender amount target = .ok (s', sent)) ↔
      (amount ≠ 0 → owner ≠ spender) ∧ amount.val ≤ s.alw ⟨owner, spender⟩ ∧
        amount.val ≤ s.bal owner := by
  simp only [moveTokensFrom_ok_iff]
  constructor
  · rintro ⟨s', sent, t, hDebit, -⟩
    refine ⟨FungibleTokenState.debitForTransferFrom_ne hDebit, ?_,
      FungibleTokenState.debitForTransferFrom_le hDebit⟩
    have hAlw := FungibleTokenState.alw_debitForTransferFrom hDebit ⟨owner, spender⟩
    rw [if_pos rfl] at hAlw
    omega
  · rintro ⟨hNe, hAlw, hLe⟩
    obtain ⟨t, hDebit⟩ := FungibleTokenState.exists_debitForTransferFrom hLe hNe hAlw
    exact ⟨_, _, t, hDebit, rfl⟩

theorem exists_executeOperation_iff {ctx : Context ChainId AccountOwner}
    {s : FungibleTokenState AccountOwner} {op : FungibleOperation ChainId AccountOwner} :
    (∃ s' response sent, executeOperation ctx s op = .ok (s', response, sent)) ↔
      match op with
      | .balance _ | .tickerSymbol => True
      | .approve owner spender allowance =>
        ctx.Permits owner ∧ (allowance ≠ 0 → owner ≠ spender)
      | .transfer owner amount _ => ctx.Permits owner ∧ amount.val ≤ s.bal owner
      | .transferFrom owner spender amount _ =>
        ctx.Permits spender ∧ (amount ≠ 0 → owner ≠ spender) ∧
          amount.val ≤ s.alw ⟨owner, spender⟩ ∧ amount.val ≤ s.bal owner
      | .claim source amount _ =>
        ctx.Permits source.owner ∧
          (source.chainId = ctx.chainId → amount.val ≤ s.bal source.owner) := by
  cases op with
  | balance owner => exact iff_true_intro ⟨_, _, _, rfl⟩
  | tickerSymbol => exact iff_true_intro ⟨_, _, _, rfl⟩
  | approve owner spender allowance =>
    simp only [executeOperation_ok_iff]
    constructor
    · rintro ⟨s', _, _, hPerm, hApprove, -, -⟩
      exact ⟨hPerm, FungibleTokenState.approve_ne hApprove⟩
    · rintro ⟨hPerm, hNe⟩
      obtain ⟨s', hApprove⟩ := FungibleTokenState.exists_approve (s := s) hNe
      exact ⟨s', _, _, hPerm, hApprove, rfl, rfl⟩
  | transfer owner amount target =>
    simp only [executeOperation_ok_iff, ← exists_moveTokens_iff ctx s owner amount target]
    constructor
    · rintro ⟨s', _, sent, hPerm, hMove, -⟩
      exact ⟨hPerm, s', sent, hMove⟩
    · rintro ⟨hPerm, s', sent, hMove⟩
      exact ⟨s', _, sent, hPerm, hMove, rfl⟩
  | transferFrom owner spender amount target =>
    simp only [executeOperation_ok_iff,
      ← exists_moveTokensFrom_iff ctx s owner spender amount target]
    constructor
    · rintro ⟨s', _, sent, hPerm, hMove, -⟩
      exact ⟨hPerm, s', sent, hMove⟩
    · rintro ⟨hPerm, s', sent, hMove⟩
      exact ⟨s', _, sent, hPerm, hMove, rfl⟩
  | claim source amount target =>
    simp only [executeOperation_ok_iff,
      ← exists_moveTokens_iff ctx s source.owner amount target]
    by_cases hLocal : source.chainId = ctx.chainId
    · simp only [hLocal, forall_const]
      constructor
      · rintro ⟨s', _, sent, hPerm, -, hMove⟩
        exact ⟨hPerm, s', sent, hMove⟩
      · rintro ⟨hPerm, s', sent, hMove⟩
        exact ⟨s', _, sent, hPerm, rfl, hMove⟩
    · simp only [hLocal, false_implies, and_true]
      constructor
      · rintro ⟨_, _, _, hPerm, -⟩
        exact hPerm
      · intro hPerm
        exact ⟨s, _, _, hPerm, rfl, rfl, rfl⟩

theorem Network.exists_step_operation_iff {id : Nat} {chain : ChainId}
    {signer caller : Option AccountOwner} {op : FungibleOperation ChainId AccountOwner} :
    (∃ n', n.step (.operation id chain signer caller op) = some n') ↔
      ∃ s response sent, executeOperation (n.operationContext chain signer caller)
        (n.states chain) op = .ok (s, response, sent) := by
  simp only [step_operation_iff]
  constructor
  · rintro ⟨_, s, response, sent, hOp, -⟩
    exact ⟨s, response, sent, hOp⟩
  · rintro ⟨s, response, sent, hOp⟩
    exact ⟨_, s, response, sent, hOp, rfl⟩

/-- **An action is possible** iff it is permitted, the allowance it uses is
there, and the network holds what its move takes. -/
theorem Network.exists_step_iff :
    (∃ n', n.step a = some n') ↔ a.Permitted ∧ a.Allowed n ∧ n.Holds a.move.take := by
  rcases a with ⟨id, chain, signer, caller, op⟩ | ⟨id, e⟩ | e
  · rw [exists_step_operation_iff, exists_executeOperation_iff]
    cases op with
    | balance | tickerSymbol => simp [Action.Permitted, Action.Allowed, Action.move]
    | approve owner spender allowance =>
      simp [Action.Permitted, Action.Allowed, Action.move, ← permits_operationContext_iff n]
    | transfer owner amount target =>
      simp [Action.Permitted, Action.Allowed, Action.move, ← permits_operationContext_iff n,
        operationContext]
    | transferFrom owner spender amount target =>
      simp [Action.Permitted, Action.Allowed, Action.move, ← permits_operationContext_iff n,
        and_assoc]
    | claim source amount target =>
      by_cases hLocal : source.chainId = chain <;>
        simp [Action.Permitted, Action.Allowed, Action.move, ← permits_operationContext_iff n,
          operationContext, hLocal]
  · simp only [step_execute_iff, executeMessage_ok_iff]
    cases hMsg : e.message with
    | credit target amount source =>
      simp [Action.Permitted, Action.Allowed, Action.move, hMsg, messageContext]
    | withdraw owner amount target =>
      have hMove := exists_moveTokens_iff (n.messageContext e) (n.states e.destination) owner
        amount target
      simp only [Action.Permitted, Action.Allowed, Action.move, hMsg, true_and,
        holds_tokens_add_letters, ← hMove, ← permits_messageContext_iff n]
      constructor
      · rintro ⟨_, hMem, s, sent, ⟨hPerm, hOk⟩, -⟩
        exact ⟨hPerm, ⟨s, sent, hOk⟩, hMem⟩
      · rintro ⟨hPerm, ⟨s, sent, hOk⟩, hMem⟩
        exact ⟨_, hMem, s, sent, ⟨hPerm, hOk⟩, rfl⟩
  · simp only [step_reject_iff, Action.Permitted, Action.Allowed, Action.move, true_and,
      holds_letters]
    constructor
    · rintro ⟨_, hMem, hBouncing, -⟩
      exact ⟨hBouncing, hMem⟩
    · rintro ⟨hBouncing, hMem⟩
      exact ⟨_, hMem, hBouncing, rfl⟩

theorem Network.permitted_of_step (hStep : n.step a = some n') : a.Permitted :=
  (exists_step_iff.mp ⟨n', hStep⟩).1

theorem Network.allowed_of_step (hStep : n.step a = some n') : a.Allowed n :=
  (exists_step_iff.mp ⟨n', hStep⟩).2.1

theorem Network.holds_of_step (hStep : n.step a = some n') : n.Holds a.move.take :=
  (exists_step_iff.mp ⟨n', hStep⟩).2.2

/-- What an action takes out of flight was in flight. -/
theorem Network.consumed_le (hStep : n.step a = some n') : a.consumed ≤ n.inFlight := by
  rw [← a.move_take_snd]
  exact (holds_of_step hStep).2

end LineraEndToEnd.Fungible
