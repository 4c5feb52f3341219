import LineraEndToEnd.Fungible.State

/-!
# Fungible — the contract

`fungible/src/contract.rs` (the copy in `fungible-no-graphql` is the same
code): `instantiate`, `execute_operation`, `execute_message`, `claim` and
`finish_transfer_to_account`, over the state of `Fungible.State`.

What the contract asks of the runtime is the record `Context`; the messages it
hands to the runtime are returned with the flags it sets on them. The runtime
grants the permission of an owner when this owner is the authenticated signer
of the block or of the message, or the application that made the call.
-/

namespace LineraEndToEnd.Fungible

variable {ChainId AccountOwner : Type} [DecidableEq ChainId] [DecidableEq AccountOwner]

/-! ## The ABI -/

/-- `FungibleOperation`. -/
inductive FungibleOperation (ChainId AccountOwner : Type) where
  | balance (owner : AccountOwner)
  | tickerSymbol
  | approve (owner spender : AccountOwner) (allowance : Amount)
  | transfer (owner : AccountOwner) (amount : Amount)
      (targetAccount : Account ChainId AccountOwner)
  | transferFrom (owner spender : AccountOwner) (amount : Amount)
      (targetAccount : Account ChainId AccountOwner)
  | claim (sourceAccount : Account ChainId AccountOwner) (amount : Amount)
      (targetAccount : Account ChainId AccountOwner)
deriving DecidableEq

/-- `FungibleResponse`. -/
inductive FungibleResponse where
  | ok
  | balance (amount : Amount)
  | tickerSymbol (symbol : String)
deriving DecidableEq

/-- `Message`. -/
inductive Message (ChainId AccountOwner : Type) where
  | credit (target : AccountOwner) (amount : Amount) (source : AccountOwner)
  | withdraw (owner : AccountOwner) (amount : Amount)
      (targetAccount : Account ChainId AccountOwner)
deriving DecidableEq

/-- `Parameters`. -/
structure Parameters where
  tickerSymbol : String
deriving DecidableEq

/-! ## The runtime, as the contract sees it -/

/-- What the contract reads from the runtime while it executes an operation or
a message. -/
structure Context (ChainId AccountOwner : Type) where
  chainId : ChainId
  authenticatedSigner : Option AccountOwner
  authenticatedCallerId : Option AccountOwner
  messageIsBouncing : Option Bool
  applicationParameters : Parameters

/-- A message the contract sends, with `with_authentication()` and
`with_tracking()`. -/
structure OutgoingMessage (ChainId AccountOwner : Type) where
  message : Message ChainId AccountOwner
  authenticated : Bool
  tracked : Bool
  destination : ChainId
deriving DecidableEq

/-- The permission the runtime checks for: the owner signed, or made the call. -/
def Context.Permits (ctx : Context ChainId AccountOwner) (owner : AccountOwner) : Prop :=
  ctx.authenticatedSigner = some owner ∨ ctx.authenticatedCallerId = some owner

instance (ctx : Context ChainId AccountOwner) (owner : AccountOwner) :
    Decidable (ctx.Permits owner) :=
  inferInstanceAs (Decidable (_ ∨ _))

/-- `check_account_permission(owner).expect("Permission for ...")`. -/
def checkAccountPermission (ctx : Context ChainId AccountOwner) (owner : AccountOwner)
    (operation : String) : Except (Panic AccountOwner) Unit :=
  if ctx.Permits owner then .ok () else .error (.permission operation)

/-! ## The functions of `contract.rs` -/

/-- `instantiate`. -/
def instantiate (s : FungibleTokenState AccountOwner) (state : InitialState AccountOwner) :
    Except (Panic AccountOwner) (FungibleTokenState AccountOwner) :=
  let totalSupply :=
    state.accounts.entries.foldl (fun totalSupply e => totalSupply.saturatingAdd e.2) (0 : Amount)
  if totalSupply = 0 then .error .zeroTotalSupply
  else .ok (s.initializeAccounts state)

/-- `finish_transfer_to_account`. -/
def finishTransferToAccount (ctx : Context ChainId AccountOwner)
    (s : FungibleTokenState AccountOwner) (amount : Amount)
    (targetAccount : Account ChainId AccountOwner) (source : AccountOwner) :
    FungibleTokenState AccountOwner × List (OutgoingMessage ChainId AccountOwner) :=
  if targetAccount.chainId = ctx.chainId then (s.credit targetAccount.owner amount, [])
  else
    (s, [{ message := .credit targetAccount.owner amount source
           authenticated := true
           tracked := true
           destination := targetAccount.chainId }])

/-- `claim`. -/
def claim (ctx : Context ChainId AccountOwner) (s : FungibleTokenState AccountOwner)
    (sourceAccount : Account ChainId AccountOwner) (amount : Amount)
    (targetAccount : Account ChainId AccountOwner) :
    Except (Panic AccountOwner)
      (FungibleTokenState AccountOwner × List (OutgoingMessage ChainId AccountOwner)) :=
  if sourceAccount.chainId = ctx.chainId then do
    let s ← s.debit sourceAccount.owner amount
    return finishTransferToAccount ctx s amount targetAccount sourceAccount.owner
  else
    return (s, [{ message := .withdraw sourceAccount.owner amount targetAccount
                  authenticated := true
                  tracked := false
                  destination := sourceAccount.chainId }])

/-- `execute_operation`: the new state, the response and the messages sent. -/
def executeOperation (ctx : Context ChainId AccountOwner)
    (s : FungibleTokenState AccountOwner) :
    FungibleOperation ChainId AccountOwner →
      Except (Panic AccountOwner) (FungibleTokenState AccountOwner × FungibleResponse ×
        List (OutgoingMessage ChainId AccountOwner))
  | .balance owner => return (s, .balance (s.balanceOrDefault owner), [])
  | .tickerSymbol => return (s, .tickerSymbol ctx.applicationParameters.tickerSymbol, [])
  | .approve owner spender allowance => do
    checkAccountPermission ctx owner "Transfer operation"
    let s ← s.approve owner spender allowance
    return (s, .ok, [])
  | .transfer owner amount targetAccount => do
    checkAccountPermission ctx owner "Transfer operation"
    let s ← s.debit owner amount
    let (s, sent) := finishTransferToAccount ctx s amount targetAccount owner
    return (s, .ok, sent)
  | .transferFrom owner spender amount targetAccount => do
    checkAccountPermission ctx spender "Transfer operation"
    let s ← s.debitForTransferFrom owner spender amount
    let (s, sent) := finishTransferToAccount ctx s amount targetAccount owner
    return (s, .ok, sent)
  | .claim sourceAccount amount targetAccount => do
    checkAccountPermission ctx sourceAccount.owner "Claim operation"
    let (s, sent) ← claim ctx s sourceAccount amount targetAccount
    return (s, .ok, sent)

/-- `execute_message`: the new state and the messages sent. -/
def executeMessage (ctx : Context ChainId AccountOwner)
    (s : FungibleTokenState AccountOwner) :
    Message ChainId AccountOwner →
      Except (Panic AccountOwner)
        (FungibleTokenState AccountOwner × List (OutgoingMessage ChainId AccountOwner))
  | .credit target amount source =>
    match ctx.messageIsBouncing with
    | none => .error .noDeliveryStatus
    | some isBouncing =>
      let receiver := if isBouncing then source else target
      return (s.credit receiver amount, [])
  | .withdraw owner amount targetAccount => do
    checkAccountPermission ctx owner "Withdraw message"
    let s ← s.debit owner amount
    return finishTransferToAccount ctx s amount targetAccount owner

/-! ## What each function does -/

variable {ctx : Context ChainId AccountOwner} {s s' : FungibleTokenState AccountOwner}
  {sent : List (OutgoingMessage ChainId AccountOwner)}

omit [DecidableEq ChainId] in
theorem checkAccountPermission_ok_iff {owner : AccountOwner} {operation : String} {u : Unit} :
    checkAccountPermission ctx owner operation = .ok u ↔ ctx.Permits owner := by
  unfold checkAccountPermission
  split <;> simp [*]

omit [DecidableEq AccountOwner] in
/-- The exact sum of a list of amounts and its saturated sum are zero together. -/
theorem foldl_saturatingAdd_eq_zero {l : List ((_ : AccountOwner) × Amount)} {t : Amount} :
    l.foldl (fun t e => t.saturatingAdd e.2) t = 0 ↔
      t.val + (l.map fun e => e.2.val).sum = 0 := by
  induction l generalizing t with
  | nil => simp
  | cons e rest ih =>
    rw [List.foldl_cons, ih, Amount.val_saturatingAdd, List.map_cons, List.sum_cons]
    have : 0 < Amount.MAX.val := by decide
    omega

/-- An initial state is accepted unless all its amounts are zero. -/
theorem instantiate_ok_iff {state : InitialState AccountOwner} :
    instantiate s state = .ok s' ↔ state.total ≠ 0 ∧ s' = s.initializeAccounts state := by
  unfold instantiate
  have hZero := foldl_saturatingAdd_eq_zero (l := state.accounts.entries) (t := 0)
  rw [Amount.val_zero, Nat.zero_add] at hZero
  by_cases h : state.total = 0
  · rw [if_pos (hZero.mpr h)]
    simp [h]
  · rw [if_neg (mt hZero.mp h)]
    simp [h, eq_comm]

/-- What the final step of a transfer sends: nothing to the same chain, one
tracked `Credit` to another. -/
theorem finishTransferToAccount_eq (ctx : Context ChainId AccountOwner)
    (s : FungibleTokenState AccountOwner) (amount : Amount)
    (target : Account ChainId AccountOwner) (source : AccountOwner) :
    finishTransferToAccount ctx s amount target source =
      (if target.chainId = ctx.chainId then s.credit target.owner amount else s,
        if target.chainId = ctx.chainId then []
        else [{ message := .credit target.owner amount source
                authenticated := true
                tracked := true
                destination := target.chainId }]) := by
  unfold finishTransferToAccount
  split <;> rfl

/-- A debit followed by the final step of the transfer: the common part of
`Transfer`, `Claim` on the source chain and `Withdraw`. -/
def moveTokens (ctx : Context ChainId AccountOwner) (s : FungibleTokenState AccountOwner)
    (owner : AccountOwner) (amount : Amount) (targetAccount : Account ChainId AccountOwner) :
    Except (Panic AccountOwner)
      (FungibleTokenState AccountOwner × List (OutgoingMessage ChainId AccountOwner)) := do
  let s ← s.debit owner amount
  return finishTransferToAccount ctx s amount targetAccount owner

/-- The same with the debit of a spender. -/
def moveTokensFrom (ctx : Context ChainId AccountOwner) (s : FungibleTokenState AccountOwner)
    (owner spender : AccountOwner) (amount : Amount)
    (targetAccount : Account ChainId AccountOwner) :
    Except (Panic AccountOwner)
      (FungibleTokenState AccountOwner × List (OutgoingMessage ChainId AccountOwner)) := do
  let s ← s.debitForTransferFrom owner spender amount
  return finishTransferToAccount ctx s amount targetAccount owner

theorem moveTokens_ok_iff {owner : AccountOwner} {amount : Amount}
    {target : Account ChainId AccountOwner} :
    moveTokens ctx s owner amount target = .ok (s', sent) ↔
      ∃ t, s.debit owner amount = .ok t ∧
        finishTransferToAccount ctx t amount target owner = (s', sent) := by
  unfold moveTokens
  rw [bind_ok_iff]
  simp [pure, Except.pure]

theorem moveTokensFrom_ok_iff {owner spender : AccountOwner} {amount : Amount}
    {target : Account ChainId AccountOwner} :
    moveTokensFrom ctx s owner spender amount target = .ok (s', sent) ↔
      ∃ t, s.debitForTransferFrom owner spender amount = .ok t ∧
        finishTransferToAccount ctx t amount target owner = (s', sent) := by
  unfold moveTokensFrom
  rw [bind_ok_iff]
  simp [pure, Except.pure]

theorem claim_ok_iff {source target : Account ChainId AccountOwner} {amount : Amount} :
    claim ctx s source amount target = .ok (s', sent) ↔
      if source.chainId = ctx.chainId then
        moveTokens ctx s source.owner amount target = .ok (s', sent)
      else s' = s ∧ sent = [{ message := .withdraw source.owner amount target
                              authenticated := true
                              tracked := false
                              destination := source.chainId }] := by
  unfold claim
  split
  · rfl
  · simp [pure, Except.pure, eq_comm]

/-- What a successful operation does, one case for each operation. -/
theorem executeOperation_ok_iff {op : FungibleOperation ChainId AccountOwner}
    {response : FungibleResponse} :
    executeOperation ctx s op = .ok (s', response, sent) ↔
      match op with
      | .balance owner => s' = s ∧ response = .balance (s.balanceOrDefault owner) ∧ sent = []
      | .tickerSymbol =>
        s' = s ∧ response = .tickerSymbol ctx.applicationParameters.tickerSymbol ∧ sent = []
      | .approve owner spender allowance =>
        ctx.Permits owner ∧ s.approve owner spender allowance = .ok s' ∧
          response = .ok ∧ sent = []
      | .transfer owner amount target =>
        ctx.Permits owner ∧ moveTokens ctx s owner amount target = .ok (s', sent) ∧
          response = .ok
      | .transferFrom owner spender amount target =>
        ctx.Permits spender ∧ moveTokensFrom ctx s owner spender amount target = .ok (s', sent) ∧
          response = .ok
      | .claim source amount target =>
        ctx.Permits source.owner ∧ response = .ok ∧
          if source.chainId = ctx.chainId then
            moveTokens ctx s source.owner amount target = .ok (s', sent)
          else s' = s ∧ sent = [{ message := .withdraw source.owner amount target
                                  authenticated := true
                                  tracked := false
                                  destination := source.chainId }] := by
  cases op with
  | balance owner => simp [executeOperation, pure, Except.pure, eq_comm]
  | tickerSymbol => simp [executeOperation, pure, Except.pure, eq_comm]
  | approve owner spender allowance =>
    simp only [executeOperation, bind_ok_iff, checkAccountPermission_ok_iff, pure, Except.pure]
    constructor
    · rintro ⟨_, hPerm, t, hApprove, hEq⟩
      obtain ⟨rfl, rfl, rfl⟩ := by simpa using hEq
      exact ⟨hPerm, hApprove, rfl, rfl⟩
    · rintro ⟨hPerm, hApprove, rfl, rfl⟩
      exact ⟨(), hPerm, s', hApprove, rfl⟩
  | transfer owner amount target =>
    simp only [executeOperation, bind_ok_iff, checkAccountPermission_ok_iff, moveTokens_ok_iff,
      pure, Except.pure]
    constructor
    · rintro ⟨_, hPerm, t, hDebit, hEq⟩
      obtain ⟨rfl, rfl, rfl⟩ := by simpa using hEq
      exact ⟨hPerm, ⟨t, hDebit, rfl⟩, rfl⟩
    · rintro ⟨hPerm, ⟨t, hDebit, hFinish⟩, rfl⟩
      exact ⟨(), hPerm, t, hDebit, by rw [hFinish]⟩
  | transferFrom owner spender amount target =>
    simp only [executeOperation, bind_ok_iff, checkAccountPermission_ok_iff,
      moveTokensFrom_ok_iff, pure, Except.pure]
    constructor
    · rintro ⟨_, hPerm, t, hDebit, hEq⟩
      obtain ⟨rfl, rfl, rfl⟩ := by simpa using hEq
      exact ⟨hPerm, ⟨t, hDebit, rfl⟩, rfl⟩
    · rintro ⟨hPerm, ⟨t, hDebit, hFinish⟩, rfl⟩
      exact ⟨(), hPerm, t, hDebit, by rw [hFinish]⟩
  | claim source amount target =>
    simp only [executeOperation, bind_ok_iff, checkAccountPermission_ok_iff, pure, Except.pure]
    constructor
    · rintro ⟨_, hPerm, ⟨t, out⟩, hClaim, hEq⟩
      obtain ⟨rfl, rfl, rfl⟩ := by simpa using hEq
      exact ⟨hPerm, rfl, claim_ok_iff.mp hClaim⟩
    · rintro ⟨hPerm, rfl, hClaim⟩
      exact ⟨(), hPerm, (s', sent), claim_ok_iff.mpr hClaim, rfl⟩

/-- What a successful message does. -/
theorem executeMessage_ok_iff {message : Message ChainId AccountOwner} :
    executeMessage ctx s message = .ok (s', sent) ↔
      match message with
      | .credit target amount source =>
        ∃ isBouncing, ctx.messageIsBouncing = some isBouncing ∧
          s' = s.credit (if isBouncing then source else target) amount ∧ sent = []
      | .withdraw owner amount target =>
        ctx.Permits owner ∧ moveTokens ctx s owner amount target = .ok (s', sent) := by
  cases message with
  | credit target amount source =>
    unfold executeMessage
    cases ctx.messageIsBouncing <;> simp [pure, Except.pure, eq_comm]
  | withdraw owner amount target =>
    simp only [executeMessage, bind_ok_iff, checkAccountPermission_ok_iff, moveTokens_ok_iff,
      pure, Except.pure]
    constructor
    · rintro ⟨_, hPerm, t, hDebit, hEq⟩
      exact ⟨hPerm, t, hDebit, by simpa using hEq⟩
    · rintro ⟨hPerm, t, hDebit, hFinish⟩
      exact ⟨(), hPerm, t, hDebit, by rw [hFinish]⟩

end LineraEndToEnd.Fungible
