import LineraEndToEnd.Runtime.Base

/-!
# Fungible — the application state

`fungible/src/state.rs` (the copy in `fungible-no-graphql` is the same code):
the two maps of the token contract on one chain, and the five functions that
change them. A panic is `Except.error`; the transaction that panics is undone
by the runtime, so the state it leaves does not matter.

The second half of the module observes a state through `bal` and `alw`, the
exact amounts read with a default, and says once what each function does to
these: all later modules use these facts and never unfold the functions.

* `debit_ok_iff` / `debitForTransferFrom_ok_iff` / `approve_ok_iff` — when a
  function panics;
* `bal_debit`, `bal_credit`, `alw_approve`, … — what it does otherwise;
* `Canonical` — the maps hold no zero entry and no allowance of an owner to
  itself; kept by every function, and canonical states are determined by
  `bal` and `alw` (`Canonical.ext`).
-/

namespace LineraEndToEnd.Fungible

/-- The panics of the contract, with what their messages mention. -/
inductive Panic (AccountOwner : Type) where
  | zeroTotalSupply
  | ownerIsSpender
  | insufficientBalance (account : AccountOwner)
  | insufficientBalanceForTransferFrom (owner : AccountOwner)
  | insufficientAllowance (spender owner : AccountOwner) (allowance amount : Amount)
  | permission (operation : String)
  | noDeliveryStatus
deriving DecidableEq

/-- The texts of the panics. -/
def Panic.message {AccountOwner : Type} [ToString AccountOwner] [ToString Amount] :
    Panic AccountOwner → String
  | zeroTotalSupply => "The total supply is zero, therefore we cannot instantiate the contract"
  | ownerIsSpender => "owner should be different from spender"
  | insufficientBalance account =>
    s!"Source account {account} does not have sufficient balance for transfer"
  | insufficientBalanceForTransferFrom owner =>
    s!"Source owner {owner} does not have sufficient balance for transfer_from"
  | insufficientAllowance spender owner allowance amount =>
    s!"Spender {spender} does not have a sufficient from owner {owner} for transfer_from; allowance={allowance} amount={amount}"
  | permission operation => s!"Permission for {operation}"
  | noDeliveryStatus => "Message delivery status has to be available when executing a message"

/-- The key of an allowance. -/
structure OwnerSpender (AccountOwner : Type) where
  owner : AccountOwner
  spender : AccountOwner
deriving DecidableEq

/-- The application state on one chain. -/
structure FungibleTokenState (AccountOwner : Type) where
  accounts : MapView AccountOwner Amount
  allowances : MapView (OwnerSpender AccountOwner) Amount

/-- The instantiation argument: initial balances, in the order in which the
map is iterated. -/
structure InitialState (AccountOwner : Type) where
  accounts : AList fun _ : AccountOwner => Amount

variable {AccountOwner : Type} [DecidableEq AccountOwner]

/-- `OwnerSpender::new`. -/
def OwnerSpender.new (owner spender : AccountOwner) :
    Except (Panic AccountOwner) (OwnerSpender AccountOwner) :=
  if owner = spender then .error .ownerIsSpender else .ok ⟨owner, spender⟩

namespace FungibleTokenState

/-- The state of a chain on which the application has not run yet. -/
instance : EmptyCollection (FungibleTokenState AccountOwner) := ⟨⟨∅, ∅⟩⟩

/-! ## The functions of `state.rs` -/

/-- The body of the loop of `initialize_accounts`. -/
def initializeAccount (s : FungibleTokenState AccountOwner)
    (e : (_ : AccountOwner) × Amount) : FungibleTokenState AccountOwner :=
  if e.2 ≠ 0 then { s with accounts := s.accounts.insert e.1 e.2 } else s

/-- `initialize_accounts`. -/
def initializeAccounts (s : FungibleTokenState AccountOwner)
    (state : InitialState AccountOwner) : FungibleTokenState AccountOwner :=
  state.accounts.entries.foldl initializeAccount s

/-- `balance`. -/
def balance (s : FungibleTokenState AccountOwner) (account : AccountOwner) : Option Amount :=
  s.accounts.lookup account

/-- `balance_or_default`. -/
def balanceOrDefault (s : FungibleTokenState AccountOwner) (account : AccountOwner) : Amount :=
  (s.balance account).getD 0

/-- `approve`. -/
def approve (s : FungibleTokenState AccountOwner) (owner spender : AccountOwner)
    (allowance : Amount) : Except (Panic AccountOwner) (FungibleTokenState AccountOwner) :=
  if allowance = 0 then .ok s
  else do
    let ownerSpender ← OwnerSpender.new owner spender
    let totalAllowance := s.allowances.getOrDefault ownerSpender
    return { s with
      allowances := s.allowances.insert ownerSpender (totalAllowance.saturatingAdd allowance) }

/-- `debit_for_transfer_from`. -/
def debitForTransferFrom (s : FungibleTokenState AccountOwner) (owner spender : AccountOwner)
    (amount : Amount) : Except (Panic AccountOwner) (FungibleTokenState AccountOwner) :=
  if amount = 0 then .ok s
  else
    match ((s.accounts.lookup owner).getD 0).trySub amount with
    | none => .error (.insufficientBalanceForTransferFrom owner)
    | some balance => do
      let s := { s with accounts := s.accounts.put owner balance }
      let ownerSpender ← OwnerSpender.new owner spender
      let allowance := s.allowances.getOrDefault ownerSpender
      match allowance.trySub amount with
      | none => .error (.insufficientAllowance spender owner allowance amount)
      | some allowance => return { s with allowances := s.allowances.put ownerSpender allowance }

/-- `credit`. -/
def credit (s : FungibleTokenState AccountOwner) (account : AccountOwner) (amount : Amount) :
    FungibleTokenState AccountOwner :=
  if amount = 0 then s
  else { s with
    accounts := s.accounts.insert account ((s.balanceOrDefault account).saturatingAdd amount) }

/-- `debit`. -/
def debit (s : FungibleTokenState AccountOwner) (account : AccountOwner) (amount : Amount) :
    Except (Panic AccountOwner) (FungibleTokenState AccountOwner) :=
  if amount = 0 then .ok s
  else
    match (s.balanceOrDefault account).trySub amount with
    | none => .error (.insufficientBalance account)
    | some balance => .ok { s with accounts := s.accounts.put account balance }

/-! ## Exact balances and allowances -/

/-- The exact balance of an owner, `0` without an entry. -/
def bal (s : FungibleTokenState AccountOwner) (o : AccountOwner) : Nat :=
  (s.accounts.getOrDefault o).val

/-- The exact allowance for an owner and a spender, `0` without an entry. -/
def alw (s : FungibleTokenState AccountOwner) (p : OwnerSpender AccountOwner) : Nat :=
  (s.allowances.getOrDefault p).val

theorem val_balanceOrDefault (s : FungibleTokenState AccountOwner) (o : AccountOwner) :
    (s.balanceOrDefault o).val = s.bal o := rfl

@[simp] theorem bal_empty (o : AccountOwner) :
    (∅ : FungibleTokenState AccountOwner).bal o = 0 := rfl

@[simp] theorem alw_empty (p : OwnerSpender AccountOwner) :
    (∅ : FungibleTokenState AccountOwner).alw p = 0 := rfl

theorem bal_le_max (s : FungibleTokenState AccountOwner) (o : AccountOwner) :
    s.bal o ≤ Amount.MAX.val :=
  Amount.val_le_max _

theorem alw_le_max (s : FungibleTokenState AccountOwner) (p : OwnerSpender AccountOwner) :
    s.alw p ≤ Amount.MAX.val :=
  Amount.val_le_max _

variable {s s' : FungibleTokenState AccountOwner} {owner spender o : AccountOwner}
  {amount : Amount} {p : OwnerSpender AccountOwner}

/-! ### credit -/

theorem bal_credit (s : FungibleTokenState AccountOwner) (account : AccountOwner)
    (amount : Amount) (o : AccountOwner) :
    (s.credit account amount).bal o =
      if o = account then min (s.bal o + amount.val) Amount.MAX.val else s.bal o := by
  unfold credit
  by_cases hZero : amount = 0
  · subst hZero
    have := s.bal_le_max o
    simp [this]
  · rw [if_neg hZero]
    unfold bal
    rw [MapView.getOrDefault_insert]
    split
    · next h =>
      subst h
      rfl
    · rfl

@[simp] theorem allowances_credit (s : FungibleTokenState AccountOwner) (account : AccountOwner)
    (amount : Amount) : (s.credit account amount).allowances = s.allowances := by
  unfold credit
  split <;> rfl

/-- The entry of the first credit. -/
theorem balance_credit_empty (account : AccountOwner) (amount : Amount) (o : AccountOwner) :
    ((∅ : FungibleTokenState AccountOwner).credit account amount).balance o =
      if o = account ∧ amount ≠ 0 then some amount else none := by
  have hSum : ((∅ : FungibleTokenState AccountOwner).balanceOrDefault account).saturatingAdd
      amount = amount := by
    refine Amount.ext ?_
    rw [Amount.val_saturatingAdd, val_balanceOrDefault, bal_empty, Nat.zero_add]
    exact Nat.min_eq_left amount.val_le_max
  unfold credit balance
  by_cases hZero : amount = 0
  · rw [if_pos hZero, if_neg fun h => h.2 hZero]
    rfl
  · rw [if_neg hZero, hSum]
    by_cases ho : o = account
    · rw [if_pos ⟨ho, hZero⟩, ho, Finmap.lookup_insert]
    · rw [if_neg fun h => ho h.1, Finmap.lookup_insert_of_ne _ ho]
      rfl

/-- A credit whose exact result is an amount is exact. -/
theorem bal_credit_exact (h : s.bal owner + amount.val ≤ Amount.MAX.val) :
    (s.credit owner amount).bal o = s.bal o + if o = owner then amount.val else 0 := by
  rw [bal_credit]
  split
  · next ho => rw [ho, Nat.min_eq_left h]
  · rfl

/-! ### debit -/

theorem debit_ok_iff :
    s.debit owner amount = .ok s' ↔
      amount.val ≤ s.bal owner ∧
        s' = if amount = 0 then s else { s with
          accounts := s.accounts.put owner
            ⟨s.bal owner - amount.val, Nat.lt_of_le_of_lt (Nat.sub_le ..) (Amount.lt _)⟩ } := by
  unfold debit
  by_cases hZero : amount = 0
  · subst hZero
    simp [eq_comm]
  · rw [if_neg hZero, if_neg hZero]
    cases hSub : (s.balanceOrDefault owner).trySub amount with
    | none =>
      rw [Amount.trySub_eq_none, val_balanceOrDefault] at hSub
      simp [hSub]
    | some balance =>
      obtain ⟨hLe, hVal⟩ := Amount.trySub_eq_some.mp hSub
      have hBalance : balance = ⟨s.bal owner - amount.val,
          Nat.lt_of_le_of_lt (Nat.sub_le ..) (Amount.lt _)⟩ := Amount.ext hVal
      rw [val_balanceOrDefault] at hLe
      simp [hLe, hBalance, eq_comm]

theorem debit_le (h : s.debit owner amount = .ok s') : amount.val ≤ s.bal owner :=
  (debit_ok_iff.mp h).1

theorem exists_debit (h : amount.val ≤ s.bal owner) : ∃ s', s.debit owner amount = .ok s' :=
  ⟨_, debit_ok_iff.mpr ⟨h, rfl⟩⟩

/-- A debit takes exactly its amount from its account. -/
theorem bal_debit (h : s.debit owner amount = .ok s') (o : AccountOwner) :
    s'.bal o + (if o = owner then amount.val else 0) = s.bal o := by
  obtain ⟨hLe, rfl⟩ := debit_ok_iff.mp h
  by_cases hZero : amount = 0
  · simp [hZero]
  · rw [if_neg hZero]
    unfold bal at hLe ⊢
    rw [MapView.getOrDefault_put]
    split
    · next ho =>
      subst ho
      exact Nat.sub_add_cancel hLe
    · rfl

theorem allowances_debit (h : s.debit owner amount = .ok s') :
    s'.allowances = s.allowances := by
  obtain ⟨-, rfl⟩ := debit_ok_iff.mp h
  split <;> rfl

/-! ### debit_for_transfer_from -/

/-- A debit by a spender is a debit followed by a decrease of the allowance;
with an amount of zero it does not look at either. -/
theorem debitForTransferFrom_ok_iff :
    s.debitForTransferFrom owner spender amount = .ok s' ↔
      (amount = 0 ∧ s' = s) ∨
      (amount ≠ 0 ∧ amount.val ≤ s.bal owner ∧ owner ≠ spender ∧
        amount.val ≤ s.alw ⟨owner, spender⟩ ∧
        s' = ⟨s.accounts.put owner
            ⟨s.bal owner - amount.val, Nat.lt_of_le_of_lt (Nat.sub_le ..) (Amount.lt _)⟩,
          s.allowances.put ⟨owner, spender⟩
            ⟨s.alw ⟨owner, spender⟩ - amount.val,
              Nat.lt_of_le_of_lt (Nat.sub_le ..) (Amount.lt _)⟩⟩) := by
  unfold debitForTransferFrom
  by_cases hZero : amount = 0
  · simp [hZero, eq_comm]
  rw [if_neg hZero]
  cases hSub : ((s.accounts.lookup owner).getD 0).trySub amount with
  | none =>
    have hLt : s.bal owner < amount.val := Amount.trySub_eq_none.mp hSub
    simp [hZero, hLt]
  | some balance =>
    obtain ⟨hLe, hVal⟩ := Amount.trySub_eq_some.mp hSub
    have hLe' : amount.val ≤ s.bal owner := hLe
    have hBalance : balance = ⟨s.bal owner - amount.val,
        Nat.lt_of_le_of_lt (Nat.sub_le ..) (Amount.lt _)⟩ := Amount.ext hVal
    by_cases hSelf : owner = spender
    · simp [OwnerSpender.new, hSelf, hZero, bind, Except.bind]
    · cases hAlw : (s.allowances.getOrDefault ⟨owner, spender⟩).trySub amount with
      | none =>
        have hLt : s.alw ⟨owner, spender⟩ < amount.val := Amount.trySub_eq_none.mp hAlw
        simp [OwnerSpender.new, hSelf, hZero, hLt, hAlw, bind, Except.bind]
      | some allowance =>
        obtain ⟨hLeA, hValA⟩ := Amount.trySub_eq_some.mp hAlw
        have hLeA' : amount.val ≤ s.alw ⟨owner, spender⟩ := hLeA
        have hAllowance : allowance = ⟨s.alw ⟨owner, spender⟩ - amount.val,
            Nat.lt_of_le_of_lt (Nat.sub_le ..) (Amount.lt _)⟩ := Amount.ext hValA
        simp [OwnerSpender.new, hSelf, hZero, hLe', hLeA', hAlw, hBalance, hAllowance,
          bind, Except.bind, pure, Except.pure, eq_comm]

theorem exists_debitForTransferFrom (hBal : amount.val ≤ s.bal owner)
    (hSelf : amount ≠ 0 → owner ≠ spender) (hAlw : amount.val ≤ s.alw ⟨owner, spender⟩) :
    ∃ s', s.debitForTransferFrom owner spender amount = .ok s' := by
  simp only [debitForTransferFrom_ok_iff]
  by_cases hZero : amount = 0
  · exact ⟨s, Or.inl ⟨hZero, rfl⟩⟩
  · exact ⟨_, Or.inr ⟨hZero, hBal, hSelf hZero, hAlw, rfl⟩⟩

section
variable (h : s.debitForTransferFrom owner spender amount = .ok s')
include h

theorem debitForTransferFrom_le : amount.val ≤ s.bal owner := by
  rw [debitForTransferFrom_ok_iff] at h
  rcases h with ⟨rfl, -⟩ | ⟨-, hLe, -⟩
  · simp
  · exact hLe

theorem debitForTransferFrom_ne (hZero : amount ≠ 0) : owner ≠ spender := by
  rw [debitForTransferFrom_ok_iff] at h
  rcases h with ⟨h0, -⟩ | ⟨-, -, hNe, -⟩
  · exact absurd h0 hZero
  · exact hNe

/-- A debit by a spender takes exactly its amount from the owner. -/
theorem bal_debitForTransferFrom (o : AccountOwner) :
    s'.bal o + (if o = owner then amount.val else 0) = s.bal o := by
  rw [debitForTransferFrom_ok_iff] at h
  rcases h with ⟨rfl, rfl⟩ | ⟨-, hLe, -, -, rfl⟩
  · simp
  · unfold bal at hLe ⊢
    rw [MapView.getOrDefault_put]
    split
    · next ho =>
      subst ho
      exact Nat.sub_add_cancel hLe
    · rfl

/-- It takes exactly its amount from the allowance. -/
theorem alw_debitForTransferFrom (p : OwnerSpender AccountOwner) :
    s'.alw p + (if p = ⟨owner, spender⟩ then amount.val else 0) = s.alw p := by
  rw [debitForTransferFrom_ok_iff] at h
  rcases h with ⟨rfl, rfl⟩ | ⟨-, -, -, hLe, rfl⟩
  · simp
  · unfold alw at hLe ⊢
    rw [MapView.getOrDefault_put]
    split
    · next hp =>
      subst hp
      exact Nat.sub_add_cancel hLe
    · rfl

end

/-! ### approve -/

theorem approve_ok_iff :
    s.approve owner spender amount = .ok s' ↔
      (amount = 0 ∧ s' = s) ∨
      (amount ≠ 0 ∧ owner ≠ spender ∧
        s' = { s with
          allowances := s.allowances.insert ⟨owner, spender⟩
            ((s.allowances.getOrDefault ⟨owner, spender⟩).saturatingAdd amount) }) := by
  unfold approve
  by_cases hZero : amount = 0
  · simp [hZero, eq_comm]
  rw [if_neg hZero]
  by_cases hSelf : owner = spender
  · simp [OwnerSpender.new, hSelf, hZero, bind, Except.bind]
  · simp [OwnerSpender.new, hSelf, hZero, bind, Except.bind, pure, Except.pure, eq_comm]

theorem exists_approve (hSelf : amount ≠ 0 → owner ≠ spender) :
    ∃ s', s.approve owner spender amount = .ok s' := by
  simp only [approve_ok_iff]
  by_cases hZero : amount = 0
  · exact ⟨s, Or.inl ⟨hZero, rfl⟩⟩
  · exact ⟨_, Or.inr ⟨hZero, hSelf hZero, rfl⟩⟩

section
variable (h : s.approve owner spender amount = .ok s')
include h

theorem approve_ne (hZero : amount ≠ 0) : owner ≠ spender := by
  rw [approve_ok_iff] at h
  rcases h with ⟨h0, -⟩ | ⟨-, hNe, -⟩
  · exact absurd h0 hZero
  · exact hNe

theorem accounts_approve : s'.accounts = s.accounts := by
  rw [approve_ok_iff] at h
  rcases h with ⟨-, rfl⟩ | ⟨-, -, rfl⟩ <;> rfl

theorem alw_approve (p : OwnerSpender AccountOwner) :
    s'.alw p =
      if p = ⟨owner, spender⟩ then min (s.alw p + amount.val) Amount.MAX.val else s.alw p := by
  rw [approve_ok_iff] at h
  rcases h with ⟨rfl, rfl⟩ | ⟨-, -, rfl⟩
  · have := s'.alw_le_max p
    simp [this]
  · unfold alw
    rw [MapView.getOrDefault_insert]
    split
    · next hp =>
      subst hp
      rfl
    · rfl

end

/-! ## Canonical states -/

/-- The maps hold no zero entries, and no allowance of an owner to itself. -/
structure Canonical (s : FungibleTokenState AccountOwner) : Prop where
  accounts : s.accounts.NoZero
  allowances : s.allowances.NoZero
  spender_ne : ∀ p, s.allowances.lookup p ≠ none → p.owner ≠ p.spender

theorem Canonical.empty : Canonical (∅ : FungibleTokenState AccountOwner) :=
  ⟨MapView.NoZero.empty, MapView.NoZero.empty, fun _ h => absurd rfl h⟩

/-- Canonical states are equal when their balances and allowances are. -/
theorem Canonical.ext (hs : s.Canonical) (hs' : s'.Canonical)
    (hBal : ∀ o, s.bal o = s'.bal o) (hAlw : ∀ p, s.alw p = s'.alw p) : s = s' := by
  have hAccounts : s.accounts = s'.accounts :=
    hs.accounts.ext hs'.accounts fun o => Amount.ext (hBal o)
  have hAllowances : s.allowances = s'.allowances :=
    hs.allowances.ext hs'.allowances fun p => Amount.ext (hAlw p)
  cases s
  cases s'
  simp_all

theorem Canonical.credit (hs : s.Canonical) (account : AccountOwner) (amount : Amount) :
    (s.credit account amount).Canonical := by
  unfold FungibleTokenState.credit
  split
  · exact hs
  · next hZero =>
    refine ⟨hs.accounts.insert account fun h => hZero ?_, hs.allowances, hs.spender_ne⟩
    have hVal := congrArg Amount.val h
    rw [Amount.val_saturatingAdd, Amount.val_zero] at hVal
    have : 0 < Amount.MAX.val := by decide
    exact Amount.val_eq_zero.mp (by omega)

theorem Canonical.debit (hs : s.Canonical) (h : s.debit owner amount = .ok s') :
    s'.Canonical := by
  obtain ⟨-, rfl⟩ := debit_ok_iff.mp h
  split
  · exact hs
  · exact ⟨hs.accounts.put _ _, hs.allowances, hs.spender_ne⟩

theorem Canonical.debitForTransferFrom (hs : s.Canonical)
    (h : s.debitForTransferFrom owner spender amount = .ok s') : s'.Canonical := by
  rw [debitForTransferFrom_ok_iff] at h
  rcases h with ⟨-, rfl⟩ | ⟨-, -, hNe, -, rfl⟩
  · exact hs
  · refine ⟨hs.accounts.put _ _, hs.allowances.put _ _, fun p hp => ?_⟩
    by_cases hpq : p = ⟨owner, spender⟩
    · exact hpq ▸ hNe
    · rw [MapView.lookup_put_of_ne _ _ hpq] at hp
      exact hs.spender_ne p hp

theorem Canonical.approve (hs : s.Canonical) (h : s.approve owner spender amount = .ok s') :
    s'.Canonical := by
  rw [approve_ok_iff] at h
  rcases h with ⟨-, rfl⟩ | ⟨hZero, hNe, rfl⟩
  · exact hs
  · refine ⟨hs.accounts, hs.allowances.insert _ fun h0 => hZero ?_, fun p hp => ?_⟩
    · have hVal := congrArg Amount.val h0
      rw [Amount.val_saturatingAdd, Amount.val_zero] at hVal
      have : 0 < Amount.MAX.val := by decide
      exact Amount.val_eq_zero.mp (by omega)
    · by_cases hpq : p = ⟨owner, spender⟩
      · exact hpq ▸ hNe
      · rw [Finmap.lookup_insert_of_ne _ hpq] at hp
        exact hs.spender_ne p hp

/-! ## The initial state -/

theorem bal_initializeAccount {e : (_ : AccountOwner) × Amount} (h : s.bal e.1 = 0)
    (o : AccountOwner) :
    (s.initializeAccount e).bal o = s.bal o + if e.1 = o then e.2.val else 0 := by
  unfold initializeAccount
  by_cases hZero : e.2 = 0
  · simp [hZero]
  · rw [if_pos hZero]
    unfold bal at h ⊢
    rw [MapView.getOrDefault_insert]
    by_cases ho : o = e.1
    · subst ho
      simp [h]
    · simp [ho, Ne.symm ho]

theorem Canonical.initializeAccount (hs : s.Canonical) (e : (_ : AccountOwner) × Amount) :
    (s.initializeAccount e).Canonical := by
  unfold FungibleTokenState.initializeAccount
  split
  · next hZero => exact ⟨hs.accounts.insert _ hZero, hs.allowances, hs.spender_ne⟩
  · exact hs

/-- The loop writes every initial balance to its owner. -/
theorem bal_foldl_initializeAccount {entries : List ((_ : AccountOwner) × Amount)}
    (hNodup : entries.NodupKeys) (hFree : ∀ e ∈ entries, s.bal e.1 = 0) (o : AccountOwner) :
    (entries.foldl initializeAccount s).bal o =
      s.bal o + (entries.map fun e => if e.1 = o then e.2.val else 0).sum := by
  induction entries generalizing s with
  | nil => simp
  | cons e rest ih =>
    obtain ⟨hHead, hRest⟩ := List.nodupKeys_cons.mp hNodup
    have hNow := bal_initializeAccount (hFree e List.mem_cons_self)
    have hFree' : ∀ e' ∈ rest, (s.initializeAccount e).bal e'.1 = 0 := by
      intro e' he'
      have hKey : e.1 ≠ e'.1 := fun h => hHead (h ▸ List.mem_keys_of_mem he')
      rw [hNow, hFree e' (List.mem_cons_of_mem _ he')]
      simp [hKey]
    rw [List.foldl_cons, ih hRest hFree', hNow, List.map_cons, List.sum_cons, Nat.add_assoc]

theorem bal_initializeAccounts (state : InitialState AccountOwner) (o : AccountOwner) :
    (initializeAccounts ∅ state).bal o =
      (state.accounts.entries.map fun e => if e.1 = o then e.2.val else 0).sum := by
  rw [initializeAccounts, bal_foldl_initializeAccount state.accounts.nodupKeys]
  · simp
  · simp

/-- Every owner named in the initial state has the balance given there. -/
theorem bal_initializeAccounts_of_mem {state : InitialState AccountOwner}
    {e : (_ : AccountOwner) × Amount} (he : e ∈ state.accounts.entries) :
    (initializeAccounts ∅ state).bal e.1 = e.2.val := by
  rw [bal_initializeAccounts]
  have hNodup := state.accounts.nodupKeys
  generalize state.accounts.entries = entries at he hNodup
  induction entries with
  | nil => cases he
  | cons x rest ih =>
    obtain ⟨hHead, hRest⟩ := List.nodupKeys_cons.mp hNodup
    rw [List.map_cons, List.sum_cons]
    rcases List.mem_cons.mp he with rfl | hMem
    · have hOthers : (rest.map fun x => if x.1 = e.1 then x.2.val else 0).sum = 0 := by
        refine List.sum_eq_zero fun y hy => ?_
        obtain ⟨x, hx, rfl⟩ := List.mem_map.mp hy
        exact if_neg fun h : x.1 = e.1 => hHead (h ▸ List.mem_keys_of_mem hx)
      rw [if_pos rfl, hOthers, Nat.add_zero]
    · have hKey : x.1 ≠ e.1 := fun h => hHead (h ▸ List.mem_keys_of_mem hMem)
      rw [if_neg hKey, Nat.zero_add, ih hMem hRest]

/-- The initial balance of any owner. -/
theorem bal_initializeAccounts_eq_lookup (state : InitialState AccountOwner) (o : AccountOwner) :
    (initializeAccounts ∅ state).bal o = ((state.accounts.lookup o).getD 0).val := by
  cases hLookup : state.accounts.lookup o with
  | some a => exact bal_initializeAccounts_of_mem (AList.mem_lookup_iff.mp hLookup)
  | none =>
    rw [bal_initializeAccounts]
    refine List.sum_eq_zero fun x hx => ?_
    obtain ⟨e, he, rfl⟩ := List.mem_map.mp hx
    refine if_neg ?_
    rintro rfl
    exact AList.lookup_eq_none.mp hLookup (AList.mem_keys.mpr (List.mem_keys_of_mem he))

theorem allowances_initializeAccounts (state : InitialState AccountOwner) :
    (initializeAccounts ∅ state).allowances = ∅ := by
  refine List.foldlRecOn (motive := fun s : FungibleTokenState AccountOwner =>
    s.allowances = ∅) _ _ rfl fun s hs e _ => ?_
  unfold initializeAccount
  split <;> exact hs

theorem Canonical.initializeAccounts (state : InitialState AccountOwner) :
    (initializeAccounts ∅ state).Canonical := by
  exact List.foldlRecOn (motive := Canonical) _ _ Canonical.empty
    fun s hs e _ => hs.initializeAccount e

end FungibleTokenState

theorem bal_eq_of_accounts_eq {s s' : FungibleTokenState AccountOwner}
    (h : s'.accounts = s.accounts) (o : AccountOwner) : s'.bal o = s.bal o := by
  unfold FungibleTokenState.bal
  rw [h]

theorem alw_eq_of_allowances_eq {s s' : FungibleTokenState AccountOwner}
    (h : s'.allowances = s.allowances) (p : OwnerSpender AccountOwner) : s'.alw p = s.alw p := by
  unfold FungibleTokenState.alw
  rw [h]

/-- The exact sum of the initial balances. -/
def InitialState.total (state : InitialState AccountOwner) : Nat :=
  (state.accounts.entries.map fun e => e.2.val).sum

end LineraEndToEnd.Fungible
