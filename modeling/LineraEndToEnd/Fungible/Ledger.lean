import LineraEndToEnd.Lib.Run
import LineraEndToEnd.Fungible.State

/-!
# Fungible — the abstract ledger

What `FungibleTokenState` is for: a balance for every owner and an allowance for
every pair of an owner and a spender. The two maps of the state only hold what is
not zero, and its functions return early on zero amounts; the ledger has a number
for everyone, and only says where a zero amount is let through.

* `Ledger` — total functions, with the four operations on them.
* `Represents s l` — the state has the balances and allowances of the ledger, and
  is canonical; kept by every call, which panics exactly where the operation of
  the ledger fails (`Represents.call_matches`).
* `Shows s l` — the maps hold exactly the entries of the ledger that are not zero.
* `refines_ledger` — every sequence of calls on an initial state.
-/

namespace LineraEndToEnd.Fungible

open Lib

variable {AccountOwner : Type} [DecidableEq AccountOwner]

/-- A call of one of the functions that change the state. -/
inductive Call (AccountOwner : Type) where
  | credit (account : AccountOwner) (amount : Amount)
  | debit (account : AccountOwner) (amount : Amount)
  | approve (owner spender : AccountOwner) (allowance : Amount)
  | debitForTransferFrom (owner spender : AccountOwner) (amount : Amount)

/-- The call, on a state. -/
def FungibleTokenState.call (s : FungibleTokenState AccountOwner) :
    Call AccountOwner → Except (Panic AccountOwner) (FungibleTokenState AccountOwner)
  | .credit account amount => .ok (s.credit account amount)
  | .debit account amount => s.debit account amount
  | .approve owner spender allowance => s.approve owner spender allowance
  | .debitForTransferFrom owner spender amount => s.debitForTransferFrom owner spender amount

-- ---------------------------------------------------------------------------
-- The ledger
-- ---------------------------------------------------------------------------

/-- All balances and all allowances, exact numbers up to `Amount::MAX`. -/
structure Ledger (AccountOwner : Type) where
  bal : AccountOwner → ℕ
  alw : OwnerSpender AccountOwner → ℕ

namespace Ledger

/-- The initial balances, and no allowances. -/
def initial (state : InitialState AccountOwner) : Ledger AccountOwner :=
  { bal := fun o => ((state.accounts.lookup o).getD 0).val
    alw := fun _ => 0 }

/-- Add to a balance, up to the cap. -/
def credit (l : Ledger AccountOwner) (account : AccountOwner) (amount : Amount) :
    Ledger AccountOwner :=
  { l with
    bal := Function.update l.bal account (min (l.bal account + amount.val) Amount.MAX.val) }

/-- Take from a balance; fails iff it is too small. -/
def debit (l : Ledger AccountOwner) (account : AccountOwner) (amount : Amount) :
    Option (Ledger AccountOwner) :=
  if l.bal account < amount.val then none
  else some { l with bal := Function.update l.bal account (l.bal account - amount.val) }

/-- Add to an allowance, up to the cap; fails iff the owner is the spender and the
allowance is not zero. -/
def approve (l : Ledger AccountOwner) (owner spender : AccountOwner) (allowance : Amount) :
    Option (Ledger AccountOwner) :=
  if 0 < allowance.val ∧ owner = spender then none
  else some { l with
    alw := Function.update l.alw ⟨owner, spender⟩
      (min (l.alw ⟨owner, spender⟩ + allowance.val) Amount.MAX.val) }

/-- Take from a balance and an allowance; fails iff the amount is not zero, and one
of them is too small or the owner is the spender. -/
def transferFrom (l : Ledger AccountOwner) (owner spender : AccountOwner) (amount : Amount) :
    Option (Ledger AccountOwner) :=
  if 0 < amount.val ∧
      (l.bal owner < amount.val ∨ owner = spender ∨ l.alw ⟨owner, spender⟩ < amount.val) then none
  else some
    { bal := Function.update l.bal owner (l.bal owner - amount.val)
      alw := Function.update l.alw ⟨owner, spender⟩ (l.alw ⟨owner, spender⟩ - amount.val) }

/-- The operation a call stands for. -/
def call (l : Ledger AccountOwner) : Call AccountOwner → Option (Ledger AccountOwner)
  | .credit account amount => some (l.credit account amount)
  | .debit account amount => l.debit account amount
  | .approve owner spender allowance => l.approve owner spender allowance
  | .debitForTransferFrom owner spender amount => l.transferFrom owner spender amount

end Ledger

-- ---------------------------------------------------------------------------
-- Representation
-- ---------------------------------------------------------------------------

/-- The state stands for the ledger. -/
structure Represents (s : FungibleTokenState AccountOwner) (l : Ledger AccountOwner) : Prop where
  canonical : s.Canonical
  bal : ∀ o, s.bal o = l.bal o
  alw : ∀ p, s.alw p = l.alw p

variable {s s' : FungibleTokenState AccountOwner} {l : Ledger AccountOwner}

/-- What a function makes of a number it takes an amount from. -/
theorem update_sub {α : Type} [DecidableEq α] {f : α → ℕ} {k k' : α} {x a : ℕ}
    (h : x + (if k' = k then a else 0) = f k') : x = Function.update f k (f k - a) k' := by
  by_cases hk : k' = k
  · subst hk
    rw [if_pos rfl] at h
    rw [Function.update_self]
    omega
  · rw [if_neg hk, Nat.add_zero] at h
    rw [Function.update_of_ne hk, h]

/-- What a function makes of a number it adds an amount to. -/
theorem update_add {α : Type} [DecidableEq α] {f : α → ℕ} {k k' : α} {x a : ℕ}
    (h : x = if k' = k then min (f k' + a) Amount.MAX.val else f k') :
    x = Function.update f k (min (f k + a) Amount.MAX.val) k' := by
  by_cases hk : k' = k
  · subst hk
    rw [Function.update_self, h, if_pos rfl]
  · rw [Function.update_of_ne hk, h, if_neg hk]

namespace Represents

theorem initial (state : InitialState AccountOwner) :
    Represents (FungibleTokenState.initializeAccounts ∅ state) (Ledger.initial state) := by
  refine ⟨FungibleTokenState.Canonical.initializeAccounts state,
    FungibleTokenState.bal_initializeAccounts_eq_lookup state, fun p => ?_⟩
  simp [FungibleTokenState.alw, FungibleTokenState.allowances_initializeAccounts, Ledger.initial]

/-- A call that does not panic, where the ledger does not fail. -/
theorem credit (h : Represents s l) (account : AccountOwner) (amount : Amount) :
    Represents (s.credit account amount) (l.credit account amount) := by
  refine ⟨h.canonical.credit account amount, fun o => update_add ?_, fun p => ?_⟩
  · rw [FungibleTokenState.bal_credit, h.bal o]
  · rw [alw_eq_of_allowances_eq (FungibleTokenState.allowances_credit ..), h.alw p]
    rfl

theorem debit (h : Represents s l) (account : AccountOwner) (amount : Amount) :
    Matches Represents (s.debit account amount) (l.debit account amount) := by
  unfold Ledger.debit
  cases hCall : s.debit account amount with
  | error panic =>
    have hFails : l.bal account < amount.val := by
      by_contra hEnough
      have hLe : amount.val ≤ s.bal account := by
        rw [h.bal]
        omega
      obtain ⟨s', hOk⟩ := FungibleTokenState.exists_debit hLe
      rw [hCall] at hOk
      cases hOk
    rw [if_pos hFails]
    trivial
  | ok s' =>
    have hLe := FungibleTokenState.debit_le hCall
    rw [h.bal] at hLe
    rw [if_neg (Nat.not_lt.mpr hLe)]
    refine ⟨h.canonical.debit hCall, fun o => update_sub ?_, fun p => ?_⟩
    · rw [← h.bal o]
      exact FungibleTokenState.bal_debit hCall o
    · rw [alw_eq_of_allowances_eq (FungibleTokenState.allowances_debit hCall), h.alw p]

theorem approve (h : Represents s l) (owner spender : AccountOwner) (allowance : Amount) :
    Matches Represents (s.approve owner spender allowance)
      (l.approve owner spender allowance) := by
  unfold Ledger.approve
  cases hCall : s.approve owner spender allowance with
  | error panic =>
    have hFails : 0 < allowance.val ∧ owner = spender := by
      by_contra hFine
      have hSelf : allowance ≠ 0 → owner ≠ spender := fun hZero hSame =>
        hFine ⟨Nat.pos_of_ne_zero (mt Amount.val_eq_zero.mp hZero), hSame⟩
      obtain ⟨s', hOk⟩ := FungibleTokenState.exists_approve (s := s) hSelf
      rw [hCall] at hOk
      cases hOk
    rw [if_pos hFails]
    trivial
  | ok s' =>
    have hFine : ¬ (0 < allowance.val ∧ owner = spender) := by
      rintro ⟨hPos, hSame⟩
      refine FungibleTokenState.approve_ne hCall ?_ hSame
      rintro rfl
      exact Nat.lt_irrefl 0 hPos
    rw [if_neg hFine]
    refine ⟨h.canonical.approve hCall, fun o => ?_, fun p => update_add ?_⟩
    · rw [bal_eq_of_accounts_eq (FungibleTokenState.accounts_approve hCall), h.bal o]
    · rw [FungibleTokenState.alw_approve hCall, h.alw p]

theorem transferFrom (h : Represents s l) (owner spender : AccountOwner) (amount : Amount) :
    Matches Represents (s.debitForTransferFrom owner spender amount)
      (l.transferFrom owner spender amount) := by
  unfold Ledger.transferFrom
  cases hCall : s.debitForTransferFrom owner spender amount with
  | error panic =>
    have hFails : 0 < amount.val ∧ (l.bal owner < amount.val ∨ owner = spender ∨
        l.alw ⟨owner, spender⟩ < amount.val) := by
      by_contra hFine
      -- the call would have gone through
      have hLe : amount.val ≤ s.bal owner := by
        rw [h.bal]
        omega
      have hSelf : amount ≠ 0 → owner ≠ spender := fun hZero hSame =>
        hFine ⟨Nat.pos_of_ne_zero (mt Amount.val_eq_zero.mp hZero), Or.inr (Or.inl hSame)⟩
      have hAllowed : amount.val ≤ s.alw ⟨owner, spender⟩ := by
        rw [h.alw]
        omega
      obtain ⟨s', hOk⟩ := FungibleTokenState.exists_debitForTransferFrom hLe hSelf hAllowed
      rw [hCall] at hOk
      cases hOk
    rw [if_pos hFails]
    trivial
  | ok s' =>
    have hBal := FungibleTokenState.bal_debitForTransferFrom hCall
    have hAlw := FungibleTokenState.alw_debitForTransferFrom hCall
    have hFine : ¬ (0 < amount.val ∧ (l.bal owner < amount.val ∨ owner = spender ∨
        l.alw ⟨owner, spender⟩ < amount.val)) := by
      rintro ⟨hPos, hShort | hSame | hShort⟩
      · have hLe := FungibleTokenState.debitForTransferFrom_le hCall
        rw [h.bal] at hLe
        omega
      · refine FungibleTokenState.debitForTransferFrom_ne hCall ?_ hSame
        rintro rfl
        exact Nat.lt_irrefl 0 hPos
      · have hHere := hAlw ⟨owner, spender⟩
        rw [if_pos rfl, h.alw] at hHere
        omega
    rw [if_neg hFine]
    refine ⟨h.canonical.debitForTransferFrom hCall, fun o => update_sub ?_,
      fun p => update_sub ?_⟩
    · rw [← h.bal o]
      exact hBal o
    · rw [← h.alw p]
      exact hAlw p

/-- **One call.** It panics exactly where the operation of the ledger fails, and
otherwise the state stands for the new ledger. -/
theorem call_matches (h : Represents s l) (c : Call AccountOwner) :
    Matches Represents (s.call c) (l.call c) := by
  cases c with
  | credit account amount => exact h.credit account amount
  | debit account amount => exact h.debit account amount
  | approve owner spender allowance => exact h.approve owner spender allowance
  | debitForTransferFrom owner spender amount => exact h.transferFrom owner spender amount

end Represents

-- ---------------------------------------------------------------------------
-- What the maps hold
-- ---------------------------------------------------------------------------

/-- The maps hold exactly what is not zero in the ledger, and `balance_or_default`
reads the balances. -/
structure Shows (s : FungibleTokenState AccountOwner) (l : Ledger AccountOwner) : Prop where
  accounts : ∀ o a, s.accounts.lookup o = some a ↔ 0 < l.bal o ∧ a.val = l.bal o
  allowances : ∀ p a, s.allowances.lookup p = some a ↔ 0 < l.alw p ∧ a.val = l.alw p
  balance : ∀ o, (s.balanceOrDefault o).val = l.bal o

/-- An entry of a map without zero entries. -/
theorem lookup_eq_some_iff {K : Type} [DecidableEq K] {m : MapView K Amount} (hm : m.NoZero)
    (k : K) (a : Amount) :
    m.lookup k = some a ↔ 0 < (m.getOrDefault k).val ∧ a.val = (m.getOrDefault k).val := by
  unfold MapView.getOrDefault
  cases hLookup : m.lookup k with
  | none => simp
  | some b =>
    have hNe : b ≠ 0 := fun hZero => hm k (hZero ▸ hLookup)
    have hPos : 0 < b.val := Nat.pos_of_ne_zero (mt Amount.val_eq_zero.mp hNe)
    simp [hPos, Amount.ext_iff, eq_comm]

theorem Represents.shows (h : Represents s l) : Shows s l where
  accounts o a := by
    rw [lookup_eq_some_iff h.canonical.accounts, ← h.bal o]
    rfl
  allowances p a := by
    rw [lookup_eq_some_iff h.canonical.allowances, ← h.alw p]
    rfl
  balance := h.bal

/-- Equal ledgers are shown by equal maps. -/
theorem Shows.unique (h : Shows s l) (h' : Shows s' l) : s' = s := by
  have hAccounts : s'.accounts = s.accounts :=
    Finmap.ext_lookup fun o => Option.ext fun a => by rw [h'.accounts, h.accounts]
  have hAllowances : s'.allowances = s.allowances :=
    Finmap.ext_lookup fun p => Option.ext fun a => by rw [h'.allowances, h.allowances]
  cases s
  cases s'
  exact congrArg₂ FungibleTokenState.mk hAccounts hAllowances

/-- **The state refines the ledger.** For every initial state and every sequence of
calls: a call panics iff the operation of the ledger fails, and as long as none
has panicked, the maps hold exactly the balances and allowances of the ledger
that are not zero, so that equal ledgers have equal maps. -/
theorem refines_ledger (state : InitialState AccountOwner) (calls : List (Call AccountOwner)) :
    Matches
      (fun s l => Shows s l ∧ (∀ s', Shows s' l → s' = s) ∧
        ∀ c, (∃ panic, s.call c = .error panic) ↔ l.call c = none)
      (calls.foldlM FungibleTokenState.call (FungibleTokenState.initializeAccounts ∅ state))
      (run Ledger.call (Ledger.initial state) calls) := by
  have hAll : Matches Represents
      (calls.foldlM FungibleTokenState.call (FungibleTokenState.initializeAccounts ∅ state))
      (run Ledger.call (Ledger.initial state) calls) :=
    foldlM_matches (fun _ _ c h => h.call_matches c) (Represents.initial state)
  refine hAll.mono fun s l h => ⟨h.shows, fun s' h' => h.shows.unique h', fun c => ?_⟩
  exact (h.call_matches c).error_iff

end LineraEndToEnd.Fungible
