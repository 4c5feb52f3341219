import LineraEndToEnd.Morpho.Contract

/-!
# The tokens

`ERC20Mock.sol`, the token of the markets, and `SafeTransferLib.sol`, through which the
lending contract calls it.

* `ERC20Mock.setBalance` / `approve` / `transfer` / `transferFrom` — its functions.
* `safeTransfer` / `safeTransferFrom` — a call of a token of the contract's, which fails
  with the library's own reason.
* `ERC20Mock.Backed` — the balances of all accounts add up to the total supply, which
  every call keeps (`TokenCall.perform_backed`); so no transfer can overflow
  (`ERC20Mock.Backed.move_eq`).
-/

namespace LineraEndToEnd.Morpho

open Solidity
open Function (update)
open Lib (total total_update le_total)

-- ---------------------------------------------------------------------------
-- `ERC20Mock`
-- ---------------------------------------------------------------------------

/-- The storage of `ERC20Mock`. -/
@[ext] structure ERC20Mock where
  totalSupply : Nat
  balanceOf : Address → Nat
  allowance : Address → Address → Nat

namespace ERC20Mock

/-- A token as it is deployed. -/
def new : ERC20Mock := ⟨0, fun _ => 0, fun _ _ => 0⟩

/-- `setBalance`: of any account, by anyone. -/
def setBalance (t : ERC20Mock) (account : Address) (amount : Nat) : Result ERC20Mock :=
  if t.balanceOf account < amount then do
    let minted ← checkedSub amount (t.balanceOf account)
    let totalSupply ← checkedAdd 256 t.totalSupply minted
    return { t with totalSupply, balanceOf := update t.balanceOf account amount }
  else do
    let burnt ← checkedSub (t.balanceOf account) amount
    let totalSupply ← checkedSub t.totalSupply burnt
    return { t with totalSupply, balanceOf := update t.balanceOf account amount }

/-- `allowance[holder][spender] = amount`. -/
def setAllowance (t : ERC20Mock) (holder spender : Address) (amount : Nat) : ERC20Mock :=
  let row := update (t.allowance holder) spender amount
  { t with allowance := update t.allowance holder row }

/-- `approve`. -/
def approve (t : ERC20Mock) (sender spender : Address) (amount : Nat) : ERC20Mock :=
  t.setAllowance sender spender amount

/-- The two writes that `transfer` and `transferFrom` end with. -/
def move (t : ERC20Mock) (holder receiver : Address) (amount : Nat) : Result ERC20Mock := do
  require (amount ≤ t.balanceOf holder) "insufficient balance"
  let left ← checkedSub (t.balanceOf holder) amount
  let balanceOf := update t.balanceOf holder left
  let received ← checkedAdd 256 (balanceOf receiver) amount
  return { t with balanceOf := update balanceOf receiver received }

/-- `transfer`. -/
def transfer (t : ERC20Mock) (sender receiver : Address) (amount : Nat) : Result ERC20Mock :=
  t.move sender receiver amount

/-- `transferFrom`. -/
def transferFrom (t : ERC20Mock) (sender holder receiver : Address) (amount : Nat) :
    Result ERC20Mock := do
  require (amount ≤ t.allowance holder sender) "insufficient allowance"
  let left ← checkedSub (t.allowance holder sender) amount
  (t.setAllowance holder sender left).move holder receiver amount

end ERC20Mock

/-- The calls of a token. -/
inductive TokenCall
  | setBalance (account : Address) (amount : Nat)
  | approve (spender : Address) (amount : Nat)
  | transfer (receiver : Address) (amount : Nat)
  | transferFrom (holder receiver : Address) (amount : Nat)
deriving DecidableEq

/-- What a call of a token does. -/
def TokenCall.perform (sender : Address) (t : ERC20Mock) : TokenCall → Result ERC20Mock
  | .setBalance account amount => t.setBalance account amount
  | .approve spender amount => .ok (t.approve sender spender amount)
  | .transfer receiver amount => t.transfer sender receiver amount
  | .transferFrom holder receiver amount => t.transferFrom sender holder receiver amount

-- ---------------------------------------------------------------------------
-- What a token call changes
-- ---------------------------------------------------------------------------

namespace ERC20Mock

@[simp] theorem setAllowance_balanceOf (t : ERC20Mock) (holder spender : Address) (n : Nat) :
    (t.setAllowance holder spender n).balanceOf = t.balanceOf := rfl

@[simp] theorem setAllowance_totalSupply (t : ERC20Mock) (holder spender : Address) (n : Nat) :
    (t.setAllowance holder spender n).totalSupply = t.totalSupply := rfl

theorem setAllowance_allowance (t : ERC20Mock) (holder spender : Address) (n : Nat)
    (a b : Address) : (t.setAllowance holder spender n).allowance a b =
      if a = holder ∧ b = spender then n else t.allowance a b := by
  unfold setAllowance
  by_cases ha : a = holder
  · subst ha
    by_cases hb : b = spender
    · subst hb
      simp
    · simp [hb]
  · simp [ha]

theorem setBalance_ok_iff {t t' : ERC20Mock} {account : Address} {amount : Nat} :
    t.setBalance account amount = .ok t' ↔
      t.balanceOf account ≤ t.totalSupply + amount ∧
      (t.balanceOf account < amount →
        t.totalSupply + (amount - t.balanceOf account) ≤ maxUint 256) ∧
      t' = { t with
        totalSupply := t.totalSupply + amount - t.balanceOf account,
        balanceOf := update t.balanceOf account amount } := by
  unfold setBalance
  split
  case isTrue hLess =>
    simp only [bind_ok_iff, checkedSub_ok_iff, checkedAdd_ok_iff, pure_ok_iff]
    have hSum : t.totalSupply + (amount - t.balanceOf account) =
      t.totalSupply + amount - t.balanceOf account := by omega
    constructor
    · rintro ⟨_, ⟨-, rfl⟩, _, ⟨hFits, rfl⟩, rfl⟩
      exact ⟨by omega, fun _ => hFits, by rw [hSum]⟩
    · rintro ⟨-, hFits, rfl⟩
      exact ⟨_, ⟨hLess.le, rfl⟩, _, ⟨hFits hLess, rfl⟩, by rw [hSum]⟩
  case isFalse hLess =>
    simp only [bind_ok_iff, checkedSub_ok_iff, pure_ok_iff]
    have hSum : t.totalSupply - (t.balanceOf account - amount) =
      t.totalSupply + amount - t.balanceOf account := by omega
    constructor
    · rintro ⟨_, ⟨-, rfl⟩, _, ⟨hEnough, rfl⟩, rfl⟩
      exact ⟨by omega, fun h => absurd h hLess, by rw [hSum]⟩
    · rintro ⟨hEnough, -, rfl⟩
      exact ⟨_, ⟨by omega, rfl⟩, _, ⟨by omega, rfl⟩, by rw [hSum]⟩

/-- The balances after the amount has left its holder. -/
def withdrawn (t : ERC20Mock) (holder : Address) (amount : Nat) : Address → Nat :=
  update t.balanceOf holder (t.balanceOf holder - amount)

/-- The token after the amount has reached its receiver. -/
def moved (t : ERC20Mock) (holder receiver : Address) (amount : Nat) : ERC20Mock :=
  let balanceOf := t.withdrawn holder amount
  { t with balanceOf := update balanceOf receiver (balanceOf receiver + amount) }

theorem move_ok_iff {t t' : ERC20Mock} {holder receiver : Address} {amount : Nat} :
    t.move holder receiver amount = .ok t' ↔
      amount ≤ t.balanceOf holder ∧
      t.withdrawn holder amount receiver + amount ≤ maxUint 256 ∧
      t.moved holder receiver amount = t' := by
  simp only [move, bind_ok_iff, require_ok_iff, checkedSub_ok_iff, checkedAdd_ok_iff, pure_ok_iff]
  constructor
  · rintro ⟨_, hEnough, _, ⟨-, rfl⟩, _, ⟨hFits, rfl⟩, rfl⟩
    exact ⟨hEnough, hFits, rfl⟩
  · rintro ⟨hEnough, hFits, rfl⟩
    exact ⟨(), hEnough, _, ⟨hEnough, rfl⟩, _, ⟨hFits, rfl⟩, rfl⟩

theorem transferFrom_ok_iff {t t' : ERC20Mock} {sender holder receiver : Address} {amount : Nat} :
    t.transferFrom sender holder receiver amount = .ok t' ↔
      amount ≤ t.allowance holder sender ∧
      (t.setAllowance holder sender (t.allowance holder sender - amount)).move holder receiver
        amount = .ok t' := by
  simp only [transferFrom, bind_ok_iff, require_ok_iff, checkedSub_ok_iff]
  constructor
  · rintro ⟨_, hEnough, _, ⟨-, rfl⟩, hMove⟩
    exact ⟨hEnough, hMove⟩
  · rintro ⟨hEnough, hMove⟩
    exact ⟨(), hEnough, _, ⟨hEnough, rfl⟩, hMove⟩

/-- The receiver gains what the holder loses, unless they are the same. -/
theorem move_balanceOf {t t' : ERC20Mock} {holder receiver : Address} {amount : Nat}
    (h : t.move holder receiver amount = .ok t') (a : Address) :
    t'.balanceOf a + (if a = holder then amount else 0) =
      t.balanceOf a + (if a = receiver then amount else 0) := by
  obtain ⟨hEnough, -, rfl⟩ := move_ok_iff.mp h
  unfold moved withdrawn
  by_cases hReceiver : a = receiver
  · subst hReceiver
    by_cases hHolder : a = holder
    · subst hHolder
      simp only [Function.update_self, if_true]
      omega
    · simp [hHolder]
  · by_cases hHolder : a = holder
    · subst hHolder
      simp only [Function.update_self, Function.update_of_ne hReceiver, if_true, if_neg hReceiver]
      omega
    · simp [hReceiver, hHolder]

theorem move_allowance {t t' : ERC20Mock} {holder receiver : Address} {amount : Nat}
    (h : t.move holder receiver amount = .ok t') : t'.allowance = t.allowance := by
  obtain ⟨-, -, rfl⟩ := move_ok_iff.mp h
  rfl

-- ---------------------------------------------------------------------------
-- Balances and supply
-- ---------------------------------------------------------------------------

/-- The balances add up to the total supply, which is a `uint256`. -/
structure Backed (t : ERC20Mock) : Prop where
  sum : total t.balanceOf = t.totalSupply
  fits : t.totalSupply ≤ maxUint 256

theorem Backed.new : Backed ERC20Mock.new where
  sum := Lib.total_zero
  fits := Nat.zero_le _

theorem Backed.setBalance {t t' : ERC20Mock} (h : t.Backed) {account : Address} {amount : Nat}
    (hOk : t.setBalance account amount = .ok t') : t'.Backed := by
  obtain ⟨hEnough, hFits, rfl⟩ := setBalance_ok_iff.mp hOk
  have hTotal := total_update t.balanceOf account amount fun n => n
  have hSum : total (fun a => t.balanceOf a) = t.totalSupply := h.sum
  refine ⟨?_, ?_⟩
  · show total (fun a => update t.balanceOf account amount a) =
      t.totalSupply + amount - t.balanceOf account
    omega
  · show t.totalSupply + amount - t.balanceOf account ≤ maxUint 256
    have hOld := h.fits
    omega

/-- Two balances at most move, by the same amount. -/
theorem total_withdrawn (t : ERC20Mock) {holder : Address} {amount : Nat}
    (hEnough : amount ≤ t.balanceOf holder) :
    total (t.withdrawn holder amount) + amount = total t.balanceOf := by
  have hTotal := total_update t.balanceOf holder (t.balanceOf holder - amount) fun n => n
  show total (fun a => update t.balanceOf holder (t.balanceOf holder - amount) a) + amount =
    total fun a => t.balanceOf a
  omega

theorem total_moved (t : ERC20Mock) {holder : Address} (receiver : Address) {amount : Nat}
    (hEnough : amount ≤ t.balanceOf holder) :
    total (t.moved holder receiver amount).balanceOf = total t.balanceOf := by
  have hTotal := total_update (t.withdrawn holder amount) receiver
    (t.withdrawn holder amount receiver + amount) fun n => n
  have hLess := t.total_withdrawn hEnough
  show total (fun a => update (t.withdrawn holder amount) receiver
    (t.withdrawn holder amount receiver + amount) a) = total t.balanceOf
  change _ = total (t.withdrawn holder amount) + _ at hTotal
  omega

theorem Backed.move {t t' : ERC20Mock} (h : t.Backed) {holder receiver : Address} {amount : Nat}
    (hOk : t.move holder receiver amount = .ok t') : t'.Backed := by
  obtain ⟨hEnough, -, rfl⟩ := move_ok_iff.mp hOk
  exact ⟨(t.total_moved receiver hEnough).trans h.sum, h.fits⟩

theorem Backed.setAllowance {t : ERC20Mock} (h : t.Backed) (holder spender : Address)
    (amount : Nat) : (t.setAllowance holder spender amount).Backed :=
  ⟨h.sum, h.fits⟩

/-- With the balances adding up to a `uint256`, no transfer overflows. -/
theorem Backed.move_eq {t : ERC20Mock} (h : t.Backed) (holder receiver : Address) (amount : Nat) :
    t.move holder receiver amount =
      if amount ≤ t.balanceOf holder then .ok (t.moved holder receiver amount)
      else .error (.error "insufficient balance") := by
  split
  case isTrue hEnough =>
    have hLess := t.total_withdrawn hEnough
    have hOne := le_total (t.withdrawn holder amount) receiver
    have hSum := h.sum
    have hFits := h.fits
    exact move_ok_iff.mpr ⟨hEnough, by omega, rfl⟩
  case isFalse hShort =>
    unfold ERC20Mock.move require
    rw [if_neg hShort]
    rfl

end ERC20Mock

/-- **Every call of a token keeps the balances adding up to the supply.** -/
theorem TokenCall.perform_backed {sender : Address} {t t' : ERC20Mock} (h : t.Backed) :
    ∀ {call : TokenCall}, call.perform sender t = .ok t' → t'.Backed
  | .setBalance _ _, hOk => h.setBalance hOk
  | .approve spender amount, hOk => by
    obtain rfl := Except.ok.inj hOk
    exact h.setAllowance sender spender amount
  | .transfer _ _, hOk => h.move hOk
  | .transferFrom holder _ amount, hOk =>
    (h.setAllowance holder sender _).move (ERC20Mock.transferFrom_ok_iff.mp hOk).2

-- ---------------------------------------------------------------------------
-- `SafeTransferLib`
-- ---------------------------------------------------------------------------

/-- The tokens that are deployed. -/
abbrev Tokens := Address → Option ERC20Mock

/-- A call of a token that the library makes. The tokens return `true` when they do not
revert, so the library's third check never fails. -/
def safeCall (tokens : Tokens) (token sender : Address) (call : TokenCall) (reason : String) :
    Result Tokens :=
  match tokens token with
  | none => .error (.error ErrorsLib.NO_CODE)
  | some t =>
    match call.perform sender t with
    | .ok t' => .ok (update tokens token (some t'))
    | .error _ => .error (.error reason)

/-- `safeTransfer`, called by `sender`. -/
def safeTransfer (tokens : Tokens) (token sender receiver : Address) (value : Nat) :
    Result Tokens :=
  safeCall tokens token sender (.transfer receiver value) ErrorsLib.TRANSFER_REVERTED

/-- `safeTransferFrom`, called by `sender`. -/
def safeTransferFrom (tokens : Tokens) (token sender holder receiver : Address) (value : Nat) :
    Result Tokens :=
  safeCall tokens token sender (.transferFrom holder receiver value)
    ErrorsLib.TRANSFER_FROM_REVERTED

theorem safeCall_ok_iff {tokens tokens' : Tokens} {token sender : Address} {call : TokenCall}
    {reason : String} : safeCall tokens token sender call reason = .ok tokens' ↔
      ∃ t t', tokens token = some t ∧ call.perform sender t = .ok t' ∧
        tokens' = update tokens token (some t') := by
  unfold safeCall
  cases tokens token with
  | none => simp
  | some t =>
    cases hCall : call.perform sender t with
    | error err => simp [hCall]
    | ok t' => simp [hCall, eq_comm]

end LineraEndToEnd.Morpho
