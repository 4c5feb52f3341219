import LineraEndToEnd.Runtime.Base

/-!
# What the contracts use of Solidity

Checked arithmetic: an operation that overflows, underflows or divides by zero reverts
with a panic.

* `Revert` — how a call fails: with a reason, with a panic code, or without data.
* `checkedAdd` / `checkedSub` / `checkedMul` / `checkedDiv` — the operators.
-/

namespace LineraEndToEnd.Solidity

-- ---------------------------------------------------------------------------
-- Reverts
-- ---------------------------------------------------------------------------

/-- How a call reverts: `Error(string)`, `Panic(uint256)` or no data. -/
inductive Revert
  | error (reason : String)
  | panic (code : Nat)
  | empty
deriving DecidableEq

abbrev Result := Except Revert

/-- `require`. -/
def require (condition : Prop) [Decidable condition] (reason : String) : Result Unit :=
  if condition then .ok () else .error (.error reason)

@[simp] theorem require_ok_iff {condition : Prop} [Decidable condition] {reason : String}
    {u : Unit} : require condition reason = .ok u ↔ condition := by
  unfold require
  split <;> simp [*]

/-- `require` without a reason. -/
def requireThat (condition : Prop) [Decidable condition] : Result Unit :=
  if condition then .ok () else .error .empty

@[simp] theorem requireThat_ok_iff {condition : Prop} [Decidable condition] {u : Unit} :
    requireThat condition = .ok u ↔ condition := by
  unfold requireThat
  split <;> simp [*]

-- ---------------------------------------------------------------------------
-- Checked arithmetic
-- ---------------------------------------------------------------------------

/-- `type(uintN).max`. -/
def maxUint (bits : Nat) : Nat := 2 ^ bits - 1

/-- `x + y`, of a type with this many bits. -/
def checkedAdd (bits x y : Nat) : Result Nat :=
  if x + y ≤ maxUint bits then .ok (x + y) else .error (.panic 0x11)

/-- `x - y`. -/
def checkedSub (x y : Nat) : Result Nat :=
  if y ≤ x then .ok (x - y) else .error (.panic 0x11)

/-- `x * y`, of `uint256`. -/
def checkedMul (x y : Nat) : Result Nat :=
  if x * y ≤ maxUint 256 then .ok (x * y) else .error (.panic 0x11)

/-- `x / y`. -/
def checkedDiv (x y : Nat) : Result Nat :=
  if y ≠ 0 then .ok (x / y) else .error (.panic 0x12)

@[simp] theorem checkedAdd_ok_iff {bits x y z : Nat} :
    checkedAdd bits x y = .ok z ↔ x + y ≤ maxUint bits ∧ x + y = z := by
  unfold checkedAdd
  split <;> simp [*]

@[simp] theorem checkedSub_ok_iff {x y z : Nat} :
    checkedSub x y = .ok z ↔ y ≤ x ∧ x - y = z := by
  unfold checkedSub
  split <;> simp [*]

@[simp] theorem checkedMul_ok_iff {x y z : Nat} :
    checkedMul x y = .ok z ↔ x * y ≤ maxUint 256 ∧ x * y = z := by
  unfold checkedMul
  split <;> simp [*]

@[simp] theorem checkedDiv_ok_iff {x y z : Nat} :
    checkedDiv x y = .ok z ↔ y ≠ 0 ∧ x / y = z := by
  unfold checkedDiv
  split <;> simp_all

end LineraEndToEnd.Solidity
