import LineraEndToEnd.Lib.BigEndian
import LineraEndToEnd.LineraTypes.Types

/-!
# `Linera.sol` — the exported types

Contracts see the types of the library `Linera`, which are made of the ones that are read
and written.

* `chainidFrom`, `accountownerFrom`, … — as the library has them.
* `chainidTo`, `accountownerTo`, … — the way back, of which the library has only that of
  the owners. `chainidTo_from`, `accountownerTo_from`, … — what is read is copied: it can
  be had back from the exported value.
-/

namespace LineraEndToEnd.Linera

open Lib LineraTypes

-- ---------------------------------------------------------------------------
-- Ids and owners
-- ---------------------------------------------------------------------------

/-- `uint256(value)`, of a `bytes32`. -/
def uint256 (value : BytesN 32) : Nat := BigEndian.value value.toList

/-- `bytes32(value)`, of a `uint256`. -/
def bytes32 (value : Nat) : BytesN 32 := ⟨(BigEndian.digits 32 value).toArray, by simp⟩

theorem bytes32_uint256 : Function.LeftInverse bytes32 uint256 := by
  intro value
  have hDigits := BigEndian.digits_value value.toList
  rw [Vector.length_toList] at hDigits
  exact Vector.toList_inj.mp hDigits

/-- `ChainId`. -/
structure ChainId where
  value : BytesN 32
deriving DecidableEq, Inhabited

/-- `chainid_from`. -/
def chainidFrom (entry : LineraTypes.ChainId) : ChainId := ⟨entry.value.value⟩

def chainidTo (entry : ChainId) : LineraTypes.ChainId := ⟨⟨entry.value⟩⟩

theorem chainidTo_from : Function.LeftInverse chainidTo chainidFrom := fun _ => rfl

/-- `ApplicationId`. -/
structure ApplicationId where
  applicationDescriptionHash : BytesN 32
deriving DecidableEq, Inhabited

/-- `applicationid_from`. -/
def applicationidFrom (entry : LineraTypes.ApplicationId) : ApplicationId :=
  ⟨entry.applicationDescriptionHash.value⟩

def applicationidTo (entry : ApplicationId) : LineraTypes.ApplicationId :=
  ⟨⟨entry.applicationDescriptionHash⟩⟩

theorem applicationidTo_from : Function.LeftInverse applicationidTo applicationidFrom :=
  fun _ => rfl

/-- `AccountOwner`. -/
structure AccountOwner where
  choice : UInt8
  reserved : UInt8
  address32 : BytesN 32
  address20 : BytesN 20
deriving DecidableEq, Inhabited

/-- `accountowner_from`. -/
def accountownerFrom (owner : LineraTypes.AccountOwner) : AccountOwner :=
  ⟨owner.choice, owner.reserved, owner.address32.value, owner.address20⟩

/-- `accountowner_to`. -/
def accountownerTo (owner : AccountOwner) : LineraTypes.AccountOwner :=
  ⟨owner.choice, owner.reserved, ⟨owner.address32⟩, owner.address20⟩

theorem accountownerTo_from : Function.LeftInverse accountownerTo accountownerFrom := fun _ => rfl

/-- `AccountOwnerBalance`. -/
structure AccountOwnerBalance where
  accountOwner : AccountOwner
  balance : Nat
deriving DecidableEq, Inhabited

/-- `accountownerbalance_from`. -/
def accountownerbalanceFrom (entry : AccountOwnerBalanceInner) : AccountOwnerBalance :=
  ⟨accountownerFrom entry.accountOwner, uint256 entry.balance.value⟩

def accountownerbalanceTo (entry : AccountOwnerBalance) : AccountOwnerBalanceInner :=
  ⟨accountownerTo entry.accountOwner, ⟨bytes32 entry.balance⟩⟩

theorem accountownerbalanceTo_from :
    Function.LeftInverse accountownerbalanceTo accountownerbalanceFrom := by
  rintro ⟨owner, ⟨balance⟩⟩
  rw [accountownerbalanceFrom, accountownerbalanceTo, accountownerTo_from, bytes32_uint256]

/-- All the structures `opt_T`, and their functions `opt_t_from`. -/
def optFrom {α β : Type} (f : α → β) (entry : Opt α) : Opt β := ⟨entry.hasValue, f entry.value⟩

theorem optFrom_from {α β : Type} {f : α → β} {g : β → α} (h : Function.LeftInverse g f) :
    Function.LeftInverse (optFrom g) (optFrom f) := by
  rintro ⟨hasValue, value⟩
  rw [optFrom, optFrom, h]

/-- `opt_applicationid_from`. -/
def optApplicationidFrom : Opt LineraTypes.ApplicationId → Opt ApplicationId :=
  optFrom applicationidFrom

def optApplicationidTo : Opt ApplicationId → Opt LineraTypes.ApplicationId :=
  optFrom applicationidTo

theorem optApplicationidTo_from :
    Function.LeftInverse optApplicationidTo optApplicationidFrom :=
  optFrom_from applicationidTo_from

/-- `opt_accountowner_from`. -/
def optAccountownerFrom : Opt LineraTypes.AccountOwner → Opt AccountOwner :=
  optFrom accountownerFrom

def optAccountownerTo : Opt AccountOwner → Opt LineraTypes.AccountOwner :=
  optFrom accountownerTo

theorem optAccountownerTo_from : Function.LeftInverse optAccountownerTo optAccountownerFrom :=
  optFrom_from accountownerTo_from

/-- `opt_chainid_from`. -/
def optChainidFrom : Opt LineraTypes.ChainId → Opt ChainId := optFrom chainidFrom

def optChainidTo : Opt ChainId → Opt LineraTypes.ChainId := optFrom chainidTo

theorem optChainidTo_from : Function.LeftInverse optChainidTo optChainidFrom :=
  optFrom_from chainidTo_from

/-- `opt_uint32_from`. -/
def optUint32From : Opt UInt32 → Opt UInt32 := optFrom id

theorem optUint32From_from : Function.LeftInverse optUint32From optUint32From :=
  optFrom_from fun _ => rfl

-- ---------------------------------------------------------------------------
-- Ownership of a chain
-- ---------------------------------------------------------------------------

/-- `TimeDelta`. -/
structure TimeDelta where
  value : UInt64
deriving DecidableEq, Inhabited

/-- `timedelta_from`. -/
def timedeltaFrom (entry : LineraTypes.TimeDelta) : TimeDelta := ⟨entry.value⟩

def timedeltaTo (entry : TimeDelta) : LineraTypes.TimeDelta := ⟨entry.value⟩

theorem timedeltaTo_from : Function.LeftInverse timedeltaTo timedeltaFrom := fun _ => rfl

/-- `opt_timedelta_from`. -/
def optTimedeltaFrom : Opt LineraTypes.TimeDelta → Opt UInt64 :=
  optFrom LineraTypes.TimeDelta.value

def optTimedeltaTo : Opt UInt64 → Opt LineraTypes.TimeDelta := optFrom LineraTypes.TimeDelta.mk

theorem optTimedeltaTo_from : Function.LeftInverse optTimedeltaTo optTimedeltaFrom :=
  optFrom_from fun _ => rfl

/-- `TimeoutConfig`. -/
structure TimeoutConfig where
  fastRoundDuration : Opt UInt64
  baseTimeout : TimeDelta
  timeoutIncrement : TimeDelta
  fallbackDuration : TimeDelta
deriving DecidableEq, Inhabited

/-- `timeoutconfig_from`. -/
def timeoutconfigFrom (entry : LineraTypes.TimeoutConfig) : TimeoutConfig :=
  ⟨optTimedeltaFrom entry.fastRoundDuration, timedeltaFrom entry.baseTimeout,
    timedeltaFrom entry.timeoutIncrement, timedeltaFrom entry.fallbackDuration⟩

def timeoutconfigTo (entry : TimeoutConfig) : LineraTypes.TimeoutConfig :=
  ⟨optTimedeltaTo entry.fastRoundDuration, timedeltaTo entry.baseTimeout,
    timedeltaTo entry.timeoutIncrement, timedeltaTo entry.fallbackDuration⟩

theorem timeoutconfigTo_from : Function.LeftInverse timeoutconfigTo timeoutconfigFrom := by
  rintro ⟨fast, base, increment, fallback⟩
  simp only [timeoutconfigFrom, timeoutconfigTo, optTimedeltaTo_from fast, timedeltaTo_from _]

/-- `AccountOwnerWeight`. -/
structure AccountOwnerWeight where
  accountOwner : AccountOwner
  weight : UInt64
deriving DecidableEq, Inhabited

/-- `accountownerweight_from`. -/
def accountownerweightFrom (entry : KeyValuesAccountOwnerUint64) : AccountOwnerWeight :=
  ⟨accountownerFrom entry.key, entry.value⟩

def accountownerweightTo (entry : AccountOwnerWeight) : KeyValuesAccountOwnerUint64 :=
  ⟨accountownerTo entry.accountOwner, entry.weight⟩

theorem accountownerweightTo_from :
    Function.LeftInverse accountownerweightTo accountownerweightFrom := fun _ => rfl

/-- `ChainOwnership`. -/
structure ChainOwnership where
  superOwners : List AccountOwner
  owners : List AccountOwnerWeight
  multiLeaderRounds : UInt32
  openMultiLeaderRounds : Bool
  timeoutConfig : TimeoutConfig
deriving DecidableEq, Inhabited

/-- `chainownership_from`, whose loops copy the owners one by one. -/
def chainownershipFrom (entry : LineraTypes.ChainOwnership) : ChainOwnership :=
  ⟨entry.superOwners.map accountownerFrom, entry.owners.map accountownerweightFrom,
    entry.multiLeaderRounds, entry.openMultiLeaderRounds, timeoutconfigFrom entry.timeoutConfig⟩

def chainownershipTo (entry : ChainOwnership) : LineraTypes.ChainOwnership :=
  ⟨entry.superOwners.map accountownerTo, entry.owners.map accountownerweightTo,
    entry.multiLeaderRounds, entry.openMultiLeaderRounds, timeoutconfigTo entry.timeoutConfig⟩

theorem chainownershipTo_from : Function.LeftInverse chainownershipTo chainownershipFrom := by
  rintro ⟨supers, owners, rounds, isOpen, config⟩
  simp only [chainownershipFrom, chainownershipTo, accountownerTo_from.list_map supers,
    accountownerweightTo_from.list_map owners, timeoutconfigTo_from config]

-- ---------------------------------------------------------------------------
-- Bouncing messages
-- ---------------------------------------------------------------------------

/-- `OptionBool`. -/
inductive OptionBool
  | None
  | True
  | False
deriving DecidableEq, Inhabited

/-- `optionbool_from`. -/
def optionboolFrom (entry : MessageIsBouncing) : OptionBool :=
  if entry.value = .True then .True
  else if entry.value = .False then .False
  else .None

def optionboolTo : OptionBool → MessageIsBouncing
  | .None => ⟨.None⟩
  | .True => ⟨.True⟩
  | .False => ⟨.False⟩

theorem optionboolTo_from : Function.LeftInverse optionboolTo optionboolFrom := by
  rintro ⟨value⟩
  cases value <;> rfl

-- ---------------------------------------------------------------------------
-- Replies that are returned without their structure
-- ---------------------------------------------------------------------------

theorem uint32_id : Function.LeftInverse (id : UInt32 → UInt32) id := fun _ => rfl

theorem height_mk : Function.LeftInverse BlockHeight.mk BlockHeight.value := fun _ => rfl

theorem timestamp_mk : Function.LeftInverse Timestamp.mk Timestamp.value := fun _ => rfl

theorem amount_bytes32 : Function.LeftInverse (fun value => LineraTypes.Amount.mk (bytes32 value))
    fun output2 => uint256 output2.value := by
  rintro ⟨value⟩
  exact congrArg LineraTypes.Amount.mk (bytes32_uint256 value)

/-- The loop of `read_owner_balances`. -/
theorem balances_to : Function.LeftInverse
    (fun result => ResponseReadOwnerBalances.mk (result.map accountownerbalanceTo))
    fun output2 => output2.value.map accountownerbalanceFrom := by
  rintro ⟨value⟩
  exact congrArg ResponseReadOwnerBalances.mk (accountownerbalanceTo_from.list_map value)

/-- The loop of `read_balance_owners`. -/
theorem owners_to : Function.LeftInverse
    (fun result => ResponseReadBalanceOwners.mk (result.map accountownerTo))
    fun output2 => output2.value.map accountownerFrom := by
  rintro ⟨value⟩
  exact congrArg ResponseReadBalanceOwners.mk (accountownerTo_from.list_map value)

end LineraEndToEnd.Linera
