import LineraEndToEnd.LineraTypes.Containers
import Mathlib.Tactic.IntervalCases

/-!
# `LineraTypes.sol` — the structures

Every structure of the library with its functions `bcs_serialize_T` and
`bcs_deserialize_offset_T`. An enumeration of the runtime is a structure with the number of
the case, and a field for the contents of each case that has some; the fields of the other
cases hold their defaults.

* `T.bcsSerialize`, `T.bcsDeserializeOffset` — as the library has them; `T.caseC` — the
  functions `T_case_c` that make the cases of an enumeration.
* `T.Valid` — what these functions make, of values that fit in memory.
* `T.lawful` — the codec of every type is lawful (`Lib.Codec`).
-/

namespace LineraEndToEnd.LineraTypes

open Lib Solidity

-- ---------------------------------------------------------------------------
-- Hashes, ids and numbers
-- ---------------------------------------------------------------------------

/-- `CryptoHash`. -/
structure CryptoHash where
  value : BytesN 32
deriving DecidableEq, Inhabited

namespace CryptoHash

/-- `bcs_serialize_CryptoHash`. -/
def bcsSerialize (input : CryptoHash) : Result Bytes :=
  bcsSerializeBytes32 input.value

/-- `bcs_deserialize_offset_CryptoHash`. -/
def bcsDeserializeOffset : DeserializeOffset CryptoHash :=
  Decoder.map mk bcsDeserializeOffsetBytes32

theorem lawful : Lawful bcsSerialize bcsDeserializeOffset (fun _ => True) :=
  lawful_bytes32.imap mk value (fun _ => rfl) fun _ _ => rfl

end CryptoHash

/-- `Amount`. -/
structure Amount where
  value : BytesN 32
deriving DecidableEq, Inhabited

namespace Amount

/-- `bcs_serialize_Amount`. -/
def bcsSerialize (input : Amount) : Result Bytes :=
  bcsSerializeBytes32 input.value

/-- `bcs_deserialize_offset_Amount`. -/
def bcsDeserializeOffset : DeserializeOffset Amount :=
  Decoder.map mk bcsDeserializeOffsetBytes32

theorem lawful : Lawful bcsSerialize bcsDeserializeOffset (fun _ => True) :=
  lawful_bytes32.imap mk value (fun _ => rfl) fun _ _ => rfl

end Amount

/-- `ApplicationId`. -/
structure ApplicationId where
  applicationDescriptionHash : CryptoHash
deriving DecidableEq, Inhabited

namespace ApplicationId

/-- `bcs_serialize_ApplicationId`. -/
def bcsSerialize (input : ApplicationId) : Result Bytes :=
  CryptoHash.bcsSerialize input.applicationDescriptionHash

/-- `bcs_deserialize_offset_ApplicationId`. -/
def bcsDeserializeOffset : DeserializeOffset ApplicationId :=
  Decoder.map mk CryptoHash.bcsDeserializeOffset

theorem lawful : Lawful bcsSerialize bcsDeserializeOffset (fun _ => True) :=
  CryptoHash.lawful.imap mk applicationDescriptionHash (fun _ => rfl) fun _ _ => rfl

end ApplicationId

/-- `ChainId`. -/
structure ChainId where
  value : CryptoHash
deriving DecidableEq, Inhabited

namespace ChainId

/-- `bcs_serialize_ChainId`. -/
def bcsSerialize (input : ChainId) : Result Bytes :=
  CryptoHash.bcsSerialize input.value

/-- `bcs_deserialize_offset_ChainId`. -/
def bcsDeserializeOffset : DeserializeOffset ChainId :=
  Decoder.map mk CryptoHash.bcsDeserializeOffset

theorem lawful : Lawful bcsSerialize bcsDeserializeOffset (fun _ => True) :=
  CryptoHash.lawful.imap mk value (fun _ => rfl) fun _ _ => rfl

end ChainId

/-- `DataBlobHash`. -/
structure DataBlobHash where
  value : CryptoHash
deriving DecidableEq, Inhabited

namespace DataBlobHash

/-- `bcs_serialize_DataBlobHash`. -/
def bcsSerialize (input : DataBlobHash) : Result Bytes :=
  CryptoHash.bcsSerialize input.value

/-- `bcs_deserialize_offset_DataBlobHash`. -/
def bcsDeserializeOffset : DeserializeOffset DataBlobHash :=
  Decoder.map mk CryptoHash.bcsDeserializeOffset

theorem lawful : Lawful bcsSerialize bcsDeserializeOffset (fun _ => True) :=
  CryptoHash.lawful.imap mk value (fun _ => rfl) fun _ _ => rfl

end DataBlobHash

/-- `BlockHeight`. -/
structure BlockHeight where
  value : UInt64
deriving DecidableEq, Inhabited

namespace BlockHeight

/-- `bcs_serialize_BlockHeight`. -/
def bcsSerialize (input : BlockHeight) : Result Bytes :=
  bcsSerializeUint64 input.value

/-- `bcs_deserialize_offset_BlockHeight`. -/
def bcsDeserializeOffset : DeserializeOffset BlockHeight :=
  Decoder.map mk bcsDeserializeOffsetUint64

theorem lawful : Lawful bcsSerialize bcsDeserializeOffset (fun _ => True) :=
  lawful_uint64.imap mk value (fun _ => rfl) fun _ _ => rfl

end BlockHeight

/-- `Timestamp`. -/
structure Timestamp where
  value : UInt64
deriving DecidableEq, Inhabited

namespace Timestamp

/-- `bcs_serialize_Timestamp`. -/
def bcsSerialize (input : Timestamp) : Result Bytes :=
  bcsSerializeUint64 input.value

/-- `bcs_deserialize_offset_Timestamp`. -/
def bcsDeserializeOffset : DeserializeOffset Timestamp :=
  Decoder.map mk bcsDeserializeOffsetUint64

theorem lawful : Lawful bcsSerialize bcsDeserializeOffset (fun _ => True) :=
  lawful_uint64.imap mk value (fun _ => rfl) fun _ _ => rfl

end Timestamp

/-- `TimeDelta`. -/
structure TimeDelta where
  value : UInt64
deriving DecidableEq, Inhabited

namespace TimeDelta

/-- `bcs_serialize_TimeDelta`. -/
def bcsSerialize (input : TimeDelta) : Result Bytes :=
  bcsSerializeUint64 input.value

/-- `bcs_deserialize_offset_TimeDelta`. -/
def bcsDeserializeOffset : DeserializeOffset TimeDelta :=
  Decoder.map mk bcsDeserializeOffsetUint64

theorem lawful : Lawful bcsSerialize bcsDeserializeOffset (fun _ => True) :=
  lawful_uint64.imap mk value (fun _ => rfl) fun _ _ => rfl

end TimeDelta

/-- `StreamName`. -/
structure StreamName where
  value : Bytes
deriving DecidableEq, Inhabited

namespace StreamName

/-- `bcs_serialize_StreamName`. -/
def bcsSerialize (input : StreamName) : Result Bytes :=
  bcsSerializeBytes input.value

/-- `bcs_deserialize_offset_StreamName`. -/
def bcsDeserializeOffset : DeserializeOffset StreamName :=
  Decoder.map mk bcsDeserializeOffsetBytes

/-- What fits in memory, and is made by the functions of the library. -/
def Valid (x : StreamName) : Prop := x.value.length ≤ maxLength

theorem lawful : Lawful bcsSerialize bcsDeserializeOffset Valid :=
  lawful_bytes.imap mk value (fun _ => rfl) fun _ _ => rfl

end StreamName

/-- `MessageIsBouncing`. -/
structure MessageIsBouncing where
  value : OptionBool
deriving DecidableEq, Inhabited

namespace MessageIsBouncing

/-- `bcs_serialize_MessageIsBouncing`. -/
def bcsSerialize (input : MessageIsBouncing) : Result Bytes :=
  bcsSerializeOptionBool input.value

/-- `bcs_deserialize_offset_MessageIsBouncing`. -/
def bcsDeserializeOffset : DeserializeOffset MessageIsBouncing :=
  Decoder.map mk bcsDeserializeOffsetOptionBool

theorem lawful : Lawful bcsSerialize bcsDeserializeOffset (fun _ => True) :=
  lawful_optionBool.imap mk value (fun _ => rfl) fun _ _ => rfl

end MessageIsBouncing

-- ---------------------------------------------------------------------------
-- Owners and chains
-- ---------------------------------------------------------------------------

/-- `AccountOwner`. -/
structure AccountOwner where
  choice : UInt8
  reserved : UInt8
  address32 : CryptoHash
  address20 : BytesN 20
deriving DecidableEq, Inhabited

namespace AccountOwner

/-- `AccountOwner_case_reserved`. -/
def caseReserved (reserved : UInt8) : AccountOwner :=
  ⟨0, reserved, default, default⟩

/-- `AccountOwner_case_address32`. -/
def caseAddress32 (address32 : CryptoHash) : AccountOwner :=
  ⟨1, default, address32, default⟩

/-- `AccountOwner_case_address20`. -/
def caseAddress20 (address20 : BytesN 20) : AccountOwner :=
  ⟨2, default, default, address20⟩

/-- `bcs_serialize_AccountOwner`. -/
def bcsSerialize (input : AccountOwner) : Result Bytes :=
  if input.choice = 0 then do
    let bytes ← bcsSerializeUint8 input.reserved
    return input.choice :: bytes
  else if input.choice = 1 then do
    let bytes ← CryptoHash.bcsSerialize input.address32
    return input.choice :: bytes
  else if input.choice = 2 then do
    let bytes ← bcsSerializeBytes20 input.address20
    return input.choice :: bytes
  else return [input.choice]

/-- `bcs_deserialize_offset_AccountOwner`. -/
def bcsDeserializeOffset : DeserializeOffset AccountOwner := fun pos input => do
  let (newPos, choice) ← bcsDeserializeOffsetUint8 pos input
  let (newPos, reserved) ←
    Decoder.when (choice = 0) default bcsDeserializeOffsetUint8 newPos input
  let (newPos, address32) ←
    Decoder.when (choice = 1) default CryptoHash.bcsDeserializeOffset newPos input
  let (newPos, address20) ←
    Decoder.when (choice = 2) default bcsDeserializeOffsetBytes20 newPos input
  requireThat (choice < 3)
  return (newPos, ⟨choice, reserved, address32, address20⟩)

/-- What the functions for the cases make, of what fits in memory. -/
def Valid (x : AccountOwner) : Prop :=
  Present (x.choice = 0) (fun _ => True) x.reserved ∧
  Present (x.choice = 1) (fun _ => True) x.address32 ∧
  Present (x.choice = 2) (fun _ => True) x.address20 ∧
  x.choice < 3

theorem valid_iff {x : AccountOwner} : x.Valid ↔ (∃ reserved, x = caseReserved reserved) ∨
    (∃ address32, x = caseAddress32 address32) ∨ ∃ address20, x = caseAddress20 address20 := by
  constructor
  · intro h
    obtain ⟨choice, reserved, address32, address20⟩ := x
    obtain ⟨k, hk, rfl⟩ : ∃ k < 3, UInt8.ofNat k = choice :=
      ⟨choice.toNat, h.2.2.2, UInt8.ofNat_toNat⟩
    interval_cases k
    · obtain ⟨-, rfl, rfl, -⟩ := h
      exact .inl ⟨reserved, rfl⟩
    · obtain ⟨rfl, -, rfl, -⟩ := h
      exact .inr (.inl ⟨address32, rfl⟩)
    · obtain ⟨rfl, rfl, -, -⟩ := h
      exact .inr (.inr ⟨address20, rfl⟩)
  · rintro (⟨reserved, rfl⟩ | ⟨address32, rfl⟩ | ⟨address20, rfl⟩)
    · exact ⟨trivial, rfl, rfl, of_decide_eq_true rfl⟩
    · exact ⟨rfl, trivial, rfl, of_decide_eq_true rfl⟩
    · exact ⟨rfl, rfl, trivial, of_decide_eq_true rfl⟩

theorem lawful : Lawful bcsSerialize bcsDeserializeOffset Valid := by
  have hFields := (((lawful_uint8.bind
    fun c _ => lawful_uint8.when (c = 0) default).bind
    fun x _ => CryptoHash.lawful.when (x.1 = 1) default).bind
    fun x _ => lawful_bytes20.when (x.1.1 = 2) default).guard
    (fun x => x.1.1.1 < 3) Revert.empty
  refine (hFields.imap (fun x => ⟨x.1.1.1, x.1.1.2, x.1.2, x.2⟩)
    (fun y => (((y.choice, y.reserved), y.address32), y.address20))
    (fun _ => rfl) fun _ _ => rfl).congr ?_ ?_ ?_
  · funext y
    obtain ⟨choice, reserved, address32, address20⟩ := y
    simp only [bcsSerialize, Encoder.bind, Encoder.when, bcsSerializeUint8, pure_bind]
    by_cases h0 : choice = 0
    · simp [h0, ok_eq_pure]
    by_cases h1 : choice = 1
    · simp [h1, ok_eq_pure]
    by_cases h2 : choice = 2
    · simp [h2, ok_eq_pure]
    simp [h0, h1, h2, ok_eq_pure]
  · funext pos input
    simp only [bcsDeserializeOffset, Decoder.map, Decoder.guard, Decoder.bind, bind_assoc,
      pure_bind, requireThat_bind, ite_bind]
  · intro y
    simp [Valid, Present, and_assoc]

end AccountOwner

/-- `AccountOwnerBalanceInner`. -/
structure AccountOwnerBalanceInner where
  accountOwner : AccountOwner
  balance : Amount
deriving DecidableEq, Inhabited

namespace AccountOwnerBalanceInner

/-- `bcs_serialize_AccountOwnerBalanceInner`. -/
def bcsSerialize (input : AccountOwnerBalanceInner) : Result Bytes := do
  let result ← AccountOwner.bcsSerialize input.accountOwner
  let bytes ← Amount.bcsSerialize input.balance
  return result ++ bytes

/-- `bcs_deserialize_offset_AccountOwnerBalanceInner`. -/
def bcsDeserializeOffset : DeserializeOffset AccountOwnerBalanceInner := fun pos input => do
  let (newPos, accountOwner) ← AccountOwner.bcsDeserializeOffset pos input
  let (newPos, balance) ← Amount.bcsDeserializeOffset newPos input
  return (newPos, ⟨accountOwner, balance⟩)

/-- What fits in memory, and is made by the functions of the library. -/
def Valid (x : AccountOwnerBalanceInner) : Prop := x.accountOwner.Valid

theorem lawful : Lawful bcsSerialize bcsDeserializeOffset Valid := by
  have hFields := AccountOwner.lawful.bind fun _ _ => Amount.lawful
  refine (hFields.imap (fun x => ⟨x.1, x.2⟩) (fun y => (y.accountOwner, y.balance)) (fun _ => rfl)
    fun _ _ => rfl).congr ?_ ?_ ?_
  · funext y
    rfl
  · funext pos input
    simp only [bcsDeserializeOffset, Decoder.map, Decoder.bind, bind_assoc, pure_bind]
  · intro y
    simp [Valid]

end AccountOwnerBalanceInner

/-- `key_values_AccountOwner_uint64`. -/
structure KeyValuesAccountOwnerUint64 where
  key : AccountOwner
  value : UInt64
deriving DecidableEq, Inhabited

namespace KeyValuesAccountOwnerUint64

/-- `bcs_serialize_key_values_AccountOwner_uint64`. -/
def bcsSerialize (input : KeyValuesAccountOwnerUint64) : Result Bytes := do
  let result ← AccountOwner.bcsSerialize input.key
  let bytes ← bcsSerializeUint64 input.value
  return result ++ bytes

/-- `bcs_deserialize_offset_key_values_AccountOwner_uint64`. -/
def bcsDeserializeOffset : DeserializeOffset KeyValuesAccountOwnerUint64 := fun pos input => do
  let (newPos, key) ← AccountOwner.bcsDeserializeOffset pos input
  let (newPos, value) ← bcsDeserializeOffsetUint64 newPos input
  return (newPos, ⟨key, value⟩)

/-- What fits in memory, and is made by the functions of the library. -/
def Valid (x : KeyValuesAccountOwnerUint64) : Prop := x.key.Valid

theorem lawful : Lawful bcsSerialize bcsDeserializeOffset Valid := by
  have hFields := AccountOwner.lawful.bind fun _ _ => lawful_uint64
  refine (hFields.imap (fun x => ⟨x.1, x.2⟩) (fun y => (y.key, y.value)) (fun _ => rfl)
    fun _ _ => rfl).congr ?_ ?_ ?_
  · funext y
    rfl
  · funext pos input
    simp only [bcsDeserializeOffset, Decoder.map, Decoder.bind, bind_assoc, pure_bind]
  · intro y
    simp [Valid]

end KeyValuesAccountOwnerUint64

/-- `TimeoutConfig`. -/
structure TimeoutConfig where
  fastRoundDuration : Opt TimeDelta
  baseTimeout : TimeDelta
  timeoutIncrement : TimeDelta
  fallbackDuration : TimeDelta
deriving DecidableEq, Inhabited

namespace TimeoutConfig

/-- `bcs_serialize_TimeoutConfig`. -/
def bcsSerialize (input : TimeoutConfig) : Result Bytes := do
  let result ← serializeOpt TimeDelta.bcsSerialize input.fastRoundDuration
  let bytes ← TimeDelta.bcsSerialize input.baseTimeout
  let result := result ++ bytes
  let bytes ← TimeDelta.bcsSerialize input.timeoutIncrement
  let result := result ++ bytes
  let bytes ← TimeDelta.bcsSerialize input.fallbackDuration
  return result ++ bytes

/-- `bcs_deserialize_offset_TimeoutConfig`. -/
def bcsDeserializeOffset : DeserializeOffset TimeoutConfig := fun pos input => do
  let (newPos, fastRoundDuration) ← deserializeOffsetOpt TimeDelta.bcsDeserializeOffset pos input
  let (newPos, baseTimeout) ← TimeDelta.bcsDeserializeOffset newPos input
  let (newPos, timeoutIncrement) ← TimeDelta.bcsDeserializeOffset newPos input
  let (newPos, fallbackDuration) ← TimeDelta.bcsDeserializeOffset newPos input
  return (newPos, ⟨fastRoundDuration, baseTimeout, timeoutIncrement, fallbackDuration⟩)

/-- What fits in memory, and is made by the functions of the library. -/
def Valid (x : TimeoutConfig) : Prop := Opt.Valid (fun _ => True) x.fastRoundDuration

theorem lawful : Lawful bcsSerialize bcsDeserializeOffset Valid := by
  have hFields := (((lawful_opt TimeDelta.lawful).bind
    fun _ _ => TimeDelta.lawful).bind
    fun _ _ => TimeDelta.lawful).bind
    fun _ _ => TimeDelta.lawful
  refine (hFields.imap (fun x => ⟨x.1.1.1, x.1.1.2, x.1.2, x.2⟩)
    (fun y => (((y.fastRoundDuration, y.baseTimeout), y.timeoutIncrement), y.fallbackDuration))
    (fun _ => rfl)
    fun _ _ => rfl).congr ?_ ?_ ?_
  · funext y
    simp only [bcsSerialize, Encoder.bind, bind_assoc, pure_bind]
  · funext pos input
    simp only [bcsDeserializeOffset, Decoder.map, Decoder.bind, bind_assoc, pure_bind]
  · intro y
    simp [Valid]

end TimeoutConfig

/-- `ChainOwnership`. -/
structure ChainOwnership where
  superOwners : List AccountOwner
  owners : List KeyValuesAccountOwnerUint64
  multiLeaderRounds : UInt32
  openMultiLeaderRounds : Bool
  timeoutConfig : TimeoutConfig
deriving DecidableEq, Inhabited

namespace ChainOwnership

/-- `bcs_serialize_ChainOwnership`. -/
def bcsSerialize (input : ChainOwnership) : Result Bytes := do
  let result ← serializeSeq AccountOwner.bcsSerialize input.superOwners
  let bytes ← serializeSeq KeyValuesAccountOwnerUint64.bcsSerialize input.owners
  let result := result ++ bytes
  let bytes ← bcsSerializeUint32 input.multiLeaderRounds
  let result := result ++ bytes
  let bytes ← bcsSerializeBool input.openMultiLeaderRounds
  let result := result ++ bytes
  let bytes ← TimeoutConfig.bcsSerialize input.timeoutConfig
  return result ++ bytes

/-- `bcs_deserialize_offset_ChainOwnership`. -/
def bcsDeserializeOffset : DeserializeOffset ChainOwnership := fun pos input => do
  let (newPos, superOwners) ← deserializeOffsetSeq AccountOwner.bcsDeserializeOffset pos input
  let (newPos, owners) ←
    deserializeOffsetSeq KeyValuesAccountOwnerUint64.bcsDeserializeOffset newPos input
  let (newPos, multiLeaderRounds) ← bcsDeserializeOffsetUint32 newPos input
  let (newPos, openMultiLeaderRounds) ← bcsDeserializeOffsetBool newPos input
  let (newPos, timeoutConfig) ← TimeoutConfig.bcsDeserializeOffset newPos input
  return (newPos, ⟨superOwners, owners, multiLeaderRounds, openMultiLeaderRounds, timeoutConfig⟩)

/-- What fits in memory, and is made by the functions of the library. -/
def Valid (x : ChainOwnership) : Prop :=
  x.superOwners.length ≤ maxLength ∧ (∀ y ∈ x.superOwners, y.Valid) ∧
    x.owners.length ≤ maxLength ∧ (∀ y ∈ x.owners, y.Valid) ∧
    x.timeoutConfig.Valid

theorem lawful : Lawful bcsSerialize bcsDeserializeOffset Valid := by
  have hFields := ((((lawful_seq AccountOwner.lawful).bind
    fun _ _ => (lawful_seq KeyValuesAccountOwnerUint64.lawful)).bind
    fun _ _ => lawful_uint32).bind
    fun _ _ => lawful_bool).bind
    fun _ _ => TimeoutConfig.lawful
  refine (hFields.imap (fun x => ⟨x.1.1.1.1, x.1.1.1.2, x.1.1.2, x.1.2, x.2⟩)
    (fun y => ((((y.superOwners, y.owners), y.multiLeaderRounds), y.openMultiLeaderRounds),
      y.timeoutConfig)) (fun _ => rfl)
    fun _ _ => rfl).congr ?_ ?_ ?_
  · funext y
    simp only [bcsSerialize, Encoder.bind, bind_assoc, pure_bind]
  · funext pos input
    simp only [bcsDeserializeOffset, Decoder.map, Decoder.bind, bind_assoc, pure_bind]
  · intro y
    simp [Valid, and_assoc]

end ChainOwnership

/-- `ResponseReadBalanceOwners`. -/
structure ResponseReadBalanceOwners where
  value : List AccountOwner
deriving DecidableEq, Inhabited

namespace ResponseReadBalanceOwners

/-- `bcs_serialize_ResponseReadBalanceOwners`. -/
def bcsSerialize (input : ResponseReadBalanceOwners) : Result Bytes :=
  serializeSeq AccountOwner.bcsSerialize input.value

/-- `bcs_deserialize_offset_ResponseReadBalanceOwners`. -/
def bcsDeserializeOffset : DeserializeOffset ResponseReadBalanceOwners :=
  Decoder.map mk (deserializeOffsetSeq AccountOwner.bcsDeserializeOffset)

/-- What fits in memory, and is made by the functions of the library. -/
def Valid (x : ResponseReadBalanceOwners) : Prop :=
  x.value.length ≤ maxLength ∧ (∀ y ∈ x.value, y.Valid)

theorem lawful : Lawful bcsSerialize bcsDeserializeOffset Valid :=
  (lawful_seq AccountOwner.lawful).imap mk value (fun _ => rfl) fun _ _ => rfl

end ResponseReadBalanceOwners

/-- `ResponseReadOwnerBalances`. -/
structure ResponseReadOwnerBalances where
  value : List AccountOwnerBalanceInner
deriving DecidableEq, Inhabited

namespace ResponseReadOwnerBalances

/-- `bcs_serialize_ResponseReadOwnerBalances`. -/
def bcsSerialize (input : ResponseReadOwnerBalances) : Result Bytes :=
  serializeSeq AccountOwnerBalanceInner.bcsSerialize input.value

/-- `bcs_deserialize_offset_ResponseReadOwnerBalances`. -/
def bcsDeserializeOffset : DeserializeOffset ResponseReadOwnerBalances :=
  Decoder.map mk (deserializeOffsetSeq AccountOwnerBalanceInner.bcsDeserializeOffset)

/-- What fits in memory, and is made by the functions of the library. -/
def Valid (x : ResponseReadOwnerBalances) : Prop :=
  x.value.length ≤ maxLength ∧ (∀ y ∈ x.value, y.Valid)

theorem lawful : Lawful bcsSerialize bcsDeserializeOffset Valid :=
  (lawful_seq AccountOwnerBalanceInner.lawful).imap mk value (fun _ => rfl) fun _ _ => rfl

end ResponseReadOwnerBalances

/-- `OptionAccountOwner`. -/
structure OptionAccountOwner where
  value : Opt AccountOwner
deriving DecidableEq, Inhabited

namespace OptionAccountOwner

/-- `bcs_serialize_OptionAccountOwner`. -/
def bcsSerialize (input : OptionAccountOwner) : Result Bytes :=
  serializeOpt AccountOwner.bcsSerialize input.value

/-- `bcs_deserialize_offset_OptionAccountOwner`. -/
def bcsDeserializeOffset : DeserializeOffset OptionAccountOwner :=
  Decoder.map mk (deserializeOffsetOpt AccountOwner.bcsDeserializeOffset)

/-- What fits in memory, and is made by the functions of the library. -/
def Valid (x : OptionAccountOwner) : Prop := Opt.Valid AccountOwner.Valid x.value

theorem lawful : Lawful bcsSerialize bcsDeserializeOffset Valid :=
  (lawful_opt AccountOwner.lawful).imap mk value (fun _ => rfl) fun _ _ => rfl

end OptionAccountOwner

/-- `OptionApplicationId`. -/
structure OptionApplicationId where
  value : Opt ApplicationId
deriving DecidableEq, Inhabited

namespace OptionApplicationId

/-- `bcs_serialize_OptionApplicationId`. -/
def bcsSerialize (input : OptionApplicationId) : Result Bytes :=
  serializeOpt ApplicationId.bcsSerialize input.value

/-- `bcs_deserialize_offset_OptionApplicationId`. -/
def bcsDeserializeOffset : DeserializeOffset OptionApplicationId :=
  Decoder.map mk (deserializeOffsetOpt ApplicationId.bcsDeserializeOffset)

/-- What fits in memory, and is made by the functions of the library. -/
def Valid (x : OptionApplicationId) : Prop := Opt.Valid (fun _ => True) x.value

theorem lawful : Lawful bcsSerialize bcsDeserializeOffset Valid :=
  (lawful_opt ApplicationId.lawful).imap mk value (fun _ => rfl) fun _ _ => rfl

end OptionApplicationId

/-- `OptionChainId`. -/
structure OptionChainId where
  value : Opt ChainId
deriving DecidableEq, Inhabited

namespace OptionChainId

/-- `bcs_serialize_OptionChainId`. -/
def bcsSerialize (input : OptionChainId) : Result Bytes :=
  serializeOpt ChainId.bcsSerialize input.value

/-- `bcs_deserialize_offset_OptionChainId`. -/
def bcsDeserializeOffset : DeserializeOffset OptionChainId :=
  Decoder.map mk (deserializeOffsetOpt ChainId.bcsDeserializeOffset)

/-- What fits in memory, and is made by the functions of the library. -/
def Valid (x : OptionChainId) : Prop := Opt.Valid (fun _ => True) x.value

theorem lawful : Lawful bcsSerialize bcsDeserializeOffset Valid :=
  (lawful_opt ChainId.lawful).imap mk value (fun _ => rfl) fun _ _ => rfl

end OptionChainId

/-- `OptionU32`. -/
structure OptionU32 where
  value : Opt UInt32
deriving DecidableEq, Inhabited

namespace OptionU32

/-- `bcs_serialize_OptionU32`. -/
def bcsSerialize (input : OptionU32) : Result Bytes :=
  serializeOpt bcsSerializeUint32 input.value

/-- `bcs_deserialize_offset_OptionU32`. -/
def bcsDeserializeOffset : DeserializeOffset OptionU32 :=
  Decoder.map mk (deserializeOffsetOpt bcsDeserializeOffsetUint32)

/-- What fits in memory, and is made by the functions of the library. -/
def Valid (x : OptionU32) : Prop := Opt.Valid (fun _ => True) x.value

theorem lawful : Lawful bcsSerialize bcsDeserializeOffset Valid :=
  (lawful_opt lawful_uint32).imap mk value (fun _ => rfl) fun _ _ => rfl

end OptionU32

-- ---------------------------------------------------------------------------
-- Streams
-- ---------------------------------------------------------------------------

/-- `GenericApplicationId`. -/
structure GenericApplicationId where
  choice : UInt8
  user : ApplicationId
deriving DecidableEq, Inhabited

namespace GenericApplicationId

/-- `GenericApplicationId_case_system`. -/
def caseSystem : GenericApplicationId :=
  ⟨0, default⟩

/-- `GenericApplicationId_case_user`. -/
def caseUser (user : ApplicationId) : GenericApplicationId :=
  ⟨1, user⟩

/-- `bcs_serialize_GenericApplicationId`. -/
def bcsSerialize (input : GenericApplicationId) : Result Bytes :=
  if input.choice = 1 then do
    let bytes ← ApplicationId.bcsSerialize input.user
    return input.choice :: bytes
  else return [input.choice]

/-- `bcs_deserialize_offset_GenericApplicationId`. -/
def bcsDeserializeOffset : DeserializeOffset GenericApplicationId := fun pos input => do
  let (newPos, choice) ← bcsDeserializeOffsetUint8 pos input
  let (newPos, user) ←
    Decoder.when (choice = 1) default ApplicationId.bcsDeserializeOffset newPos input
  requireThat (choice < 2)
  return (newPos, ⟨choice, user⟩)

/-- What the functions for the cases make, of what fits in memory. -/
def Valid (x : GenericApplicationId) : Prop :=
  Present (x.choice = 1) (fun _ => True) x.user ∧
  x.choice < 2

theorem valid_iff {x : GenericApplicationId} :
    x.Valid ↔ x = caseSystem ∨ ∃ user, x = caseUser user := by
  constructor
  · intro h
    obtain ⟨choice, user⟩ := x
    obtain ⟨k, hk, rfl⟩ : ∃ k < 2, UInt8.ofNat k = choice :=
      ⟨choice.toNat, h.2, UInt8.ofNat_toNat⟩
    interval_cases k
    · obtain ⟨rfl, -⟩ := h
      exact .inl rfl
    · exact .inr ⟨user, rfl⟩
  · rintro (rfl | ⟨user, rfl⟩)
    · exact ⟨rfl, by decide⟩
    · exact ⟨trivial, of_decide_eq_true rfl⟩

theorem lawful : Lawful bcsSerialize bcsDeserializeOffset Valid := by
  have hFields := (lawful_uint8.bind
    fun c _ => ApplicationId.lawful.when (c = 1) default).guard
    (fun x => x.1 < 2) Revert.empty
  refine (hFields.imap (fun x => ⟨x.1, x.2⟩)
    (fun y => (y.choice, y.user))
    (fun _ => rfl) fun _ _ => rfl).congr ?_ ?_ ?_
  · funext y
    obtain ⟨choice, user⟩ := y
    simp only [bcsSerialize, Encoder.bind, Encoder.when, bcsSerializeUint8, pure_bind]
    by_cases h1 : choice = 1
    · simp [h1]
    simp [h1, ok_eq_pure]
  · funext pos input
    simp only [bcsDeserializeOffset, Decoder.map, Decoder.guard, Decoder.bind, bind_assoc,
      pure_bind, requireThat_bind, ite_bind]
  · intro y
    simp [Valid, Present]

end GenericApplicationId

/-- `StreamId`. -/
structure StreamId where
  applicationId : GenericApplicationId
  streamName : StreamName
deriving DecidableEq, Inhabited

namespace StreamId

/-- `bcs_serialize_StreamId`. -/
def bcsSerialize (input : StreamId) : Result Bytes := do
  let result ← GenericApplicationId.bcsSerialize input.applicationId
  let bytes ← StreamName.bcsSerialize input.streamName
  return result ++ bytes

/-- `bcs_deserialize_offset_StreamId`. -/
def bcsDeserializeOffset : DeserializeOffset StreamId := fun pos input => do
  let (newPos, applicationId) ← GenericApplicationId.bcsDeserializeOffset pos input
  let (newPos, streamName) ← StreamName.bcsDeserializeOffset newPos input
  return (newPos, ⟨applicationId, streamName⟩)

/-- What fits in memory, and is made by the functions of the library. -/
def Valid (x : StreamId) : Prop := x.applicationId.Valid ∧ x.streamName.Valid

theorem lawful : Lawful bcsSerialize bcsDeserializeOffset Valid := by
  have hFields := GenericApplicationId.lawful.bind fun _ _ => StreamName.lawful
  refine (hFields.imap (fun x => ⟨x.1, x.2⟩)
    (fun y => (y.applicationId, y.streamName)) (fun _ => rfl)
    fun _ _ => rfl).congr ?_ ?_ ?_
  · funext y
    rfl
  · funext pos input
    simp only [bcsDeserializeOffset, Decoder.map, Decoder.bind, bind_assoc, pure_bind]
  · intro y
    simp [Valid]

end StreamId

/-- `StreamUpdate`. -/
structure StreamUpdate where
  chainId : ChainId
  streamId : StreamId
  previousIndex : UInt32
  nextIndex : UInt32
deriving DecidableEq, Inhabited

namespace StreamUpdate

/-- `bcs_serialize_StreamUpdate`. -/
def bcsSerialize (input : StreamUpdate) : Result Bytes := do
  let result ← ChainId.bcsSerialize input.chainId
  let bytes ← StreamId.bcsSerialize input.streamId
  let result := result ++ bytes
  let bytes ← bcsSerializeUint32 input.previousIndex
  let result := result ++ bytes
  let bytes ← bcsSerializeUint32 input.nextIndex
  return result ++ bytes

/-- `bcs_deserialize_offset_StreamUpdate`. -/
def bcsDeserializeOffset : DeserializeOffset StreamUpdate := fun pos input => do
  let (newPos, chainId) ← ChainId.bcsDeserializeOffset pos input
  let (newPos, streamId) ← StreamId.bcsDeserializeOffset newPos input
  let (newPos, previousIndex) ← bcsDeserializeOffsetUint32 newPos input
  let (newPos, nextIndex) ← bcsDeserializeOffsetUint32 newPos input
  return (newPos, ⟨chainId, streamId, previousIndex, nextIndex⟩)

/-- What fits in memory, and is made by the functions of the library. -/
def Valid (x : StreamUpdate) : Prop := x.streamId.Valid

theorem lawful : Lawful bcsSerialize bcsDeserializeOffset Valid := by
  have hFields := ((ChainId.lawful.bind
    fun _ _ => StreamId.lawful).bind
    fun _ _ => lawful_uint32).bind
    fun _ _ => lawful_uint32
  refine (hFields.imap (fun x => ⟨x.1.1.1, x.1.1.2, x.1.2, x.2⟩)
    (fun y => (((y.chainId, y.streamId), y.previousIndex), y.nextIndex)) (fun _ => rfl)
    fun _ _ => rfl).congr ?_ ?_ ?_
  · funext y
    simp only [bcsSerialize, Encoder.bind, bind_assoc, pure_bind]
  · funext pos input
    simp only [bcsDeserializeOffset, Decoder.map, Decoder.bind, bind_assoc, pure_bind]
  · intro y
    simp [Valid]

end StreamUpdate

/-- `StreamUpdates`. -/
structure StreamUpdates where
  entries : List StreamUpdate
deriving DecidableEq, Inhabited

namespace StreamUpdates

/-- `bcs_serialize_StreamUpdates`. -/
def bcsSerialize (input : StreamUpdates) : Result Bytes :=
  serializeSeq StreamUpdate.bcsSerialize input.entries

/-- `bcs_deserialize_offset_StreamUpdates`. -/
def bcsDeserializeOffset : DeserializeOffset StreamUpdates :=
  Decoder.map mk (deserializeOffsetSeq StreamUpdate.bcsDeserializeOffset)

/-- What fits in memory, and is made by the functions of the library. -/
def Valid (x : StreamUpdates) : Prop := x.entries.length ≤ maxLength ∧ (∀ y ∈ x.entries, y.Valid)

theorem lawful : Lawful bcsSerialize bcsDeserializeOffset Valid :=
  (lawful_seq StreamUpdate.lawful).imap mk entries (fun _ => rfl) fun _ _ => rfl

end StreamUpdates

end LineraEndToEnd.LineraTypes
