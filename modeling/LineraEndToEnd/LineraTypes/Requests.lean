import LineraEndToEnd.LineraTypes.Types

/-!
# `LineraTypes.sol` — the requests

What a contract asks of the runtime: a call of the precompile carries a
`RuntimePrecompile`.

* `BaseRuntimePrecompile`, `ContractRuntimePrecompile`, `ServiceRuntimePrecompile` — the
  requests of contracts and services alike, of contracts, and of services.
* `RuntimePrecompile` — all of them.
-/

namespace LineraEndToEnd.LineraTypes

open Lib Solidity

/-- `ContractRuntimePrecompile_SendMessage`. -/
structure ContractRuntimePrecompile.SendMessage where
  destination : ChainId
  message : Bytes
deriving DecidableEq, Inhabited

namespace ContractRuntimePrecompile.SendMessage

/-- `bcs_serialize_ContractRuntimePrecompile_SendMessage`. -/
def bcsSerialize (input : SendMessage) : Result Bytes := do
  let result ← ChainId.bcsSerialize input.destination
  let bytes ← bcsSerializeBytes input.message
  return result ++ bytes

/-- `bcs_deserialize_offset_ContractRuntimePrecompile_SendMessage`. -/
def bcsDeserializeOffset : DeserializeOffset SendMessage := fun pos input => do
  let (newPos, destination) ← ChainId.bcsDeserializeOffset pos input
  let (newPos, message) ← bcsDeserializeOffsetBytes newPos input
  return (newPos, ⟨destination, message⟩)

/-- What fits in memory, and is made by the functions of the library. -/
def Valid (x : SendMessage) : Prop := x.message.length ≤ maxLength

theorem lawful : Lawful bcsSerialize bcsDeserializeOffset Valid := by
  have hFields := ChainId.lawful.bind fun _ _ => lawful_bytes
  refine (hFields.imap (fun x => ⟨x.1, x.2⟩) (fun y => (y.destination, y.message)) (fun _ => rfl)
    fun _ _ => rfl).congr ?_ ?_ ?_
  · funext y
    rfl
  · funext pos input
    simp only [bcsDeserializeOffset, Decoder.map, Decoder.bind, bind_assoc, pure_bind]
  · intro y
    simp [Valid]

end ContractRuntimePrecompile.SendMessage

/-- `ContractRuntimePrecompile_TryCallApplication`. -/
structure ContractRuntimePrecompile.TryCallApplication where
  target : ApplicationId
  argument : Bytes
deriving DecidableEq, Inhabited

namespace ContractRuntimePrecompile.TryCallApplication

/-- `bcs_serialize_ContractRuntimePrecompile_TryCallApplication`. -/
def bcsSerialize (input : TryCallApplication) : Result Bytes := do
  let result ← ApplicationId.bcsSerialize input.target
  let bytes ← bcsSerializeBytes input.argument
  return result ++ bytes

/-- `bcs_deserialize_offset_ContractRuntimePrecompile_TryCallApplication`. -/
def bcsDeserializeOffset : DeserializeOffset TryCallApplication := fun pos input => do
  let (newPos, target) ← ApplicationId.bcsDeserializeOffset pos input
  let (newPos, argument) ← bcsDeserializeOffsetBytes newPos input
  return (newPos, ⟨target, argument⟩)

/-- What fits in memory, and is made by the functions of the library. -/
def Valid (x : TryCallApplication) : Prop := x.argument.length ≤ maxLength

theorem lawful : Lawful bcsSerialize bcsDeserializeOffset Valid := by
  have hFields := ApplicationId.lawful.bind fun _ _ => lawful_bytes
  refine (hFields.imap (fun x => ⟨x.1, x.2⟩) (fun y => (y.target, y.argument)) (fun _ => rfl)
    fun _ _ => rfl).congr ?_ ?_ ?_
  · funext y
    rfl
  · funext pos input
    simp only [bcsDeserializeOffset, Decoder.map, Decoder.bind, bind_assoc, pure_bind]
  · intro y
    simp [Valid]

end ContractRuntimePrecompile.TryCallApplication

/-- `ContractRuntimePrecompile_Emit`. -/
structure ContractRuntimePrecompile.Emit where
  streamName : StreamName
  value : Bytes
deriving DecidableEq, Inhabited

namespace ContractRuntimePrecompile.Emit

/-- `bcs_serialize_ContractRuntimePrecompile_Emit`. -/
def bcsSerialize (input : Emit) : Result Bytes := do
  let result ← StreamName.bcsSerialize input.streamName
  let bytes ← bcsSerializeBytes input.value
  return result ++ bytes

/-- `bcs_deserialize_offset_ContractRuntimePrecompile_Emit`. -/
def bcsDeserializeOffset : DeserializeOffset Emit := fun pos input => do
  let (newPos, streamName) ← StreamName.bcsDeserializeOffset pos input
  let (newPos, value) ← bcsDeserializeOffsetBytes newPos input
  return (newPos, ⟨streamName, value⟩)

/-- What fits in memory, and is made by the functions of the library. -/
def Valid (x : Emit) : Prop := x.streamName.Valid ∧ x.value.length ≤ maxLength

theorem lawful : Lawful bcsSerialize bcsDeserializeOffset Valid := by
  have hFields := StreamName.lawful.bind fun _ _ => lawful_bytes
  refine (hFields.imap (fun x => ⟨x.1, x.2⟩) (fun y => (y.streamName, y.value)) (fun _ => rfl)
    fun _ _ => rfl).congr ?_ ?_ ?_
  · funext y
    rfl
  · funext pos input
    simp only [bcsDeserializeOffset, Decoder.map, Decoder.bind, bind_assoc, pure_bind]
  · intro y
    simp [Valid]

end ContractRuntimePrecompile.Emit

/-- `ContractRuntimePrecompile_ReadEvent`. -/
structure ContractRuntimePrecompile.ReadEvent where
  chainId : ChainId
  streamName : StreamName
  index : UInt32
deriving DecidableEq, Inhabited

namespace ContractRuntimePrecompile.ReadEvent

/-- `bcs_serialize_ContractRuntimePrecompile_ReadEvent`. -/
def bcsSerialize (input : ReadEvent) : Result Bytes := do
  let result ← ChainId.bcsSerialize input.chainId
  let bytes ← StreamName.bcsSerialize input.streamName
  let result := result ++ bytes
  let bytes ← bcsSerializeUint32 input.index
  return result ++ bytes

/-- `bcs_deserialize_offset_ContractRuntimePrecompile_ReadEvent`. -/
def bcsDeserializeOffset : DeserializeOffset ReadEvent := fun pos input => do
  let (newPos, chainId) ← ChainId.bcsDeserializeOffset pos input
  let (newPos, streamName) ← StreamName.bcsDeserializeOffset newPos input
  let (newPos, index) ← bcsDeserializeOffsetUint32 newPos input
  return (newPos, ⟨chainId, streamName, index⟩)

/-- What fits in memory, and is made by the functions of the library. -/
def Valid (x : ReadEvent) : Prop := x.streamName.Valid

theorem lawful : Lawful bcsSerialize bcsDeserializeOffset Valid := by
  have hFields := (ChainId.lawful.bind fun _ _ => StreamName.lawful).bind fun _ _ => lawful_uint32
  refine (hFields.imap (fun x => ⟨x.1.1, x.1.2, x.2⟩)
    (fun y => ((y.chainId, y.streamName), y.index)) (fun _ => rfl)
    fun _ _ => rfl).congr ?_ ?_ ?_
  · funext y
    simp only [bcsSerialize, Encoder.bind, bind_assoc, pure_bind]
  · funext pos input
    simp only [bcsDeserializeOffset, Decoder.map, Decoder.bind, bind_assoc, pure_bind]
  · intro y
    simp [Valid]

end ContractRuntimePrecompile.ReadEvent

/-- `ContractRuntimePrecompile_SubscribeToEvents`. -/
structure ContractRuntimePrecompile.SubscribeToEvents where
  chainId : ChainId
  applicationId : ApplicationId
  streamName : StreamName
deriving DecidableEq, Inhabited

namespace ContractRuntimePrecompile.SubscribeToEvents

/-- `bcs_serialize_ContractRuntimePrecompile_SubscribeToEvents`. -/
def bcsSerialize (input : SubscribeToEvents) : Result Bytes := do
  let result ← ChainId.bcsSerialize input.chainId
  let bytes ← ApplicationId.bcsSerialize input.applicationId
  let result := result ++ bytes
  let bytes ← StreamName.bcsSerialize input.streamName
  return result ++ bytes

/-- `bcs_deserialize_offset_ContractRuntimePrecompile_SubscribeToEvents`. -/
def bcsDeserializeOffset : DeserializeOffset SubscribeToEvents := fun pos input => do
  let (newPos, chainId) ← ChainId.bcsDeserializeOffset pos input
  let (newPos, applicationId) ← ApplicationId.bcsDeserializeOffset newPos input
  let (newPos, streamName) ← StreamName.bcsDeserializeOffset newPos input
  return (newPos, ⟨chainId, applicationId, streamName⟩)

/-- What fits in memory, and is made by the functions of the library. -/
def Valid (x : SubscribeToEvents) : Prop := x.streamName.Valid

theorem lawful : Lawful bcsSerialize bcsDeserializeOffset Valid := by
  have hFields := (ChainId.lawful.bind
    fun _ _ => ApplicationId.lawful).bind
    fun _ _ => StreamName.lawful
  refine (hFields.imap (fun x => ⟨x.1.1, x.1.2, x.2⟩)
    (fun y => ((y.chainId, y.applicationId), y.streamName)) (fun _ => rfl)
    fun _ _ => rfl).congr ?_ ?_ ?_
  · funext y
    simp only [bcsSerialize, Encoder.bind, bind_assoc, pure_bind]
  · funext pos input
    simp only [bcsDeserializeOffset, Decoder.map, Decoder.bind, bind_assoc, pure_bind]
  · intro y
    simp [Valid]

end ContractRuntimePrecompile.SubscribeToEvents

/-- `ContractRuntimePrecompile_UnsubscribeFromEvents`. -/
structure ContractRuntimePrecompile.UnsubscribeFromEvents where
  chainId : ChainId
  applicationId : ApplicationId
  streamName : StreamName
deriving DecidableEq, Inhabited

namespace ContractRuntimePrecompile.UnsubscribeFromEvents

/-- `bcs_serialize_ContractRuntimePrecompile_UnsubscribeFromEvents`. -/
def bcsSerialize (input : UnsubscribeFromEvents) : Result Bytes := do
  let result ← ChainId.bcsSerialize input.chainId
  let bytes ← ApplicationId.bcsSerialize input.applicationId
  let result := result ++ bytes
  let bytes ← StreamName.bcsSerialize input.streamName
  return result ++ bytes

/-- `bcs_deserialize_offset_ContractRuntimePrecompile_UnsubscribeFromEvents`. -/
def bcsDeserializeOffset : DeserializeOffset UnsubscribeFromEvents := fun pos input => do
  let (newPos, chainId) ← ChainId.bcsDeserializeOffset pos input
  let (newPos, applicationId) ← ApplicationId.bcsDeserializeOffset newPos input
  let (newPos, streamName) ← StreamName.bcsDeserializeOffset newPos input
  return (newPos, ⟨chainId, applicationId, streamName⟩)

/-- What fits in memory, and is made by the functions of the library. -/
def Valid (x : UnsubscribeFromEvents) : Prop := x.streamName.Valid

theorem lawful : Lawful bcsSerialize bcsDeserializeOffset Valid := by
  have hFields := (ChainId.lawful.bind
    fun _ _ => ApplicationId.lawful).bind
    fun _ _ => StreamName.lawful
  refine (hFields.imap (fun x => ⟨x.1.1, x.1.2, x.2⟩)
    (fun y => ((y.chainId, y.applicationId), y.streamName)) (fun _ => rfl)
    fun _ _ => rfl).congr ?_ ?_ ?_
  · funext y
    simp only [bcsSerialize, Encoder.bind, bind_assoc, pure_bind]
  · funext pos input
    simp only [bcsDeserializeOffset, Decoder.map, Decoder.bind, bind_assoc, pure_bind]
  · intro y
    simp [Valid]

end ContractRuntimePrecompile.UnsubscribeFromEvents

/-- `ContractRuntimePrecompile_QueryService`. -/
structure ContractRuntimePrecompile.QueryService where
  applicationId : ApplicationId
  query : Bytes
deriving DecidableEq, Inhabited

namespace ContractRuntimePrecompile.QueryService

/-- `bcs_serialize_ContractRuntimePrecompile_QueryService`. -/
def bcsSerialize (input : QueryService) : Result Bytes := do
  let result ← ApplicationId.bcsSerialize input.applicationId
  let bytes ← bcsSerializeBytes input.query
  return result ++ bytes

/-- `bcs_deserialize_offset_ContractRuntimePrecompile_QueryService`. -/
def bcsDeserializeOffset : DeserializeOffset QueryService := fun pos input => do
  let (newPos, applicationId) ← ApplicationId.bcsDeserializeOffset pos input
  let (newPos, query) ← bcsDeserializeOffsetBytes newPos input
  return (newPos, ⟨applicationId, query⟩)

/-- What fits in memory, and is made by the functions of the library. -/
def Valid (x : QueryService) : Prop := x.query.length ≤ maxLength

theorem lawful : Lawful bcsSerialize bcsDeserializeOffset Valid := by
  have hFields := ApplicationId.lawful.bind fun _ _ => lawful_bytes
  refine (hFields.imap (fun x => ⟨x.1, x.2⟩) (fun y => (y.applicationId, y.query)) (fun _ => rfl)
    fun _ _ => rfl).congr ?_ ?_ ?_
  · funext y
    rfl
  · funext pos input
    simp only [bcsDeserializeOffset, Decoder.map, Decoder.bind, bind_assoc, pure_bind]
  · intro y
    simp [Valid]

end ContractRuntimePrecompile.QueryService

/-- `ServiceRuntimePrecompile_TryQueryApplication`. -/
structure ServiceRuntimePrecompile.TryQueryApplication where
  target : ApplicationId
  argument : Bytes
deriving DecidableEq, Inhabited

namespace ServiceRuntimePrecompile.TryQueryApplication

/-- `bcs_serialize_ServiceRuntimePrecompile_TryQueryApplication`. -/
def bcsSerialize (input : TryQueryApplication) : Result Bytes := do
  let result ← ApplicationId.bcsSerialize input.target
  let bytes ← bcsSerializeBytes input.argument
  return result ++ bytes

/-- `bcs_deserialize_offset_ServiceRuntimePrecompile_TryQueryApplication`. -/
def bcsDeserializeOffset : DeserializeOffset TryQueryApplication := fun pos input => do
  let (newPos, target) ← ApplicationId.bcsDeserializeOffset pos input
  let (newPos, argument) ← bcsDeserializeOffsetBytes newPos input
  return (newPos, ⟨target, argument⟩)

/-- What fits in memory, and is made by the functions of the library. -/
def Valid (x : TryQueryApplication) : Prop := x.argument.length ≤ maxLength

theorem lawful : Lawful bcsSerialize bcsDeserializeOffset Valid := by
  have hFields := ApplicationId.lawful.bind fun _ _ => lawful_bytes
  refine (hFields.imap (fun x => ⟨x.1, x.2⟩) (fun y => (y.target, y.argument)) (fun _ => rfl)
    fun _ _ => rfl).congr ?_ ?_ ?_
  · funext y
    rfl
  · funext pos input
    simp only [bcsDeserializeOffset, Decoder.map, Decoder.bind, bind_assoc, pure_bind]
  · intro y
    simp [Valid]

end ServiceRuntimePrecompile.TryQueryApplication

/-- `BaseRuntimePrecompile`. -/
structure BaseRuntimePrecompile where
  choice : UInt8
  readOwnerBalance : AccountOwner
  readDataBlob : DataBlobHash
  assertDataBlobExists : DataBlobHash
deriving DecidableEq, Inhabited

namespace BaseRuntimePrecompile

/-- `BaseRuntimePrecompile_case_chain_id`. -/
def caseChainId : BaseRuntimePrecompile :=
  ⟨0, default, default, default⟩

/-- `BaseRuntimePrecompile_case_block_height`. -/
def caseBlockHeight : BaseRuntimePrecompile :=
  ⟨1, default, default, default⟩

/-- `BaseRuntimePrecompile_case_application_creator_chain_id`. -/
def caseApplicationCreatorChainId : BaseRuntimePrecompile :=
  ⟨2, default, default, default⟩

/-- `BaseRuntimePrecompile_case_read_system_timestamp`. -/
def caseReadSystemTimestamp : BaseRuntimePrecompile :=
  ⟨3, default, default, default⟩

/-- `BaseRuntimePrecompile_case_read_chain_balance`. -/
def caseReadChainBalance : BaseRuntimePrecompile :=
  ⟨4, default, default, default⟩

/-- `BaseRuntimePrecompile_case_read_owner_balance`. -/
def caseReadOwnerBalance (readOwnerBalance : AccountOwner) : BaseRuntimePrecompile :=
  ⟨5, readOwnerBalance, default, default⟩

/-- `BaseRuntimePrecompile_case_read_owner_balances`. -/
def caseReadOwnerBalances : BaseRuntimePrecompile :=
  ⟨6, default, default, default⟩

/-- `BaseRuntimePrecompile_case_read_balance_owners`. -/
def caseReadBalanceOwners : BaseRuntimePrecompile :=
  ⟨7, default, default, default⟩

/-- `BaseRuntimePrecompile_case_chain_ownership`. -/
def caseChainOwnership : BaseRuntimePrecompile :=
  ⟨8, default, default, default⟩

/-- `BaseRuntimePrecompile_case_read_data_blob`. -/
def caseReadDataBlob (readDataBlob : DataBlobHash) : BaseRuntimePrecompile :=
  ⟨9, default, readDataBlob, default⟩

/-- `BaseRuntimePrecompile_case_assert_data_blob_exists`. -/
def caseAssertDataBlobExists (assertDataBlobExists : DataBlobHash) : BaseRuntimePrecompile :=
  ⟨10, default, default, assertDataBlobExists⟩

/-- `bcs_serialize_BaseRuntimePrecompile`. -/
def bcsSerialize (input : BaseRuntimePrecompile) : Result Bytes :=
  if input.choice = 5 then do
    let bytes ← AccountOwner.bcsSerialize input.readOwnerBalance
    return input.choice :: bytes
  else if input.choice = 9 then do
    let bytes ← DataBlobHash.bcsSerialize input.readDataBlob
    return input.choice :: bytes
  else if input.choice = 10 then do
    let bytes ← DataBlobHash.bcsSerialize input.assertDataBlobExists
    return input.choice :: bytes
  else return [input.choice]

/-- `bcs_deserialize_offset_BaseRuntimePrecompile`. -/
def bcsDeserializeOffset : DeserializeOffset BaseRuntimePrecompile := fun pos input => do
  let (newPos, choice) ← bcsDeserializeOffsetUint8 pos input
  let (newPos, readOwnerBalance) ←
    Decoder.when (choice = 5) default AccountOwner.bcsDeserializeOffset newPos input
  let (newPos, readDataBlob) ←
    Decoder.when (choice = 9) default DataBlobHash.bcsDeserializeOffset newPos input
  let (newPos, assertDataBlobExists) ←
    Decoder.when (choice = 10) default DataBlobHash.bcsDeserializeOffset newPos input
  requireThat (choice < 11)
  return (newPos, ⟨choice, readOwnerBalance, readDataBlob, assertDataBlobExists⟩)

/-- What the functions for the cases make, of what fits in memory. -/
def Valid (x : BaseRuntimePrecompile) : Prop :=
  Present (x.choice = 5) AccountOwner.Valid x.readOwnerBalance ∧
  Present (x.choice = 9) (fun _ => True) x.readDataBlob ∧
  Present (x.choice = 10) (fun _ => True) x.assertDataBlobExists ∧
  x.choice < 11

theorem lawful : Lawful bcsSerialize bcsDeserializeOffset Valid := by
  have hFields := (((lawful_uint8.bind
    fun c _ => AccountOwner.lawful.when (c = 5) default).bind
    fun x _ => DataBlobHash.lawful.when (x.1 = 9) default).bind
    fun x _ => DataBlobHash.lawful.when (x.1.1 = 10) default).guard
    (fun x => x.1.1.1 < 11) Revert.empty
  refine (hFields.imap (fun x => ⟨x.1.1.1, x.1.1.2, x.1.2, x.2⟩)
    (fun y => (((y.choice, y.readOwnerBalance), y.readDataBlob), y.assertDataBlobExists))
    (fun _ => rfl) fun _ _ => rfl).congr ?_ ?_ ?_
  · funext y
    obtain ⟨choice, readOwnerBalance, readDataBlob, assertDataBlobExists⟩ := y
    simp only [bcsSerialize, Encoder.bind, Encoder.when, bcsSerializeUint8, pure_bind]
    by_cases h5 : choice = 5
    · simp [h5, ok_eq_pure]
    by_cases h9 : choice = 9
    · simp [h9, ok_eq_pure]
    by_cases h10 : choice = 10
    · simp [h10, ok_eq_pure]
    simp [h5, h9, h10, ok_eq_pure]
  · funext pos input
    simp only [bcsDeserializeOffset, Decoder.map, Decoder.guard, Decoder.bind, bind_assoc,
      pure_bind, requireThat_bind, ite_bind]
  · intro y
    simp [Valid, Present, and_assoc]

end BaseRuntimePrecompile

/-- `ContractRuntimePrecompile`. -/
structure ContractRuntimePrecompile where
  choice : UInt8
  sendMessage : ContractRuntimePrecompile.SendMessage
  tryCallApplication : ContractRuntimePrecompile.TryCallApplication
  emit : ContractRuntimePrecompile.Emit
  readEvent : ContractRuntimePrecompile.ReadEvent
  subscribeToEvents : ContractRuntimePrecompile.SubscribeToEvents
  unsubscribeFromEvents : ContractRuntimePrecompile.UnsubscribeFromEvents
  queryService : ContractRuntimePrecompile.QueryService
deriving DecidableEq, Inhabited

namespace ContractRuntimePrecompile

/-- `ContractRuntimePrecompile_case_authenticated_signer`. -/
def caseAuthenticatedSigner : ContractRuntimePrecompile :=
  ⟨0, default, default, default, default, default, default, default⟩

/-- `ContractRuntimePrecompile_case_message_origin_chain_id`. -/
def caseMessageOriginChainId : ContractRuntimePrecompile :=
  ⟨1, default, default, default, default, default, default, default⟩

/-- `ContractRuntimePrecompile_case_message_is_bouncing`. -/
def caseMessageIsBouncing : ContractRuntimePrecompile :=
  ⟨2, default, default, default, default, default, default, default⟩

/-- `ContractRuntimePrecompile_case_authenticated_caller_id`. -/
def caseAuthenticatedCallerId : ContractRuntimePrecompile :=
  ⟨3, default, default, default, default, default, default, default⟩

/-- `ContractRuntimePrecompile_case_send_message`. -/
def caseSendMessage (sendMessage : SendMessage) : ContractRuntimePrecompile :=
  ⟨4, sendMessage, default, default, default, default, default, default⟩

/-- `ContractRuntimePrecompile_case_try_call_application`. -/
def caseTryCallApplication (tryCallApplication : TryCallApplication) : ContractRuntimePrecompile :=
  ⟨5, default, tryCallApplication, default, default, default, default, default⟩

/-- `ContractRuntimePrecompile_case_emit`. -/
def caseEmit (emit : Emit) : ContractRuntimePrecompile :=
  ⟨6, default, default, emit, default, default, default, default⟩

/-- `ContractRuntimePrecompile_case_read_event`. -/
def caseReadEvent (readEvent : ReadEvent) : ContractRuntimePrecompile :=
  ⟨7, default, default, default, readEvent, default, default, default⟩

/-- `ContractRuntimePrecompile_case_subscribe_to_events`. -/
def caseSubscribeToEvents (subscribeToEvents : SubscribeToEvents) : ContractRuntimePrecompile :=
  ⟨8, default, default, default, default, subscribeToEvents, default, default⟩

/-- `ContractRuntimePrecompile_case_unsubscribe_from_events`. -/
def caseUnsubscribeFromEvents (unsubscribeFromEvents : UnsubscribeFromEvents) :
    ContractRuntimePrecompile :=
  ⟨9, default, default, default, default, default, unsubscribeFromEvents, default⟩

/-- `ContractRuntimePrecompile_case_query_service`. -/
def caseQueryService (queryService : QueryService) : ContractRuntimePrecompile :=
  ⟨10, default, default, default, default, default, default, queryService⟩

/-- `ContractRuntimePrecompile_case_validation_round`. -/
def caseValidationRound : ContractRuntimePrecompile :=
  ⟨11, default, default, default, default, default, default, default⟩

/-- `bcs_serialize_ContractRuntimePrecompile`. -/
def bcsSerialize (input : ContractRuntimePrecompile) : Result Bytes :=
  if input.choice = 4 then do
    let bytes ← SendMessage.bcsSerialize input.sendMessage
    return input.choice :: bytes
  else if input.choice = 5 then do
    let bytes ← TryCallApplication.bcsSerialize input.tryCallApplication
    return input.choice :: bytes
  else if input.choice = 6 then do
    let bytes ← Emit.bcsSerialize input.emit
    return input.choice :: bytes
  else if input.choice = 7 then do
    let bytes ← ReadEvent.bcsSerialize input.readEvent
    return input.choice :: bytes
  else if input.choice = 8 then do
    let bytes ← SubscribeToEvents.bcsSerialize input.subscribeToEvents
    return input.choice :: bytes
  else if input.choice = 9 then do
    let bytes ← UnsubscribeFromEvents.bcsSerialize input.unsubscribeFromEvents
    return input.choice :: bytes
  else if input.choice = 10 then do
    let bytes ← QueryService.bcsSerialize input.queryService
    return input.choice :: bytes
  else return [input.choice]

/-- `bcs_deserialize_offset_ContractRuntimePrecompile`. -/
def bcsDeserializeOffset : DeserializeOffset ContractRuntimePrecompile := fun pos input => do
  let (newPos, choice) ← bcsDeserializeOffsetUint8 pos input
  let (newPos, sendMessage) ←
    Decoder.when (choice = 4) default SendMessage.bcsDeserializeOffset newPos input
  let (newPos, tryCallApplication) ←
    Decoder.when (choice = 5) default TryCallApplication.bcsDeserializeOffset newPos input
  let (newPos, emit) ← Decoder.when (choice = 6) default Emit.bcsDeserializeOffset newPos input
  let (newPos, readEvent) ←
    Decoder.when (choice = 7) default ReadEvent.bcsDeserializeOffset newPos input
  let (newPos, subscribeToEvents) ←
    Decoder.when (choice = 8) default SubscribeToEvents.bcsDeserializeOffset newPos input
  let (newPos, unsubscribeFromEvents) ←
    Decoder.when (choice = 9) default UnsubscribeFromEvents.bcsDeserializeOffset newPos input
  let (newPos, queryService) ←
    Decoder.when (choice = 10) default QueryService.bcsDeserializeOffset newPos input
  requireThat (choice < 12)
  return (newPos, ⟨choice, sendMessage, tryCallApplication, emit, readEvent, subscribeToEvents,
    unsubscribeFromEvents, queryService⟩)

/-- What the functions for the cases make, of what fits in memory. -/
def Valid (x : ContractRuntimePrecompile) : Prop :=
  Present (x.choice = 4) SendMessage.Valid x.sendMessage ∧
  Present (x.choice = 5) TryCallApplication.Valid x.tryCallApplication ∧
  Present (x.choice = 6) Emit.Valid x.emit ∧
  Present (x.choice = 7) ReadEvent.Valid x.readEvent ∧
  Present (x.choice = 8) SubscribeToEvents.Valid x.subscribeToEvents ∧
  Present (x.choice = 9) UnsubscribeFromEvents.Valid x.unsubscribeFromEvents ∧
  Present (x.choice = 10) QueryService.Valid x.queryService ∧
  x.choice < 12

theorem lawful : Lawful bcsSerialize bcsDeserializeOffset Valid := by
  have hFields := (((((((lawful_uint8.bind
    fun c _ => SendMessage.lawful.when (c = 4) default).bind
    fun x _ => TryCallApplication.lawful.when (x.1 = 5) default).bind
    fun x _ => Emit.lawful.when (x.1.1 = 6) default).bind
    fun x _ => ReadEvent.lawful.when (x.1.1.1 = 7) default).bind
    fun x _ => SubscribeToEvents.lawful.when (x.1.1.1.1 = 8) default).bind
    fun x _ => UnsubscribeFromEvents.lawful.when (x.1.1.1.1.1 = 9) default).bind
    fun x _ => QueryService.lawful.when (x.1.1.1.1.1.1 = 10) default).guard
    (fun x => x.1.1.1.1.1.1.1 < 12) Revert.empty
  refine (hFields.imap
    (fun x => ⟨x.1.1.1.1.1.1.1, x.1.1.1.1.1.1.2, x.1.1.1.1.1.2, x.1.1.1.1.2,
      x.1.1.1.2, x.1.1.2, x.1.2, x.2⟩)
    (fun y => (((((((y.choice, y.sendMessage), y.tryCallApplication), y.emit),
      y.readEvent), y.subscribeToEvents), y.unsubscribeFromEvents), y.queryService))
    (fun _ => rfl) fun _ _ => rfl).congr ?_ ?_ ?_
  · funext y
    obtain ⟨choice, sendMessage, tryCallApplication, emit, readEvent, subscribeToEvents,
      unsubscribeFromEvents, queryService⟩ := y
    simp only [bcsSerialize, Encoder.bind, Encoder.when, bcsSerializeUint8, pure_bind]
    by_cases h4 : choice = 4
    · simp [h4, ok_eq_pure]
    by_cases h5 : choice = 5
    · simp [h5, ok_eq_pure]
    by_cases h6 : choice = 6
    · simp [h6, ok_eq_pure]
    by_cases h7 : choice = 7
    · simp [h7, ok_eq_pure]
    by_cases h8 : choice = 8
    · simp [h8, ok_eq_pure]
    by_cases h9 : choice = 9
    · simp [h9, ok_eq_pure]
    by_cases h10 : choice = 10
    · simp [h10, ok_eq_pure]
    simp [h4, h5, h6, h7, h8, h9, h10, ok_eq_pure]
  · funext pos input
    simp only [bcsDeserializeOffset, Decoder.map, Decoder.guard, Decoder.bind, bind_assoc,
      pure_bind, requireThat_bind, ite_bind]
  · intro y
    simp [Valid, Present, and_assoc]

end ContractRuntimePrecompile

/-- `ServiceRuntimePrecompile`. -/
structure ServiceRuntimePrecompile where
  choice : UInt8
  tryQueryApplication : ServiceRuntimePrecompile.TryQueryApplication
deriving DecidableEq, Inhabited

namespace ServiceRuntimePrecompile

/-- `ServiceRuntimePrecompile_case_try_query_application`. -/
def caseTryQueryApplication (tryQueryApplication : TryQueryApplication) :
    ServiceRuntimePrecompile :=
  ⟨0, tryQueryApplication⟩

/-- `bcs_serialize_ServiceRuntimePrecompile`. -/
def bcsSerialize (input : ServiceRuntimePrecompile) : Result Bytes :=
  if input.choice = 0 then do
    let bytes ← TryQueryApplication.bcsSerialize input.tryQueryApplication
    return input.choice :: bytes
  else return [input.choice]

/-- `bcs_deserialize_offset_ServiceRuntimePrecompile`. -/
def bcsDeserializeOffset : DeserializeOffset ServiceRuntimePrecompile := fun pos input => do
  let (newPos, choice) ← bcsDeserializeOffsetUint8 pos input
  let (newPos, tryQueryApplication) ←
    Decoder.when (choice = 0) default TryQueryApplication.bcsDeserializeOffset newPos input
  requireThat (choice < 1)
  return (newPos, ⟨choice, tryQueryApplication⟩)

/-- What the functions for the cases make, of what fits in memory. -/
def Valid (x : ServiceRuntimePrecompile) : Prop :=
  Present (x.choice = 0) TryQueryApplication.Valid x.tryQueryApplication ∧
  x.choice < 1

theorem lawful : Lawful bcsSerialize bcsDeserializeOffset Valid := by
  have hFields := (lawful_uint8.bind
    fun c _ => TryQueryApplication.lawful.when (c = 0) default).guard
    (fun x => x.1 < 1) Revert.empty
  refine (hFields.imap (fun x => ⟨x.1, x.2⟩)
    (fun y => (y.choice, y.tryQueryApplication))
    (fun _ => rfl) fun _ _ => rfl).congr ?_ ?_ ?_
  · funext y
    obtain ⟨choice, tryQueryApplication⟩ := y
    simp only [bcsSerialize, Encoder.bind, Encoder.when, bcsSerializeUint8, pure_bind]
    by_cases h0 : choice = 0
    · simp [h0]
    simp [h0, ok_eq_pure]
  · funext pos input
    simp only [bcsDeserializeOffset, Decoder.map, Decoder.guard, Decoder.bind, bind_assoc,
      pure_bind, requireThat_bind, ite_bind]
  · intro y
    simp [Valid, Present]

end ServiceRuntimePrecompile

/-- `RuntimePrecompile`. -/
structure RuntimePrecompile where
  choice : UInt8
  base : BaseRuntimePrecompile
  contract : ContractRuntimePrecompile
  service : ServiceRuntimePrecompile
deriving DecidableEq, Inhabited

namespace RuntimePrecompile

/-- `RuntimePrecompile_case_base`. -/
def caseBase (base : BaseRuntimePrecompile) : RuntimePrecompile :=
  ⟨0, base, default, default⟩

/-- `RuntimePrecompile_case_contract`. -/
def caseContract (contract : ContractRuntimePrecompile) : RuntimePrecompile :=
  ⟨1, default, contract, default⟩

/-- `RuntimePrecompile_case_service`. -/
def caseService (service : ServiceRuntimePrecompile) : RuntimePrecompile :=
  ⟨2, default, default, service⟩

/-- `bcs_serialize_RuntimePrecompile`. -/
def bcsSerialize (input : RuntimePrecompile) : Result Bytes :=
  if input.choice = 0 then do
    let bytes ← BaseRuntimePrecompile.bcsSerialize input.base
    return input.choice :: bytes
  else if input.choice = 1 then do
    let bytes ← ContractRuntimePrecompile.bcsSerialize input.contract
    return input.choice :: bytes
  else if input.choice = 2 then do
    let bytes ← ServiceRuntimePrecompile.bcsSerialize input.service
    return input.choice :: bytes
  else return [input.choice]

/-- `bcs_deserialize_offset_RuntimePrecompile`. -/
def bcsDeserializeOffset : DeserializeOffset RuntimePrecompile := fun pos input => do
  let (newPos, choice) ← bcsDeserializeOffsetUint8 pos input
  let (newPos, base) ←
    Decoder.when (choice = 0) default BaseRuntimePrecompile.bcsDeserializeOffset newPos input
  let (newPos, contract) ←
    Decoder.when (choice = 1) default ContractRuntimePrecompile.bcsDeserializeOffset newPos input
  let (newPos, service) ←
    Decoder.when (choice = 2) default ServiceRuntimePrecompile.bcsDeserializeOffset newPos input
  requireThat (choice < 3)
  return (newPos, ⟨choice, base, contract, service⟩)

/-- What the functions for the cases make, of what fits in memory. -/
def Valid (x : RuntimePrecompile) : Prop :=
  Present (x.choice = 0) BaseRuntimePrecompile.Valid x.base ∧
  Present (x.choice = 1) ContractRuntimePrecompile.Valid x.contract ∧
  Present (x.choice = 2) ServiceRuntimePrecompile.Valid x.service ∧
  x.choice < 3

theorem lawful : Lawful bcsSerialize bcsDeserializeOffset Valid := by
  have hFields := (((lawful_uint8.bind
    fun c _ => BaseRuntimePrecompile.lawful.when (c = 0) default).bind
    fun x _ => ContractRuntimePrecompile.lawful.when (x.1 = 1) default).bind
    fun x _ => ServiceRuntimePrecompile.lawful.when (x.1.1 = 2) default).guard
    (fun x => x.1.1.1 < 3) Revert.empty
  refine (hFields.imap (fun x => ⟨x.1.1.1, x.1.1.2, x.1.2, x.2⟩)
    (fun y => (((y.choice, y.base), y.contract), y.service))
    (fun _ => rfl) fun _ _ => rfl).congr ?_ ?_ ?_
  · funext y
    obtain ⟨choice, base, contract, service⟩ := y
    simp only [bcsSerialize, Encoder.bind, Encoder.when, bcsSerializeUint8, pure_bind]
    by_cases h0 : choice = 0
    · simp [h0, ok_eq_pure]
    by_cases h1 : choice = 1
    · simp [h1, ok_eq_pure]
    by_cases h2 : choice = 2
    · simp [h2, ok_eq_pure]
    simp [h0, h1, h2, ok_eq_pure]
  · funext pos input
    simp only [bcsDeserializeOffset, Decoder.map, Decoder.guard, Decoder.bind, bind_assoc,
      pure_bind, requireThat_bind, ite_bind]
  · intro y
    simp [Valid, Present, and_assoc]

end RuntimePrecompile

end LineraEndToEnd.LineraTypes
