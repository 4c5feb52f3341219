import LineraEndToEnd.LineraTypes.Exports
import LineraEndToEnd.LineraTypes.Requests

/-!
# `Linera.sol` — what contracts ask of the runtime

Every function of the library `Linera` makes a request, writes it, calls the precompile with
it, and reads the reply to its end.

* `Call` — the functions with their arguments; `Call.request` — the request they make.
* `Call.request_ofRequest` — every valid request is one that a function makes.
* `Reply` — how a reply is written, read and returned; `Call.perform` — the function.
* `lengths_read`, `requests_read_back`, `requests_accepted`, `requests_apart`, `requests_end`,
  `calls_answered`, `replies_read`, `updates_read` — the results.
-/

namespace LineraEndToEnd.LineraTypes

open Lib Solidity

-- ---------------------------------------------------------------------------
-- The requests
-- ---------------------------------------------------------------------------

/-- The functions of `Linera`, with their arguments. -/
inductive Call
  | chainId
  | blockHeight
  | applicationCreatorChainId
  | readSystemTimestamp
  | readChainBalance
  | readOwnerBalance (owner : Linera.AccountOwner)
  | readOwnerBalances
  | readBalanceOwners
  | chainOwnership
  | readDataBlob (hash : BytesN 32)
  | assertDataBlobExists (hash : BytesN 32)
  | authenticatedSigner
  | messageOriginChainId
  | messageIsBouncing
  | authenticatedCallerId
  | sendMessage (chainId1 : BytesN 32) (message : Bytes)
  | tryCallApplication (universalAddress : BytesN 32) (operation : Bytes)
  | lineraEmit (streamName value : Bytes)
  | readEvent (chainId1 : BytesN 32) (streamName : Bytes) (index : UInt32)
  | subscribeToEvents (chainId1 subscribedApplicationId : BytesN 32) (streamName : Bytes)
  | unsubscribeFromEvents (chainId1 unsubscribeApplicationId : BytesN 32) (streamName : Bytes)
  | queryService (universalAddress : BytesN 32) (query : Bytes)
  | validationRound
  | tryQueryApplication (universalAddress : BytesN 32) (argument : Bytes)
deriving DecidableEq

namespace Call

/-- `input1`: the request. -/
def request : Call → RuntimePrecompile
  | chainId => .caseBase .caseChainId
  | blockHeight => .caseBase .caseBlockHeight
  | applicationCreatorChainId => .caseBase .caseApplicationCreatorChainId
  | readSystemTimestamp => .caseBase .caseReadSystemTimestamp
  | readChainBalance => .caseBase .caseReadChainBalance
  | readOwnerBalance owner => .caseBase (.caseReadOwnerBalance (Linera.accountownerTo owner))
  | readOwnerBalances => .caseBase .caseReadOwnerBalances
  | readBalanceOwners => .caseBase .caseReadBalanceOwners
  | chainOwnership => .caseBase .caseChainOwnership
  | readDataBlob hash => .caseBase (.caseReadDataBlob ⟨⟨hash⟩⟩)
  | assertDataBlobExists hash => .caseBase (.caseAssertDataBlobExists ⟨⟨hash⟩⟩)
  | authenticatedSigner => .caseContract .caseAuthenticatedSigner
  | messageOriginChainId => .caseContract .caseMessageOriginChainId
  | messageIsBouncing => .caseContract .caseMessageIsBouncing
  | authenticatedCallerId => .caseContract .caseAuthenticatedCallerId
  | sendMessage chain message => .caseContract (.caseSendMessage ⟨⟨⟨chain⟩⟩, message⟩)
  | tryCallApplication target operation =>
    .caseContract (.caseTryCallApplication ⟨⟨⟨target⟩⟩, operation⟩)
  | lineraEmit streamName value => .caseContract (.caseEmit ⟨⟨streamName⟩, value⟩)
  | readEvent chain streamName index =>
    .caseContract (.caseReadEvent ⟨⟨⟨chain⟩⟩, ⟨streamName⟩, index⟩)
  | subscribeToEvents chain application streamName =>
    .caseContract (.caseSubscribeToEvents ⟨⟨⟨chain⟩⟩, ⟨⟨application⟩⟩, ⟨streamName⟩⟩)
  | unsubscribeFromEvents chain application streamName =>
    .caseContract (.caseUnsubscribeFromEvents ⟨⟨⟨chain⟩⟩, ⟨⟨application⟩⟩, ⟨streamName⟩⟩)
  | queryService target query => .caseContract (.caseQueryService ⟨⟨⟨target⟩⟩, query⟩)
  | validationRound => .caseContract .caseValidationRound
  | tryQueryApplication target argument =>
    .caseService (.caseTryQueryApplication ⟨⟨⟨target⟩⟩, argument⟩)

/-- The arguments fit in memory, and an owner is one that its type has. -/
def Valid : Call → Prop
  | readOwnerBalance owner => (Linera.accountownerTo owner).Valid
  | sendMessage _ message => message.length ≤ maxLength
  | tryCallApplication _ operation => operation.length ≤ maxLength
  | lineraEmit streamName value => streamName.length ≤ maxLength ∧ value.length ≤ maxLength
  | readEvent _ streamName _ => streamName.length ≤ maxLength
  | subscribeToEvents _ _ streamName => streamName.length ≤ maxLength
  | unsubscribeFromEvents _ _ streamName => streamName.length ≤ maxLength
  | queryService _ query => query.length ≤ maxLength
  | tryQueryApplication _ argument => argument.length ≤ maxLength
  | _ => True

theorem valid_base {base : BaseRuntimePrecompile} (h : base.Valid) :
    (RuntimePrecompile.caseBase base).Valid := by
  refine ⟨?_, ?_, ?_, ?_⟩ <;> simp [RuntimePrecompile.caseBase, Present, h]

theorem valid_contract {contract : ContractRuntimePrecompile} (h : contract.Valid) :
    (RuntimePrecompile.caseContract contract).Valid := by
  refine ⟨?_, ?_, ?_, ?_⟩ <;> simp [RuntimePrecompile.caseContract, Present, h]

theorem valid_service {service : ServiceRuntimePrecompile} (h : service.Valid) :
    (RuntimePrecompile.caseService service).Valid := by
  refine ⟨?_, ?_, ?_, ?_⟩ <;> simp [RuntimePrecompile.caseService, Present, h]

/-- The functions make valid requests. -/
theorem valid_request {c : Call} (h : c.Valid) : c.request.Valid := by
  cases c
  all_goals first
    | refine valid_base ⟨?_, ?_, ?_, ?_⟩
    | refine valid_contract ⟨?_, ?_, ?_, ?_, ?_, ?_, ?_, ?_⟩
    | refine valid_service ⟨?_, ?_⟩
  all_goals first
    | exact rfl
    | exact h
    | exact trivial
    | exact of_decide_eq_true rfl

/-- The function that makes a request, by the case of the request. -/
def ofBase (x : BaseRuntimePrecompile) : Call :=
  match x.choice.toNat with
  | 0 => chainId
  | 1 => blockHeight
  | 2 => applicationCreatorChainId
  | 3 => readSystemTimestamp
  | 4 => readChainBalance
  | 5 => readOwnerBalance (Linera.accountownerFrom x.readOwnerBalance)
  | 6 => readOwnerBalances
  | 7 => readBalanceOwners
  | 8 => chainOwnership
  | 9 => readDataBlob x.readDataBlob.value.value
  | _ => assertDataBlobExists x.assertDataBlobExists.value.value

def ofContract (x : ContractRuntimePrecompile) : Call :=
  match x.choice.toNat with
  | 0 => authenticatedSigner
  | 1 => messageOriginChainId
  | 2 => messageIsBouncing
  | 3 => authenticatedCallerId
  | 4 => sendMessage x.sendMessage.destination.value.value x.sendMessage.message
  | 5 => tryCallApplication x.tryCallApplication.target.applicationDescriptionHash.value
      x.tryCallApplication.argument
  | 6 => lineraEmit x.emit.streamName.value x.emit.value
  | 7 => readEvent x.readEvent.chainId.value.value x.readEvent.streamName.value x.readEvent.index
  | 8 => subscribeToEvents x.subscribeToEvents.chainId.value.value
      x.subscribeToEvents.applicationId.applicationDescriptionHash.value
      x.subscribeToEvents.streamName.value
  | 9 => unsubscribeFromEvents x.unsubscribeFromEvents.chainId.value.value
      x.unsubscribeFromEvents.applicationId.applicationDescriptionHash.value
      x.unsubscribeFromEvents.streamName.value
  | 10 => queryService x.queryService.applicationId.applicationDescriptionHash.value
      x.queryService.query
  | _ => validationRound

def ofRequest (x : RuntimePrecompile) : Call :=
  if x.choice = 0 then ofBase x.base
  else if x.choice = 1 then ofContract x.contract
  else tryQueryApplication x.service.tryQueryApplication.target.applicationDescriptionHash.value
    x.service.tryQueryApplication.argument

theorem ofRequest_request (c : Call) : ofRequest c.request = c := by
  cases c <;> rfl

theorem request_ofBase {x : BaseRuntimePrecompile} (h : x.Valid) :
    (ofBase x).Valid ∧ (ofBase x).request = .caseBase x := by
  obtain ⟨choice, owner, blob, blob'⟩ := x
  obtain ⟨k, hk, rfl⟩ : ∃ k < 11, UInt8.ofNat k = choice :=
    ⟨choice.toNat, h.2.2.2, UInt8.ofNat_toNat⟩
  -- in each case, what the case does not have holds its default
  interval_cases k
  case «5» =>
    obtain ⟨hOwner, rfl, rfl, -⟩ := h
    exact ⟨hOwner, rfl⟩
  case «9» =>
    obtain ⟨rfl, -, rfl, -⟩ := h
    exact ⟨trivial, rfl⟩
  case «10» =>
    obtain ⟨rfl, rfl, -, -⟩ := h
    exact ⟨trivial, rfl⟩
  all_goals
    obtain ⟨rfl, rfl, rfl, -⟩ := h
    exact ⟨trivial, rfl⟩

theorem request_ofContract {x : ContractRuntimePrecompile} (h : x.Valid) :
    (ofContract x).Valid ∧ (ofContract x).request = .caseContract x := by
  obtain ⟨choice, message, call, emit, event, subscribe, unsubscribe, query⟩ := x
  obtain ⟨k, hk, rfl⟩ : ∃ k < 12, UInt8.ofNat k = choice :=
    ⟨choice.toNat, h.2.2.2.2.2.2.2, UInt8.ofNat_toNat⟩
  interval_cases k
  case «4» =>
    obtain ⟨hArgs, rfl, rfl, rfl, rfl, rfl, rfl, -⟩ := h
    exact ⟨hArgs, rfl⟩
  case «5» =>
    obtain ⟨rfl, hArgs, rfl, rfl, rfl, rfl, rfl, -⟩ := h
    exact ⟨hArgs, rfl⟩
  case «6» =>
    obtain ⟨rfl, rfl, hArgs, rfl, rfl, rfl, rfl, -⟩ := h
    exact ⟨hArgs, rfl⟩
  case «7» =>
    obtain ⟨rfl, rfl, rfl, hArgs, rfl, rfl, rfl, -⟩ := h
    exact ⟨hArgs, rfl⟩
  case «8» =>
    obtain ⟨rfl, rfl, rfl, rfl, hArgs, rfl, rfl, -⟩ := h
    exact ⟨hArgs, rfl⟩
  case «9» =>
    obtain ⟨rfl, rfl, rfl, rfl, rfl, hArgs, rfl, -⟩ := h
    exact ⟨hArgs, rfl⟩
  case «10» =>
    obtain ⟨rfl, rfl, rfl, rfl, rfl, rfl, hArgs, -⟩ := h
    exact ⟨hArgs, rfl⟩
  all_goals
    obtain ⟨rfl, rfl, rfl, rfl, rfl, rfl, rfl, -⟩ := h
    exact ⟨trivial, rfl⟩

/-- **Every valid request is one that a function makes.** -/
theorem request_ofRequest {x : RuntimePrecompile} (h : x.Valid) :
    (ofRequest x).Valid ∧ (ofRequest x).request = x := by
  obtain ⟨choice, base, contract, service⟩ := x
  obtain ⟨k, hk, rfl⟩ : ∃ k < 3, UInt8.ofNat k = choice :=
    ⟨choice.toNat, h.2.2.2, UInt8.ofNat_toNat⟩
  interval_cases k
  · obtain ⟨hBase, rfl, rfl, -⟩ := h
    exact request_ofBase hBase
  · obtain ⟨rfl, hContract, rfl, -⟩ := h
    exact request_ofContract hContract
  · obtain ⟨rfl, rfl, hService, -⟩ := h
    obtain ⟨choice, args⟩ := service
    obtain ⟨hArgs, hChoice⟩ := hService
    obtain rfl : choice = 0 := UInt8.toNat_inj.mp (Nat.lt_one_iff.mp hChoice)
    exact ⟨hArgs, rfl⟩

end Call

-- ---------------------------------------------------------------------------
-- The replies
-- ---------------------------------------------------------------------------

/-- How a reply is written, and read: what was written is read back, and what is read is a
value, written no longer than what it was read from. The function returns `convert` of it, a copy
from which `origin` has it back. -/
structure Reply where
  Value : Type
  Output : Type
  Valid : Value → Prop
  serialize : Serialize Value
  read : Memory → Result Value
  convert : Value → Output
  origin : Output → Value
  complete : ∀ x, Valid x →
    ∃ bytes, serialize x = .ok bytes ∧ ∀ output, output.data = bytes → read output = .ok x
  sound : ∀ output x, read output = .ok x → Valid x ∧
    (∀ output' : Memory, output'.data = output.data → read output' = .ok x) ∧
    ∃ canon, serialize x = .ok canon ∧ Shortest canon output.data
  copied : Function.LeftInverse origin convert

namespace Reply

/-- `bcs_deserialize_T(output)`. -/
def bcs {α β : Type} {serialize : Serialize α} {deserializeOffset : DeserializeOffset α}
    {valid : α → Prop} (h : Lawful serialize deserializeOffset valid) {convert : α → β}
    {origin : β → α} (hCopied : Function.LeftInverse origin convert) : Reply where
  Value := α
  Output := β
  Valid := valid
  serialize := serialize
  read := bcsDeserialize deserializeOffset
  convert := convert
  origin := origin
  complete _ hx := h.whole_encode _ hx
  sound _ _ hRead := h.whole_ok hRead
  copied := hCopied

/-- `return output`. -/
def raw : Reply where
  Value := Bytes
  Output := Bytes
  Valid bytes := bytes.length ≤ maxLength
  serialize bytes := return bytes
  read output := return output.data
  convert := id
  origin := id
  complete bytes _ := ⟨bytes, rfl, fun _ hData => congrArg pure hData⟩
  sound := by
    intro output x hRead
    cases hRead
    exact ⟨output.fits, fun _ hSame => congrArg pure hSame, _, rfl, Shortest.refl _⟩
  copied _ := rfl

/-- `require(output.length == 0)`, or `assert(output.length == 0)`. -/
def empty (err : Revert) : Reply where
  Value := Unit
  Output := Unit
  Valid _ := True
  serialize _ := return []
  read output := if output.data.length = 0 then .ok () else .error err
  convert := id
  origin := id
  complete _ _ := ⟨[], rfl, fun output hData => if_pos (by rw [hData]; rfl)⟩
  sound := by
    intro output x hRead
    have hEmpty : output.data = [] := by
      by_contra hNot
      simp [hNot] at hRead
    refine ⟨trivial, fun output' hSame => if_pos (by rw [hSame, hEmpty]; rfl), [], rfl, ?_⟩
    rw [hEmpty]
    exact Shortest.refl _
  copied _ := rfl

end Reply

namespace Call

/-- What the function does with `output`. -/
def reply : Call → Reply
  | chainId => .bcs ChainId.lawful Linera.chainidTo_from
  | blockHeight => .bcs BlockHeight.lawful Linera.height_mk
  | applicationCreatorChainId => .bcs ChainId.lawful Linera.chainidTo_from
  | readSystemTimestamp => .bcs Timestamp.lawful Linera.timestamp_mk
  | readChainBalance => .bcs Amount.lawful Linera.amount_bytes32
  | readOwnerBalance _ => .bcs Amount.lawful Linera.amount_bytes32
  | readOwnerBalances => .bcs ResponseReadOwnerBalances.lawful Linera.balances_to
  | readBalanceOwners => .bcs ResponseReadBalanceOwners.lawful Linera.owners_to
  | chainOwnership => .bcs ChainOwnership.lawful Linera.chainownershipTo_from
  | readDataBlob _ => .raw
  | assertDataBlobExists _ => .empty (.panic 0x01)
  | authenticatedSigner =>
    .bcs (lawful_opt AccountOwner.lawful) Linera.optAccountownerTo_from
  | messageOriginChainId => .bcs (lawful_opt ChainId.lawful) Linera.optChainidTo_from
  | messageIsBouncing => .bcs MessageIsBouncing.lawful Linera.optionboolTo_from
  | authenticatedCallerId =>
    .bcs (lawful_opt ApplicationId.lawful) Linera.optApplicationidTo_from
  | sendMessage _ _ => .empty .empty
  | tryCallApplication _ _ => .raw
  | lineraEmit _ _ => .bcs lawful_uint32 Linera.uint32_id
  | readEvent _ _ _ => .raw
  | subscribeToEvents _ _ _ => .empty .empty
  | unsubscribeFromEvents _ _ _ => .empty .empty
  | queryService _ _ => .raw
  | validationRound => .bcs (lawful_opt lawful_uint32) Linera.optUint32From_from
  | tryQueryApplication _ _ => .raw

/-- The function: `precompile.call(input2)` fails, or returns `output`. -/
def perform (c : Call) (precompile : Bytes → Option Memory) : Result c.reply.Output := do
  let input2 ← c.request.bcsSerialize
  match precompile input2 with
  | some output =>
    let output2 ← c.reply.read output
    return c.reply.convert output2
  | none => .error .empty

end Call

-- ---------------------------------------------------------------------------
-- Results
-- ---------------------------------------------------------------------------

/-- **Lengths.** Every `uint256` is read back as a length, at any offset of any input; what is
read as a length, from no more than 37 bytes, is a `uint256`; and of all bytes that are read as
that length, the ones that are written are the shortest. -/
theorem lengths_read :
    (∀ x ≤ maxUint 256, ∃ bytes, bcsSerializeLen x = .ok bytes ∧
      Spells bcsDeserializeOffsetLen bytes x) ∧
    ∀ (input : Memory) (pos n x : Nat), bcsDeserializeOffsetLen pos input = .ok (n, x) →
      x ≤ maxUint 256 ∧ pos < n ∧ n ≤ pos + 37 ∧ n ≤ input.data.length ∧
      ∃ bytes canon, input.Has pos bytes ∧ pos + bytes.length = n ∧
        bcsSerializeLen x = .ok canon ∧ Shortest canon bytes := by
  refine ⟨lawful_len.complete, ?_⟩
  intro input pos n x hRead
  obtain ⟨-, hx, hInside⟩ := lawful_len.sound input pos n x hRead
  obtain ⟨init, last, hHas, hMore, hLast, hPower, hFits, rfl, rfl⟩ :=
    bcsDeserializeOffsetLen_ok_iff.mp hRead
  have hEnd := hHas.le
  rw [List.length_append, List.length_singleton] at hEnd
  obtain ⟨bytes, hBytes, hLength, -, hShort⟩ := hInside hEnd
  have hCount : init.length < 37 := by
    by_contra hNot
    have hLarge : 128 ^ 37 ≤ 128 ^ init.length := Nat.pow_le_pow_right (by decide) (by omega)
    exact absurd (hLarge.trans hPower) (by decide)
  exact ⟨hx, by omega, by omega, hEnd, bytes, _, hBytes, hLength, bcsSerializeLen_eq _,
    hShort _ (bcsSerializeLen_eq _)⟩

/-- A length may be written with more bytes than are needed. -/
theorem lengths_read_padded :
    ∃ bytes canon, (⟨[0xac, 0x82, 0x00], fun _ => 0, by decide⟩ : Memory).Has 0 bytes ∧
      0 + bytes.length = 3 ∧ bcsSerializeLen 300 = .ok canon ∧ Shortest canon bytes := by
  have hMore : ∀ b ∈ ([0xac, 0x82] : Bytes), 128 ≤ b.toNat := by
    rw [List.forall_mem_cons, List.forall_mem_singleton]
    exact ⟨by decide, by decide⟩
  have hRead : bcsDeserializeOffsetLen 0 ⟨[0xac, 0x82, 0x00], fun _ => 0, by decide⟩ =
      .ok (3, 300) :=
    bcsDeserializeOffsetLen_ok_iff.mpr ⟨[0xac, 0x82], 0x00, ⟨by decide, [], rfl⟩, hMore,
      by decide, by decide, by decide, rfl, rfl⟩
  obtain ⟨-, -, -, -, hBytes⟩ := lengths_read.2 _ 0 3 300 hRead
  exact hBytes

/-- **Requests are read back**: what a function sends is read as its request, from whatever
memory holds these bytes. -/
theorem requests_read_back {c : Call} (h : c.Valid) :
    ∃ bytes, c.request.bcsSerialize = .ok bytes ∧ ∀ input : Memory, input.data = bytes →
      bcsDeserialize RuntimePrecompile.bcsDeserializeOffset input = .ok c.request :=
  RuntimePrecompile.lawful.whole_encode _ (Call.valid_request h)

theorem requests_read_back_message :
    ∃ bytes, (Call.sendMessage default [1, 2]).request.bcsSerialize = .ok bytes ∧
      ∀ input : Memory, input.data = bytes →
        bcsDeserialize RuntimePrecompile.bcsDeserializeOffset input =
          .ok (Call.sendMessage default [1, 2]).request :=
  requests_read_back (c := .sendMessage default [1, 2])
    (show [1, 2].length ≤ maxLength by decide)

/-- **Only requests are accepted**: an input that is read is read as the request of one function,
whatever stands behind it in memory; and the function sends no more bytes than that, and others
only if they are fewer. -/
theorem requests_accepted {input : Memory} {x : RuntimePrecompile}
    (h : bcsDeserialize RuntimePrecompile.bcsDeserializeOffset input = .ok x) :
    ∃! c : Call, c.Valid ∧ c.request = x ∧
      (∀ input' : Memory, input'.data = input.data →
        bcsDeserialize RuntimePrecompile.bcsDeserializeOffset input' = .ok x) ∧
      ∃ bytes, c.request.bcsSerialize = .ok bytes ∧ Shortest bytes input.data := by
  obtain ⟨hx, hSame, bytes, hBytes, hShort⟩ := RuntimePrecompile.lawful.whole_ok h
  obtain ⟨hValid, hRequest⟩ := Call.request_ofRequest hx
  refine ⟨Call.ofRequest x, ⟨hValid, hRequest, hSame, bytes, ?_, hShort⟩, ?_⟩
  · rw [hRequest]
    exact hBytes
  · rintro c ⟨-, rfl, -⟩
    exact (Call.ofRequest_request c).symm

/-- An owner with an address of 32 bytes, and how it is sent. -/
def owner32 : Linera.AccountOwner := ⟨1, 0, .replicate 32 7, default⟩

def owner32Bytes : Bytes := [0, 5, 1] ++ .replicate 32 7

theorem requests_accepted_owner :
    ∃! c : Call, c.Valid ∧
      c.request = .caseBase (.caseReadOwnerBalance (Linera.accountownerTo owner32)) ∧
      (∀ input' : Memory, input'.data = owner32Bytes →
        bcsDeserialize RuntimePrecompile.bcsDeserializeOffset input' =
          .ok (.caseBase (.caseReadOwnerBalance (Linera.accountownerTo owner32)))) ∧
      ∃ bytes, c.request.bcsSerialize = .ok bytes ∧ Shortest bytes owner32Bytes := by
  have hRead : bcsDeserialize RuntimePrecompile.bcsDeserializeOffset
      ⟨owner32Bytes, fun _ => 0xff, by decide⟩ =
        .ok (.caseBase (.caseReadOwnerBalance (Linera.accountownerTo owner32))) := rfl
  exact requests_accepted hRead

/-- **Requests are told apart**: what a function sends does not begin what another one sends,
or the same one with other arguments. -/
theorem requests_apart {c c' : Call} (h : c.Valid) (h' : c'.Valid) (hNe : c ≠ c')
    {bytes bytes' : Bytes} (hBytes : c.request.bcsSerialize = .ok bytes)
    (hBytes' : c'.request.bcsSerialize = .ok bytes') (hFits : bytes'.length ≤ maxLength) :
    ¬ bytes <+: bytes' := by
  rintro ⟨rest, rfl⟩
  have hRequest := RuntimePrecompile.lawful.encode_inj (Call.valid_request h)
    (Call.valid_request h') hBytes hBytes' hFits (List.append_nil _).symm
  have hCall := congrArg Call.ofRequest hRequest
  rw [Call.ofRequest_request, Call.ofRequest_request] at hCall
  exact hNe hCall

/-- Owners with addresses of 20 and of 32 equal bytes. -/
theorem requests_apart_owner :
    ¬ ([0, 5, 2] ++ .replicate 20 7 : Bytes) <+: owner32Bytes :=
  @requests_apart (.readOwnerBalance ⟨2, 0, default, .replicate 20 7⟩) (.readOwnerBalance owner32)
    ⟨rfl, rfl, trivial, by decide⟩ ⟨rfl, trivial, rfl, by decide⟩ (by decide) _ _ rfl rfl
    (by decide)

/-- **Requests end where they end**: no input that is read begins another one, so that an input
that is cut off, or goes on, is refused. -/
theorem requests_end {input input' : Memory}
    (h : ∃ x, bcsDeserialize RuntimePrecompile.bcsDeserializeOffset input = .ok x)
    (h' : ∃ x, bcsDeserialize RuntimePrecompile.bcsDeserializeOffset input' = .ok x)
    (hPrefix : input.data <+: input'.data) : input.data = input'.data := by
  obtain ⟨x, hRead⟩ := h
  obtain ⟨x', hRead'⟩ := h'
  exact RuntimePrecompile.lawful.whole_prefix hRead hRead' hPrefix

theorem requests_end_height : ¬ ∃ x, bcsDeserialize RuntimePrecompile.bcsDeserializeOffset
    ⟨[0, 1, 0], fun _ => 0, by decide⟩ = .ok x := by
  intro hRead
  have hHeight : ∃ x, bcsDeserialize RuntimePrecompile.bcsDeserializeOffset
      ⟨[0, 1], fun _ => 0, by decide⟩ = .ok x := ⟨.caseBase .caseBlockHeight, rfl⟩
  have hSame := requests_end hHeight hRead ⟨[0], rfl⟩
  cases hSame

/-- **Calls are answered**: where the precompile answers each input that is read as the request
of a function with what is written for a reply, the function returns a copy of that reply. -/
theorem calls_answered {c : Call} (h : c.Valid) {precompile : Bytes → Option Memory}
    {x : c.reply.Value} (hValid : c.reply.Valid x)
    (hFits : ∃ bytes, c.request.bcsSerialize = .ok bytes ∧ bytes.length ≤ maxLength)
    (hServes : ∀ input : Memory,
      bcsDeserialize RuntimePrecompile.bcsDeserializeOffset input = .ok c.request →
      ∃ output, precompile input.data = some output ∧ c.reply.serialize x = .ok output.data) :
    c.perform precompile = .ok (c.reply.convert x) ∧ c.reply.origin (c.reply.convert x) = x := by
  refine ⟨?_, c.reply.copied x⟩
  obtain ⟨bytes, hBytes, hBack⟩ := RuntimePrecompile.lawful.whole_encode
    (.error "incomplete deserialization") (Call.valid_request h)
  obtain ⟨bytes', hBytes', hLength⟩ := hFits
  obtain rfl : bytes' = bytes := Except.ok.inj (hBytes'.symm.trans hBytes)
  obtain ⟨output, hOutput, hWritten⟩ := hServes ⟨bytes', fun _ => 0, hLength⟩ (hBack _ rfl)
  obtain ⟨written, hWritten', hRead⟩ := c.reply.complete x hValid
  obtain rfl : output.data = written := Except.ok.inj (hWritten.symm.trans hWritten')
  rw [Call.perform, hBytes, ok_bind, hOutput]
  exact congrArg (· >>= fun output2 => pure (c.reply.convert output2)) (hRead output rfl)

/-- A reply, and the amount that it is read as. -/
def balance263 : Memory := ⟨.replicate 30 0 ++ [1, 7], fun _ => 0xff, by decide⟩

def amount263 : Amount := ⟨⟨balance263.data.toArray, rfl⟩⟩

/-- A precompile that serves one request. -/
def precompile263 (input : Bytes) : Option Memory :=
  if h : input.length ≤ maxLength then
    match bcsDeserialize RuntimePrecompile.bcsDeserializeOffset ⟨input, fun _ => 0, h⟩ with
    | .ok x => if x = (Call.readOwnerBalance owner32).request then some balance263 else none
    | .error _ => none
  else none

theorem calls_answered_owner :
    (Call.readOwnerBalance owner32).perform precompile263 = .ok (263 : Nat) ∧
      Amount.mk (Linera.bytes32 263) = amount263 := by
  refine calls_answered (c := .readOwnerBalance owner32) (x := amount263)
    ⟨rfl, trivial, rfl, by decide⟩ trivial ⟨owner32Bytes, rfl, by decide⟩ fun input hRead => ?_
  have hSame : bcsDeserialize RuntimePrecompile.bcsDeserializeOffset
      ⟨input.data, fun _ => 0, input.fits⟩ = .ok (Call.readOwnerBalance owner32).request :=
    (RuntimePrecompile.lawful.whole_ok hRead).2.1 _ rfl
  refine ⟨balance263, ?_, rfl⟩
  rw [precompile263, dif_pos input.fits, hSame]
  exact if_pos rfl

/-- **Replies are read to their end**: a function that returns has sent its request, the call
has succeeded, and what it returns is a copy of one value that can be replied, which is read from
the bytes of the reply alone. -/
theorem replies_read {c : Call} {precompile : Bytes → Option Memory} {y : c.reply.Output}
    (h : c.perform precompile = .ok y) :
    ∃ bytes output, c.request.bcsSerialize = .ok bytes ∧ precompile bytes = some output ∧
      (∃! x, c.reply.convert x = y ∧ c.reply.Valid x ∧
        (∀ output' : Memory, output'.data = output.data → c.reply.read output' = .ok x) ∧
        ∃ canon, c.reply.serialize x = .ok canon ∧ Shortest canon output.data) ∧
      ∀ x, c.reply.convert x = y → c.reply.origin y = x := by
  obtain ⟨bytes, hBytes, hRest⟩ := bind_ok_iff.mp h
  cases hOutput : precompile bytes with
  | none => simp [hOutput] at hRest
  | some output =>
    simp only [hOutput] at hRest
    obtain ⟨x, hRead, hReturn⟩ := bind_ok_iff.mp hRest
    obtain rfl : c.reply.convert x = y := Except.ok.inj hReturn
    refine ⟨bytes, output, hBytes, hOutput, ⟨x, ⟨rfl, c.reply.sound output x hRead⟩, ?_⟩, ?_⟩
    · rintro x' ⟨hSame, -⟩
      exact c.reply.copied.injective hSame
    · intro x' hSame
      rw [← hSame]
      exact c.reply.copied x'

theorem replies_read_owner :
    ∃ x : Amount, Linera.uint256 x.value = 263 ∧ Amount.mk (Linera.bytes32 263) = x ∧
      ∃ canon, x.bcsSerialize = .ok canon ∧ Shortest canon balance263.data := by
  have hReturn : (Call.readOwnerBalance owner32).perform precompile263 = .ok (263 : Nat) := rfl
  obtain ⟨bytes, output, hBytes, hOutput, ⟨x, ⟨hValue, -, -, hCanon⟩, -⟩, hOrigin⟩ :=
    replies_read hReturn
  obtain rfl : owner32Bytes = bytes := Except.ok.inj hBytes
  obtain rfl : balance263 = output := Option.some.inj hOutput
  exact ⟨x, hValue, hOrigin x hValue, hCanon⟩

/-- **Updates of streams**: what is written for them is read back, from whatever memory holds
these bytes; and what is read is valid, read from the input alone, of which the written bytes
are the shortest. -/
theorem updates_read :
    (∀ x : StreamUpdates, x.Valid → ∃ bytes, x.bcsSerialize = .ok bytes ∧
      ∀ input : Memory, input.data = bytes →
        bcsDeserialize StreamUpdates.bcsDeserializeOffset input = .ok x) ∧
    ∀ (input : Memory) (x : StreamUpdates),
      bcsDeserialize StreamUpdates.bcsDeserializeOffset input = .ok x → x.Valid ∧
        (∀ input' : Memory, input'.data = input.data →
          bcsDeserialize StreamUpdates.bcsDeserializeOffset input' = .ok x) ∧
        ∃ canon, x.bcsSerialize = .ok canon ∧ Shortest canon input.data :=
  ⟨fun _ hx => StreamUpdates.lawful.whole_encode _ hx,
    fun _ _ hRead => StreamUpdates.lawful.whole_ok hRead⟩

/-- Updates of a stream of the system's and of one of an application's. -/
def updates2 : StreamUpdates :=
  ⟨[⟨⟨⟨.replicate 32 7⟩⟩, ⟨.caseSystem, ⟨[1, 2]⟩⟩, 3, 4⟩,
    ⟨⟨⟨.replicate 32 8⟩⟩, ⟨.caseUser ⟨⟨.replicate 32 9⟩⟩, ⟨[5]⟩⟩, 300, 70000⟩]⟩

def updates2Bytes : Bytes :=
  [2] ++ .replicate 32 7 ++ [0, 2, 1, 2, 3, 0, 0, 0, 4, 0, 0, 0] ++
    .replicate 32 8 ++ [1] ++ .replicate 32 9 ++ [1, 5, 44, 1, 0, 0, 112, 17, 1, 0]

theorem updates_read_two :
    updates2.Valid ∧ ∃ bytes, updates2.bcsSerialize = .ok bytes ∧ Shortest bytes updates2Bytes ∧
      ∀ input : Memory, input.data = bytes →
        bcsDeserialize StreamUpdates.bcsDeserializeOffset input = .ok updates2 := by
  have hRead : bcsDeserialize StreamUpdates.bcsDeserializeOffset
      ⟨updates2Bytes, fun _ => 0xff, by decide +kernel⟩ = .ok updates2 := by
    decide +kernel
  obtain ⟨hValid, -, canon, hCanon, hShort⟩ := updates_read.2 _ _ hRead
  obtain ⟨bytes, hBytes, hBack⟩ := updates_read.1 updates2 hValid
  obtain rfl : canon = bytes := Except.ok.inj (hCanon.symm.trans hBytes)
  exact ⟨hValid, canon, hBytes, hShort, hBack⟩

end LineraEndToEnd.LineraTypes
