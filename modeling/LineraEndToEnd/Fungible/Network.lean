import LineraEndToEnd.Lib.Run
import LineraEndToEnd.Fungible.Contract

/-!
# Fungible — the network of chains

Every chain runs the contract on its own state; the runtime carries messages
between them. A step executes an operation on a chain, executes a message in
flight on its destination, or rejects it there. This is the part of the Linera
runtime the application relies on (it is not in this repository):

* a panic discards the step: `Network.step` is `none`, nothing changes;
* a message in flight is executed once or rejected once, in any order;
* `with_authentication` forwards the signer of the sending step, who is then
  the authenticated signer when the message is executed (a message is never
  executed on behalf of a calling application);
* a rejected tracked message goes back to the chain that sent it as a bouncing
  copy, which is executed and cannot be rejected; a rejected untracked message
  is dropped.

The bag of messages in flight is a multiset. A message carries the number of
the transaction that sent it; the contract sends at most one message in a
transaction, so this tells messages of a run apart.
-/

namespace LineraEndToEnd.Fungible

variable {ChainId AccountOwner : Type} [DecidableEq ChainId] [DecidableEq AccountOwner]

/-- A message in flight. -/
structure Envelope (ChainId AccountOwner : Type) where
  id : Nat
  sender : ChainId
  destination : ChainId
  authenticatedSigner : Option AccountOwner
  message : Message ChainId AccountOwner
  tracked : Bool
  bouncing : Bool
deriving DecidableEq

/-- The copy of a rejected message that returns to its sender. -/
def Envelope.bounced (e : Envelope ChainId AccountOwner) : Envelope ChainId AccountOwner :=
  { e with sender := e.destination, destination := e.sender, bouncing := true }

/-- The messages sent by the transaction `id` of `signer` on `sender`. -/
def envelopes (id : Nat) (sender : ChainId) (signer : Option AccountOwner)
    (sent : List (OutgoingMessage ChainId AccountOwner)) :
    Multiset (Envelope ChainId AccountOwner) :=
  Multiset.ofList <| sent.map fun m =>
    { id := id
      sender := sender
      destination := m.destination
      authenticatedSigner := if m.authenticated then signer else none
      message := m.message
      tracked := m.tracked
      bouncing := false }

/-- The state of the application on all chains, and the messages in flight. -/
@[ext] structure Network (ChainId AccountOwner : Type) where
  parameters : Parameters
  states : ChainId → FungibleTokenState AccountOwner
  inFlight : Multiset (Envelope ChainId AccountOwner)

/-- A step of the network. `id` numbers the transactions that run contract code;
`signer` and `caller` are the authentication of an operation. -/
inductive Action (ChainId AccountOwner : Type) where
  | operation (id : Nat) (chain : ChainId) (signer caller : Option AccountOwner)
      (op : FungibleOperation ChainId AccountOwner)
  | execute (id : Nat) (e : Envelope ChainId AccountOwner)
  | reject (e : Envelope ChainId AccountOwner)
deriving DecidableEq

/-- The number of the transaction, for the actions that run contract code. -/
def Action.transaction : Action ChainId AccountOwner → Option Nat
  | .operation id _ _ _ _ => some id
  | .execute id _ => some id
  | .reject _ => none

/-- Who authenticates a step: the signer and the calling application of an
operation, the forwarded signer of a message. -/
def Action.Permits (owner : AccountOwner) : Action ChainId AccountOwner → Prop
  | .operation _ _ signer caller _ => signer = some owner ∨ caller = some owner
  | .execute _ e => e.authenticatedSigner = some owner
  | .reject _ => False

namespace Network

/-- The context in which an operation is executed. -/
def operationContext (n : Network ChainId AccountOwner) (chain : ChainId)
    (signer caller : Option AccountOwner) : Context ChainId AccountOwner :=
  { chainId := chain
    authenticatedSigner := signer
    authenticatedCallerId := caller
    messageIsBouncing := none
    applicationParameters := n.parameters }

/-- The context in which a message is executed on its destination. -/
def messageContext (n : Network ChainId AccountOwner) (e : Envelope ChainId AccountOwner) :
    Context ChainId AccountOwner :=
  { chainId := e.destination
    authenticatedSigner := e.authenticatedSigner
    authenticatedCallerId := none
    messageIsBouncing := some e.bouncing
    applicationParameters := n.parameters }

/-- A chain has a new state, and messages were sent. -/
def commit (n : Network ChainId AccountOwner) (chain : ChainId)
    (s : FungibleTokenState AccountOwner) (sent : Multiset (Envelope ChainId AccountOwner)) :
    Network ChainId AccountOwner :=
  { n with states := Function.update n.states chain s, inFlight := n.inFlight + sent }

/-- A message has left the bag. -/
def receive (n : Network ChainId AccountOwner) (e : Envelope ChainId AccountOwner) :
    Network ChainId AccountOwner :=
  { n with inFlight := n.inFlight.erase e }

/-- One step of the network. -/
def step (n : Network ChainId AccountOwner) :
    Action ChainId AccountOwner → Option (Network ChainId AccountOwner)
  | .operation id chain signer caller op =>
    match executeOperation (n.operationContext chain signer caller) (n.states chain) op with
    | .error _ => none
    | .ok (s, _, sent) => some (n.commit chain s (envelopes id chain signer sent))
  | .execute id e =>
    if e ∈ n.inFlight then
      match executeMessage (n.messageContext e) (n.states e.destination) e.message with
      | .error _ => none
      | .ok (s, sent) =>
        some ((n.receive e).commit e.destination s
          (envelopes id e.destination e.authenticatedSigner sent))
    else none
  | .reject e =>
    if e ∈ n.inFlight ∧ e.bouncing = false then
      some { n.receive e with
        inFlight := (n.receive e).inFlight + if e.tracked then {e.bounced} else 0 }
    else none

/-- A run of the network. -/
abbrev run : Network ChainId AccountOwner → List (Action ChainId AccountOwner) →
    Option (Network ChainId AccountOwner) :=
  Lib.run step

/-- The network after the application was instantiated on one chain. -/
def instantiate (parameters : Parameters) (chain : ChainId)
    (state : InitialState AccountOwner) :
    Except (Panic AccountOwner) (Network ChainId AccountOwner) := do
  let s ← Fungible.instantiate ∅ state
  return { parameters := parameters
           states := Function.update (fun _ => ∅) chain s
           inFlight := 0 }

end Network

/-! ## A small network -/

theorem nodup_owners : [0, 1].Nodup := by simp

/-- Two owners with 19 and 7 tokens. -/
def sampleState : InitialState Nat :=
  ⟨⟨[⟨0, .fromAttos 19⟩, ⟨1, .fromAttos 7⟩], nodup_owners⟩⟩

/-- `sampleState`, instantiated on the chain `0`. -/
def sampleNetwork : Network Nat Nat :=
  { parameters := ⟨"FUN"⟩
    states := Function.update (fun _ => ∅) 0 (FungibleTokenState.initializeAccounts ∅ sampleState)
    inFlight := 0 }

theorem instantiate_sampleState :
    Network.instantiate ⟨"FUN"⟩ 0 sampleState = .ok sampleNetwork := rfl

/-- A transfer of 5 tokens to the owner `1` on the chain `1`. -/
def sampleTransfer : Action Nat Nat :=
  .operation 0 0 (some 0) none (.transfer 0 (.fromAttos 5) ⟨1, 1⟩)

/-- The `Credit` it sends. -/
def sampleCredit : Envelope Nat Nat :=
  { id := 0
    sender := 0
    destination := 1
    authenticatedSigner := some 0
    message := .credit 1 (.fromAttos 5) 0
    tracked := true
    bouncing := false }

namespace Network

/-! ## What a step does -/

variable {n n' : Network ChainId AccountOwner}

omit [DecidableEq ChainId] [DecidableEq AccountOwner] in
theorem permits_operationContext_iff (n : Network ChainId AccountOwner) (id : Nat)
    {chain : ChainId} {signer caller : Option AccountOwner}
    (op : FungibleOperation ChainId AccountOwner) {owner : AccountOwner} :
    (n.operationContext chain signer caller).Permits owner ↔
      (Action.operation id chain signer caller op).Permits owner :=
  Iff.rfl

omit [DecidableEq ChainId] [DecidableEq AccountOwner] in
theorem permits_messageContext_iff (n : Network ChainId AccountOwner) (id : Nat)
    {e : Envelope ChainId AccountOwner} {owner : AccountOwner} :
    (n.messageContext e).Permits owner ↔ (Action.execute id e).Permits owner := by
  simp [Context.Permits, messageContext, Action.Permits]

theorem step_operation_iff {id : Nat} {chain : ChainId} {signer caller : Option AccountOwner}
    {op : FungibleOperation ChainId AccountOwner} :
    n.step (.operation id chain signer caller op) = some n' ↔
      ∃ s response sent,
        executeOperation (n.operationContext chain signer caller) (n.states chain) op =
          .ok (s, response, sent) ∧
        n' = n.commit chain s (envelopes id chain signer sent) := by
  simp only [step]
  split
  · next h => simp [h]
  · next s response sent h => simp [h, eq_comm]

theorem step_execute_iff {id : Nat} {e : Envelope ChainId AccountOwner} :
    n.step (.execute id e) = some n' ↔
      e ∈ n.inFlight ∧ ∃ s sent,
        executeMessage (n.messageContext e) (n.states e.destination) e.message =
          .ok (s, sent) ∧
        n' = (n.receive e).commit e.destination s
          (envelopes id e.destination e.authenticatedSigner sent) := by
  simp only [step]
  split
  · next hMem =>
    split
    · next h => simp [h]
    · next s sent h => simp [h, hMem, eq_comm]
  · next hMem => simp [hMem]

theorem step_reject_iff {e : Envelope ChainId AccountOwner} :
    n.step (.reject e) = some n' ↔
      e ∈ n.inFlight ∧ e.bouncing = false ∧
        n' = { n.receive e with
          inFlight := (n.receive e).inFlight + if e.tracked then {e.bounced} else 0 } := by
  simp only [step]
  split
  · next h =>
    rw [Option.some.injEq]
    exact ⟨fun hEq => ⟨h.1, h.2, hEq.symm⟩, fun hEq => hEq.2.2.symm⟩
  · next h =>
    constructor
    · intro hNone
      cases hNone
    · rintro ⟨hMem, hBouncing, -⟩
      exact absurd ⟨hMem, hBouncing⟩ h

theorem instantiate_ok_iff {parameters : Parameters} {chain : ChainId}
    {state : InitialState AccountOwner} :
    instantiate parameters chain state = .ok n ↔
      state.total ≠ 0 ∧
        n = { parameters := parameters
              states := Function.update (fun _ => ∅) chain
                (FungibleTokenState.initializeAccounts ∅ state)
              inFlight := 0 } := by
  unfold instantiate
  rw [bind_ok_iff]
  constructor
  · rintro ⟨s, hInst, hEq⟩
    obtain ⟨hTotal, rfl⟩ := Fungible.instantiate_ok_iff.mp hInst
    exact ⟨hTotal, by simpa [pure, Except.pure, eq_comm] using hEq⟩
  · rintro ⟨hTotal, rfl⟩
    exact ⟨_, Fungible.instantiate_ok_iff.mpr ⟨hTotal, rfl⟩, rfl⟩

end Network

end LineraEndToEnd.Fungible
