import Mathlib.Data.Finset.Basic
import LineraEndToEnd.Lib.EventLog
import LineraEndToEnd.Social.Contract

/-!
# Social — the network of chains

Every chain runs the contract on its own state. A step executes an operation on
a chain, executes or rejects a message on its destination, or lets a chain
process news of the streams it is subscribed to. This is the part of the Linera
runtime the application relies on (it is not in this repository):

* `emit` appends to the stream of the chain, and `read_event` returns the event
  emitted at an index;
* a chain gets updates only for the streams it is subscribed to; the updates of
  one author's stream follow on one another, from index 0 on, and announce
  events that exist (`Deliverable`); how they are cut, put into calls and
  interleaved is arbitrary;
* messages of this application are neither tracked nor authenticated: each is
  executed once or rejected once, and a rejected one is gone;
* a panic discards the step.

An index is a `u32`, as in `StreamUpdate`. Beside its event, an entry of a
stream records on which chain the operation was executed that led to it; the
contract does not see this.
-/

namespace LineraEndToEnd.Social

open Lib

variable {ChainId ApplicationId : Type} [DecidableEq ChainId] [DecidableEq ApplicationId]

/-- An event in a stream, and the chain of the operation behind it. -/
structure Emitted (ChainId : Type) where
  origin : ChainId
  event : Event ChainId
deriving DecidableEq

/-- A message in flight. -/
structure Envelope (ChainId : Type) where
  sender : ChainId
  destination : ChainId
  message : Message ChainId
deriving DecidableEq

/-- The application on all chains, and what the runtime keeps for it:
`nextIndex b a` is the index of the next event of `a` that `b` has to process. -/
structure Network (ChainId ApplicationId : Type) where
  applicationId : ApplicationId
  states : ChainId → SocialState ChainId
  streams : ChainId → List (Emitted ChainId)
  inFlight : Multiset (Envelope ChainId)
  subscriptions : ChainId → Finset (ChainId × StreamId ApplicationId)
  nextIndex : ChainId → ChainId → UInt32

/-- A step of the network. -/
inductive Action (ChainId ApplicationId : Type) where
  | operation (chain : ChainId) (systemTime : UInt64) (op : Operation ChainId)
  | execute (e : Envelope ChainId)
  | reject (e : Envelope ChainId)
  | processStreams (chain : ChainId) (updates : List (StreamUpdate ChainId ApplicationId))
deriving DecidableEq

namespace Network

/-- Nothing has happened yet. -/
def initial (applicationId : ApplicationId) : Network ChainId ApplicationId :=
  { applicationId := applicationId
    states := fun _ => ∅
    streams := fun _ => []
    inFlight := 0
    subscriptions := fun _ => ∅
    nextIndex := fun _ _ => 0 }

/-- The events of a chain's stream. -/
def events (n : Network ChainId ApplicationId) (a : ChainId) : List (Event ChainId) :=
  (n.streams a).map Emitted.event

/-- `read_event`. -/
def readEvent (n : Network ChainId ApplicationId) (a : ChainId) (index : Nat) :
    Option (Event ChainId) :=
  (n.events a)[index]?

/-- The context in which an operation is executed. -/
def context (n : Network ChainId ApplicationId) (chain : ChainId) (systemTime : UInt64) :
    Context ChainId ApplicationId :=
  { chainId := chain
    applicationId := n.applicationId
    systemTime := systemTime }

/-- The runtime does on `chain` what the contract asks for, on account of an
operation of the chain `origin`. -/
def perform (n : Network ChainId ApplicationId) (chain origin : ChainId) :
    Effect ChainId ApplicationId → Network ChainId ApplicationId
  | .subscribeToEvents a streamId =>
    { n with
      subscriptions :=
        Function.update n.subscriptions chain (insert (a, streamId) (n.subscriptions chain)) }
  | .unsubscribeFromEvents a streamId =>
    { n with
      subscriptions :=
        Function.update n.subscriptions chain ((n.subscriptions chain).erase (a, streamId)) }
  | .emit event =>
    { n with
      streams := Function.update n.streams chain (n.streams chain ++ [⟨origin, event⟩]) }
  | .sendMessage destination message =>
    { n with inFlight := n.inFlight + {⟨chain, destination, message⟩} }

/-- The positions of a subscriber after it has processed some updates. -/
def advance (next : ChainId → UInt32) (updates : List (StreamUpdate ChainId ApplicationId)) :
    ChainId → UInt32 :=
  updates.foldl (fun next u => Function.update next u.chainId u.nextIndex) next

/-- The runtime may deliver these updates to `chain`, whose positions are `next`. -/
def Deliverable (n : Network ChainId ApplicationId) (chain : ChainId) :
    (ChainId → UInt32) → List (StreamUpdate ChainId ApplicationId) → Prop
  | _, [] => True
  | next, u :: us =>
    (u.chainId, u.streamId) ∈ n.subscriptions chain ∧
      u.previousIndex = next u.chainId ∧ u.previousIndex ≤ u.nextIndex ∧
      u.nextIndex.toNat ≤ (n.streams u.chainId).length ∧
      Deliverable n chain (Function.update next u.chainId u.nextIndex) us

instance decidableDeliverable (n : Network ChainId ApplicationId) (chain : ChainId) :
    ∀ (next : ChainId → UInt32) (updates : List (StreamUpdate ChainId ApplicationId)),
      Decidable (n.Deliverable chain next updates)
  | _, [] => isTrue trivial
  | next, u :: us =>
    have := decidableDeliverable n chain (Function.update next u.chainId u.nextIndex) us
    inferInstanceAs (Decidable (_ ∧ _ ∧ _ ∧ _ ∧ _))

/-- One step of the network. -/
def step (n : Network ChainId ApplicationId) :
    Action ChainId ApplicationId → Option (Network ChainId ApplicationId)
  | .operation chain systemTime op =>
    let result := executeOperation (n.context chain systemTime) (n.states chain) op
    some ({ n with states := Function.update n.states chain result.1 }.perform chain chain
      result.2)
  | .execute e =>
    if e ∈ n.inFlight then
      some ({ n with inFlight := n.inFlight.erase e }.perform e.destination e.sender
        (.emit (executeMessage e.message)))
    else none
  | .reject e =>
    if e ∈ n.inFlight then some { n with inFlight := n.inFlight.erase e } else none
  | .processStreams chain updates =>
    if n.Deliverable chain (n.nextIndex chain) updates then
      match processStreams n.applicationId n.readEvent (n.states chain) updates with
      | .error _ => none
      | .ok s =>
        some { n with
          states := Function.update n.states chain s
          nextIndex := Function.update n.nextIndex chain (advance (n.nextIndex chain) updates) }
    else none

/-- A run of the network. -/
abbrev run : Network ChainId ApplicationId → List (Action ChainId ApplicationId) →
    Option (Network ChainId ApplicationId) :=
  Lib.run step

end Network

/-! ## A small run -/

/-- The chain `0` posts, and the chain `1`, which is subscribed to it, likes and
comments on the post and processes the three events. -/
def sampleRun : List (Action Nat Nat) :=
  [.operation 1 0 (.subscribe 0),
    .operation 0 5 (.post "first" none),
    .operation 1 6 (.like ⟨5, 0, 0⟩),
    .execute ⟨1, 0, .like ⟨5, 0, 0⟩⟩,
    .operation 1 7 (.comment ⟨5, 0, 0⟩ "second"),
    .execute ⟨1, 0, .comment ⟨5, 0, 0⟩ "second"⟩,
    .processStreams 1 [⟨0, ⟨0, STREAM_NAME⟩, 0, 2⟩, ⟨0, ⟨0, STREAM_NAME⟩, 2, 3⟩]]

theorem isSome_sampleRun : ((Network.initial 0).run sampleRun).isSome = true := by decide

namespace Network

/-! ## What a step does -/

/-- What an action appends to the stream of `c`. Only the index of a post
depends on the network. -/
def emits (n : Network ChainId ApplicationId) (c : ChainId) :
    Action ChainId ApplicationId → List (Emitted ChainId)
  | .operation chain systemTime op =>
    if chain = c then
      match op with
      | .post text imageUrl =>
        [⟨chain, .post ⟨systemTime, text, imageUrl⟩
          (UInt32.ofNat (n.states c).ownPosts.keys.card)⟩]
      | .like key => if key.author = c then [⟨chain, .like key⟩] else []
      | .comment key comment => if key.author = c then [⟨chain, .comment key comment⟩] else []
      | .subscribe _ | .unsubscribe _ => []
    else []
  | .execute e => if e.destination = c then [⟨e.sender, executeMessage e.message⟩] else []
  | .reject _ | .processStreams _ _ => []

/-- The ways in which an action emits into the stream of `c`. -/
inductive Emits (n : Network ChainId ApplicationId) (c : ChainId) :
    Action ChainId ApplicationId → Emitted ChainId → Prop where
  | post (systemTime : UInt64) (text : String) (imageUrl : Option String) :
      Emits n c (.operation c systemTime (.post text imageUrl))
        ⟨c, .post ⟨systemTime, text, imageUrl⟩ (UInt32.ofNat (n.states c).ownPosts.keys.card)⟩
  | like (systemTime : UInt64) (key : Key ChainId) (hAuthor : key.author = c) :
      Emits n c (.operation c systemTime (.like key)) ⟨c, .like key⟩
  | comment (systemTime : UInt64) (key : Key ChainId) (text : String)
      (hAuthor : key.author = c) :
      Emits n c (.operation c systemTime (.comment key text)) ⟨c, .comment key text⟩
  | execute (m : Envelope ChainId) (hHere : m.destination = c) :
      Emits n c (.execute m) ⟨m.sender, executeMessage m.message⟩

omit [DecidableEq ApplicationId] in
theorem emits_of_mem {n : Network ChainId ApplicationId} {c : ChainId}
    {a : Action ChainId ApplicationId} {x : Emitted ChainId} (hx : x ∈ n.emits c a) :
    n.Emits c a x := by
  cases a with
  | operation chain systemTime op =>
    simp only [emits] at hx
    split at hx
    · next hc =>
      subst hc
      cases op with
      | subscribe | unsubscribe => cases hx
      | post text imageUrl =>
        rw [List.mem_singleton.mp hx]
        exact .post systemTime text imageUrl
      | like key =>
        obtain ⟨hAuthor, rfl⟩ : key.author = chain ∧ x = ⟨chain, .like key⟩ := by
          simpa [List.mem_ite_nil_right] using hx
        exact .like systemTime key hAuthor
      | comment key text =>
        obtain ⟨hAuthor, rfl⟩ : key.author = chain ∧ x = ⟨chain, .comment key text⟩ := by
          simpa [List.mem_ite_nil_right] using hx
        exact .comment systemTime key text hAuthor
    · cases hx
  | execute m =>
    obtain ⟨hHere, rfl⟩ : m.destination = c ∧ x = ⟨m.sender, executeMessage m.message⟩ := by
      simpa [emits, List.mem_ite_nil_right] using hx
    exact .execute m hHere
  | reject | processStreams => cases hx

end Network

/-- The messages an action takes out of flight. -/
def Action.consumed : Action ChainId ApplicationId → Multiset (Envelope ChainId)
  | .execute e => {e}
  | .reject e => {e}
  | .operation _ _ _ | .processStreams _ _ => 0

/-- The messages an action puts in flight. -/
def Action.sent : Action ChainId ApplicationId → Multiset (Envelope ChainId)
  | .operation chain _ (.like key) =>
    if key.author = chain then 0 else {⟨chain, key.author, .like key⟩}
  | .operation chain _ (.comment key comment) =>
    if key.author = chain then 0 else {⟨chain, key.author, .comment key comment⟩}
  | _ => 0

/-- The post an action makes on `c`. -/
def Action.makes (c : ChainId) : Action ChainId ApplicationId → Option OwnPost
  | .operation chain systemTime (.post text imageUrl) =>
    if chain = c then some ⟨systemTime, text, imageUrl⟩ else none
  | _ => none

namespace Network

variable {n n' : Network ChainId ApplicationId} {a : Action ChainId ApplicationId}

theorem step_operation_iff {chain : ChainId} {systemTime : UInt64} {op : Operation ChainId} :
    n.step (.operation chain systemTime op) = some n' ↔
      n' = { n with
        states := Function.update n.states chain
          (executeOperation (n.context chain systemTime) (n.states chain) op).1 }.perform
        chain chain (executeOperation (n.context chain systemTime) (n.states chain) op).2 := by
  rw [step, Option.some.injEq, eq_comm]

theorem step_execute_iff {e : Envelope ChainId} :
    n.step (.execute e) = some n' ↔
      e ∈ n.inFlight ∧
        n' = { n with
          inFlight := n.inFlight.erase e
          streams := Function.update n.streams e.destination
            (n.streams e.destination ++ [⟨e.sender, executeMessage e.message⟩]) } := by
  simp only [step]
  split
  · next hMem => simp [hMem, perform, eq_comm]
  · next hMem => simp [hMem]

theorem step_reject_iff {e : Envelope ChainId} :
    n.step (.reject e) = some n' ↔
      e ∈ n.inFlight ∧ n' = { n with inFlight := n.inFlight.erase e } := by
  simp only [step]
  split
  · next hMem => simp [hMem, eq_comm]
  · next hMem => simp [hMem]

theorem step_processStreams_iff {chain : ChainId}
    {updates : List (StreamUpdate ChainId ApplicationId)} :
    n.step (.processStreams chain updates) = some n' ↔
      n.Deliverable chain (n.nextIndex chain) updates ∧ ∃ s,
        processStreams n.applicationId n.readEvent (n.states chain) updates = .ok s ∧
        n' = { n with
          states := Function.update n.states chain s
          nextIndex := Function.update n.nextIndex chain
            (advance (n.nextIndex chain) updates) } := by
  simp only [step]
  split
  · next hDel =>
    cases hProcess : processStreams n.applicationId n.readEvent (n.states chain) updates with
    | error => simp
    | ok s => simp [hDel, eq_comm]
  · next hDel => simp [hDel]

omit [DecidableEq ApplicationId] in
theorem update_append (f : ChainId → List (Emitted ChainId)) (c c' : ChainId)
    (es : List (Emitted ChainId)) :
    Function.update f c (f c ++ es) c' = f c' ++ if c = c' then es else [] := by
  by_cases hc : c = c'
  · subst hc
    simp
  · simp [Function.update_of_ne (Ne.symm hc), hc]

theorem streams_perform (chain origin c : ChainId) (effect : Effect ChainId ApplicationId) :
    (n.perform chain origin effect).streams c =
      n.streams c ++ if chain = c then effect.emitted.map (Emitted.mk origin) else [] := by
  cases effect with
  | emit event => exact update_append ..
  | subscribeToEvents | unsubscribeFromEvents | sendMessage => simp [perform, Effect.emitted]

theorem inFlight_perform (chain origin : ChainId) (effect : Effect ChainId ApplicationId) :
    (n.perform chain origin effect).inFlight =
      n.inFlight + Multiset.ofList (effect.sent.map fun m => ⟨chain, m.1, m.2⟩) := by
  cases effect with
  | sendMessage destination message => rfl
  | subscribeToEvents | unsubscribeFromEvents | emit => exact (add_zero _).symm

theorem states_perform (chain origin : ChainId) (effect : Effect ChainId ApplicationId) :
    (n.perform chain origin effect).states = n.states := by
  cases effect <;> rfl

theorem nextIndex_perform (chain origin : ChainId) (effect : Effect ChainId ApplicationId) :
    (n.perform chain origin effect).nextIndex = n.nextIndex := by
  cases effect <;> rfl

theorem applicationId_perform (chain origin : ChainId) (effect : Effect ChainId ApplicationId) :
    (n.perform chain origin effect).applicationId = n.applicationId := by
  cases effect <;> rfl

/-- **What a step does to the streams**: it appends what its action emits. -/
theorem step_streams (hStep : n.step a = some n') (c : ChainId) :
    n'.streams c = n.streams c ++ n.emits c a := by
  cases a with
  | operation chain systemTime op =>
    obtain rfl := step_operation_iff.mp hStep
    rw [streams_perform]
    refine congrArg (n.streams c ++ ·) ?_
    simp only [emits]
    split
    · next hc =>
      subst hc
      cases op with
      | subscribe | unsubscribe | post => rfl
      | like key =>
        show (executeLikeOperation _ key).emitted.map _ = _
        rw [emitted_executeLikeOperation]
        exact apply_ite _ _ _ _
      | comment key comment =>
        show (executeCommentOperation _ key comment).emitted.map _ = _
        rw [emitted_executeCommentOperation]
        exact apply_ite _ _ _ _
    · rfl
  | execute e =>
    obtain ⟨-, rfl⟩ := step_execute_iff.mp hStep
    exact update_append ..
  | reject e =>
    obtain ⟨-, rfl⟩ := step_reject_iff.mp hStep
    exact (List.append_nil _).symm
  | processStreams chain updates =>
    obtain ⟨-, s, -, rfl⟩ := step_processStreams_iff.mp hStep
    exact (List.append_nil _).symm

/-- **What a step does to the messages in flight.** -/
theorem step_inFlight (hStep : n.step a = some n') :
    n'.inFlight + a.consumed = n.inFlight + a.sent := by
  cases a with
  | operation chain systemTime op =>
    obtain rfl := step_operation_iff.mp hStep
    rw [Action.consumed, add_zero, inFlight_perform]
    refine congrArg (n.inFlight + ·) ?_
    cases op with
    | subscribe | unsubscribe | post => rfl
    | like key =>
      show Multiset.ofList ((executeLikeOperation _ key).sent.map _) = _
      rw [sent_executeLikeOperation]
      simp only [Action.sent]
      exact apply_ite (fun l => Multiset.ofList (List.map _ l)) _ _ _
    | comment key comment =>
      show Multiset.ofList ((executeCommentOperation _ key comment).sent.map _) = _
      rw [sent_executeCommentOperation]
      simp only [Action.sent]
      exact apply_ite (fun l => Multiset.ofList (List.map _ l)) _ _ _
  | execute e =>
    obtain ⟨hMem, rfl⟩ := step_execute_iff.mp hStep
    exact (erase_add hMem).trans (add_zero _).symm
  | reject e =>
    obtain ⟨hMem, rfl⟩ := step_reject_iff.mp hStep
    exact (erase_add hMem).trans (add_zero _).symm
  | processStreams chain updates =>
    obtain ⟨-, s, -, rfl⟩ := step_processStreams_iff.mp hStep
    rfl

/-- **What a step does to the posts of a chain.** -/
theorem step_ownPosts (hStep : n.step a = some n') (c : ChainId) :
    (n'.states c).ownPosts =
      match a.makes c with
      | none => (n.states c).ownPosts
      | some p =>
        (n.states c).ownPosts.insert (UInt32.ofNat (n.states c).ownPosts.keys.card) p := by
  cases a with
  | operation chain systemTime op =>
    obtain rfl := step_operation_iff.mp hStep
    rw [states_perform]
    by_cases hc : chain = c
    · subst hc
      simp only [Function.update_self]
      cases op with
      | post text imageUrl =>
        rw [Action.makes, if_pos rfl]
        rfl
      | subscribe | unsubscribe | like | comment => rfl
    · simp only [Function.update_of_ne (Ne.symm hc)]
      cases op with
      | post text imageUrl => simp [Action.makes, hc]
      | subscribe | unsubscribe | like | comment => rfl
  | execute e =>
    obtain ⟨-, rfl⟩ := step_execute_iff.mp hStep
    rfl
  | reject e =>
    obtain ⟨-, rfl⟩ := step_reject_iff.mp hStep
    rfl
  | processStreams chain updates =>
    obtain ⟨-, s, hProcess, rfl⟩ := step_processStreams_iff.mp hStep
    by_cases hc : c = chain
    · subst hc
      simp only [Function.update_self]
      exact ownPosts_processStreams hProcess
    · simp only [Function.update_of_ne hc]
      rfl

/-- **What a step does to a subscriber**: nothing, unless it lets the subscriber
process streams. -/
theorem step_subscriber (hStep : n.step a = some n') (b : ChainId) :
    (∃ updates, a = .processStreams b updates ∧
      n.Deliverable b (n.nextIndex b) updates ∧
      processStreams n.applicationId n.readEvent (n.states b) updates = .ok (n'.states b) ∧
      n'.nextIndex b = advance (n.nextIndex b) updates) ∨
    ((n'.states b).receivedPosts = (n.states b).receivedPosts ∧
      n'.nextIndex b = n.nextIndex b) := by
  cases a with
  | operation chain systemTime op =>
    right
    obtain rfl := step_operation_iff.mp hStep
    rw [states_perform, nextIndex_perform]
    refine ⟨?_, rfl⟩
    by_cases hb : b = chain
    · subst hb
      simp only [Function.update_self]
      exact receivedPosts_executeOperation ..
    · simp only [Function.update_of_ne hb]
  | execute e =>
    right
    obtain ⟨-, rfl⟩ := step_execute_iff.mp hStep
    exact ⟨rfl, rfl⟩
  | reject e =>
    right
    obtain ⟨-, rfl⟩ := step_reject_iff.mp hStep
    exact ⟨rfl, rfl⟩
  | processStreams chain updates =>
    obtain ⟨hDel, s, hProcess, rfl⟩ := step_processStreams_iff.mp hStep
    by_cases hb : b = chain
    · subst hb
      left
      exact ⟨updates, rfl, hDel, by simpa using hProcess, by simp⟩
    · right
      simp [Function.update_of_ne hb]

/-- A subscription is old, or the effect asked for it. -/
theorem mem_subscriptions_perform {chain origin b : ChainId}
    {effect : Effect ChainId ApplicationId} {x : ChainId × StreamId ApplicationId}
    (hx : x ∈ (n.perform chain origin effect).subscriptions b) :
    x ∈ n.subscriptions b ∨ effect = .subscribeToEvents x.1 x.2 := by
  cases effect with
  | subscribeToEvents a streamId =>
    simp only [perform] at hx
    by_cases hb : b = chain
    · subst hb
      rw [Function.update_self, Finset.mem_insert] at hx
      rcases hx with rfl | hOld
      · exact Or.inr rfl
      · exact Or.inl hOld
    · rw [Function.update_of_ne hb] at hx
      exact Or.inl hx
  | unsubscribeFromEvents a streamId =>
    simp only [perform] at hx
    by_cases hb : b = chain
    · subst hb
      rw [Function.update_self] at hx
      exact Or.inl (Finset.mem_of_mem_erase hx)
    · rw [Function.update_of_ne hb] at hx
      exact Or.inl hx
  | emit | sendMessage => exact Or.inl hx

/-- Subscriptions are to the stream of the application. -/
theorem step_subscriptions (hStep : n.step a = some n') {b : ChainId}
    {x : ChainId × StreamId ApplicationId} (hx : x ∈ n'.subscriptions b) :
    x ∈ n.subscriptions b ∨ x.2 = ⟨n.applicationId, STREAM_NAME⟩ := by
  cases a with
  | operation chain systemTime op =>
    obtain rfl := step_operation_iff.mp hStep
    rcases mem_subscriptions_perform hx with hOld | hEffect
    · exact Or.inl hOld
    · exact Or.inr (streamId_executeOperation hEffect)
  | execute e =>
    obtain ⟨-, rfl⟩ := step_execute_iff.mp hStep
    exact Or.inl hx
  | reject e =>
    obtain ⟨-, rfl⟩ := step_reject_iff.mp hStep
    exact Or.inl hx
  | processStreams chain updates =>
    obtain ⟨-, s, -, rfl⟩ := step_processStreams_iff.mp hStep
    exact Or.inl hx

theorem step_applicationId (hStep : n.step a = some n') : n'.applicationId = n.applicationId := by
  cases a with
  | operation chain systemTime op =>
    obtain rfl := step_operation_iff.mp hStep
    exact applicationId_perform ..
  | execute e =>
    obtain ⟨-, rfl⟩ := step_execute_iff.mp hStep
    rfl
  | reject e =>
    obtain ⟨-, rfl⟩ := step_reject_iff.mp hStep
    rfl
  | processStreams chain updates =>
    obtain ⟨-, s, -, rfl⟩ := step_processStreams_iff.mp hStep
    rfl

end Network

end LineraEndToEnd.Social
