import LineraEndToEnd.Runtime.Base

/-!
# Social — the contract

`social/src/lib.rs`, `state.rs` and `contract.rs`: the types of the
application, its state on one chain, and the functions that run on it. What the
contract asks of the runtime is data here: an operation or a message has one
`Effect`, and `read_event` is an argument of `processStreams`. Its stream is
the one called `STREAM_NAME`, so events carry no stream name.

The machine integers are the source's own (`u32` wraps in the release build the
contract is compiled with).

* `executePostEvent`, `executeLikeEvent`, `executeCommentEvent` — what an event
  of a subscribed chain does to `received_posts`; `executeEvent` is the `match`
  over the three in `process_streams`.
* `executeEvent_ok_iff` — when an event panics, and what it does otherwise.
-/

namespace LineraEndToEnd.Social

/-! ## Types -/

/-- A key by which a post is indexed. -/
structure Key (ChainId : Type) where
  timestamp : UInt64
  author : ChainId
  index : UInt32
deriving DecidableEq

/-- A post's text and timestamp, where author and index are known. -/
structure OwnPost where
  timestamp : UInt64
  text : String
  imageUrl : Option String
deriving DecidableEq

/-- A comment on a post. -/
structure Comment (ChainId : Type) where
  text : String
  chainId : ChainId
deriving DecidableEq

/-- A post. -/
structure Post (ChainId : Type) where
  key : Key ChainId
  text : String
  imageUrl : Option String
  likes : UInt32
  comments : List (Comment ChainId)
deriving DecidableEq

/-- `Operation`. -/
inductive Operation (ChainId : Type) where
  | subscribe (chainId : ChainId)
  | unsubscribe (chainId : ChainId)
  | post (text : String) (imageUrl : Option String)
  | like (key : Key ChainId)
  | comment (key : Key ChainId) (comment : String)
deriving DecidableEq

/-- `Message`. -/
inductive Message (ChainId : Type) where
  | like (key : Key ChainId)
  | comment (key : Key ChainId) (comment : String)
deriving DecidableEq

/-- `Event`. -/
inductive Event (ChainId : Type) where
  | post (post : OwnPost) (index : UInt32)
  | like (key : Key ChainId)
  | comment (key : Key ChainId) (comment : String)
deriving DecidableEq

/-- `STREAM_NAME`. -/
def STREAM_NAME : String := "posts"

/-- `StreamId`. -/
structure StreamId (ApplicationId : Type) where
  applicationId : ApplicationId
  streamName : String
deriving DecidableEq

/-- `StreamUpdate`: there are new events in a stream of a chain. -/
structure StreamUpdate (ChainId ApplicationId : Type) where
  chainId : ChainId
  streamId : StreamId ApplicationId
  previousIndex : UInt32
  nextIndex : UInt32
deriving DecidableEq

/-- `StreamUpdate::new_indices`. -/
def StreamUpdate.newIndices {ChainId ApplicationId : Type}
    (u : StreamUpdate ChainId ApplicationId) : List Nat :=
  List.range' u.previousIndex.toNat (u.nextIndex.toNat - u.previousIndex.toNat)

/-- The panics of the contract: the two assertions on the stream of an update,
a missing event in `read_event`, and `expect("Post not found")`. -/
inductive Panic where
  | wrongStreamName
  | wrongApplicationId
  | eventNotFound
  | postNotFound
deriving DecidableEq

/-- What the contract asks of the runtime. -/
inductive Effect (ChainId ApplicationId : Type) where
  | subscribeToEvents (chainId : ChainId) (streamId : StreamId ApplicationId)
  | unsubscribeFromEvents (chainId : ChainId) (streamId : StreamId ApplicationId)
  | emit (value : Event ChainId)
  | sendMessage (destination : ChainId) (message : Message ChainId)

/-- What the contract reads from the runtime while it executes an operation. -/
structure Context (ChainId ApplicationId : Type) where
  chainId : ChainId
  applicationId : ApplicationId
  systemTime : UInt64

/-- The application state on one chain. -/
structure SocialState (ChainId : Type) where
  ownPosts : MapView UInt32 OwnPost
  receivedPosts : MapView (Key ChainId) (Post ChainId)

variable {ChainId ApplicationId : Type} [DecidableEq ChainId] [DecidableEq ApplicationId]

namespace SocialState

instance : EmptyCollection (SocialState ChainId) := ⟨⟨∅, ∅⟩⟩

/-! ## The functions of `contract.rs` -/

/-- `execute_post_operation`. -/
def executePostOperation (s : SocialState ChainId) (systemTime : UInt64) (text : String)
    (imageUrl : Option String) : SocialState ChainId × Event ChainId :=
  let post : OwnPost := { timestamp := systemTime, text := text, imageUrl := imageUrl }
  let index := UInt32.ofNat s.ownPosts.keys.card
  ({ s with ownPosts := s.ownPosts.insert index post }, .post post index)

/-- `execute_post_event`. -/
def executePostEvent (s : SocialState ChainId) (chainId : ChainId) (index : UInt32)
    (post : OwnPost) : SocialState ChainId :=
  let key : Key ChainId := { timestamp := post.timestamp, author := chainId, index := index }
  let newPost : Post ChainId :=
    { key := key, text := post.text, imageUrl := post.imageUrl, likes := 0, comments := [] }
  { s with receivedPosts := s.receivedPosts.insert key newPost }

/-- `execute_like_event`. -/
def executeLikeEvent (s : SocialState ChainId) (key : Key ChainId) :
    Except Panic (SocialState ChainId) :=
  match s.receivedPosts.lookup key with
  | none => .error .postNotFound
  | some post =>
    .ok { s with
      receivedPosts := s.receivedPosts.insert key { post with likes := post.likes + 1 } }

/-- `execute_comment_event`. -/
def executeCommentEvent (s : SocialState ChainId) (key : Key ChainId) (chainId : ChainId)
    (comment : String) : Except Panic (SocialState ChainId) :=
  match s.receivedPosts.lookup key with
  | none => .error .postNotFound
  | some post =>
    let comment : Comment ChainId := { text := comment, chainId := chainId }
    .ok { s with
      receivedPosts :=
        s.receivedPosts.insert key { post with comments := post.comments ++ [comment] } }

end SocialState

/-- `execute_like_operation`: the author's own chain emits the event, any other
chain sends a message there. -/
def executeLikeOperation (ctx : Context ChainId ApplicationId) (key : Key ChainId) :
    Effect ChainId ApplicationId :=
  if key.author ≠ ctx.chainId then .sendMessage key.author (.like key) else .emit (.like key)

/-- `execute_comment_operation`. -/
def executeCommentOperation (ctx : Context ChainId ApplicationId) (key : Key ChainId)
    (comment : String) : Effect ChainId ApplicationId :=
  if key.author ≠ ctx.chainId then .sendMessage key.author (.comment key comment)
  else .emit (.comment key comment)

/-- `execute_operation`. -/
def executeOperation (ctx : Context ChainId ApplicationId) (s : SocialState ChainId) :
    Operation ChainId → SocialState ChainId × Effect ChainId ApplicationId
  | .subscribe chainId => (s, .subscribeToEvents chainId ⟨ctx.applicationId, STREAM_NAME⟩)
  | .unsubscribe chainId => (s, .unsubscribeFromEvents chainId ⟨ctx.applicationId, STREAM_NAME⟩)
  | .post text imageUrl =>
    let (s, event) := s.executePostOperation ctx.systemTime text imageUrl
    (s, .emit event)
  | .like key => (s, executeLikeOperation ctx key)
  | .comment key comment => (s, executeCommentOperation ctx key comment)

/-- `execute_message`: the message's event is emitted, whatever key it names. -/
def executeMessage : Message ChainId → Event ChainId
  | .like key => .like key
  | .comment key comment => .comment key comment

/-- The `match event` of `process_streams`, for an event of the chain `chainId`. -/
def executeEvent (chainId : ChainId) (event : Event ChainId) (s : SocialState ChainId) :
    Except Panic (SocialState ChainId) :=
  match event with
  | .post post index => .ok (s.executePostEvent chainId index post)
  | .like key => s.executeLikeEvent key
  | .comment key comment => s.executeCommentEvent key chainId comment

/-- The inner loop of `process_streams`, at one index. -/
def processIndex (readEvent : ChainId → Nat → Option (Event ChainId)) (chainId : ChainId)
    (s : SocialState ChainId) (index : Nat) : Except Panic (SocialState ChainId) :=
  match readEvent chainId index with
  | none => .error .eventNotFound
  | some event => executeEvent chainId event s

/-- The outer loop of `process_streams`, at one update. -/
def processUpdate (applicationId : ApplicationId)
    (readEvent : ChainId → Nat → Option (Event ChainId)) (s : SocialState ChainId)
    (u : StreamUpdate ChainId ApplicationId) : Except Panic (SocialState ChainId) :=
  if u.streamId.streamName ≠ STREAM_NAME then .error .wrongStreamName
  else if u.streamId.applicationId ≠ applicationId then .error .wrongApplicationId
  else u.newIndices.foldlM (processIndex readEvent u.chainId) s

/-- `process_streams`. -/
def processStreams (applicationId : ApplicationId)
    (readEvent : ChainId → Nat → Option (Event ChainId)) (s : SocialState ChainId)
    (updates : List (StreamUpdate ChainId ApplicationId)) : Except Panic (SocialState ChainId) :=
  updates.foldlM (processUpdate applicationId readEvent) s

/-! ## What an operation asks for -/

section
omit [DecidableEq ChainId] [DecidableEq ApplicationId]

/-- The event an effect emits. -/
def Effect.emitted : Effect ChainId ApplicationId → List (Event ChainId)
  | .emit event => [event]
  | .subscribeToEvents _ _ | .unsubscribeFromEvents _ _ | .sendMessage _ _ => []

/-- The message an effect sends, with its destination. -/
def Effect.sent : Effect ChainId ApplicationId → List (ChainId × Message ChainId)
  | .sendMessage destination message => [(destination, message)]
  | .subscribeToEvents _ _ | .unsubscribeFromEvents _ _ | .emit _ => []

end

section
variable (ctx : Context ChainId ApplicationId) (key : Key ChainId) (comment : String)
omit [DecidableEq ApplicationId]

theorem receivedPosts_executeOperation (s : SocialState ChainId) (op : Operation ChainId) :
    (executeOperation ctx s op).1.receivedPosts = s.receivedPosts := by
  cases op <;> rfl

/-- Operations subscribe to the stream of the application. -/
theorem streamId_executeOperation {ctx : Context ChainId ApplicationId}
    {s : SocialState ChainId} {op : Operation ChainId} {chainId : ChainId}
    {streamId : StreamId ApplicationId}
    (h : (executeOperation ctx s op).2 = .subscribeToEvents chainId streamId) :
    streamId = ⟨ctx.applicationId, STREAM_NAME⟩ := by
  cases op with
  | subscribe chainId' =>
    obtain ⟨-, rfl⟩ := (Effect.subscribeToEvents.injEq ..).mp h
    rfl
  | unsubscribe | post => cases h
  | like key =>
    simp only [executeOperation, executeLikeOperation] at h
    split at h <;> cases h
  | comment key comment =>
    simp only [executeOperation, executeCommentOperation] at h
    split at h <;> cases h

theorem emitted_executeLikeOperation :
    (executeLikeOperation ctx key).emitted =
      if key.author = ctx.chainId then [.like key] else [] := by
  by_cases h : key.author = ctx.chainId <;> simp [executeLikeOperation, h, Effect.emitted]

theorem sent_executeLikeOperation :
    (executeLikeOperation ctx key).sent =
      if key.author = ctx.chainId then [] else [(key.author, .like key)] := by
  by_cases h : key.author = ctx.chainId <;> simp [executeLikeOperation, h, Effect.sent]

theorem emitted_executeCommentOperation :
    (executeCommentOperation ctx key comment).emitted =
      if key.author = ctx.chainId then [.comment key comment] else [] := by
  by_cases h : key.author = ctx.chainId <;> simp [executeCommentOperation, h, Effect.emitted]

theorem sent_executeCommentOperation :
    (executeCommentOperation ctx key comment).sent =
      if key.author = ctx.chainId then [] else [(key.author, .comment key comment)] := by
  by_cases h : key.author = ctx.chainId <;> simp [executeCommentOperation, h, Effect.sent]

end

/-! ## What an event does -/

variable {s s' : SocialState ChainId}

/-- The post a `Like` or `Comment` event is about. -/
def Event.subject : Event ChainId → Option (Key ChainId)
  | .post _ _ => none
  | .like key => some key
  | .comment key _ => some key

/-- What a `Like` or `Comment` event of the chain `chainId` does to its post. -/
def Event.revise (chainId : ChainId) (event : Event ChainId) (p : Post ChainId) :
    Post ChainId :=
  match event with
  | .post _ _ => p
  | .like _ => { p with likes := p.likes + 1 }
  | .comment _ text => { p with comments := p.comments ++ [{ text := text, chainId := chainId }] }

/-- An event about a post panics unless the post is there. -/
theorem executeEvent_ok_iff {chainId : ChainId} {event : Event ChainId} {key : Key ChainId}
    (hSubject : event.subject = some key) :
    executeEvent chainId event s = .ok s' ↔
      ∃ p, s.receivedPosts.lookup key = some p ∧
        s' = { s with receivedPosts := s.receivedPosts.insert key (event.revise chainId p) } := by
  cases event with
  | post p index => cases hSubject
  | like k =>
    obtain rfl := Option.some.inj hSubject
    simp only [executeEvent, SocialState.executeLikeEvent]
    cases s.receivedPosts.lookup k <;> simp [Event.revise, eq_comm]
  | comment k text =>
    obtain rfl := Option.some.inj hSubject
    simp only [executeEvent, SocialState.executeCommentEvent]
    cases s.receivedPosts.lookup k <;> simp [Event.revise, eq_comm]

/-- Processing streams leaves the posts of the subscriber itself alone. -/
theorem ownPosts_executeEvent {chainId : ChainId} {event : Event ChainId}
    (h : executeEvent chainId event s = .ok s') : s'.ownPosts = s.ownPosts := by
  cases hSubject : event.subject with
  | none =>
    cases event with
    | post p index =>
      obtain rfl := Except.ok.inj h
      rfl
    | like | comment => cases hSubject
  | some key =>
    obtain ⟨p, -, rfl⟩ := (executeEvent_ok_iff hSubject).mp h
    rfl

theorem ownPosts_processStreams {applicationId : ApplicationId}
    {readEvent : ChainId → Nat → Option (Event ChainId)}
    {updates : List (StreamUpdate ChainId ApplicationId)}
    (h : processStreams applicationId readEvent s updates = .ok s') :
    s'.ownPosts = s.ownPosts := by
  have hIndices : ∀ chainId (indices : List Nat) (t t' : SocialState ChainId),
      indices.foldlM (processIndex readEvent chainId) t = .ok t' → t'.ownPosts = t.ownPosts := by
    intro chainId indices
    induction indices with
    | nil =>
      intro t t' hLoop
      obtain rfl := Except.ok.inj hLoop
      rfl
    | cons i indices ih =>
      intro t t' hLoop
      rw [List.foldlM_cons, bind_ok_iff] at hLoop
      obtain ⟨t₁, hFirst, hRest⟩ := hLoop
      unfold processIndex at hFirst
      split at hFirst
      · cases hFirst
      · exact (ih t₁ t' hRest).trans (ownPosts_executeEvent hFirst)
  induction updates generalizing s with
  | nil =>
    obtain rfl := Except.ok.inj h
    rfl
  | cons u updates ih =>
    rw [processStreams, List.foldlM_cons, bind_ok_iff] at h
    obtain ⟨t, hFirst, hRest⟩ := h
    unfold processUpdate at hFirst
    split at hFirst
    · cases hFirst
    · split at hFirst
      · cases hFirst
      · exact (ih hRest).trans (hIndices _ _ _ _ hFirst)

end LineraEndToEnd.Social
