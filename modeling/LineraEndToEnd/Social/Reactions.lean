import LineraEndToEnd.Social.Subscriber

/-!
# Social — likes and comments on their way

A like or a comment is one `Emitted` entry all along: the operation makes it,
the message carries it unless the operation runs on the author's chain, and the
stream of the author ends up with it. On the way it can only be rejected.

* `Action.reacts`, `Envelope.entry`, `Action.rejects` — the entry an operation
  makes, the entry a message carries, the message an action rejects.
* `reactions_step` / `reactions_run` — none is lost or made twice: for every
  predicate about posts of one author, the entries in the stream, in flight and
  rejected are as many as the operations.
* `origin_executed` — the origin of an entry is the chain of an operation.
* `likes_conserved` — the likes of a subscriber, those it has yet to process,
  those in flight and those rejected are all the `Like` operations.
-/

namespace LineraEndToEnd.Social

open Lib

variable {ChainId ApplicationId : Type}

-- ---------------------------------------------------------------------------
-- Entries
-- ---------------------------------------------------------------------------

/-- The like or comment an action makes, from the chain of the operation. -/
def Action.reacts : Action ChainId ApplicationId → Option (Emitted ChainId)
  | .operation chain _ (.like key) => some ⟨chain, .like key⟩
  | .operation chain _ (.comment key comment) => some ⟨chain, .comment key comment⟩
  | _ => none

/-- The entry a message leads to. -/
def Envelope.entry (m : Envelope ChainId) : Emitted ChainId :=
  ⟨m.sender, executeMessage m.message⟩

/-- The message an action rejects. -/
def Action.rejects : Action ChainId ApplicationId → Option (Envelope ChainId)
  | .reject m => some m
  | _ => none

/-- The likes and comments made in a run, in order. -/
def reactions (as : List (Action ChainId ApplicationId)) : List (Emitted ChainId) :=
  as.filterMap Action.reacts

/-- The messages rejected in a run, in order. -/
def rejected (as : List (Action ChainId ApplicationId)) : List (Envelope ChainId) :=
  as.filterMap Action.rejects

/-- The predicate holds of likes and comments on posts of `c` only. -/
def About (c : ChainId) (p : Emitted ChainId → Bool) : Prop :=
  ∀ x, p x = true → ∃ key, x.event.subject = some key ∧ key.author = c

/-- The number of messages whose entries the predicate holds of. -/
def carried (p : Emitted ChainId → Bool) (ms : Multiset (Envelope ChainId)) : Nat :=
  ms.countP fun m => p m.entry

variable [DecidableEq ChainId] [DecidableEq ApplicationId]
  {n n' : Network ChainId ApplicationId} {a : Action ChainId ApplicationId}
  {as : List (Action ChainId ApplicationId)} {c : ChainId} {p : Emitted ChainId → Bool}

-- ---------------------------------------------------------------------------
-- Conservation
-- ---------------------------------------------------------------------------

omit [DecidableEq ChainId] in
theorem carried_zero : carried p 0 = 0 := rfl

omit [DecidableEq ChainId] in
theorem carried_singleton (m : Envelope ChainId) : carried p {m} = [m.entry].countP p := by
  rw [carried, ← Multiset.cons_zero, Multiset.countP_cons, List.countP_singleton,
    Multiset.countP_zero, Nat.zero_add]

omit [DecidableEq ChainId] in
theorem carried_add (ms ms' : Multiset (Envelope ChainId)) :
    carried p (ms + ms') = carried p ms + carried p ms' :=
  Multiset.countP_add ..

/-- A reaction goes into the stream on the author's chain, and into a message on
any other chain. -/
theorem countP_reaction (hAbout : About c p) {m : Envelope ChainId} {key : Key ChainId}
    (hSubject : m.entry.event.subject = some key) :
    (if m.sender = c then if key.author = c then [m.entry] else [] else []).countP p +
        carried p (if key.author = m.sender then 0 else {m}) =
      [m.entry].countP p := by
  by_cases hp : p m.entry = true
  · obtain ⟨k, hk, hAuthor⟩ := hAbout _ hp
    obtain rfl : key = k := Option.some.inj (hSubject.symm.trans hk)
    by_cases hSender : m.sender = c
    · rw [if_pos hSender, if_pos hAuthor, if_pos (hAuthor.trans hSender.symm), carried_zero,
        Nat.add_zero]
    · have hOther : key.author ≠ m.sender := fun hEq => hSender (hEq.symm.trans hAuthor)
      rw [if_neg hSender, if_neg hOther, carried_singleton, List.countP_nil, Nat.zero_add]
  · -- what the predicate does not hold of is not counted anywhere
    have hNone : [m.entry].countP p = 0 := List.countP_cons_of_neg hp
    have hStream : (if m.sender = c then if key.author = c then [m.entry] else [] else []).countP p
        = 0 := by
      split
      · split
        · exact hNone
        · rfl
      · rfl
    have hFlight : carried p (if key.author = m.sender then 0 else {m}) = 0 := by
      split
      · rfl
      · rw [carried_singleton, hNone]
    rw [hStream, hFlight, hNone]

/-- What an action puts into the stream, into flight and into the rejected ones
is what it takes out of flight and what it makes. -/
theorem reactions_action (hWell : n.WellFormed) (hStep : n.step a = some n')
    (hAbout : About c p) :
    (n.emits c a).countP p + carried p a.sent + carried p (Multiset.ofList a.rejects.toList) =
      carried p a.consumed + a.reacts.toList.countP p := by
  cases a with
  | operation chain systemTime op =>
    show _ + _ + carried p 0 = carried p 0 + _
    rw [carried_zero, Nat.add_zero, Nat.zero_add]
    cases op with
    | subscribe | unsubscribe =>
      show (if chain = c then [] else []).countP p + carried p 0 = 0
      rw [ite_self, carried_zero, List.countP_nil]
    | post text imageUrl =>
      -- a post is no reaction
      show (n.emits c _).countP p + carried p 0 = 0
      rw [carried_zero, Nat.add_zero]
      refine List.countP_eq_zero.mpr fun x hx hp => ?_
      obtain ⟨key, hKey, -⟩ := hAbout x hp
      cases Network.emits_of_mem hx with
      | post => cases hKey
    | like key => exact countP_reaction hAbout (m := ⟨chain, key.author, .like key⟩) rfl
    | comment key comment =>
      exact countP_reaction hAbout (m := ⟨chain, key.author, .comment key comment⟩) rfl
  | execute m =>
    obtain ⟨hMem, -⟩ := Network.step_execute_iff.mp hStep
    show (if m.destination = c then [m.entry] else []).countP p + carried p 0 + carried p 0 =
      carried p {m} + 0
    rw [carried_zero, carried_singleton, Nat.add_zero, Nat.add_zero]
    split
    · rfl
    · next hElsewhere =>
      -- the message is on the chain of its post, which is not this one
      refine (List.countP_cons_of_neg fun hp => hElsewhere ?_).symm
      obtain ⟨key, hKey, hAuthor⟩ := hAbout _ hp
      exact (hWell.addressed m hMem _ (List.mem_singleton_self _) key hKey).symm.trans hAuthor
  | reject m =>
    show 0 + carried p 0 + carried p {m} = carried p {m} + 0
    rw [carried_zero, Nat.zero_add, Nat.add_zero]
  | processStreams chain updates => rfl

/-- **One step** keeps the balance of likes and comments. -/
theorem reactions_step (hWell : n.WellFormed) (hStep : n.step a = some n') (hAbout : About c p) :
    (n'.streams c).countP p + carried p n'.inFlight +
        carried p (Multiset.ofList a.rejects.toList) =
      (n.streams c).countP p + carried p n.inFlight + a.reacts.toList.countP p := by
  have hAction := reactions_action hWell hStep hAbout
  have hFlight := congrArg (carried p) (Network.step_inFlight hStep)
  rw [carried_add, carried_add] at hFlight
  rw [Network.step_streams hStep, List.countP_append]
  omega

section
variable {applicationId : ApplicationId}

/-- **No like or comment is lost or made twice.** -/
theorem reactions_run (hRun : (Network.initial applicationId).run as = some n)
    (hAbout : About c p) :
    (n.streams c).countP p + carried p n.inFlight + carried p (Multiset.ofList (rejected as)) =
      (reactions as).countP p := by
  refine run_induction
    (P := fun as n => (n.streams c).countP p + carried p n.inFlight +
      carried p (Multiset.ofList (rejected as)) = (reactions as).countP p) rfl ?_ hRun
  intro as m a m' hBefore ih hStep
  have hWell : m.WellFormed := (Network.WellFormed.initial applicationId).run hBefore
  have hBalance := reactions_step hWell hStep hAbout
  have hRejected : rejected (as ++ [a]) = rejected as ++ a.rejects.toList := filterMap_concat ..
  have hReactions : reactions (as ++ [a]) = reactions as ++ a.reacts.toList :=
    filterMap_concat ..
  rw [hRejected, hReactions, ← Multiset.coe_add, carried_add, List.countP_append]
  omega

omit [DecidableEq ChainId] [DecidableEq ApplicationId] in
theorem reacts_eq_some {x : Emitted ChainId} (h : a.reacts = some x) :
    (∃ systemTime key, x.event = .like key ∧ a = .operation x.origin systemTime (.like key)) ∨
    ∃ systemTime key comment, x.event = .comment key comment ∧
      a = .operation x.origin systemTime (.comment key comment) := by
  cases a with
  | operation chain systemTime op =>
    cases op with
    | like key =>
      obtain rfl := Option.some.inj h
      exact Or.inl ⟨systemTime, key, rfl, rfl⟩
    | comment key comment =>
      obtain rfl := Option.some.inj h
      exact Or.inr ⟨systemTime, key, comment, rfl, rfl⟩
    | subscribe | unsubscribe | post => cases h
  | execute | reject | processStreams => cases h

/-- A comment in a stream is there because its origin executed the operation. -/
theorem origin_executed (hRun : (Network.initial applicationId).run as = some n)
    {x : Emitted ChainId} (hMem : x ∈ n.streams c) {key : Key ChainId} {comment : String}
    (hEvent : x.event = .comment key comment) :
    ∃ systemTime, .operation x.origin systemTime (.comment key comment) ∈ as := by
  have hWell : n.WellFormed := (Network.WellFormed.initial applicationId).run hRun
  have hSubject : x.event.subject = some key := by rw [hEvent]; rfl
  have hAuthor : key.author = c :=
    hWell.authored c x.event (List.mem_map_of_mem hMem) key hSubject
  have hAbout : About c fun y => decide (y = x) := by
    intro y hy
    rw [of_decide_eq_true hy]
    exact ⟨key, hSubject, hAuthor⟩
  have hBalance := reactions_run hRun hAbout
  have hSome : 0 < (n.streams c).countP fun y => decide (y = x) :=
    List.countP_pos_iff.mpr ⟨x, hMem, decide_eq_true rfl⟩
  have hMade : 0 < (reactions as).countP fun y => decide (y = x) := by omega
  obtain ⟨y, hy, hEq⟩ := List.countP_pos_iff.mp hMade
  obtain rfl := of_decide_eq_true hEq
  obtain ⟨a, ha, hReacts⟩ := List.mem_filterMap.mp hy
  rcases reacts_eq_some hReacts with ⟨_, _, hLike, -⟩ | ⟨systemTime, k, text, hComment, rfl⟩
  · rw [hEvent] at hLike
    cases hLike
  · rw [hEvent] at hComment
    cases hComment
    exact ⟨systemTime, ha⟩

-- ---------------------------------------------------------------------------
-- Likes
-- ---------------------------------------------------------------------------

/-- The events of `c` that `b` has not processed yet. -/
def Network.unprocessed (n : Network ChainId ApplicationId) (b c : ChainId) :
    List (Event ChainId) :=
  (n.events c).drop (n.nextIndex b c).toNat

/-- The `Like` messages for `key`. -/
def likeMessages (key : Key ChainId) (ms : Multiset (Envelope ChainId)) : Nat :=
  ms.countP fun m => m.message = .like key

/-- The action is a `Like` operation for `key`. -/
def Action.isLike (key : Key ChainId) : Action ChainId ApplicationId → Bool
  | .operation _ _ (.like k) => k = key
  | _ => false

omit [DecidableEq ChainId] [DecidableEq ApplicationId] in
theorem processed_append_unprocessed (n : Network ChainId ApplicationId) (b c : ChainId) :
    n.processed b c ++ n.unprocessed b c = n.events c :=
  List.take_append_drop ..

theorem likes_append (es es' : List (Event ChainId)) (key : Key ChainId) :
    likes (es ++ es') key = likes es key + likes es' key :=
  List.count_append

theorem carried_like (key : Key ChainId) (ms : Multiset (Envelope ChainId)) :
    carried (fun x => x.event = .like key) ms = likeMessages key ms := by
  unfold carried likeMessages
  refine Multiset.countP_congr rfl fun m _ => ?_
  rw [decide_eq_true_iff]
  cases hMessage : m.message <;> simp [Envelope.entry, hMessage, executeMessage]

omit [DecidableEq ApplicationId] in
theorem countP_reactions_like (key : Key ChainId) (as : List (Action ChainId ApplicationId)) :
    (reactions as).countP (fun x => x.event = .like key) = as.countP (Action.isLike key) := by
  rw [reactions, List.countP_filterMap]
  refine List.countP_congr fun a _ => ?_
  cases a with
  | operation chain systemTime op =>
    cases op <;> simp [Action.reacts, Action.isLike]
  | execute | reject | processStreams => simp [Action.reacts, Action.isLike]

/-- **No like is lost or counted twice.** In every run, for every post `key` whose
`Post` event the subscriber `b` has processed: the likes `b` shows, the `Like`
events `b` has yet to process, and the `Like` messages in flight and rejected
are as many as the `Like` operations executed. -/
theorem likes_conserved (hRun : (Network.initial applicationId).run as = some n) (b : ChainId)
    (key : Key ChainId) (own : OwnPost) (hPosted : .post own key.index ∈ n.processed b key.author)
    (hTime : own.timestamp = key.timestamp) :
    ∃ post, (n.states b).receivedPosts.lookup key = some post ∧
      post.likes.toNat + likes (n.unprocessed b key.author) key + likeMessages key n.inFlight +
          likeMessages key (Multiset.ofList (rejected as)) =
        as.countP (Action.isLike key) := by
  -- the subscriber holds the post, with the likes it has processed
  have hMem : (own, key.index) ∈ posts (n.processed b key.author) :=
    List.mem_filterMap.mpr ⟨_, hPosted, rfl⟩
  have hKey : keyOf key.author (own, key.index) = key := by
    rw [keyOf, hTime]
  have hLookup := (mirror_run hRun b key.author).lookup key rfl
  obtain ⟨post, hPost⟩ := Option.isSome_iff_exists.mp (feed_isSome_iff.mpr ⟨_, hMem, hKey⟩)
  rw [hPost] at hLookup
  obtain ⟨q, hFind, rfl⟩ := Option.map_eq_some_iff.mp hPost
  obtain ⟨-, hq⟩ := find?_eq_some_key hFind
  have hLikes := (reflects_expected key.author (length_processed_lt n b key.author) q).allLikes
  rw [hq] at hLikes
  -- the others are on their way
  have hAbout : About key.author fun x => decide (x.event = .like key) := by
    intro x hx
    rw [of_decide_eq_true hx]
    exact ⟨key, rfl, rfl⟩
  have hBalance := reactions_run hRun hAbout
  have hStream : (n.streams key.author).countP (fun x => decide (x.event = .like key)) =
      likes (n.processed b key.author) key + likes (n.unprocessed b key.author) key := by
    rw [← likes_append, processed_append_unprocessed, likes, Network.events, List.count,
      List.countP_map]
    exact List.countP_congr fun x _ => by simp
  rw [carried_like, carried_like, countP_reactions_like, hStream] at hBalance
  exact ⟨_, hLookup, by rw [hLikes]; exact hBalance⟩

theorem likes_conserved_sample :
    ∃ n, (Network.initial 0).run sampleRun = some n ∧ ∃ post,
      (n.states 1).receivedPosts.lookup ⟨5, 0, 0⟩ = some post ∧
      post.likes.toNat + likes (n.unprocessed 1 0) ⟨5, 0, 0⟩ + likeMessages ⟨5, 0, 0⟩ n.inFlight +
          likeMessages ⟨5, 0, 0⟩ (Multiset.ofList (rejected sampleRun)) =
        sampleRun.countP (Action.isLike ⟨5, 0, 0⟩) := by
  have hRun := (Option.some_get isSome_sampleRun).symm
  exact ⟨_, hRun, likes_conserved hRun 1 ⟨5, 0, 0⟩ ⟨5, "first", none⟩ (by decide) rfl⟩

end

end LineraEndToEnd.Social
