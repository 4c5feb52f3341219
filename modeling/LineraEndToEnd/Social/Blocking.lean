import LineraEndToEnd.Social.Subscriber

/-!
# Social — when a subscriber is blocked

Nothing checks the key of a like or a comment before it reaches a subscriber:
not the operation, and not the execution of the message on the author's chain,
which emits an event for whatever key it is given. There the subscriber panics,
and never gets past this event.

* `Network.Names` — the check that is missing: what an action puts into the
  stream of an author is about a post in the author's `own_posts`.
* `grounded_step` — under this condition, every like and comment in a stream
  comes after the post it is about.
* `never_blocked` — in every run all of whose steps meet the condition, no
  subscriber ever panics.
* `nextIndex_le_of_ungrounded` — where the post is missing, no subscriber ever
  gets past the event.
* `blocked` — a run that does not meet it, and in which a subscriber does.
-/

namespace LineraEndToEnd.Social

open Lib

variable {ChainId ApplicationId : Type} [DecidableEq ChainId] [DecidableEq ApplicationId]
  {n n' : Network ChainId ApplicationId} {a : Action ChainId ApplicationId} {c : ChainId}

-- ---------------------------------------------------------------------------
-- The condition
-- ---------------------------------------------------------------------------

/-- The post a message is about. -/
def Message.key : Message ChainId → Key ChainId
  | .like key => key
  | .comment key _ => key

/-- The author of `key` has this post in `own_posts`. -/
def Network.Posted (n : Network ChainId ApplicationId) (key : Key ChainId) : Prop :=
  ((n.states key.author).ownPosts.lookup key.index).map OwnPost.timestamp = some key.timestamp

instance (key : Key ChainId) : Decidable (n.Posted key) :=
  inferInstanceAs (Decidable (_ = _))

/-- A like or comment that the action puts into the stream of the author is about
a post the author has made. -/
def Network.Names (n : Network ChainId ApplicationId) : Action ChainId ApplicationId → Prop
  | .operation chain _ (.like key) => key.author = chain → n.Posted key
  | .operation chain _ (.comment key _) => key.author = chain → n.Posted key
  | .execute m => n.Posted m.message.key
  | _ => True

instance Network.decidableNames (n : Network ChainId ApplicationId) :
    ∀ a : Action ChainId ApplicationId, Decidable (n.Names a)
  | .operation chain _ (.like key) =>
    inferInstanceAs (Decidable (key.author = chain → n.Posted key))
  | .operation chain _ (.comment key _) =>
    inferInstanceAs (Decidable (key.author = chain → n.Posted key))
  | .execute m => inferInstanceAs (Decidable (n.Posted m.message.key))
  | .operation _ _ (.subscribe _) | .operation _ _ (.unsubscribe _)
  | .operation _ _ (.post _ _) | .reject _ | .processStreams _ _ => isTrue trivial

/-- Every like and comment among the first `2 ^ 32` events of a stream comes
after the post it is about. -/
def Grounded (c : ChainId) (es : List (Event ChainId)) : Prop :=
  ∀ before e, before ++ [e] <+: es → before.length < 2 ^ 32 →
    ∀ key, e.subject = some key → ∃ p ∈ posts before, keyOf c p = key

-- ---------------------------------------------------------------------------
-- Streams
-- ---------------------------------------------------------------------------

omit [DecidableEq ChainId] [DecidableEq ApplicationId] in
/-- A post in `own_posts` has been emitted. -/
theorem Numbered.exists_post {m : MapView UInt32 OwnPost} {ps : List (OwnPost × UInt32)}
    (h : Numbered m ps) (hFew : ps.length < 2 ^ 32) {i : UInt32} {t : UInt64}
    (hLookup : (m.lookup i).map OwnPost.timestamp = some t) :
    ∃ p, (p, i) ∈ ps ∧ p.timestamp = t := by
  obtain ⟨p, hContent, hTime⟩ := Option.map_eq_some_iff.mp hLookup
  rw [h.content (Nat.le_of_lt hFew) i] at hContent
  obtain ⟨q, hGet, rfl⟩ := Option.map_eq_some_iff.mp hContent
  have hIndex : q.2 = i := by
    rw [h.index _ q hGet i.toNat_lt, UInt32.ofNat_toNat]
  exact ⟨q.1, hIndex ▸ List.mem_of_getElem? hGet, hTime⟩

omit [DecidableEq ApplicationId] in
theorem length_emits_le (n : Network ChainId ApplicationId) (c : ChainId)
    (a : Action ChainId ApplicationId) : (n.emits c a).length ≤ 1 := by
  cases a with
  | operation chain systemTime op =>
    simp only [Network.emits]
    split
    · cases op with
      | subscribe | unsubscribe => exact Nat.zero_le _
      | post => exact Nat.le_refl _
      | like | comment =>
        show (if _ then _ else _ : List _).length ≤ 1
        split
        · exact Nat.le_refl _
        · exact Nat.zero_le _
    · exact Nat.zero_le _
  | execute m =>
    simp only [Network.emits]
    split
    · exact Nat.le_refl _
    · exact Nat.zero_le _
  | reject | processStreams => exact Nat.zero_le _

omit [DecidableEq ApplicationId] in
/-- What an action that meets the condition emits is about a post. -/
theorem posted_of_emits {x : Emitted ChainId} (hNames : n.Names a) (hx : x ∈ n.emits c a)
    {key : Key ChainId} (hKey : x.event.subject = some key) (hAuthor : key.author = c) :
    n.Posted key := by
  cases Network.emits_of_mem hx with
  | post => cases hKey
  | like systemTime k hHere | comment systemTime k text hHere =>
    obtain rfl := Option.some.inj hKey
    exact hNames hAuthor
  | execute m hHere =>
    have hSame : m.message.key = key := by
      cases hMessage : m.message <;>
        simpa [hMessage, executeMessage, Event.subject, Message.key] using hKey
    exact hSame ▸ hNames

omit [DecidableEq ChainId] in
theorem Grounded.empty (c : ChainId) : Grounded c [] := by
  intro before e hPrefix
  have hNil : before ++ [e] = [] := List.prefix_nil.mp hPrefix
  exact absurd hNil (List.append_ne_nil_of_right_ne_nil _ (List.cons_ne_nil e []))

omit [DecidableEq ChainId] in
theorem Grounded.concat {es : List (Event ChainId)} {e : Event ChainId} (h : Grounded c es)
    (hNew : es.length < 2 ^ 32 →
      ∀ key, e.subject = some key → ∃ p ∈ posts es, keyOf c p = key) :
    Grounded c (es ++ [e]) := by
  intro before e' hPrefix hShort key hKey
  rcases List.prefix_concat_iff.mp hPrefix with hLast | hOld
  · obtain ⟨rfl, hEvent⟩ := List.append_inj' hLast rfl
    obtain rfl := (List.cons.inj hEvent).1
    exact hNew hShort key hKey
  · exact h before e' hOld hShort key hKey

/-- **One step** that meets the condition keeps the streams grounded. -/
theorem grounded_step (hWell : n.WellFormed)
    (hNumbered : Numbered (n.states c).ownPosts (posts (n.events c)))
    (hGrounded : Grounded c (n.events c)) (hNames : n.Names a) (hStep : n.step a = some n') :
    Grounded c (n'.events c) := by
  have hOne := length_emits_le n c a
  have hAuthored := authored_emits hWell hStep c
  rw [events_step hStep]
  cases hEmits : n.emits c a with
  | nil =>
    rw [List.map_nil, List.append_nil]
    exact hGrounded
  | cons x rest =>
    rw [hEmits] at hOne hAuthored
    rw [List.length_cons] at hOne
    obtain rfl : rest = [] := List.length_eq_zero_iff.mp (by omega)
    refine hGrounded.concat fun hShort key hKey => ?_
    have hAuthor : key.author = c := hAuthored x.event List.mem_cons_self key hKey
    have hPosted : n.Posted key :=
      posted_of_emits hNames (hEmits ▸ List.mem_cons_self) hKey hAuthor
    subst hAuthor
    have hFew : (posts (n.events key.author)).length < 2 ^ 32 :=
      Nat.lt_of_le_of_lt (List.length_filterMap_le ..) hShort
    obtain ⟨p, hMade, hTime⟩ := hNumbered.exists_post hFew hPosted
    exact ⟨_, hMade, by rw [keyOf, hTime]⟩

-- ---------------------------------------------------------------------------
-- Subscribers
-- ---------------------------------------------------------------------------

/-- A state that mirrors the stream of `c` can execute a grounded event of `c`. -/
theorem executeEvent_progress {es : List (Event ChainId)} {e : Event ChainId}
    {s : SocialState ChainId} (hMirror : Mirror c es s)
    (hAuthor : ∀ key, e.subject = some key → key.author = c)
    (hGrounded : ∀ key, e.subject = some key → ∃ p ∈ posts es, keyOf c p = key) :
    ∃ s', executeEvent c e s = .ok s' := by
  cases hSubject : e.subject with
  | none =>
    cases e with
    | post p index => exact ⟨_, rfl⟩
    | like | comment => cases hSubject
  | some key =>
    have hKnown := feed_isSome_iff.mpr (hGrounded key hSubject)
    obtain ⟨post, hPost⟩ := Option.isSome_iff_exists.mp hKnown
    have hLookup := (hMirror.lookup key (hAuthor key hSubject)).trans hPost
    exact ⟨_, (executeEvent_ok_iff hSubject).mpr ⟨post, hLookup, rfl⟩⟩

section
variable {applicationId : ApplicationId} {as : List (Action ChainId ApplicationId)}

theorem grounded_run (hRun : (Network.initial applicationId).run as = some n)
    (hNames : Along Network.step Network.Names (Network.initial applicationId) as) (c : ChainId) :
    Grounded c (n.events c) := by
  have hAll : n.WellFormed ∧ Numbered (n.states c).ownPosts (posts (n.events c)) ∧
      Grounded c (n.events c) := by
    refine run_invariant_along
      (P := fun n => n.WellFormed ∧ Numbered (n.states c).ownPosts (posts (n.events c)) ∧
        Grounded c (n.events c)) ?_ ?_ hNames hRun
    · intro m a m' ⟨hWell, hNumbered, hGrounded⟩ hMeets hStep
      exact ⟨hWell.step hStep, numbered_step hNumbered hStep,
        grounded_step hWell hNumbered hGrounded hMeets hStep⟩
    · exact ⟨Network.WellFormed.initial applicationId, Numbered.empty, Grounded.empty c⟩
  exact hAll.2.2

/-- **No subscriber is ever blocked**, in a run all of whose steps put likes and
comments into a stream only for posts made: whatever updates the runtime can
deliver to a subscriber, `process_streams` does not panic. -/
theorem never_blocked (hRun : (Network.initial applicationId).run as = some n)
    (hNames : Along Network.step Network.Names (Network.initial applicationId) as) (b : ChainId)
    {updates : List (StreamUpdate ChainId ApplicationId)}
    (hDel : n.Deliverable b (n.nextIndex b) updates) :
    ∃ s, processStreams n.applicationId n.readEvent (n.states b) updates = .ok s := by
  have hWell : n.WellFormed := (Network.WellFormed.initial applicationId).run hRun
  have hBound := hDel.read (hWell.read b)
  -- the subscriber can read all the announced events
  obtain ⟨r, hRead⟩ : ∃ r, run (Reader.read n.events executeEvent)
      (readerAt (n.nextIndex b) (n.states b)) (readings updates) = some r := by
    refine Reader.run_progress
      (P := fun seen s => ∀ c, (seen c).length < 2 ^ 32 → Mirror c (seen c) s) hBound ?_
      (fun c _ => mirror_run hRun b c) (fun c => Nat.le_of_eq (toNat_advance c hDel).symm)
    intro seen s c e hMirror hPrefix hLt
    have hShort : (seen c).length < 2 ^ 32 := Nat.lt_trans hLt (UInt32.toNat_lt _)
    have hMem : e ∈ n.events c :=
      hPrefix.subset (List.mem_append_right _ (List.mem_singleton_self e))
    obtain ⟨s', hOk⟩ := executeEvent_progress (hMirror c hShort) (hWell.authored c e hMem)
      (grounded_run hRun hNames c (seen c) e hPrefix hShort)
    exact ⟨s', hOk, mirror_apply hWell.authored (numbered_run hRun) hMirror hPrefix hOk⟩
  have hReader := readerAt_run hDel hRead
  exact ⟨r.state, (processStreams_ok_iff hWell hDel).mpr (hRead.trans (congrArg some hReader))⟩

/-- What a subscriber has processed is grounded, whatever is in the streams. -/
theorem grounded_processed (hRun : (Network.initial applicationId).run as = some n)
    (b c : ChainId) : Grounded c (n.processed b c) := by
  refine run_induction (P := fun _ n => ∀ c, Grounded c (n.processed b c)) Grounded.empty ?_ hRun c
  intro as m a m' hBefore ih hStep
  have hWell : m.WellFormed := (Network.WellFormed.initial applicationId).run hBefore
  rcases step_reads hWell hStep b with ⟨ks, r, hReads, -, hSeen⟩ | ⟨-, hProcessed⟩
  · intro c
    rw [hSeen]
    refine (Reader.run_invariant (r := readerAt (m.nextIndex b) (m.states b))
      (P := fun seen s =>
        (∀ c, (seen c).length < 2 ^ 32 → Mirror c (seen c) s) ∧ ∀ c, Grounded c (seen c))
      ?_ ⟨fun c _ => mirror_run hBefore b c, ih⟩ hReads).2 c
    intro seen s k e s' ⟨hMirror, hGrounded⟩ hPrefix hOk
    refine ⟨mirror_apply hWell.authored (numbered_run hBefore) hMirror hPrefix hOk, fun c => ?_⟩
    by_cases hc : c = k
    · subst hc
      rw [Function.update_self]
      refine (hGrounded c).concat fun hShort key hKey => ?_
      -- the event was executed, so its post was there
      have hMem : e ∈ m.events c :=
        hPrefix.subset (List.mem_append_right _ (List.mem_singleton_self e))
      obtain ⟨post, hPost, -⟩ := (executeEvent_ok_iff hKey).mp hOk
      rw [(hMirror c hShort).lookup key (hWell.authored c e hMem key hKey)] at hPost
      exact feed_isSome_iff.mp (Option.isSome_of_eq_some hPost)
    · rw [Function.update_of_ne hc]
      exact hGrounded c
  · intro c
    rw [hProcessed]
    exact ih c

/-- **Blocked for good.** No subscriber ever gets past a like or comment that does
not come after the post it is about. -/
theorem nextIndex_le_of_ungrounded (hRun : (Network.initial applicationId).run as = some n)
    (b : ChainId) {before : List (Event ChainId)} {e : Event ChainId}
    (hPrefix : before ++ [e] <+: n.events c) {key : Key ChainId} (hKey : e.subject = some key)
    (hMissing : ¬ ∃ p ∈ posts before, keyOf c p = key) :
    (n.nextIndex b c).toNat ≤ before.length := by
  by_contra hPast
  have hProcessed : before ++ [e] <+: n.processed b c := by
    refine List.prefix_take_iff.mpr ⟨hPrefix, ?_⟩
    rw [List.length_append, List.length_singleton]
    omega
  have hShort : before.length < 2 ^ 32 := by
    have hSize := (n.nextIndex b c).toNat_lt
    omega
  exact hMissing (grounded_processed hRun b c before e hProcessed hShort key hKey)

theorem isSome_take_sampleRun :
    ((Network.initial 0).run (sampleRun.take 6)).isSome = true := by decide

/-- The sample run, before its subscriber processes the events. -/
theorem never_blocked_sample :
    ∃ n, (Network.initial 0).run (sampleRun.take 6) = some n ∧
      ∃ s, processStreams n.applicationId n.readEvent (n.states 1)
        [⟨0, ⟨0, STREAM_NAME⟩, 0, 3⟩] = .ok s := by
  have hRun := (Option.some_get isSome_take_sampleRun).symm
  exact ⟨_, hRun, never_blocked hRun (by decide) 1 (by decide)⟩

end

/-- The chain `2` likes a post that the chain `0` has not made. -/
def blockingRun : List (Action Nat Nat) :=
  [.operation 1 0 (.subscribe 0),
    .operation 2 6 (.like ⟨5, 0, 0⟩),
    .execute ⟨2, 0, .like ⟨5, 0, 0⟩⟩]

theorem isSome_blockingRun : ((Network.initial 0).run blockingRun).isSome = true := by decide

/-- The subscriber `1` of the chain `0` is blocked by what the chain `2` does. -/
theorem blocked :
    ¬ ∀ (as : List (Action Nat Nat)) (n : Network Nat Nat), (Network.initial 0).run as = some n →
      ∀ (b : Nat) (updates : List (StreamUpdate Nat Nat)),
        n.Deliverable b (n.nextIndex b) updates →
        ∃ s, processStreams n.applicationId n.readEvent (n.states b) updates = .ok s := by
  intro hClaim
  obtain ⟨s, hOk⟩ := hClaim blockingRun _ (Option.some_get isSome_blockingRun).symm 1
    [⟨0, ⟨0, STREAM_NAME⟩, 0, 1⟩] (by decide)
  cases hOk

end LineraEndToEnd.Social
