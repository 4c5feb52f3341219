import LineraEndToEnd.Social.Streams

/-!
# Social — subscribers mirror the authors

A subscriber that processes updates is a reader of the streams (`Lib.Reader`),
so batches do not matter; and every reader mirrors the authors it reads.

* `processStreams_ok_iff` — processing deliverable updates is reading the
  announced events one by one.
* `mirror_run` — in every run, a subscriber holds, for every author, what the
  events it has processed say.
* `feed_mirrors_posts` — the author's own posts, its `Post` events and the posts
  of its subscribers correspond one to one, with their likes and comments.
-/

namespace LineraEndToEnd.Social

open Lib

variable {ChainId ApplicationId : Type} [DecidableEq ChainId] [DecidableEq ApplicationId]
  {n n' : Network ChainId ApplicationId} {a : Action ChainId ApplicationId}
  {s s' : SocialState ChainId} {next : ChainId → UInt32}

-- ---------------------------------------------------------------------------
-- Batches
-- ---------------------------------------------------------------------------

/-- The subscriber as a reader of the streams. -/
def readerAt (next : ChainId → UInt32) (s : SocialState ChainId) :
    Reader ChainId (SocialState ChainId) :=
  ⟨fun c => (next c).toNat, s⟩

/-- The stream each of the announced events is read from. -/
def readings (updates : List (StreamUpdate ChainId ApplicationId)) : List ChainId :=
  updates.flatMap fun u =>
    List.replicate (u.nextIndex.toNat - u.previousIndex.toNat) u.chainId

omit [DecidableEq ChainId] [DecidableEq ApplicationId] in
theorem readings_cons (u : StreamUpdate ChainId ApplicationId)
    (us : List (StreamUpdate ChainId ApplicationId)) :
    readings (u :: us) =
      List.replicate (u.nextIndex.toNat - u.previousIndex.toNat) u.chainId ++ readings us :=
  List.flatMap_cons ..

omit [DecidableEq ApplicationId] in
theorem processIndex_eq (n : Network ChainId ApplicationId) (c : ChainId) :
    processIndex n.readEvent c = Reader.readAt n.events executeEvent .eventNotFound c := by
  funext s i
  unfold processIndex Reader.readAt Network.readEvent
  cases (n.events c)[i]? <;> rfl

theorem readerAt_update (c : ChainId) (i : UInt32) :
    readerAt (Function.update next c i) s =
      ⟨Function.update (fun c => (next c).toNat) c i.toNat, s⟩ := by
  unfold readerAt
  congr 1
  funext c'
  by_cases hc : c' = c
  · subst hc
    rw [Function.update_self, Function.update_self]
  · rw [Function.update_of_ne hc, Function.update_of_ne hc]

omit [DecidableEq ApplicationId] in
/-- The position after some updates. -/
theorem toNat_advance {b : ChainId} (c : ChainId) :
    ∀ {next : ChainId → UInt32} {updates : List (StreamUpdate ChainId ApplicationId)},
      n.Deliverable b next updates →
      (Network.advance next updates c).toNat = (next c).toNat + (readings updates).count c
  | _, [], _ => rfl
  | next, u :: us, hDel => by
    obtain ⟨-, hPrevious, hLe, -, hRest⟩ := hDel
    have hLe' : u.previousIndex.toNat ≤ u.nextIndex.toNat := UInt32.le_iff_toNat_le.mp hLe
    show (Network.advance (Function.update next u.chainId u.nextIndex) us c).toNat = _
    rw [toNat_advance c hRest, readings_cons, List.count_append]
    by_cases hc : c = u.chainId
    · subst hc
      rw [Function.update_self, List.count_replicate_self, ← hPrevious]
      omega
    · rw [Function.update_of_ne hc, List.count_replicate, if_neg (by simpa using Ne.symm hc),
        Nat.zero_add]

omit [DecidableEq ApplicationId] in
/-- A reader that has read what the updates announce is where they lead. -/
theorem readerAt_run {b : ChainId} {updates : List (StreamUpdate ChainId ApplicationId)}
    (hDel : n.Deliverable b next updates) {r : Reader ChainId (SocialState ChainId)}
    (hRead : run (Reader.read n.events executeEvent) (readerAt next s) (readings updates) =
      some r) : r = readerAt (Network.advance next updates) r.state := by
  refine congrArg (Reader.mk · r.state) (funext fun c => ?_)
  rw [toNat_advance c hDel]
  exact Reader.position_run hRead c

/-- One update. -/
theorem processUpdate_ok_iff {u : StreamUpdate ChainId ApplicationId}
    (hStream : u.streamId = ⟨n.applicationId, STREAM_NAME⟩)
    (hPrevious : u.previousIndex = next u.chainId) (hLe : u.previousIndex ≤ u.nextIndex) :
    processUpdate n.applicationId n.readEvent s u = .ok s' ↔
      run (Reader.read n.events executeEvent) (readerAt next s)
          (List.replicate (u.nextIndex.toNat - u.previousIndex.toNat) u.chainId) =
        some (readerAt (Function.update next u.chainId u.nextIndex) s') := by
  have hLe' : u.previousIndex.toNat ≤ u.nextIndex.toNat := UInt32.le_iff_toNat_le.mp hLe
  have hPosition : (readerAt next s).position u.chainId = u.previousIndex.toNat := by
    rw [hPrevious]
    rfl
  unfold processUpdate
  rw [if_neg (by rw [hStream]; simp), if_neg (by rw [hStream]; simp), processIndex_eq,
    readerAt_update, StreamUpdate.newIndices, ← hPosition]
  refine (Reader.foldlM_readAt_iff Panic.eventNotFound (readerAt next s) u.chainId _ s').trans ?_
  rw [hPosition, Nat.add_sub_cancel' hLe']
  rfl

/-- **Processing is reading.** -/
theorem processStreams_ok_iff {b : ChainId} (hWell : n.WellFormed) :
    ∀ {updates : List (StreamUpdate ChainId ApplicationId)} {next : ChainId → UInt32}
      {s : SocialState ChainId}, n.Deliverable b next updates →
      (processStreams n.applicationId n.readEvent s updates = .ok s' ↔
        run (Reader.read n.events executeEvent) (readerAt next s) (readings updates) =
          some (readerAt (Network.advance next updates) s'))
  | [], next, s, _ => by
    show Except.ok s = Except.ok s' ↔ some (readerAt next s) = some (readerAt next s')
    rw [Except.ok.injEq, Option.some.injEq]
    exact ⟨fun h => h ▸ rfl, fun h => congrArg Reader.state h⟩
  | u :: us, next, s, hDel => by
    obtain ⟨hSubscribed, hPrevious, hLe, hExists, hRest⟩ := hDel
    have hStream : u.streamId = ⟨n.applicationId, STREAM_NAME⟩ :=
      hWell.subscribed b _ hSubscribed
    show (processUpdate n.applicationId n.readEvent s u >>= fun s =>
      processStreams n.applicationId n.readEvent s us) = .ok s' ↔ _
    rw [bind_ok_iff, readings_cons, run_append_eq_some]
    constructor
    · rintro ⟨t, hFirst, hOthers⟩
      exact ⟨_, (processUpdate_ok_iff hStream hPrevious hLe).mp hFirst,
        (processStreams_ok_iff hWell hRest).mp hOthers⟩
    · rintro ⟨r, hFirst, hOthers⟩
      have hOne : n.Deliverable b next [u] := ⟨hSubscribed, hPrevious, hLe, hExists, trivial⟩
      have hReader : r = readerAt (Function.update next u.chainId u.nextIndex) r.state := by
        refine readerAt_run (s := s) hOne ?_
        rw [readings_cons]
        exact (List.append_nil _).symm ▸ hFirst
      rw [hReader] at hFirst hOthers
      exact ⟨r.state, (processUpdate_ok_iff hStream hPrevious hLe).mpr hFirst,
        (processStreams_ok_iff hWell hRest).mpr hOthers⟩

-- ---------------------------------------------------------------------------
-- Mirrors
-- ---------------------------------------------------------------------------

theorem Mirror.congr {c : ChainId} {es : List (Event ChainId)} (h : Mirror c es s)
    (hSame : s'.receivedPosts = s.receivedPosts) : Mirror c es s' :=
  ⟨fun key hKey => by rw [hSame, h.lookup key hKey], h.grounded⟩

section
variable {seen : ChainId → List (Event ChainId)} {k : ChainId} {e : Event ChainId}
omit [DecidableEq ApplicationId]

/-- Applying the next event of a stream keeps the mirrors, as far as an index is
a `u32`. -/
theorem mirror_apply (hAuthored : ∀ c, Authored c (n.events c))
    (hNumbered : ∀ c, Numbered (n.states c).ownPosts (posts (n.events c)))
    (hMirror : ∀ c, (seen c).length < 2 ^ 32 → Mirror c (seen c) s)
    (hPrefix : seen k ++ [e] <+: n.events k) (hOk : executeEvent k e s = .ok s') (c : ChainId)
    (hShort : (Function.update seen k (seen k ++ [e]) c).length < 2 ^ 32) :
    Mirror c (Function.update seen k (seen k ++ [e]) c) s' := by
  have hAuthor : ∀ key, e.subject = some key → key.author = k :=
    hAuthored k e (hPrefix.subset (List.mem_append_right _ (List.mem_singleton_self e)))
  by_cases hc : c = k
  · subst hc
    rw [Function.update_self] at hShort ⊢
    rw [List.length_append, List.length_singleton] at hShort
    refine (hMirror c (by omega)).own hOk hAuthor fun p hp q hq => ?_
    -- the index of a post among the first ones is new
    obtain ⟨rest, hRest⟩ := hPrefix
    have hPosts : posts (n.events c) = posts (seen c) ++ p :: posts rest := by
      rw [← hRest, List.append_assoc, posts_append, List.singleton_append]
      exact congrArg (posts (seen c) ++ ·) (List.filterMap_cons_some hp)
    refine (hPosts ▸ hNumbered c).index_ne ?_ hq
    exact Nat.lt_of_le_of_lt (List.length_filterMap_le ..) (by omega)
  · rw [Function.update_of_ne hc] at hShort ⊢
    exact (hMirror c hShort).other hc hOk hAuthor

/-- A reader of the streams mirrors the authors. -/
theorem mirror_read {r r' : Reader ChainId (SocialState ChainId)} {ks : List ChainId}
    (hAuthored : ∀ c, Authored c (n.events c))
    (hNumbered : ∀ c, Numbered (n.states c).ownPosts (posts (n.events c)))
    (hStart : ∀ c, (Reader.seen n.events r c).length < 2 ^ 32 →
      Mirror c (Reader.seen n.events r c) r.state)
    (hRun : run (Reader.read n.events executeEvent) r ks = some r') (c : ChainId)
    (hShort : (Reader.seen n.events r' c).length < 2 ^ 32) :
    Mirror c (Reader.seen n.events r' c) r'.state := by
  refine Reader.run_invariant
    (P := fun seen s => ∀ c, (seen c).length < 2 ^ 32 → Mirror c (seen c) s) ?_ hStart hRun c hShort
  intro seen s k e s' hMirror hPrefix hOk
  exact mirror_apply hAuthored hNumbered hMirror hPrefix hOk

end

/-- The events of `c` that `b` has processed. -/
def Network.processed (n : Network ChainId ApplicationId) (b c : ChainId) :
    List (Event ChainId) :=
  (n.events c).take (n.nextIndex b c).toNat

omit [DecidableEq ChainId] [DecidableEq ApplicationId] in
theorem length_processed_lt (n : Network ChainId ApplicationId) (b c : ChainId) :
    (n.processed b c).length < 2 ^ 32 :=
  Nat.lt_of_le_of_lt (List.length_take_le ..) (n.nextIndex b c).toNat_lt

/-- **What a step does to a subscriber**, as a reader of the streams: it reads, or
nothing changes for it. -/
theorem step_reads (hWell : n.WellFormed) (hStep : n.step a = some n') (b : ChainId) :
    (∃ ks r, run (Reader.read n.events executeEvent) (readerAt (n.nextIndex b) (n.states b)) ks =
        some r ∧ r.state = n'.states b ∧ ∀ c, n'.processed b c = Reader.seen n.events r c) ∨
    ((n'.states b).receivedPosts = (n.states b).receivedPosts ∧
      ∀ c, n'.processed b c = n.processed b c) := by
  rcases Network.step_subscriber hStep b with
    ⟨updates, rfl, hDel, hProcess, hNext⟩ | ⟨hSame, hNext⟩
  · left
    refine ⟨_, _, (processStreams_ok_iff hWell hDel).mp hProcess, rfl, fun c => ?_⟩
    have hEvents : n'.events c = n.events c := by
      rw [events_step hStep]
      exact List.append_nil _
    rw [Network.processed, hEvents, hNext]
    rfl
  · right
    refine ⟨hSame, fun c => ?_⟩
    unfold Network.processed
    rw [events_step hStep, hNext, List.take_append_of_le_length (hWell.read b c)]

theorem mirror_step {b : ChainId} (hWell : n.WellFormed)
    (hNumbered : ∀ c, Numbered (n.states c).ownPosts (posts (n.events c)))
    (hMirror : ∀ c, Mirror c (n.processed b c) (n.states b)) (hStep : n.step a = some n')
    (c : ChainId) : Mirror c (n'.processed b c) (n'.states b) := by
  rcases step_reads hWell hStep b with ⟨ks, r, hReads, hState, hSeen⟩ | ⟨hSame, hProcessed⟩
  · have hShort := length_processed_lt n' b c
    rw [hSeen] at hShort ⊢
    rw [← hState]
    exact mirror_read (r := readerAt (n.nextIndex b) (n.states b)) hWell.authored hNumbered
      (fun c _ => hMirror c) hReads c hShort
  · rw [hProcessed]
    exact (hMirror c).congr hSame

section
variable {applicationId : ApplicationId} {as : List (Action ChainId ApplicationId)}

/-- **Subscribers mirror the authors.** -/
theorem mirror_run (hRun : (Network.initial applicationId).run as = some n) (b c : ChainId) :
    Mirror c (n.processed b c) (n.states b) := by
  refine run_induction (P := fun _ n => ∀ c, Mirror c (n.processed b c) (n.states b))
    ?_ ?_ hRun c
  · intro c
    exact Mirror.empty c
  · intro as m a m' hBefore ih hStep
    have hWell : m.WellFormed := (Network.WellFormed.initial applicationId).run hBefore
    exact mirror_step hWell (numbered_run hBefore) ih hStep

-- ---------------------------------------------------------------------------
-- Posts and subscribers
-- ---------------------------------------------------------------------------

theorem ownPosts_run (hRun : (Network.initial applicationId).run as = some n) (c : ChainId)
    (hFew : (postsMade c as).length < 2 ^ 32) (i : UInt32) :
    (n.states c).ownPosts.lookup i = (postsMade c as)[i.toNat]? := by
  have hPosts := posts_run hRun c
  have hLength : (posts (n.events c)).length = (postsMade c as).length := by
    rw [← hPosts, List.length_map]
  rw [(numbered_run hRun c).content (by omega) i, ← hPosts, List.getElem?_map]

/-- The `i`-th post of a stream has the index `i`, and is the `i`-th one made. -/
theorem posts_getElem? (hRun : (Network.initial applicationId).run as = some n) (c : ChainId)
    {i : Nat} (hi : i < 2 ^ 32) :
    (posts (n.events c))[i]? = ((postsMade c as)[i]?).map fun p => (p, UInt32.ofNat i) := by
  rw [← posts_run hRun c, List.getElem?_map]
  cases hGet : (posts (n.events c))[i]? with
  | none => rfl
  | some p =>
    have hIndex := (numbered_run hRun c).index i p hGet hi
    rw [Option.map_some, Option.map_some, ← hIndex]

omit [DecidableEq ChainId] [DecidableEq ApplicationId] in
theorem posts_processed_prefix (n : Network ChainId ApplicationId) (b c : ChainId) :
    posts (n.processed b c) <+: posts (n.events c) :=
  (List.take_prefix _ _).filterMap _

/-- The posts a subscriber has processed. -/
theorem posts_processed_getElem? (hRun : (Network.initial applicationId).run as = some n)
    (b c : ChainId) {i : Nat} (hi : i < (posts (n.processed b c)).length) :
    i < 2 ^ 32 ∧ ∃ p, (postsMade c as)[i]? = some p ∧
      (posts (n.processed b c))[i]? = some (p, UInt32.ofNat i) := by
  have hLt : i < 2 ^ 32 := by
    have hShort := length_processed_lt n b c
    have hLe : (posts (n.processed b c)).length ≤ (n.processed b c).length :=
      List.length_filterMap_le ..
    omega
  obtain ⟨rest, hRest⟩ := posts_processed_prefix n b c
  have hAll := posts_getElem? hRun c hLt
  rw [← hRest, List.getElem?_append_left hi, List.getElem?_eq_getElem hi] at hAll
  obtain ⟨p, hMade, hGet⟩ := Option.map_eq_some_iff.mp hAll.symm
  refine ⟨hLt, p, hMade, ?_⟩
  rw [List.getElem?_eq_getElem hi, hGet]

/-- A subscriber holds a post it has processed, as it is expected to. -/
theorem lookup_processed (hRun : (Network.initial applicationId).run as = some n)
    (b c : ChainId) {i : Nat} {p : OwnPost} (hi : i < (posts (n.processed b c)).length)
    (hMade : (postsMade c as)[i]? = some p) :
    (n.states b).receivedPosts.lookup ⟨p.timestamp, c, UInt32.ofNat i⟩ =
      some (expected c (n.processed b c) (p, UInt32.ofNat i)) := by
  obtain ⟨hLt, q, hMade', hGet⟩ := posts_processed_getElem? hRun b c hi
  obtain rfl : p = q := Option.some.inj (hMade.symm.trans hMade')
  have hKey : keyOf c (p, UInt32.ofNat i) = ⟨p.timestamp, c, UInt32.ofNat i⟩ := rfl
  rw [← hKey, (mirror_run hRun b c).lookup _ rfl]
  -- the post found under the key has the same index, so it is the same post
  have hMem : (p, UInt32.ofNat i) ∈ posts (n.processed b c) := List.mem_of_getElem? hGet
  cases hFind : (posts (n.processed b c)).find?
      (fun q => keyOf c q = keyOf c (p, UInt32.ofNat i)) with
  | none =>
    exact absurd (decide_eq_true rfl) (List.find?_eq_none.mp hFind _ hMem)
  | some q =>
    obtain ⟨hq, hEq⟩ := find?_eq_some_key hFind
    obtain ⟨j, hj, hGet'⟩ := List.mem_iff_getElem.mp hq
    obtain ⟨hLt', p', hMade'', hGet''⟩ := posts_processed_getElem? hRun b c hj
    rw [List.getElem?_eq_getElem hj, hGet', Option.some.injEq] at hGet''
    have hIndex : UInt32.ofNat j = UInt32.ofNat i := by
      rw [hGet''] at hEq
      exact congrArg Key.index hEq
    have hSame : j = i := by
      have hVal := congrArg UInt32.toNat hIndex
      rwa [toNat_ofNat hLt', toNat_ofNat hLt] at hVal
    subst hSame
    obtain rfl : p = p' := Option.some.inj (hMade.symm.trans hMade'')
    rw [feed, hFind, hGet'', Option.map_some]

/-- The post of a subscriber for the author's post `own`, after the events `es`. -/
structure Reflects (post : Post ChainId) (own : OwnPost) (es : List (Event ChainId))
    (k : Key ChainId) : Prop where
  sameKey : post.key = k
  sameText : post.text = own.text
  sameImageUrl : post.imageUrl = own.imageUrl
  allLikes : post.likes.toNat = likes es k
  allComments : post.comments.map Comment.text = texts es k

theorem reflects_expected (c : ChainId) {es : List (Event ChainId)} (hShort : es.length < 2 ^ 32)
    (p : OwnPost × UInt32) : Reflects (expected c es p) p.1 es (keyOf c p) := by
  have hLikes : likes es (keyOf c p) < 2 ^ 32 :=
    Nat.lt_of_le_of_lt List.count_le_length hShort
  refine ⟨rfl, rfl, rfl, toNat_ofNat hLikes, ?_⟩
  show List.map Comment.text (List.map _ (texts es (keyOf c p))) = texts es (keyOf c p)
  rw [List.map_map]
  exact List.map_id' _

/-- **A subscriber's feed is an exact mirror of the author's posts.** In every
run, for every author `a` that has made fewer than `2 ^ 32` posts: `own_posts`
holds exactly the posts made, each under its number, for good; the `Post` events
are these posts with these numbers; and the posts of `a` a subscriber holds are
those of the `Post` events it has processed, with the likes and comments it has
processed for them. -/
theorem feed_mirrors_posts (hRun : (Network.initial applicationId).run as = some n)
    (a : ChainId) (hFew : (postsMade a as).length < 2 ^ 32) :
    (∀ i : UInt32, (n.states a).ownPosts.lookup i = (postsMade a as)[i.toNat]?) ∧
    (∀ bs n', n.run bs = some n' → (postsMade a (as ++ bs)).length < 2 ^ 32 →
      ∀ i own, (n.states a).ownPosts.lookup i = some own →
        (n'.states a).ownPosts.lookup i = some own) ∧
    (posts (n.events a)).length = (postsMade a as).length ∧
    (∀ i p, (posts (n.events a))[i]? = some p →
      p.2 = UInt32.ofNat i ∧ (n.states a).ownPosts.lookup p.2 = some p.1) ∧
    ∀ b,
      (∀ key post, key.author = a → (n.states b).receivedPosts.lookup key = some post →
        ∃ i p, (posts (n.processed b a))[i]? = some (p, UInt32.ofNat i) ∧
          key = ⟨p.timestamp, a, UInt32.ofNat i⟩) ∧
      (∀ i p, (posts (n.processed b a))[i]? = some p →
        ∃ own post, (n.states a).ownPosts.lookup (UInt32.ofNat i) = some own ∧
          (n.states b).receivedPosts.lookup ⟨own.timestamp, a, UInt32.ofNat i⟩ = some post ∧
          Reflects post own (n.processed b a) ⟨own.timestamp, a, UInt32.ofNat i⟩) := by
  have hOwn := ownPosts_run hRun a hFew
  have hLength : (posts (n.events a)).length = (postsMade a as).length := by
    rw [← posts_run hRun a, List.length_map]
  refine ⟨hOwn, ?_, hLength, ?_, fun b => ⟨?_, ?_⟩⟩
  · intro bs n' hMore hFew' i own hLookup
    have hAll := run_append_eq_some.mpr ⟨n, hRun, hMore⟩
    rw [ownPosts_run hAll a hFew' i]
    rw [hOwn i] at hLookup
    have hLt := (List.getElem?_eq_some_iff.mp hLookup).1
    rw [postsMade_append, List.getElem?_append_left hLt]
    exact hLookup
  · intro i p hGet
    have hLt : i < 2 ^ 32 := by
      have := (List.getElem?_eq_some_iff.mp hGet).1
      omega
    rw [posts_getElem? hRun a hLt] at hGet
    obtain ⟨own, hMade, rfl⟩ := Option.map_eq_some_iff.mp hGet
    exact ⟨rfl, by rw [hOwn, toNat_ofNat hLt, hMade]⟩
  · intro key post hKey hLookup
    -- an entry comes from a `Post` event that was processed
    rw [(mirror_run hRun b a).lookup key hKey] at hLookup
    obtain ⟨q, hq, rfl⟩ := feed_isSome_iff.mp (Option.isSome_of_eq_some hLookup)
    obtain ⟨i, hi, hGet⟩ := List.mem_iff_getElem.mp hq
    obtain ⟨-, p, -, hGet'⟩ := posts_processed_getElem? hRun b a hi
    rw [List.getElem?_eq_getElem hi, hGet, Option.some.injEq] at hGet'
    subst hGet'
    exact ⟨i, p, by rw [List.getElem?_eq_getElem hi, hGet], rfl⟩
  · intro i p hGet
    have hi := (List.getElem?_eq_some_iff.mp hGet).1
    obtain ⟨hLt, own, hMade, -⟩ := posts_processed_getElem? hRun b a hi
    refine ⟨own, _, ?_, lookup_processed hRun b a hi hMade,
      reflects_expected a (length_processed_lt n b a) _⟩
    rw [hOwn, toNat_ofNat hLt, hMade]

theorem feed_mirrors_posts_sample :
    ∃ n, (Network.initial 0).run sampleRun = some n ∧ ∃ own post,
      (n.states 0).ownPosts.lookup 0 = some own ∧
      (n.states 1).receivedPosts.lookup ⟨own.timestamp, 0, 0⟩ = some post ∧
      Reflects post own (n.processed 1 0) ⟨own.timestamp, 0, 0⟩ := by
  have hRun := (Option.some_get isSome_sampleRun).symm
  refine ⟨_, hRun, ?_⟩
  obtain ⟨-, -, -, -, hFeeds⟩ := feed_mirrors_posts hRun 0 (by decide)
  exact (hFeeds 1).2 0 (⟨5, "first", none⟩, 0) (by decide)

end

end LineraEndToEnd.Social
