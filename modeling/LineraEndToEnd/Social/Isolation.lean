import LineraEndToEnd.Lib.Interleaving
import LineraEndToEnd.Social.Streams

/-!
# Social — streams of different authors

A subscriber writes under the key it finds in an event, whichever chain the event
comes from. The keys in the stream of an author are the author's own, so what the
streams of different authors do to a subscriber does not overlap.

* `reads` — the events read by a sequence of calls of `process_streams`, one by one;
  `processCalls_ok_iff`: the calls are the run of these reads.
* `executeEvent_over` — an event does the same to two maps of which one lies over
  the other.
* `independent_reads` — the authors are independent components.
* `streams_do_not_interfere` — so batches and interleavings do not matter, and the
  entries of an author come from its events.
-/

namespace LineraEndToEnd.Social

open Lib

variable {ChainId ApplicationId : Type} [DecidableEq ChainId] [DecidableEq ApplicationId]
  {readEvent : ChainId → Nat → Option (Event ChainId)} {s s' t : SocialState ChainId}
  {a : ChainId}

-- ---------------------------------------------------------------------------
-- Calls and reads
-- ---------------------------------------------------------------------------

/-- Calls of `process_streams`, one after another. -/
def processCalls (applicationId : ApplicationId)
    (readEvent : ChainId → Nat → Option (Event ChainId)) (s : SocialState ChainId)
    (calls : List (List (StreamUpdate ChainId ApplicationId))) :
    Except Panic (SocialState ChainId) :=
  calls.foldlM (processStreams applicationId readEvent) s

/-- The events that are read, by their chains and indices, in order. -/
def reads (calls : List (List (StreamUpdate ChainId ApplicationId))) : List (ChainId × Nat) :=
  calls.flatMap fun updates =>
    updates.flatMap fun u => u.newIndices.map fun index => (u.chainId, index)

/-- The indices read in the stream of `a`, in order. -/
def readsOf (a : ChainId) (calls : List (List (StreamUpdate ChainId ApplicationId))) :
    List Nat :=
  ((reads calls).filter fun r => r.1 = a).map Prod.snd

/-- Read one event and process it. -/
def readStep (readEvent : ChainId → Nat → Option (Event ChainId)) (s : SocialState ChainId)
    (r : ChainId × Nat) : Option (SocialState ChainId) :=
  (processIndex readEvent r.1 s r.2).toOption

omit [DecidableEq ApplicationId] in
theorem filter_reads (a : ChainId) (calls : List (List (StreamUpdate ChainId ApplicationId))) :
    ((reads calls).filter fun r => r.1 = a) = (readsOf a calls).map (Prod.mk a) := by
  have hPair : ∀ r ∈ (reads calls).filter fun r => r.1 = a, (Prod.mk a ∘ Prod.snd) r = r := by
    intro r hr
    have hAuthor : r.1 = a := by simpa using List.of_mem_filter hr
    rw [← hAuthor]
    rfl
  rw [readsOf, List.map_map, List.map_congr_left hPair, List.map_id']

theorem readStep_eq_some {r : ChainId × Nat} :
    readStep readEvent s r = some s' ↔
      ∃ e, readEvent r.1 r.2 = some e ∧ executeEvent r.1 e s = .ok s' := by
  unfold readStep processIndex
  cases readEvent r.1 r.2 with
  | none => simp [Except.toOption]
  | some e => cases hOk : executeEvent r.1 e s <;> simp [hOk, Except.toOption]

/-- All updates of the calls are about the stream of the application. -/
def OfStream (applicationId : ApplicationId)
    (calls : List (List (StreamUpdate ChainId ApplicationId))) : Prop :=
  ∀ updates ∈ calls, ∀ u ∈ updates, u.streamId = ⟨applicationId, STREAM_NAME⟩

/-- **Calls are runs of reads.** -/
theorem processCalls_ok_iff {applicationId : ApplicationId}
    {calls : List (List (StreamUpdate ChainId ApplicationId))}
    (hStreams : OfStream applicationId calls) :
    processCalls applicationId readEvent s calls = .ok s' ↔
      run (readStep readEvent) s (reads calls) = some s' := by
  refine foldlM_eq_ok_iff_run (fun updates hUpdates => ?_) s s'
  refine foldlM_eq_ok_iff_run fun u hu => ?_
  intro s s'
  have hStream := hStreams updates hUpdates u hu
  unfold processUpdate
  rw [if_neg (by simp [hStream]), if_neg (by simp [hStream]), List.map_eq_flatMap]
  refine foldlM_eq_ok_iff_run (fun index _ s s' => ?_) s s'
  rw [run_singleton, readStep]
  cases processIndex readEvent u.chainId s index <;> simp [Except.toOption]

theorem ownPosts_processCalls {applicationId : ApplicationId}
    {calls : List (List (StreamUpdate ChainId ApplicationId))}
    (hOk : processCalls applicationId readEvent s calls = .ok s') : s'.ownPosts = s.ownPosts := by
  induction calls generalizing s with
  | nil =>
    obtain rfl := Except.ok.inj hOk
    rfl
  | cons updates calls ih =>
    rw [processCalls, List.foldlM_cons, bind_ok_iff] at hOk
    obtain ⟨t, hFirst, hRest⟩ := hOk
    exact (ih hRest).trans (ownPosts_processStreams hFirst)

-- ---------------------------------------------------------------------------
-- The entries of an author
-- ---------------------------------------------------------------------------

/-- The entries of `a` in the received posts. -/
def SocialState.entriesOf (s : SocialState ChainId) (a : ChainId) (key : Key ChainId) :
    Option (Post ChainId) :=
  if key.author = a then s.receivedPosts.lookup key else none

theorem entriesOf_eq_iff :
    s.entriesOf a = t.entriesOf a ↔
      ∀ key, key.author = a → s.receivedPosts.lookup key = t.receivedPosts.lookup key := by
  constructor
  · intro h key hKey
    have hEntry := congrFun h key
    rwa [SocialState.entriesOf, SocialState.entriesOf, if_pos hKey, if_pos hKey] at hEntry
  · intro h
    funext key
    unfold SocialState.entriesOf
    split
    · next hKey => exact h key hKey
    · rfl

/-- **One event on two maps**, of which the second holds the entries of the first
and, where the first has none, those of `under`. -/
theorem executeEvent_over {under : Key ChainId → Option (Post ChainId)} {e : Event ChainId}
    (hOk : executeEvent a e s = .ok s')
    (hAuthor : ∀ key, e.subject = some key → key.author = a)
    (hOver : ∀ key, key.author = a →
      t.receivedPosts.lookup key = (s.receivedPosts.lookup key).or (under key)) :
    ∃ t', executeEvent a e t = .ok t' ∧ ∀ key, key.author = a →
      t'.receivedPosts.lookup key = (s'.receivedPosts.lookup key).or (under key) := by
  -- either way the event writes the same entry to both maps
  have hInsert : ∀ (k : Key ChainId) (p : Post ChainId), ∀ key : Key ChainId, key.author = a →
      (t.receivedPosts.insert k p).lookup key =
        ((s.receivedPosts.insert k p).lookup key).or (under key) := by
    intro k p key hKey
    by_cases hk : key = k
    · rw [hk, Finmap.lookup_insert, Finmap.lookup_insert, Option.some_or]
    · rw [Finmap.lookup_insert_of_ne _ hk, Finmap.lookup_insert_of_ne _ hk]
      exact hOver key hKey
  cases hSubject : e.subject with
  | none =>
    cases e with
    | like | comment => cases hSubject
    | post p index =>
      obtain rfl := Except.ok.inj hOk
      exact ⟨t.executePostEvent a index p, rfl, hInsert _ _⟩
  | some k =>
    obtain ⟨p, hLookup, rfl⟩ := (executeEvent_ok_iff hSubject).mp hOk
    have hLookup' : t.receivedPosts.lookup k = some p := by
      rw [hOver k (hAuthor k hSubject), hLookup, Option.some_or]
    exact ⟨_, (executeEvent_ok_iff hSubject).mpr ⟨p, hLookup', rfl⟩, hInsert _ _⟩

/-- **The authors are independent.** -/
theorem independent_reads
    (hAuthored : ∀ a i e, readEvent a i = some e → ∀ key, e.subject = some key → key.author = a) :
    Independent (readStep readEvent) Prod.fst fun a s => s.entriesOf a where
  other := by
    intro s s' r a hStep hOther
    obtain ⟨e, hRead, hOk⟩ := readStep_eq_some.mp hStep
    refine entriesOf_eq_iff.mpr ?_
    intro key hKey
    exact lookup_executeEvent_of_ne hOk (hAuthored _ _ e hRead) (hKey ▸ Ne.symm hOther)
  own := by
    intro s t s' r hView hStep
    obtain ⟨e, hRead, hOk⟩ := readStep_eq_some.mp hStep
    have hOver : ∀ key, key.author = r.1 →
        t.receivedPosts.lookup key = (s.receivedPosts.lookup key).or none := by
      intro key hKey
      rw [Option.or_none, entriesOf_eq_iff.mp hView key hKey]
    obtain ⟨t', hOk', hOver'⟩ := executeEvent_over hOk (hAuthored _ _ e hRead) hOver
    refine ⟨t', readStep_eq_some.mpr ⟨e, hRead, hOk'⟩, entriesOf_eq_iff.mpr ?_⟩
    intro key hKey
    rw [hOver' key hKey, Option.or_none]

/-- The entries of all authors are the whole map. -/
theorem SocialState.eq_of_entries (hOwn : s.ownPosts = t.ownPosts)
    (hEntries : ∀ a, s.entriesOf a = t.entriesOf a) : s = t := by
  have hReceived : s.receivedPosts = t.receivedPosts :=
    Finmap.ext_lookup fun key => entriesOf_eq_iff.mp (hEntries key.author) key rfl
  cases s
  cases t
  exact congrArg₂ SocialState.mk hOwn hReceived

-- ---------------------------------------------------------------------------
-- Batches and interleavings
-- ---------------------------------------------------------------------------

section
variable {n : Network ChainId ApplicationId}
  {calls calls' : List (List (StreamUpdate ChainId ApplicationId))}

omit [DecidableEq ChainId] [DecidableEq ApplicationId] in
theorem authored_readEvent (hWell : n.WellFormed) (a : ChainId) (i : Nat) (e : Event ChainId)
    (hRead : n.readEvent a i = some e) : ∀ key, e.subject = some key → key.author = a :=
  hWell.authored a e (List.mem_of_getElem? hRead)

/-- What goes well in one order goes well in the other, and ends the same. -/
theorem processCalls_interleaving (hWell : n.WellFormed)
    (hStreams : OfStream n.applicationId calls) (hStreams' : OfStream n.applicationId calls')
    (hSame : ∀ a, readsOf a calls = readsOf a calls')
    (hOk : processCalls n.applicationId n.readEvent s calls = .ok t) :
    processCalls n.applicationId n.readEvent s calls' = .ok t := by
  have hAuthors := independent_reads (authored_readEvent hWell)
  have hFilter : ∀ a, ((reads calls).filter fun r => r.1 = a) =
      (reads calls').filter fun r => r.1 = a := by
    intro a
    rw [filter_reads, filter_reads, hSame]
  obtain ⟨t', hRun', hView⟩ :=
    hAuthors.run_interleaving hFilter ((processCalls_ok_iff hStreams).mp hOk)
  have hOk' := (processCalls_ok_iff hStreams').mpr hRun'
  have hOwn : t.ownPosts = t'.ownPosts :=
    (ownPosts_processCalls hOk).trans (ownPosts_processCalls hOk').symm
  rw [hOk', SocialState.eq_of_entries hOwn hView]

end

/-- **Streams of different authors do not interfere.** In every run of the network
an event about a post stands in the stream of the post's author. So a subscriber
may read the streams in any order, and in any batches, that read each of them in
the same order: it panics either way, or ends in the same state. The entries of an
author then depend only on those at the start and on what is read of its stream. -/
theorem streams_do_not_interfere {applicationId : ApplicationId}
    {as : List (Action ChainId ApplicationId)} {n : Network ChainId ApplicationId}
    (hRun : (Network.initial applicationId).run as = some n) :
    (∀ a, ∀ e ∈ n.events a, ∀ key, e.subject = some key → key.author = a) ∧
    (∀ s calls calls', OfStream n.applicationId calls → OfStream n.applicationId calls' →
      (∀ a, readsOf a calls = readsOf a calls') →
      ((∃ p, processCalls n.applicationId n.readEvent s calls = .error p) ∧
        ∃ p, processCalls n.applicationId n.readEvent s calls' = .error p) ∨
      ∃ t, processCalls n.applicationId n.readEvent s calls = .ok t ∧
        processCalls n.applicationId n.readEvent s calls' = .ok t) ∧
    ∀ a s s' t t' calls calls', OfStream n.applicationId calls →
      OfStream n.applicationId calls' → readsOf a calls = readsOf a calls' →
      (∀ key, key.author = a → s.receivedPosts.lookup key = s'.receivedPosts.lookup key) →
      processCalls n.applicationId n.readEvent s calls = .ok t →
      processCalls n.applicationId n.readEvent s' calls' = .ok t' →
      ∀ key, key.author = a → t.receivedPosts.lookup key = t'.receivedPosts.lookup key := by
  have hWell : n.WellFormed := (Network.WellFormed.initial applicationId).run hRun
  refine ⟨hWell.authored, ?_, ?_⟩
  · intro s calls calls' hStreams hStreams' hSame
    cases hOk : processCalls n.applicationId n.readEvent s calls with
    | ok t => exact Or.inr ⟨t, rfl, processCalls_interleaving hWell hStreams hStreams' hSame hOk⟩
    | error p =>
      cases hOk' : processCalls n.applicationId n.readEvent s calls' with
      | error p' => exact Or.inl ⟨⟨p, rfl⟩, p', rfl⟩
      | ok t =>
        have hOther := processCalls_interleaving hWell hStreams' hStreams
          (fun a => (hSame a).symm) hOk'
        rw [hOk] at hOther
        cases hOther
  · intro a s s' t t' calls calls' hStreams hStreams' hSame hStart hOk hOk'
    have hAuthors := independent_reads (authored_readEvent hWell)
    refine entriesOf_eq_iff.mp (hAuthors.view_run (entriesOf_eq_iff.mpr hStart) ?_
      ((processCalls_ok_iff hStreams).mp hOk) ((processCalls_ok_iff hStreams').mp hOk'))
    rw [filter_reads, filter_reads, hSame]

/-- Two chains make a post each, and the first likes its own. -/
def sampleAuthors : List (Action Nat Nat) :=
  [.operation 0 5 (.post "first" none),
    .operation 2 6 (.post "second" none),
    .operation 0 7 (.like ⟨5, 0, 0⟩)]

/-- Their streams in one call, and event by event in three. -/
def sampleCalls : List (List (StreamUpdate Nat Nat)) × List (List (StreamUpdate Nat Nat)) :=
  ([[⟨0, ⟨0, STREAM_NAME⟩, 0, 2⟩, ⟨2, ⟨0, STREAM_NAME⟩, 0, 1⟩]],
    [[⟨0, ⟨0, STREAM_NAME⟩, 0, 1⟩], [⟨2, ⟨0, STREAM_NAME⟩, 0, 1⟩],
      [⟨0, ⟨0, STREAM_NAME⟩, 1, 2⟩]])

theorem streams_do_not_interfere_sample :
    ∃ n, (Network.initial 0).run sampleAuthors = some n ∧
      (((∃ p, processCalls n.applicationId n.readEvent ∅ sampleCalls.1 = .error p) ∧
        ∃ p, processCalls n.applicationId n.readEvent ∅ sampleCalls.2 = .error p) ∨
      ∃ t, processCalls n.applicationId n.readEvent ∅ sampleCalls.1 = .ok t ∧
        processCalls n.applicationId n.readEvent ∅ sampleCalls.2 = .ok t) := by
  have hRun : (Network.initial 0).run sampleAuthors = some _ := rfl
  have hStreams : OfStream 0 sampleCalls.1 ∧ OfStream 0 sampleCalls.2 := by
    unfold OfStream
    decide
  have hReads : ∀ a, readsOf a sampleCalls.1 = readsOf a sampleCalls.2 := by
    have hFirst : reads sampleCalls.1 = [(0, 0), (0, 1), (2, 0)] := by decide
    have hSecond : reads sampleCalls.2 = [(0, 0), (2, 0), (0, 1)] := by decide
    intro a
    rw [readsOf, readsOf, hFirst, hSecond]
    by_cases h : 0 = a
    · simp [← h]
    · by_cases h' : 2 = a <;> simp [h, h']
  obtain ⟨-, hSame, -⟩ := streams_do_not_interfere hRun
  exact ⟨_, hRun, hSame ∅ sampleCalls.1 sampleCalls.2 hStreams.1 hStreams.2 hReads⟩

end LineraEndToEnd.Social
