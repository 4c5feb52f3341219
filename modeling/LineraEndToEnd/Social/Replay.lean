import LineraEndToEnd.Social.Isolation

/-!
# Social — replaying a stream

Likes are counted and comments appended, so an event that is processed twice counts
twice. A whole beginning of a stream that is processed twice does not: its `Post`
events start every post of the author afresh.

* `Over` — a state that holds, for an author, the entries of a first pass and below
  them those of a last one. Replaying keeps this, event by event.
* `replay_is_idempotent` — where the last pass is the end of the first one, the two
  layers are the same at the end.
-/

namespace LineraEndToEnd.Social

open Lib

variable {ChainId ApplicationId : Type} [DecidableEq ChainId] [DecidableEq ApplicationId]
  {readEvent : ChainId → Nat → Option (Event ChainId)} {s s' t last : SocialState ChainId}
  {a : ChainId}

/-- For the keys of `a`, the state `t` holds the entries of `s` over those of `last`. -/
def Over (a : ChainId) (last s t : SocialState ChainId) : Prop :=
  ∀ key, key.author = a → t.receivedPosts.lookup key =
    (s.receivedPosts.lookup key).or (last.receivedPosts.lookup key)

theorem Over.of_no_entries (hEmpty : ∀ key, key.author = a → s.receivedPosts.lookup key = none) :
    Over a last s last := by
  intro key hKey
  rw [hEmpty key hKey, Option.none_or]

/-- Over its own entries a state is itself. -/
theorem Over.eq (h : Over a last s t) (hSame : s.entriesOf a = last.entriesOf a) :
    t.entriesOf a = last.entriesOf a := by
  refine entriesOf_eq_iff.mpr fun key hKey => ?_
  rw [h key hKey, entriesOf_eq_iff.mp hSame key hKey, Option.or_self]

/-- **Replaying one event of the author.** -/
theorem Over.step
    (hAuthored : ∀ a i e, readEvent a i = some e → ∀ key, e.subject = some key → key.author = a)
    {r : ChainId × Nat} (hOver : Over a last s t) (hOwn : r.1 = a)
    (hStep : readStep readEvent s r = some s') :
    ∃ t', readStep readEvent t r = some t' ∧ Over a last s' t' := by
  subst hOwn
  obtain ⟨e, hRead, hOk⟩ := readStep_eq_some.mp hStep
  obtain ⟨t', hOk', hOver'⟩ := executeEvent_over hOk (hAuthored _ _ e hRead) hOver
  exact ⟨t', readStep_eq_some.mpr ⟨e, hRead, hOk'⟩, hOver'⟩

/-- **Replaying a stream is idempotent.** A subscriber without entries of `a` has
processed the first `m` events of the stream of `a`, among events of other authors.
When it processes them once more from the start, in any batches, it does not panic
and ends in the state it was in. -/
theorem replay_is_idempotent {applicationId : ApplicationId}
    {as : List (Action ChainId ApplicationId)} {n : Network ChainId ApplicationId}
    (hRun : (Network.initial applicationId).run as = some n) {m : Nat}
    {calls replay : List (List (StreamUpdate ChainId ApplicationId))}
    (hStreams : OfStream n.applicationId calls) (hReplay : OfStream n.applicationId replay)
    (hEmpty : ∀ key, key.author = a → s.receivedPosts.lookup key = none)
    (hFirst : processCalls n.applicationId n.readEvent s calls = .ok s')
    (hAll : readsOf a calls = List.range m) (hAgain : readsOf a replay = List.range m)
    (hOnly : ∀ updates ∈ replay, ∀ u ∈ updates, u.chainId = a) :
    processCalls n.applicationId n.readEvent s' replay = .ok s' := by
  have hWell : n.WellFormed := (Network.WellFormed.initial applicationId).run hRun
  have hAuthors := independent_reads (authored_readEvent hWell)
  have hReads : ∀ r ∈ reads replay, r.1 = a := by
    intro r hr
    simp only [reads, List.mem_flatMap, List.mem_map] at hr
    obtain ⟨updates, hUpdates, u, hu, i, -, rfl⟩ := hr
    exact hOnly updates hUpdates u hu
  -- the first pass, for the author alone, reads what the replay reads
  have hOwn : ((reads calls).filter fun r => r.1 = a) = reads replay := by
    have hFilter : ((reads replay).filter fun r => r.1 = a) = reads replay :=
      List.filter_eq_self.mpr fun r hr => by simpa using hReads r hr
    rw [filter_reads, hAll, ← hAgain, ← filter_reads, hFilter]
  obtain ⟨alone, hAlone, hSame⟩ :=
    hAuthors.run_filter (k := a) rfl ((processCalls_ok_iff hStreams).mp hFirst)
  rw [hOwn] at hAlone
  -- the replay goes through, and ends with the first pass over its own end
  obtain ⟨t, hRunAgain, hOver⟩ := run_simulates (R := Over a s')
    (Q := fun r : ChainId × Nat => r.1 = a)
    (fun s t r s₁ hOver hr hStep => hOver.step (authored_readEvent hWell) hr hStep)
    (Over.of_no_entries hEmpty) hReads hAlone
  have hOk := (processCalls_ok_iff hReplay).mpr hRunAgain
  have hEntries : ∀ c, t.entriesOf c = s'.entriesOf c := by
    intro c
    by_cases hc : c = a
    · rw [hc]
      exact hOver.eq hSame.symm
    · have hNone : ((reads replay).filter fun r => r.1 = c) =
          ([] : List (ChainId × Nat)).filter fun r => r.1 = c := by
        rw [List.filter_nil, List.filter_eq_nil_iff]
        intro r hr
        simpa [hReads r hr] using Ne.symm hc
      exact hAuthors.view_run rfl hNone hRunAgain rfl
  rw [hOk, SocialState.eq_of_entries (ownPosts_processCalls hOk) hEntries]

/-- The three events of `sampleRun` in two calls, and once more in one. -/
def sampleReplay : List (List (StreamUpdate Nat Nat)) × List (List (StreamUpdate Nat Nat)) :=
  ([[⟨0, ⟨0, STREAM_NAME⟩, 0, 2⟩], [⟨0, ⟨0, STREAM_NAME⟩, 2, 3⟩]],
    [[⟨0, ⟨0, STREAM_NAME⟩, 0, 3⟩]])

theorem replay_is_idempotent_sample :
    ∃ n s, (Network.initial 0).run sampleRun = some n ∧
      processCalls n.applicationId n.readEvent ∅ sampleReplay.1 = .ok s ∧
      processCalls n.applicationId n.readEvent s sampleReplay.2 = .ok s := by
  have hRun := (Option.some_get isSome_sampleRun).symm
  have hStreams : OfStream 0 sampleReplay.1 ∧ OfStream 0 sampleReplay.2 := by
    unfold OfStream
    decide
  obtain ⟨s, hFirst⟩ := Option.isSome_iff_exists.mp (by decide : (run
    (readStep (((Network.initial 0).run sampleRun).get isSome_sampleRun).readEvent)
    (∅ : SocialState Nat) (reads sampleReplay.1)).isSome = true)
  have hOk := (processCalls_ok_iff hStreams.1).mpr hFirst
  exact ⟨_, s, hRun, hOk, replay_is_idempotent (a := 0) (m := 3) hRun hStreams.1 hStreams.2
    (fun _ _ => rfl) hOk (by decide) (by decide) (by decide)⟩

end LineraEndToEnd.Social
