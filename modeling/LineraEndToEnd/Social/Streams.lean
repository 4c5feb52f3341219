import Mathlib.Data.Finset.Card
import LineraEndToEnd.Social.Network
import LineraEndToEnd.Social.Feed

/-!
# Social — the streams of a run

What an author's chain does: it numbers its posts and emits one event for each
post, and for each like and comment on a post of the author.

* `Numbered m ps` — the map `own_posts` against the list of posts made: as long
  as these are at most `2 ^ 32`, the map holds exactly them, each under its
  position. After that, `count() as u32` is `0` and posts are overwritten.
* `Network.WellFormed` — the invariants of the network: events are about posts
  of the stream's own chain, messages go to the author's chain, subscriptions
  are to the application's stream, subscribers have not read past the end.
* `Network.WellFormed.step`, `numbered_run`, `posts_run` — they hold in every
  run, and the `Post` events are the `Post` operations.
-/

namespace LineraEndToEnd.Social

open Lib

variable {ChainId ApplicationId : Type} [DecidableEq ChainId] [DecidableEq ApplicationId]
  {n n' : Network ChainId ApplicationId} {a : Action ChainId ApplicationId} {c : ChainId}

-- ---------------------------------------------------------------------------
-- Numbering
-- ---------------------------------------------------------------------------

/-- The map `own_posts` after the posts `ps` were made. -/
structure Numbered (m : MapView UInt32 OwnPost) (ps : List (OwnPost × UInt32)) : Prop where
  keys : ∀ i : UInt32, i ∈ m ↔ i.toNat < ps.length
  index : ∀ i p, ps[i]? = some p → i < 2 ^ 32 → p.2 = UInt32.ofNat i
  content : ps.length ≤ 2 ^ 32 → ∀ i : UInt32, m.lookup i = (ps[i.toNat]?).map Prod.fst

theorem Numbered.empty : Numbered ∅ [] :=
  ⟨fun i => iff_of_false Finmap.notMem_empty (Nat.not_lt_zero _), fun i p h => by simp at h,
    fun _ i => by simp⟩

theorem toNat_ofNat {i : Nat} (h : i < 2 ^ 32) : (UInt32.ofNat i).toNat = i :=
  UInt32.toNat_ofNat_of_lt' h

/-- The number of posts, as long as it is a `u32`. -/
theorem Numbered.card {m : MapView UInt32 OwnPost} {ps : List (OwnPost × UInt32)}
    (h : Numbered m ps) : m.keys.card = min ps.length (2 ^ 32) := by
  have hImage : m.keys.image UInt32.toNat = Finset.range (min ps.length (2 ^ 32)) := by
    ext k
    rw [Finset.mem_image, Finset.mem_range]
    constructor
    · rintro ⟨i, hi, rfl⟩
      have hLt := (h.keys i).mp (Finmap.mem_keys.mp hi)
      have hSize : i.toNat < 2 ^ 32 := i.toNat_lt
      omega
    · intro hk
      have hVal : (UInt32.ofNat k).toNat = k := toNat_ofNat (by omega)
      refine ⟨UInt32.ofNat k, Finmap.mem_keys.mpr ((h.keys _).mpr ?_), hVal⟩
      omega
  have hInj : Function.Injective UInt32.toNat := fun _ _ hEq => UInt32.toNat_inj.mp hEq
  rw [← Finset.card_image_of_injective m.keys hInj, hImage, Finset.card_range]

/-- **The next post** gets the number of posts made so far as its index. -/
theorem Numbered.insert {m : MapView UInt32 OwnPost} {ps : List (OwnPost × UInt32)}
    (h : Numbered m ps) (p : OwnPost) :
    Numbered (Finmap.insert (UInt32.ofNat m.keys.card) p m)
      (ps ++ [(p, UInt32.ofNat m.keys.card)]) := by
  have hCard := h.card
  have hIndex : ps.length < 2 ^ 32 → (UInt32.ofNat m.keys.card).toNat = ps.length := by
    intro hFew
    rw [hCard, Nat.min_eq_left (by omega)]
    exact toNat_ofNat hFew
  refine ⟨fun i => ?_, fun i q hq hi => ?_, fun hFew i => ?_⟩
  · rw [Finmap.mem_insert, h.keys i, List.length_append, List.length_singleton,
      ← UInt32.toNat_inj]
    have hSize : i.toNat < 2 ^ 32 := i.toNat_lt
    rcases Nat.lt_or_ge ps.length (2 ^ 32) with hLt | hGe
    · rw [hIndex hLt]
      omega
    · omega
  · rcases Nat.lt_trichotomy i ps.length with hLt | hEq | hGt
    · rw [List.getElem?_append_left hLt] at hq
      exact h.index i q hq hi
    · subst hEq
      rw [List.getElem?_concat_length, Option.some.injEq] at hq
      rw [← hq, hCard, Nat.min_eq_left (by omega)]
    · rw [List.getElem?_eq_none (by simp; omega)] at hq
      cases hq
  · rw [List.length_append, List.length_singleton] at hFew
    have hPosition := hIndex (by omega)
    by_cases hi : i = UInt32.ofNat m.keys.card
    · subst hi
      rw [Finmap.lookup_insert, hPosition, List.getElem?_concat_length]
      rfl
    · have hNe : i.toNat ≠ ps.length := fun hEq =>
        hi (UInt32.toNat_inj.mp (hEq.trans hPosition.symm))
      rw [Finmap.lookup_insert_of_ne _ hi, h.content (by omega) i]
      rcases Nat.lt_or_gt_of_ne hNe with hLt | hGt
      · rw [List.getElem?_append_left hLt]
      · rw [List.getElem?_eq_none (by omega), List.getElem?_eq_none (by simp; omega)]

/-- Among the first `2 ^ 32` posts, no two have the same index. -/
theorem Numbered.index_ne {m : MapView UInt32 OwnPost}
    {before after : List (OwnPost × UInt32)} {p q : OwnPost × UInt32}
    (h : Numbered m (before ++ p :: after)) (hFew : before.length < 2 ^ 32)
    (hq : q ∈ before) : q.2 ≠ p.2 := by
  obtain ⟨i, hi, hGet⟩ := List.mem_iff_getElem.mp hq
  have hIndex : q.2 = UInt32.ofNat i := by
    refine h.index i q ?_ (by omega)
    rw [List.getElem?_append_left hi, List.getElem?_eq_getElem hi, hGet]
  have hIndex' : p.2 = UInt32.ofNat before.length := by
    refine h.index before.length p ?_ hFew
    simp
  intro hEq
  have hVal := congrArg UInt32.toNat (hIndex.symm.trans (hEq.trans hIndex'))
  rw [toNat_ofNat (by omega), toNat_ofNat hFew] at hVal
  omega

-- ---------------------------------------------------------------------------
-- One step
-- ---------------------------------------------------------------------------

theorem events_step (hStep : n.step a = some n') (c : ChainId) :
    n'.events c = n.events c ++ (n.emits c a).map Emitted.event := by
  rw [Network.events, Network.step_streams hStep, List.map_append]
  rfl

omit [DecidableEq ApplicationId] in
/-- The posts an action adds to a stream are the posts it makes. -/
theorem posts_emits (n : Network ChainId ApplicationId) (c : ChainId)
    (a : Action ChainId ApplicationId) :
    posts ((n.emits c a).map Emitted.event) =
      (a.makes c).toList.map fun p => (p, UInt32.ofNat (n.states c).ownPosts.keys.card) := by
  cases a with
  | operation chain systemTime op =>
    by_cases hc : chain = c
    · cases op with
      | subscribe | unsubscribe => simp [Network.emits, Action.makes, posts]
      | post text imageUrl => simp [Network.emits, Action.makes, posts, hc, Event.posted]
      | like key =>
        by_cases hKey : key.author = c <;>
          simp [Network.emits, Action.makes, posts, Event.posted, hKey]
      | comment key comment =>
        by_cases hKey : key.author = c <;>
          simp [Network.emits, Action.makes, posts, Event.posted, hKey]
    · cases op <;> simp [Network.emits, Action.makes, posts, hc]
  | execute e =>
    by_cases hc : e.destination = c
    · cases hMsg : e.message <;>
        simp [Network.emits, Action.makes, posts, hc, hMsg, executeMessage, Event.posted]
    · simp [Network.emits, Action.makes, posts, hc]
  | reject e => rfl
  | processStreams chain updates => rfl

omit [DecidableEq ChainId] in
theorem posts_append (es es' : List (Event ChainId)) : posts (es ++ es') = posts es ++ posts es' :=
  List.filterMap_append

theorem numbered_step (h : Numbered (n.states c).ownPosts (posts (n.events c)))
    (hStep : n.step a = some n') : Numbered (n'.states c).ownPosts (posts (n'.events c)) := by
  rw [events_step hStep, posts_append, posts_emits, Network.step_ownPosts hStep c]
  cases a.makes c with
  | none => simpa using h
  | some p => exact h.insert p

-- ---------------------------------------------------------------------------
-- Well-formed networks
-- ---------------------------------------------------------------------------

/-- The events of the stream of `c` are about posts of `c`. -/
def Authored (c : ChainId) (es : List (Event ChainId)) : Prop :=
  ∀ e ∈ es, ∀ key, e.subject = some key → key.author = c

/-- The invariants of the network. -/
structure Network.WellFormed (n : Network ChainId ApplicationId) : Prop where
  authored : ∀ c, Authored c (n.events c)
  addressed : ∀ m ∈ n.inFlight, Authored m.destination [executeMessage m.message]
  subscribed : ∀ b x, x ∈ n.subscriptions b → x.2 = ⟨n.applicationId, STREAM_NAME⟩
  read : ∀ b c, (n.nextIndex b c).toNat ≤ (n.events c).length

/-- What an action emits is about posts of the chain. -/
theorem authored_emits (h : n.WellFormed) (hStep : n.step a = some n') (c : ChainId) :
    Authored c ((n.emits c a).map Emitted.event) := by
  intro e he key hKey
  obtain ⟨x, hx, rfl⟩ := List.mem_map.mp he
  cases Network.emits_of_mem hx with
  | post => cases hKey
  | like systemTime k hAuthor | comment systemTime k text hAuthor =>
    obtain rfl := Option.some.inj hKey
    exact hAuthor
  | execute m hHere =>
    obtain ⟨hMem, -⟩ := Network.step_execute_iff.mp hStep
    rw [← hHere]
    exact h.addressed m hMem _ (List.mem_singleton_self _) key hKey

omit [DecidableEq ApplicationId] in
/-- What an action sends goes to the author of the post it is about. -/
theorem addressed_sent {m : Envelope ChainId} (hMem : m ∈ a.sent) :
    Authored m.destination [executeMessage m.message] := by
  intro e he key hKey
  rw [List.mem_singleton.mp he] at hKey
  unfold Action.sent at hMem
  split at hMem
  · split at hMem
    · exact absurd hMem (Multiset.notMem_zero m)
    · rw [Multiset.mem_singleton.mp hMem] at hKey ⊢
      obtain rfl := Option.some.inj hKey
      rfl
  · split at hMem
    · exact absurd hMem (Multiset.notMem_zero m)
    · rw [Multiset.mem_singleton.mp hMem] at hKey ⊢
      obtain rfl := Option.some.inj hKey
      rfl
  · exact absurd hMem (Multiset.notMem_zero m)

omit [DecidableEq ApplicationId] in
theorem Network.Deliverable.read {b : ChainId} :
    ∀ {next : ChainId → UInt32} {updates : List (StreamUpdate ChainId ApplicationId)},
      n.Deliverable b next updates → (∀ c, (next c).toNat ≤ (n.events c).length) →
      ∀ c, (Network.advance next updates c).toNat ≤ (n.events c).length
  | _, [], _, hRead => hRead
  | next, u :: us, hDel, hRead => by
    obtain ⟨-, -, -, hExists, hRest⟩ := hDel
    refine hRest.read fun c => ?_
    by_cases hc : c = u.chainId
    · subst hc
      rw [Function.update_self, Network.events, List.length_map]
      exact hExists
    · rw [Function.update_of_ne hc]
      exact hRead c

namespace Network.WellFormed

omit [DecidableEq ChainId] [DecidableEq ApplicationId] in
theorem initial (applicationId : ApplicationId) :
    (Network.initial applicationId : Network ChainId ApplicationId).WellFormed where
  authored _ _ he := absurd he List.not_mem_nil
  addressed m hm := absurd hm (Multiset.notMem_zero m)
  subscribed _ x hx := absurd hx (Finset.notMem_empty x)
  read _ _ := Nat.zero_le _

/-- Every step keeps a network well formed. -/
theorem step (h : n.WellFormed) (hStep : n.step a = some n') : n'.WellFormed := by
  have hGrow : ∀ c, (n.events c).length ≤ (n'.events c).length := by
    intro c
    rw [events_step hStep, List.length_append]
    exact Nat.le_add_right ..
  refine ⟨fun c e he => ?_, fun m hm => ?_, fun b x hx => ?_, fun b c => ?_⟩
  · rw [events_step hStep] at he
    rcases List.mem_append.mp he with hOld | hNew
    · exact h.authored c e hOld
    · exact authored_emits h hStep c e hNew
  · have hFlight : m ∈ n.inFlight + a.sent := by
      rw [← Network.step_inFlight hStep]
      exact Multiset.mem_add.mpr (Or.inl hm)
    rcases Multiset.mem_add.mp hFlight with hOld | hSent
    · exact h.addressed m hOld
    · exact addressed_sent hSent
  · rw [Network.step_applicationId hStep]
    rcases Network.step_subscriptions hStep hx with hOld | hNew
    · exact h.subscribed b x hOld
    · exact hNew
  · rcases Network.step_subscriber hStep b with ⟨updates, -, hDel, -, hNext⟩ | ⟨-, hNext⟩
    · rw [hNext]
      exact Nat.le_trans (hDel.read (h.read b) c) (hGrow c)
    · rw [hNext]
      exact Nat.le_trans (h.read b c) (hGrow c)

theorem run {as : List (Action ChainId ApplicationId)} (h : n.WellFormed)
    (hRun : n.run as = some n') : n'.WellFormed :=
  run_invariant (fun _ _ _ hWell hStep => hWell.step hStep) h hRun

end Network.WellFormed

-- ---------------------------------------------------------------------------
-- Whole runs
-- ---------------------------------------------------------------------------

/-- The posts made on `c` in a run, in order. -/
def postsMade (c : ChainId) (as : List (Action ChainId ApplicationId)) : List OwnPost :=
  as.filterMap (Action.makes c)

omit [DecidableEq ApplicationId] in
theorem postsMade_append (c : ChainId) (as bs : List (Action ChainId ApplicationId)) :
    postsMade c (as ++ bs) = postsMade c as ++ postsMade c bs :=
  List.filterMap_append

section
variable {applicationId : ApplicationId} {as : List (Action ChainId ApplicationId)}

theorem numbered_run (hRun : (Network.initial applicationId).run as = some n) (c : ChainId) :
    Numbered (n.states c).ownPosts (posts (n.events c)) :=
  run_invariant
    (P := fun n => Numbered (n.states c).ownPosts (posts (n.events c)))
    (fun _ _ _ hNumbered hStep => numbered_step hNumbered hStep) Numbered.empty hRun

/-- The `Post` events of a stream are the posts made. -/
theorem posts_run (hRun : (Network.initial applicationId).run as = some n) (c : ChainId) :
    (posts (n.events c)).map Prod.fst = postsMade c as := by
  refine run_induction
    (P := fun as n => (posts (n.events c)).map Prod.fst = postsMade c as) rfl ?_ hRun
  intro as m a m' _ ih hStep
  have hMade : postsMade c (as ++ [a]) = postsMade c as ++ (a.makes c).toList :=
    filterMap_concat ..
  rw [events_step hStep, posts_append, List.map_append, ih, posts_emits, hMade]
  cases a.makes c <;> rfl

end

end LineraEndToEnd.Social
