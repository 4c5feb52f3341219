import LineraEndToEnd.Social.Reactions

/-!
# Social — whose comment it is

A subscriber stores a comment under the chain it has read the event from, the
author of the post, and not under the chain of the commenter, which neither the
message nor the event carries.

* `Network.commentFor` — the comment a subscriber has stored for an event.
* `commentFor_eq` — what it is.
* `attributed_iff` — it names the commenter exactly where the author of the
  post has commented.
* `not_attributed` — a comment from another chain.
-/

namespace LineraEndToEnd.Social

open Lib

variable {ChainId ApplicationId : Type} [DecidableEq ChainId] [DecidableEq ApplicationId]
  {n : Network ChainId ApplicationId} {as : List (Action ChainId ApplicationId)}
  {applicationId : ApplicationId}

/-- The comment that `b` has stored for the `i`-th event of the author of `key`:
before it come the comments of the earlier events. -/
def Network.commentFor (n : Network ChainId ApplicationId) (b : ChainId) (key : Key ChainId)
    (i : Nat) : Option (Comment ChainId) :=
  ((n.states b).receivedPosts.lookup key).bind fun post =>
    post.comments[(texts ((n.events key.author).take i) key).length]?

omit [DecidableEq ApplicationId] in
/-- Where the text of a comment stands among the texts of the comments. -/
theorem texts_getElem? {es : List (Event ChainId)} {i m : Nat} {key : Key ChainId}
    {comment : String} (hAt : es[i]? = some (.comment key comment)) (hRead : i < m) :
    (texts (es.take m) key)[(texts (es.take i) key).length]? = some comment := by
  have hEvent : (es.take m)[i]? = some (.comment key comment) := by
    rw [List.getElem?_take_of_lt hRead, hAt]
  have hSplit : es.take m = es.take i ++ .comment key comment :: (es.take m).drop (i + 1) := by
    obtain ⟨hLt, hGet⟩ := List.getElem?_eq_some_iff.mp hEvent
    rw [← hGet, ← List.drop_eq_getElem_cons hLt]
    have hTake : (es.take m).take i = es.take i := by
      rw [List.take_take, Nat.min_eq_left (Nat.le_of_lt hRead)]
    rw [← hTake, List.take_append_drop]
  have hText : (Event.comment key comment).textFor key = some comment := if_pos rfl
  rw [hSplit, texts, List.filterMap_append, List.filterMap_cons_some hText, texts,
    List.getElem?_append_right (Nat.le_refl _), Nat.sub_self, List.getElem?_cons_zero]

/-- **What a subscriber stores** for a comment it has processed. -/
theorem commentFor_eq (hRun : (Network.initial applicationId).run as = some n) (b : ChainId)
    (key : Key ChainId) (i : Nat) (comment : String)
    (hRead : i < (n.nextIndex b key.author).toNat)
    (hAt : (n.events key.author)[i]? = some (.comment key comment)) :
    n.commentFor b key i = some { text := comment, chainId := key.author } := by
  have hMirror := mirror_run hRun b key.author
  have hEvent : (n.processed b key.author)[i]? = some (.comment key comment) := by
    rw [Network.processed, List.getElem?_take_of_lt hRead, hAt]
  -- the post has been processed before, so the subscriber holds it
  have hKnown := hMirror.grounded _ (List.mem_of_getElem? hEvent) key rfl
  obtain ⟨post, hPost⟩ := Option.isSome_iff_exists.mp (feed_isSome_iff.mpr hKnown)
  obtain ⟨p, hFind, rfl⟩ := Option.map_eq_some_iff.mp hPost
  obtain ⟨-, hKey⟩ := find?_eq_some_key hFind
  rw [Network.commentFor, hMirror.lookup key rfl, hPost, Option.bind_some, expected, hKey,
    List.getElem?_map, Network.processed, texts_getElem? hAt hRead]
  rfl

/-- **Comments are attributed to the author of the post.** In every run, for every
comment that a subscriber `b` has processed: its operation was executed on the
chain `x.origin`, and the comment `b` has stored for it has this chain as its
`chainId` if and only if it is the chain of the author of the post. -/
theorem attributed_iff (hRun : (Network.initial applicationId).run as = some n) (b : ChainId)
    (key : Key ChainId) (i : Nat) (x : Emitted ChainId) {text : String}
    (hRead : i < (n.nextIndex b key.author).toNat)
    (hAt : (n.streams key.author)[i]? = some x) (hEvent : x.event = .comment key text) :
    (∃ systemTime, .operation x.origin systemTime (.comment key text) ∈ as) ∧
    ∃ comment, n.commentFor b key i = some comment ∧ comment.text = text ∧
      (comment.chainId = x.origin ↔ x.origin = key.author) := by
  have hEventAt : (n.events key.author)[i]? = some (.comment key text) := by
    rw [Network.events, List.getElem?_map, hAt, Option.map_some, hEvent]
  have hExecuted := origin_executed hRun (List.mem_of_getElem? hAt) hEvent
  exact ⟨hExecuted, _, commentFor_eq hRun b key i text hRead hEventAt, rfl, eq_comm⟩

/-- The comment of the chain `1` in the sample run. -/
theorem attributed_iff_sample :
    ∃ n, (Network.initial 0).run sampleRun = some n ∧ ∃ comment,
      n.commentFor 1 ⟨5, 0, 0⟩ 2 = some comment ∧ comment.text = "second" ∧
      (comment.chainId = 1 ↔ 1 = 0) := by
  have hRun := (Option.some_get isSome_sampleRun).symm
  obtain ⟨-, comment, hFor, hText, hIff⟩ := attributed_iff hRun 1 ⟨5, 0, 0⟩ 2
    ⟨1, .comment ⟨5, 0, 0⟩ "second"⟩ (by decide) (by decide) rfl
  exact ⟨_, hRun, comment, hFor, hText, hIff⟩

/-- The comment of the chain `1` in the sample run is stored as one of the chain `0`. -/
theorem not_attributed :
    ¬ ∀ (as : List (Action Nat Nat)) (n : Network Nat Nat), (Network.initial 0).run as = some n →
      ∀ (b : Nat) (key : Key Nat) (i : Nat) (x : Emitted Nat) (text : String),
        i < (n.nextIndex b key.author).toNat → (n.streams key.author)[i]? = some x →
        x.event = .comment key text →
        ∃ comment, n.commentFor b key i = some comment ∧ comment.chainId = x.origin := by
  intro hClaim
  have hRun := (Option.some_get isSome_sampleRun).symm
  obtain ⟨comment, hFor, hOrigin⟩ := hClaim sampleRun _ hRun 1 ⟨5, 0, 0⟩ 2
    ⟨1, .comment ⟨5, 0, 0⟩ "second"⟩ "second" (by decide) (by decide) rfl
  rw [commentFor_eq hRun 1 ⟨5, 0, 0⟩ 2 "second" (by decide) (by decide)] at hFor
  obtain rfl := Option.some.inj hFor
  cases hOrigin

end LineraEndToEnd.Social
