import LineraEndToEnd.Lib.Run
import LineraEndToEnd.Social.Contract

/-!
# Social — what a stream says about a post

The abstract model of a subscriber: the events of an author's stream determine
what should be known about every post of the author. Nothing else matters: not
the batches in which the events were processed, and not the other streams.

* `feed a es key` — what `es`, a beginning of the stream of `a`, says about the
  post `key`: its text, the number of its likes, its comments in order.
* `Mirror a es s` — the state `s` holds exactly this for every key of `a`.
* `Mirror.own` — executing the next event of `a` keeps the mirror, when the
  index of a post is new.
* `Mirror.other` — executing an event of another author keeps it.
-/

namespace LineraEndToEnd.Social

variable {ChainId : Type} [DecidableEq ChainId]

-- ---------------------------------------------------------------------------
-- Posts, likes and comments of a stream
-- ---------------------------------------------------------------------------

/-- The post of a `Post` event, with its index. -/
def Event.posted : Event ChainId → Option (OwnPost × UInt32)
  | .post p index => some (p, index)
  | .like _ | .comment _ _ => none

/-- The text of a `Comment` event on `key`. -/
def Event.textFor (key : Key ChainId) : Event ChainId → Option String
  | .comment k text => if k = key then some text else none
  | .post _ _ | .like _ => none

/-- The posts of a stream, in order, with their indices. -/
def posts (es : List (Event ChainId)) : List (OwnPost × UInt32) :=
  es.filterMap Event.posted

/-- The number of likes for `key`. -/
def likes (es : List (Event ChainId)) (key : Key ChainId) : Nat :=
  es.count (.like key)

/-- The texts of the comments on `key`, in order. -/
def texts (es : List (Event ChainId)) (key : Key ChainId) : List String :=
  es.filterMap (Event.textFor key)

/-- The key of a post of `a`. -/
def keyOf (a : ChainId) (p : OwnPost × UInt32) : Key ChainId :=
  { timestamp := p.1.timestamp, author := a, index := p.2 }

/-- The post a subscriber should hold for `p`, after the events `es` of `a`. -/
def expected (a : ChainId) (es : List (Event ChainId)) (p : OwnPost × UInt32) : Post ChainId :=
  { key := keyOf a p
    text := p.1.text
    imageUrl := p.1.imageUrl
    likes := UInt32.ofNat (likes es (keyOf a p))
    comments := (texts es (keyOf a p)).map fun text => { text := text, chainId := a } }

/-- What the events `es` of `a` say about `key`. -/
def feed (a : ChainId) (es : List (Event ChainId)) (key : Key ChainId) : Option (Post ChainId) :=
  ((posts es).find? fun p => keyOf a p = key).map (expected a es)

variable {a : ChainId} {es : List (Event ChainId)} {e : Event ChainId} {key k : Key ChainId}

section
omit [DecidableEq ChainId]

theorem posts_concat_post (es : List (Event ChainId)) (p : OwnPost) (index : UInt32) :
    posts (es ++ [.post p index]) = posts es ++ [(p, index)] := by
  simp [posts, Event.posted]

theorem posts_concat_of_subject (hSubject : e.subject = some k) : posts (es ++ [e]) = posts es := by
  cases e with
  | post => cases hSubject
  | like | comment => simp [posts, Event.posted]

end

theorem likes_concat (es : List (Event ChainId)) (e : Event ChainId) (key : Key ChainId) :
    likes (es ++ [e]) key = likes es key + if e = .like key then 1 else 0 := by
  rw [likes, likes, List.count_append, List.count_singleton]
  simp [beq_iff_eq]

theorem texts_concat (es : List (Event ChainId)) (e : Event ChainId) (key : Key ChainId) :
    texts (es ++ [e]) key = texts es key ++ (e.textFor key).toList :=
  Lib.filterMap_concat ..

/-- An event about another post does not count for this one. -/
theorem expected_concat_of_ne {p : OwnPost × UInt32} (hSubject : e.subject ≠ some (keyOf a p)) :
    expected a (es ++ [e]) p = expected a es p := by
  have hLike : e ≠ .like (keyOf a p) := by
    rintro rfl
    exact hSubject rfl
  have hText : e.textFor (keyOf a p) = none := by
    cases e with
    | post | like => rfl
    | comment k text =>
      refine if_neg ?_
      rintro rfl
      exact hSubject rfl
  simp only [expected, likes_concat, texts_concat, if_neg hLike, hText, Nat.add_zero,
    Option.toList_none, List.append_nil]

/-- An event about a post revises what is expected of it. -/
theorem expected_concat_of_subject {p : OwnPost × UInt32}
    (hSubject : e.subject = some (keyOf a p)) :
    expected a (es ++ [e]) p = e.revise a (expected a es p) := by
  cases e with
  | post => cases hSubject
  | like k =>
    obtain rfl := Option.some.inj hSubject
    simp [expected, likes_concat, texts_concat, Event.textFor, Event.revise]
  | comment k text =>
    obtain rfl := Option.some.inj hSubject
    simp [expected, likes_concat, texts_concat, Event.textFor, Event.revise]

theorem find?_eq_some_key {p : OwnPost × UInt32}
    (h : (posts es).find? (fun p => keyOf a p = key) = some p) : p ∈ posts es ∧ keyOf a p = key :=
  ⟨List.mem_of_find?_eq_some h, by simpa using List.find?_some h⟩

theorem feed_isSome_iff : (feed a es key).isSome ↔ ∃ p ∈ posts es, keyOf a p = key := by
  simp [feed]

theorem feed_concat_of_subject (hSubject : e.subject = some k) :
    feed a (es ++ [e]) key =
      if key = k then (feed a es key).map (e.revise a) else feed a es key := by
  unfold feed
  rw [posts_concat_of_subject hSubject]
  cases hFind : (posts es).find? (fun p => keyOf a p = key) with
  | none => simp
  | some p =>
    obtain ⟨-, rfl⟩ := find?_eq_some_key hFind
    simp only [Option.map_some]
    split
    · next hk => rw [expected_concat_of_subject (hk ▸ hSubject)]
    · next hk =>
      rw [expected_concat_of_ne]
      rw [hSubject]
      exact fun hEq => hk (Option.some.inj hEq).symm

theorem feed_concat_post {p : OwnPost} {index : UInt32} (hNew : ∀ q ∈ posts es, q.2 ≠ index) :
    feed a (es ++ [.post p index]) key =
      if key = keyOf a (p, index) then some (expected a (es ++ [.post p index]) (p, index))
      else feed a es key := by
  unfold feed
  rw [posts_concat_post, List.find?_append]
  split
  · next hKey =>
    -- no earlier post has this key, since none has this index
    have hNone : (posts es).find? (fun q => keyOf a q = key) = none := by
      rw [List.find?_eq_none]
      intro q hq hEq
      have hSame : keyOf a q = keyOf a (p, index) := (of_decide_eq_true hEq).trans hKey
      exact hNew q hq (congrArg Key.index hSame)
    rw [hNone]
    simp [hKey]
  · next hKey =>
    cases hFind : (posts es).find? (fun q => keyOf a q = key) with
    | none => simp [Ne.symm hKey]
    | some q =>
      simp only [Option.some_or, Option.map_some]
      rw [expected_concat_of_ne]
      exact fun h => nomatch h

-- ---------------------------------------------------------------------------
-- The state of a subscriber
-- ---------------------------------------------------------------------------

/-- The state holds, for all keys of `a`, what the events `es` of `a` say, and
these events are all about posts among them. -/
structure Mirror (a : ChainId) (es : List (Event ChainId)) (s : SocialState ChainId) : Prop where
  lookup : ∀ key : Key ChainId, key.author = a → s.receivedPosts.lookup key = feed a es key
  grounded : ∀ e ∈ es, ∀ key, e.subject = some key → ∃ p ∈ posts es, keyOf a p = key

theorem Mirror.empty (a : ChainId) : Mirror a [] ∅ :=
  ⟨fun _ _ => rfl, fun _ he => absurd he List.not_mem_nil⟩

/-- What is not posted has no likes and no comments. -/
theorem expected_of_ungrounded {p : OwnPost × UInt32}
    (hNone : ∀ e ∈ es, e.subject ≠ some (keyOf a p)) :
    expected a es p =
      { key := keyOf a p, text := p.1.text, imageUrl := p.1.imageUrl, likes := 0,
        comments := [] } := by
  have hLikes : likes es (keyOf a p) = 0 :=
    List.count_eq_zero_of_not_mem fun hMem => hNone _ hMem rfl
  have hTexts : texts es (keyOf a p) = [] := by
    refine List.filterMap_eq_nil_iff.mpr fun e he => ?_
    cases e with
    | post | like => rfl
    | comment k text =>
      refine if_neg ?_
      rintro rfl
      exact hNone _ he rfl
  simp [expected, hLikes, hTexts]

variable {s s' : SocialState ChainId}

/-- **An event of the author itself.** -/
theorem Mirror.own (h : Mirror a es s) (hOk : executeEvent a e s = .ok s')
    (hAuthor : ∀ key, e.subject = some key → key.author = a)
    (hNew : ∀ p ∈ e.posted, ∀ q ∈ posts es, q.2 ≠ p.2) : Mirror a (es ++ [e]) s' := by
  cases hSubject : e.subject with
  | none =>
    cases e with
    | like | comment => cases hSubject
    | post p index =>
      obtain rfl := Except.ok.inj hOk
      have hIndex : ∀ q ∈ posts es, q.2 ≠ index := hNew (p, index) rfl
      refine ⟨fun key hKey => ?_, fun e he key hk => ?_⟩
      · rw [feed_concat_post hIndex]
        show (Finmap.insert (keyOf a (p, index)) _ s.receivedPosts).lookup key = _
        split
        · next hEq =>
          -- nothing was said about the new key before
          have hNone : ∀ e ∈ es ++ [.post p index], e.subject ≠ some (keyOf a (p, index)) := by
            intro e he hAbout
            rcases List.mem_append.mp he with he | he
            · obtain ⟨q, hq, hEq⟩ := h.grounded e he _ hAbout
              exact hIndex q hq (congrArg Key.index hEq)
            · rw [List.mem_singleton.mp he] at hAbout
              cases hAbout
          rw [hEq, Finmap.lookup_insert, expected_of_ungrounded hNone]
          rfl
        · next hNe => rw [Finmap.lookup_insert_of_ne _ hNe, h.lookup key hKey]
      · rw [posts_concat_post]
        rcases List.mem_append.mp he with he | he
        · obtain ⟨q, hq, hEq⟩ := h.grounded e he key hk
          exact ⟨q, List.mem_append_left _ hq, hEq⟩
        · rw [List.mem_singleton.mp he] at hk
          cases hk
  | some k =>
    obtain ⟨p, hLookup, rfl⟩ := (executeEvent_ok_iff hSubject).mp hOk
    have hKnown : feed a es k = some p := by rw [← h.lookup k (hAuthor k hSubject), hLookup]
    refine ⟨fun key hKey => ?_, fun e' he key hk => ?_⟩
    · rw [feed_concat_of_subject hSubject]
      show (Finmap.insert k _ s.receivedPosts).lookup key = _
      split
      · next hEq => rw [hEq, Finmap.lookup_insert, hKnown, Option.map_some]
      · next hNe => rw [Finmap.lookup_insert_of_ne _ hNe, h.lookup key hKey]
    · rw [posts_concat_of_subject hSubject]
      rcases List.mem_append.mp he with he | he
      · exact h.grounded e' he key hk
      · rw [List.mem_singleton.mp he, hSubject] at hk
        obtain rfl := Option.some.inj hk
        exact feed_isSome_iff.mp (by rw [hKnown]; rfl)

/-- The keys an event of the chain `a'` writes to are keys of `a'`. -/
theorem lookup_executeEvent_of_ne {a' : ChainId} (hOk : executeEvent a' e s = .ok s')
    (hAuthor : ∀ key, e.subject = some key → key.author = a') (hKey : key.author ≠ a') :
    s'.receivedPosts.lookup key = s.receivedPosts.lookup key := by
  cases hSubject : e.subject with
  | none =>
    cases e with
    | like | comment => cases hSubject
    | post p index =>
      obtain rfl := Except.ok.inj hOk
      refine Finmap.lookup_insert_of_ne _ ?_
      rintro rfl
      exact hKey rfl
  | some k =>
    obtain ⟨p, -, rfl⟩ := (executeEvent_ok_iff hSubject).mp hOk
    refine Finmap.lookup_insert_of_ne _ ?_
    rintro rfl
    exact hKey (hAuthor _ hSubject)

/-- **An event of another author.** -/
theorem Mirror.other (h : Mirror a es s) {a' : ChainId} (hNe : a ≠ a')
    (hOk : executeEvent a' e s = .ok s')
    (hAuthor : ∀ key, e.subject = some key → key.author = a') : Mirror a es s' := by
  refine ⟨fun key hKey => ?_, h.grounded⟩
  rw [lookup_executeEvent_of_ne hOk hAuthor (hKey ▸ hNe), h.lookup key hKey]

end LineraEndToEnd.Social
