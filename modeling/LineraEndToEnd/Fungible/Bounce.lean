import LineraEndToEnd.Fungible.Refinement

/-!
# Fungible — a rejected transfer leaves no trace

Two runs side by side: one in which a transfer to another chain is rejected and
its `Credit` comes back, and one in which the transfer never happened. Between
the transfer and the return of its `Credit`, the second network has the tokens
at their source where the first one has the message in flight; all the rest is
the same, and whatever the first network can do, the second one can.

* `Shadow s R` — that relation, with the messages `s` on one side and the
  tokens `R` on the other; kept by every step that leaves `s` in flight
  (`Shadow.step`).
* `not_consumed_before_reject` / `not_consumed_before_return` — transactions
  have different numbers, so nothing else takes the message of a transfer.
* `bounce_leaves_no_trace` — the two runs end with the same accounts on every
  chain and the same messages in flight.
-/

namespace LineraEndToEnd.Fungible

open Lib

variable {ChainId AccountOwner : Type} [DecidableEq ChainId] [DecidableEq AccountOwner]
  {n n' n₀ n₁ n₂ : Network ChainId AccountOwner} {M R : Marking ChainId AccountOwner}
  {a t : Action ChainId AccountOwner} {m e : Envelope ChainId AccountOwner}
  {s : Multiset (Envelope ChainId AccountOwner)}

-- ---------------------------------------------------------------------------
-- The messages of a run
-- ---------------------------------------------------------------------------

/-- The messages a run takes out of flight. -/
def consumedIn (as : List (Action ChainId AccountOwner)) :
    Multiset (Envelope ChainId AccountOwner) :=
  (as.map Action.consumed).sum

/-- The messages a run puts in flight. -/
noncomputable def sentIn (as : List (Action ChainId AccountOwner)) :
    Multiset (Envelope ChainId AccountOwner) :=
  (as.map Action.sent).sum

theorem run_inFlight {as : List (Action ChainId AccountOwner)} (hRun : n.run as = some n') :
    n'.inFlight + consumedIn as = n.inFlight + sentIn as := by
  induction as generalizing n with
  | nil =>
    obtain rfl := Option.some.inj hRun
    rfl
  | cons a as ih =>
    obtain ⟨n₁, hFirst, hRest⟩ := run_cons_eq_some.mp hRun
    have hStep := step_inFlight hFirst
    have hOthers := ih hRest
    unfold consumedIn sentIn at *
    rw [List.map_cons, List.map_cons, List.sum_cons, List.sum_cons]
    calc n'.inFlight + (a.consumed + (as.map Action.consumed).sum)
        = n'.inFlight + (as.map Action.consumed).sum + a.consumed := by abel
      _ = n₁.inFlight + a.consumed + (as.map Action.sent).sum := by rw [hOthers]; abel
      _ = n.inFlight + (a.sent + (as.map Action.sent).sum) := by rw [hStep]; abel

theorem permitted_of_run {as : List (Action ChainId AccountOwner)} (hRun : n.run as = some n') :
    ∀ a ∈ as, a.Permitted := by
  induction as generalizing n with
  | nil => simp
  | cons a as ih =>
    obtain ⟨n₁, hFirst, hRest⟩ := run_cons_eq_some.mp hRun
    intro b hb
    rcases List.mem_cons.mp hb with rfl | hb
    · exact Network.permitted_of_step hFirst
    · exact ih hRest b hb

omit [DecidableEq AccountOwner] in
/-- A message that is not bouncing was sent, alone, by the transaction whose
number it carries. -/
theorem sent_of_fresh (hSent : m ∈ a.sent) (hFresh : m.bouncing = false) :
    a.transaction = some m.id ∧ a.sent = {m} := by
  cases sends_of_mem hSent with
  | transfer signer amount target source hNumber hEnvelope hMove =>
    exact ⟨hNumber, by rw [Action.sent, hMove]; rfl⟩
  | claim signer caller source amount target hRemote hEnvelope =>
    refine ⟨rfl, ?_⟩
    simp only [Action.sent, Action.move, if_neg (Ne.symm hRemote), letters_snd]
    rw [← hEnvelope]
  | bounce e hTracked hEnvelope =>
    rw [hEnvelope] at hFresh
    cases hFresh

/-- Bouncing copies come from rejections: no more copies of a message are sent
than there are rejections of it. -/
theorem count_bounced_sent_le (hPermitted : a.Permitted) (hFresh : m.bouncing = false) :
    a.sent.count m.bounced ≤ a.consumed.count m := by
  by_cases hMem : m.bounced ∈ a.sent
  · cases sends_of_mem hMem with
    | transfer signer amount target source hNumber hEnvelope hMove =>
      cases congrArg Envelope.bouncing hEnvelope
    | claim signer caller source amount target hRemote hEnvelope =>
      cases congrArg Envelope.bouncing hEnvelope
    | bounce e hTracked hEnvelope =>
      -- neither `m` nor `e` is bouncing, so they agree in all fields
      have hSame : m = e := by
        cases m
        cases e
        simp_all [Envelope.bounced, Action.Permitted]
      rw [hSame]
      simp [Action.sent, Action.move, Action.consumed, hTracked]
  · rw [Multiset.count_eq_zero_of_notMem hMem]
    exact Nat.zero_le _

/-- Of one message that is not bouncing, a run sends at most as many as it has
transactions with its number. -/
theorem count_sentIn_le (hFresh : m.bouncing = false) (as : List (Action ChainId AccountOwner)) :
    (sentIn as).count m ≤ (as.filterMap Action.transaction).count m.id := by
  induction as with
  | nil => exact Nat.zero_le _
  | cons a as ih =>
    unfold sentIn at *
    rw [List.map_cons, List.sum_cons, Multiset.count_add]
    by_cases hMem : m ∈ a.sent
    · obtain ⟨hNumber, hSent⟩ := sent_of_fresh hMem hFresh
      rw [List.filterMap_cons_some hNumber, List.count_cons_self, hSent,
        Multiset.count_singleton_self]
      omega
    · have hTail : (as.filterMap Action.transaction).count m.id ≤
          ((a :: as).filterMap Action.transaction).count m.id :=
        ((List.sublist_cons_self a as).filterMap _).count_le _
      rw [Multiset.count_eq_zero_of_notMem hMem]
      omega

theorem count_bounced_sentIn_le (hFresh : m.bouncing = false) :
    ∀ {as : List (Action ChainId AccountOwner)}, (∀ a ∈ as, a.Permitted) →
      (sentIn as).count m.bounced ≤ (consumedIn as).count m
  | [], _ => Nat.zero_le _
  | a :: as, hPermitted => by
    have hFirst := count_bounced_sent_le (hPermitted a List.mem_cons_self) hFresh
    have hRest := count_bounced_sentIn_le hFresh fun b hb =>
      hPermitted b (List.mem_cons_of_mem a hb)
    unfold sentIn consumedIn at *
    rw [List.map_cons, List.map_cons, List.sum_cons, List.sum_cons, Multiset.count_add,
      Multiset.count_add]
    omega

omit [DecidableEq ChainId] [DecidableEq AccountOwner] in
theorem mem_consumedIn {as : List (Action ChainId AccountOwner)} (ha : a ∈ as)
    (hMem : e ∈ a.consumed) : e ∈ consumedIn as := by
  have hPart : a.consumed ∈ (↑(as.map Action.consumed) : Multiset (Multiset _)) :=
    Multiset.mem_coe.mpr (List.mem_map_of_mem ha)
  rw [consumedIn, ← Multiset.sum_coe]
  exact Multiset.mem_of_le (Multiset.le_sum_of_mem hPart) hMem

section
variable {as bs : List (Action ChainId AccountOwner)}

/-- While a message that is not bouncing is in flight, nothing has taken it. -/
theorem not_consumed_before_reject (hEmpty : n₀.inFlight = 0) (hRun : n₀.run as = some n)
    (hIds : (as.filterMap Action.transaction).Nodup) (hFresh : m.bouncing = false)
    (hMem : m ∈ n.inFlight) : ∀ a ∈ as, m ∉ a.consumed := by
  intro a ha hTaken
  have hBalance := congrArg (Multiset.count m) (run_inFlight hRun)
  have hSent := count_sentIn_le hFresh as
  have hOnce := List.nodup_iff_count_le_one.mp hIds m.id
  have hStill := Multiset.count_pos.mpr hMem
  have hGone := Multiset.count_pos.mpr (mem_consumedIn ha hTaken)
  rw [hEmpty, zero_add, Multiset.count_add] at hBalance
  omega

/-- While the bouncing copy of a message is in flight, nothing has taken it. -/
theorem not_consumed_before_return (hEmpty : n₀.inFlight = 0) (hRun : n₀.run as = some n)
    (hIds : (as.filterMap Action.transaction).Nodup) (hFresh : m.bouncing = false)
    (hMem : m.bounced ∈ n.inFlight) : ∀ a ∈ as, m.bounced ∉ a.consumed := by
  intro a ha hTaken
  have hBalance := congrArg (Multiset.count m) (run_inFlight hRun)
  have hBalance' := congrArg (Multiset.count m.bounced) (run_inFlight hRun)
  have hSent := count_sentIn_le hFresh as
  have hSent' := count_bounced_sentIn_le hFresh (permitted_of_run hRun)
  have hOnce := List.nodup_iff_count_le_one.mp hIds m.id
  have hStill := Multiset.count_pos.mpr hMem
  have hGone := Multiset.count_pos.mpr (mem_consumedIn ha hTaken)
  rw [hEmpty, zero_add, Multiset.count_add] at hBalance hBalance'
  omega

end

-- ---------------------------------------------------------------------------
-- Two networks side by side
-- ---------------------------------------------------------------------------

/-- The first network has the messages `s` in flight where the second one has
the tokens `R`; for the rest they hold the same. The second one has not spent
the allowance of the transfer that is missing there. -/
def Shadow (s : Multiset (Envelope ChainId AccountOwner)) (R : Marking ChainId AccountOwner)
    (n n' : Network ChainId AccountOwner) : Prop :=
  ∃ K, Sound n (K + letters s) ∧ Sound n' (K + R) ∧
    ∀ c p, (n.states c).alw p ≤ (n'.states c).alw p

omit [DecidableEq ChainId] in
theorem Action.allowanceAfter_mono [DecidableEq ChainId] (a : Action ChainId AccountOwner)
    (c : ChainId) (p : OwnerSpender AccountOwner) {x y : Nat} (h : x ≤ y) :
    a.allowanceAfter c p x ≤ a.allowanceAfter c p y := by
  unfold Action.allowanceAfter
  split
  · split
    · omega
    · exact h
  · split
    · omega
    · exact h
  · exact h

/-- What an action takes is in the rest, when it takes none of the messages `s`. -/
theorem take_le_rest {K : Marking ChainId AccountOwner}
    (hHeld : a.move.take ≤ K + letters s) (hKeeps : ∀ e ∈ s, e ∉ a.consumed) :
    a.move.take ≤ K := by
  refine ⟨?_, ?_⟩
  · have hTokens := hHeld.1
    rwa [Prod.fst_add, letters_fst, add_zero] at hTokens
  · have hMessages := hHeld.2
    rw [Prod.snd_add, letters_snd, a.move_take_snd] at hMessages
    rw [a.move_take_snd, Multiset.le_iff_count]
    intro e
    have hCount := Multiset.le_iff_count.mp hMessages e
    rw [Multiset.count_add] at hCount
    by_cases he : e ∈ s
    · rw [Multiset.count_eq_zero_of_notMem (hKeeps e he)]
      exact Nat.zero_le _
    · rwa [Multiset.count_eq_zero_of_notMem he, add_zero] at hCount

/-- **Simulation step.** What the first network does without taking one of the
messages `s`, the second one can do as well. -/
theorem Shadow.step (h : Shadow s R n n') (hKeeps : ∀ e ∈ s, e ∉ a.consumed)
    (hStep : n.step a = some n₁) : ∃ n₁', n'.step a = some n₁' ∧ Shadow s R n₁ n₁' := by
  obtain ⟨K, hS, hS', hAlw⟩ := h
  have hHeld : a.move.take ≤ K + letters s := hS.marks.holds_iff.mp (Network.holds_of_step hStep)
  obtain ⟨rest, rfl⟩ := exists_add_of_le (take_le_rest hHeld hKeeps)
  have hS₁ := hS.step_rest hStep (add_assoc ..)
  obtain ⟨n₁', hStep', hS₁'⟩ := hS'.exists_step (Network.permitted_of_step hStep)
    ((Network.allowed_of_step hStep).mono hAlw) (add_assoc ..)
  refine ⟨n₁', hStep', a.move.give + rest, ?_, ?_, fun c p => ?_⟩
  · rw [add_assoc]
    exact hS₁
  · rw [add_assoc]
    exact hS₁'
  · rw [step_alw hStep, step_alw hStep']
    exact a.allowanceAfter_mono c p (hAlw c p)

/-- **Simulation.** The same for whole runs. -/
theorem Shadow.run (h : Shadow s R n n') {as : List (Action ChainId AccountOwner)}
    (hKeeps : ∀ a ∈ as, ∀ e ∈ s, e ∉ a.consumed) (hRun : n.run as = some n₁) :
    ∃ n₁', n'.run as = some n₁' ∧ Shadow s R n₁ n₁' :=
  run_simulates (fun _ _ _ _ hShadow hKeeps hStep => hShadow.step hKeeps hStep) h hKeeps hRun

-- ---------------------------------------------------------------------------
-- The three steps that are missing
-- ---------------------------------------------------------------------------

/-- What takes the place of a transfer that is deleted: for the execution of a
`Withdraw`, its rejection. -/
def Action.undone : Action ChainId AccountOwner → List (Action ChainId AccountOwner)
  | .execute _ e => [.reject e]
  | _ => []

/-- An action that sends a message raises no allowance. -/
theorem allowanceAfter_le_of_sent (hSent : m ∈ a.sent) (c : ChainId)
    (p : OwnerSpender AccountOwner) (x : Nat) : a.allowanceAfter c p x ≤ x := by
  unfold Action.allowanceAfter
  split
  · exact absurd hSent (Multiset.notMem_zero m)
  · split
    · exact Nat.sub_le ..
    · exact Nat.le_refl x
  · exact Nat.le_refl x

/-- The rejection of a message that is not tracked takes it out of flight. -/
theorem Sound.drop {rest : Marking ChainId AccountOwner} (hS : Sound n (letters {e} + rest))
    (hFresh : e.bouncing = false) (hTracked : e.tracked = false) :
    ∃ n', n.step (.reject e) = some n' ∧ Sound n' rest ∧
      ∀ c p, (n'.states c).alw p = (n.states c).alw p := by
  have hMove : (Action.reject e).move = ⟨letters {e}, 0⟩ := by
    simp only [Action.move, hTracked]
    rfl
  obtain ⟨n', hStep, hS'⟩ := hS.exists_step (a := .reject e) (K := rest) hFresh trivial
    (by rw [hMove])
  rw [hMove, zero_add] at hS'
  exact ⟨n', hStep, hS', fun c p => step_alw hStep c p⟩

/-- The transfer itself: one network sends the message, the other one keeps the
tokens. -/
theorem Shadow.start (hS : Sound n M) (hStep : n.step t = some n₁) {target source : AccountOwner}
    {amount : Amount} (hSent : m ∈ t.sent) (hMessage : m.message = .credit target amount source)
    (hFresh : m.bouncing = false) :
    ∃ n', n.run t.undone = some n' ∧ Shadow {m} (tokens m.sender source amount) n₁ n' := by
  have hAlw : ∀ c p, (n₁.states c).alw p ≤ (n.states c).alw p := by
    intro c p
    rw [step_alw hStep]
    exact allowanceAfter_le_of_sent hSent c p _
  have hHeld : t.move.take ≤ M := hS.marks.holds_iff.mp (Network.holds_of_step hStep)
  obtain ⟨rest, rfl⟩ := exists_add_of_le hHeld
  have hS₁ := hS.step_rest hStep rfl
  cases sends_of_mem hSent with
  | claim signer caller source' amount' target' hRemote hEnvelope =>
    rw [hEnvelope] at hMessage
    cases hMessage
  | bounce e hTracked hEnvelope =>
    rw [hEnvelope] at hFresh
    cases hFresh
  | transfer signer amount' target' source' hNumber hEnvelope hMove =>
    have hCredit : m.message = .credit target'.owner amount' source' := by rw [hEnvelope]; rfl
    obtain ⟨-, rfl, rfl⟩ := (Message.credit.injEq ..).mp (hMessage.symm.trans hCredit)
    rw [hMove, add_comm] at hS₁
    rw [hMove] at hS hHeld
    rcases t with ⟨id, c, signer', caller, op⟩ | ⟨id, e⟩ | e
    · -- an operation is left out
      have hMarking : tokens m.sender source amount + letters (Action.consumed
          (.operation id c signer' caller op)) + rest = rest + tokens m.sender source amount := by
        rw [Action.consumed, add_comm]
        exact congrArg (rest + ·) (add_zero _)
      exact ⟨n, rfl, rest, hS₁, hMarking ▸ hS, hAlw⟩
    · -- the `Withdraw` is rejected instead, and dropped
      have hMem : e ∈ n.inFlight := by
        simpa [Action.consumed] using Network.consumed_le hStep
      have hReg : e.tracked = false ∧ e.bouncing = false := by
        have hReg := hS.wellFormed.regular e hMem
        unfold Envelope.Regular at hReg
        cases hMsg : e.message with
        | credit => simp [Action.sent, Action.move, hMsg] at hSent
        | withdraw => simpa [hMsg] using hReg
      have hMarking : tokens m.sender source amount + letters (Action.consumed (.execute id e)) +
          rest = letters {e} + (rest + tokens m.sender source amount) := by
        rw [Action.consumed]
        abel
      obtain ⟨n', hReject, hS', hSame⟩ := (hMarking ▸ hS).drop hReg.2 hReg.1
      refine ⟨n', (run_singleton ..).trans hReject, rest, hS₁, hS', fun c p => ?_⟩
      rw [hSame]
      exact hAlw c p
    · cases hNumber

/-- The rejection: the message turns into its bouncing copy. -/
theorem Shadow.reject (h : Shadow {m} R n n') (hTracked : m.tracked = true)
    (hStep : n.step (.reject m) = some n₁) : Shadow {m.bounced} R n₁ n' := by
  obtain ⟨K, hS, hS', hAlw⟩ := h
  have hMove : (Action.reject m).move = ⟨letters {m}, letters {m.bounced}⟩ := by
    simp [Action.move, hTracked]
  have hS₁ := hS.step_rest (K := K) hStep (by rw [hMove, add_comm])
  rw [hMove, add_comm] at hS₁
  refine ⟨K, hS₁, hS', fun c p => ?_⟩
  rw [step_alw hStep]
  exact hAlw c p

/-- The return: the tokens are where they would have been all along. -/
theorem Shadow.returned {target source : AccountOwner} {amount : Amount} {id : Nat}
    (hMessage : m.message = .credit target amount source)
    (h : Shadow {m.bounced} (tokens m.sender source amount) n n')
    (hStep : n.step (.execute id m.bounced) = some n₁) : Shadow 0 0 n₁ n' := by
  obtain ⟨K, hS, hS', hAlw⟩ := h
  have hMove : (Action.execute id m.bounced).move =
      ⟨letters {m.bounced}, tokens m.sender source amount⟩ := by
    have hCopy : m.bounced.message = .credit target amount source := hMessage
    simp only [Action.move, hCopy]
    rfl
  have hS₁ := hS.step_rest (K := K) hStep (by rw [hMove, add_comm])
  rw [hMove, add_comm] at hS₁
  refine ⟨K + tokens m.sender source amount, ?_, ?_, fun c p => ?_⟩
  · exact (add_zero (K + tokens m.sender source amount)).symm ▸ hS₁
  · rw [add_zero]
    exact hS'
  · rw [step_alw hStep]
    exact hAlw c p

-- ---------------------------------------------------------------------------
-- The two runs
-- ---------------------------------------------------------------------------

omit [DecidableEq AccountOwner] in
/-- Every `Credit` is tracked. -/
theorem tracked_of_sent {target source : AccountOwner} {amount : Amount} (hSent : m ∈ t.sent)
    (hMessage : m.message = .credit target amount source) : m.tracked = true := by
  cases sends_of_mem hSent with
  | transfer signer amount' target' source' hNumber hEnvelope hMove =>
    rw [hEnvelope]
    rfl
  | claim signer caller source' amount' target' hRemote hEnvelope =>
    rw [hEnvelope] at hMessage
    cases hMessage
  | bounce e hTracked hEnvelope =>
    rw [hEnvelope]
    exact hTracked

/-- The run with the rejected transfer and the run without it end as shadows of
one another, with nothing left between them. -/
theorem shadow_of_bounce {parameters : Parameters} {c₀ : ChainId}
    {state : InitialState AccountOwner} {pre mid mid' post : List (Action ChainId AccountOwner)}
    {id : Nat} {target source : AccountOwner} {amount : Amount}
    (hInit : Network.instantiate parameters c₀ state = .ok n₀)
    (hTotal : state.total ≤ Amount.MAX.val)
    (hRun : n₀.run (pre ++ t :: mid ++ .reject m :: mid' ++ .execute id m.bounced :: post) =
      some n)
    (hIds : ((pre ++ t :: mid ++ .reject m :: mid' ++ .execute id m.bounced :: post).filterMap
      Action.transaction).Nodup)
    (hSent : m ∈ t.sent) (hMessage : m.message = .credit target amount source)
    (hFresh : m.bouncing = false) :
    ∃ n', n₀.run (pre ++ t.undone ++ mid ++ mid' ++ post) = some n' ∧ Shadow 0 0 n n' := by
  obtain ⟨n₅, hRun₅, hLast⟩ := run_append_eq_some.mp hRun
  obtain ⟨n₃, hRun₃, hMiddle⟩ := run_append_eq_some.mp hRun₅
  obtain ⟨n₁, hPre, hFirst⟩ := run_append_eq_some.mp hRun₃
  obtain ⟨n₂, hTransfer, hMid⟩ := run_cons_eq_some.mp hFirst
  obtain ⟨n₄, hReject, hMid'⟩ := run_cons_eq_some.mp hMiddle
  obtain ⟨n₆, hReturn, hPost⟩ := run_cons_eq_some.mp hLast
  -- nothing else takes the message or its copy
  have hEmpty : n₀.inFlight = 0 := by
    obtain ⟨-, rfl⟩ := Network.instantiate_ok_iff.mp hInit
    rfl
  rw [List.filterMap_append] at hIds
  have hIds₅ := (List.nodup_append.mp hIds).1
  rw [List.filterMap_append] at hIds₅
  have hIds₃ := (List.nodup_append.mp hIds₅).1
  have hFlight : m ∈ n₃.inFlight := by
    simpa [Action.consumed] using Network.consumed_le hReject
  have hFlight' : m.bounced ∈ n₅.inFlight := by
    simpa [Action.consumed] using Network.consumed_le hReturn
  have hKeeps : ∀ a ∈ mid, ∀ e ∈ ({m} : Multiset _), e ∉ a.consumed := by
    intro a ha e he
    rw [Multiset.mem_singleton.mp he]
    exact not_consumed_before_reject hEmpty hRun₃ hIds₃ hFresh hFlight a (by simp [ha])
  have hKeeps' : ∀ a ∈ mid', ∀ e ∈ ({m.bounced} : Multiset _), e ∉ a.consumed := by
    intro a ha e he
    rw [Multiset.mem_singleton.mp he]
    refine not_consumed_before_return hEmpty hRun₅ ?_ hFresh hFlight' a (by simp [ha])
    rw [List.filterMap_append]
    exact hIds₅
  -- the second run, phase by phase
  obtain ⟨M, -, -, hS⟩ := (Sound.instantiate hInit hTotal).run hPre
  have hTracked := tracked_of_sent hSent hMessage
  obtain ⟨k₁, hRun₁', hShadow₁⟩ := Shadow.start hS hTransfer hSent hMessage hFresh
  obtain ⟨k₂, hRun₂', hShadow₂⟩ := hShadow₁.run hKeeps hMid
  obtain ⟨k₃, hRun₃', hShadow₃⟩ := (hShadow₂.reject hTracked hReject).run hKeeps' hMid'
  obtain ⟨n', hRun₄', hShadow₄⟩ := (hShadow₃.returned hMessage hReturn).run
    (fun a _ e he => absurd he (Multiset.notMem_zero e)) hPost
  have hTo₁ := run_append_eq_some.mpr ⟨n₁, hPre, hRun₁'⟩
  have hTo₂ := run_append_eq_some.mpr ⟨k₁, hTo₁, hRun₂'⟩
  have hTo₃ := run_append_eq_some.mpr ⟨k₂, hTo₂, hRun₃'⟩
  exact ⟨n', run_append_eq_some.mpr ⟨k₃, hTo₃, hRun₄'⟩, hShadow₄⟩

omit [DecidableEq ChainId] in
/-- Shadows with nothing between them hold the same accounts and messages. -/
theorem Shadow.agree (h : Shadow 0 0 n n') :
    (∀ c, (n'.states c).accounts = (n.states c).accounts) ∧ n'.inFlight = n.inFlight := by
  obtain ⟨K, hS, hS', -⟩ := h
  have hS₁ : Sound n K := (add_zero K) ▸ hS
  have hS₂ : Sound n' K := (add_zero K) ▸ hS'
  exact ⟨fun c => hS₂.accounts_eq hS₁ c, by rw [← hS₂.marks.inFlight, hS₁.marks.inFlight]⟩

/-- **A rejected transfer leaves no trace.** Take a run in which the action `t`
sends the credit `m` to another chain, `m` is rejected, and its bouncing copy is
executed. Without these three steps (a `Withdraw` which sent `m` is rejected
instead) the run is still possible, and ends with the same accounts on every
chain and the same messages in flight. -/
theorem bounce_leaves_no_trace {parameters : Parameters} {c₀ : ChainId}
    {state : InitialState AccountOwner} {pre mid mid' post : List (Action ChainId AccountOwner)}
    {id : Nat} {target source : AccountOwner} {amount : Amount}
    (hInit : Network.instantiate parameters c₀ state = .ok n₀)
    (hTotal : state.total ≤ Amount.MAX.val)
    (hRun : n₀.run (pre ++ t :: mid ++ .reject m :: mid' ++ .execute id m.bounced :: post) =
      some n)
    (hIds : ((pre ++ t :: mid ++ .reject m :: mid' ++ .execute id m.bounced :: post).filterMap
      Action.transaction).Nodup)
    (hSent : m ∈ t.sent) (hMessage : m.message = .credit target amount source)
    (hFresh : m.bouncing = false) :
    ∃ n', n₀.run (pre ++ t.undone ++ mid ++ mid' ++ post) = some n' ∧
      (∀ c, (n'.states c).accounts = (n.states c).accounts) ∧ n'.inFlight = n.inFlight := by
  obtain ⟨n', hRun', hShadow⟩ := shadow_of_bounce hInit hTotal hRun hIds hSent hMessage hFresh
  exact ⟨n', hRun', hShadow.agree⟩

/-- A transfer of 4 of the tokens that are left while `sampleCredit` is in flight. -/
def sampleBetween : Action Nat Nat :=
  .operation 1 0 (some 0) none (.transfer 0 (.fromAttos 4) ⟨0, 1⟩)

theorem bounce_leaves_no_trace_sample :
    ∃ n n', sampleNetwork.run [sampleTransfer, sampleBetween, .reject sampleCredit,
        .execute 2 sampleCredit.bounced] = some n ∧
      sampleNetwork.run [sampleBetween] = some n' ∧
      (∀ c, (n'.states c).accounts = (n.states c).accounts) ∧ n'.inFlight = n.inFlight := by
  have hRun : sampleNetwork.run ([] ++ sampleTransfer :: [sampleBetween] ++
      .reject sampleCredit :: [] ++ .execute 2 sampleCredit.bounced :: []) = some _ := rfl
  have hSent : sampleCredit ∈ sampleTransfer.sent := by
    simp [sampleCredit, sampleTransfer, Action.sent, Action.move, creditEnvelope]
  obtain ⟨n', hRun', hAccounts, hFlight⟩ :=
    bounce_leaves_no_trace instantiate_sampleState (by decide) hRun (by decide) hSent rfl rfl
  exact ⟨_, n', hRun, hRun', hAccounts, hFlight⟩

end LineraEndToEnd.Fungible
