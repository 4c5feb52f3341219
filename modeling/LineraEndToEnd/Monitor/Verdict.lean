import LineraEndToEnd.Monitor.Chains

/-!
# Monitor — the verdict

What the monitor calls healthy, said without loops and flags: no query failed, the
heights are close on every chain, the timestamps are recent, and no validator is behind
on more than half of the chains.

* `Healthy` — this specification.
* `Checked` — what a check does to the state: it finds an issue or not, and counts
  some lagging validators. One lemma for each check, then the loops.
* `healthy_iff` — the line is printed exactly when the specification holds, whatever
  the order of the chains and the validators.
-/

namespace LineraEndToEnd.Monitor

variable {ChainId : Type} {args : Args} {nowMicros : Nat} {validators : List String}
  {chain : Chain ChainId} {chains : List (Chain ChainId)} {m m₁ m' : State ChainId}
  {infos : List (String × ValidatorChainInfo)}

-- ---------------------------------------------------------------------------
-- The specification
-- ---------------------------------------------------------------------------

/-- What the validators reported about a chain. -/
def Chain.reports (chain : Chain ChainId) (validators : List String) :
    List (String × ValidatorChainInfo) :=
  validators.filterMap fun address => (chain.query address).toOption.map fun info => (address, info)

/-- The highest and the lowest height are close. -/
def Level (args : Args) (infos : List (String × ValidatorChainInfo)) : Prop :=
  ∀ p ∈ infos, ∀ q ∈ infos, p.2.blockHeight - q.2.blockHeight < args.bigDiffThreshold

/-- The timestamp is recent, or zero. -/
def Recent (args : Args) (nowMicros : Nat) (info : ValidatorChainInfo) : Prop :=
  info.timestampMicros ≠ 0 → (nowMicros - info.timestampMicros) / 1000000 ≤ args.staleSeconds

/-- The validator is strictly below the highest height. -/
def Behind (infos : List (String × ValidatorChainInfo)) (validator : String) : Prop :=
  ∃ p ∈ infos, p.1 = validator ∧ ∃ q ∈ infos, p.2.blockHeight < q.2.blockHeight

instance (args : Args) : DecidablePred (Level args) := fun infos =>
  inferInstanceAs (Decidable (∀ p ∈ infos, ∀ q ∈ infos, _))

instance (infos : List (String × ValidatorChainInfo)) : DecidablePred (Behind infos) :=
  fun validator => inferInstanceAs (Decidable (∃ p ∈ infos, p.1 = validator ∧ ∃ q ∈ infos, _))

/-- Nothing is wrong. -/
structure Healthy (args : Args) (nowMicros : Nat) (validators : List String)
    (chains : List (Chain ChainId)) : Prop where
  answered : ∀ c ∈ chains, ∀ v ∈ validators, ∃ info, c.query v = .ok info
  level : ∀ c ∈ chains, Level args (c.reports validators)
  recent : ∀ c ∈ chains, ∀ p ∈ c.reports validators, Recent args nowMicros p.2
  noLaggard : ∀ v ∈ validators,
    2 * chains.countP (fun c => Behind (c.reports validators) v) ≤ chains.length

theorem mem_reports {p : String × ValidatorChainInfo} :
    p ∈ chain.reports validators ↔ p.1 ∈ validators ∧ chain.query p.1 = .ok p.2 := by
  have hOk : ∀ address, (chain.query address).toOption = some p.2 ↔
      chain.query address = .ok p.2 := by
    intro address
    cases chain.query address <;> simp [Except.toOption]
  simp only [Chain.reports, List.mem_filterMap, Option.map_eq_some_iff]
  constructor
  · rintro ⟨address, hMem, info, hQuery, rfl⟩
    exact ⟨hMem, (hOk address).mp hQuery⟩
  · rintro ⟨hMem, hQuery⟩
    exact ⟨p.1, hMem, p.2, (hOk p.1).mpr hQuery, rfl⟩

-- ---------------------------------------------------------------------------
-- Checks
-- ---------------------------------------------------------------------------

/-- How often a validator was counted. -/
def State.count (m : State ChainId) (validator : String) : Nat :=
  (m.laggingValidators.lookup validator).getD 0

/-- A check finds an issue when something is flagged, counts the validators as often as
`lags` says, and leaves the verdict to the end. -/
structure Checked (flagged : Prop) (lags : String → Nat) (m m' : State ChainId) : Prop where
  issues : m'.issuesFound = true ↔ m.issuesFound = true ∨ flagged
  counts : ∀ v, m'.count v = m.count v + lags v
  quiet : .allChainsHealthy ∉ m.output → .allChainsHealthy ∉ m'.output

theorem Checked.refl (m : State ChainId) : Checked False (fun _ => 0) m m :=
  ⟨by simp, fun _ => rfl, id⟩

theorem Checked.trans {flagged flagged' : Prop} {lags lags' : String → Nat}
    (h : Checked flagged lags m m₁) (h' : Checked flagged' lags' m₁ m') :
    Checked (flagged ∨ flagged') (fun v => lags v + lags' v) m m' := by
  refine ⟨?_, ?_, ?_⟩
  · rw [h'.issues, h.issues, or_assoc]
  · intro v
    rw [h'.counts, h.counts, Nat.add_assoc]
  · exact fun hQuiet => h'.quiet (h.quiet hQuiet)

theorem Checked.congr {flagged flagged' : Prop} {lags lags' : String → Nat}
    (h : Checked flagged lags m m') (hFlagged : flagged ↔ flagged')
    (hLags : ∀ v, lags v = lags' v) : Checked flagged' lags' m m' :=
  ⟨h.issues.trans (or_congr_right hFlagged), fun v => (h.counts v).trans (by rw [hLags]), h.quiet⟩

theorem checked_issue {lines : List (Line ChainId)} (hLines : .allChainsHealthy ∉ lines) :
    Checked True (fun _ => 0) m (m.issue lines) := by
  refine ⟨by simp [State.issue], fun _ => rfl, ?_⟩
  intro hQuiet
  simp [State.issue, State.print, hQuiet, hLines]

theorem checked_print {lines : List (Line ChainId)} (hLines : .allChainsHealthy ∉ lines) :
    Checked False (fun _ => 0) m (m.print lines) := by
  refine ⟨by simp [State.print], fun _ => rfl, ?_⟩
  intro hQuiet
  simp [State.print, hQuiet, hLines]

/-- **A loop of checks.** -/
theorem checked_foldl {α : Type} {check : State ChainId → α → State ChainId} {flagged : α → Prop}
    {lags : α → String → Nat} (hCheck : ∀ m a, Checked (flagged a) (lags a) m (check m a))
    (l : List α) (m : State ChainId) :
    Checked (∃ a ∈ l, flagged a) (fun v => (l.map fun a => lags a v).sum) m (l.foldl check m) := by
  induction l generalizing m with
  | nil => exact (Checked.refl m).congr (by simp) (fun _ => rfl)
  | cons a l ih =>
    exact ((hCheck m a).trans (ih (check m a))).congr (by simp) (fun _ => by simp)

theorem checked_checkStale (args : Args) (nowMicros : Nat) (chain : ChainId) (m : State ChainId)
    (p : String × ValidatorChainInfo) :
    Checked (¬ Recent args nowMicros p.2) (fun _ => 0) m (checkStale args nowMicros chain m p) := by
  obtain ⟨addr, info⟩ := p
  unfold checkStale
  dsimp only
  split
  · next hZero => exact (Checked.refl m).congr (by simp [Recent, hZero]) (fun _ => rfl)
  · next hNonzero =>
    split
    · next hOld =>
      have hStale : ¬ Recent args nowMicros info := fun h => Nat.not_lt.mpr (h hNonzero) hOld
      exact (checked_issue (by simp)).congr (iff_of_true trivial hStale) (fun _ => rfl)
    · next hNew =>
      have hRecent : Recent args nowMicros info := fun _ => Nat.not_lt.mp hNew
      exact (Checked.refl m).congr (iff_of_false id (not_not_intro hRecent)) (fun _ => rfl)

/-! ### Heights -/

theorem maxHeight_spec (hInfos : infos ≠ []) :
    (∃ p ∈ infos, p.2.blockHeight = maxHeight infos) ∧
      ∀ p ∈ infos, p.2.blockHeight ≤ maxHeight infos := by
  obtain ⟨h, hMax⟩ : ∃ h, (infos.map fun p => p.2.blockHeight).max? = some h := by
    refine Option.isSome_iff_exists.mp ?_
    simpa using hInfos
  obtain ⟨hMem, hLe⟩ := List.max?_eq_some_iff.mp hMax
  have hEq : maxHeight infos = h := by rw [maxHeight, hMax, Option.getD_some]
  rw [hEq]
  exact ⟨List.mem_map.mp hMem, fun p hp => hLe _ (List.mem_map_of_mem hp)⟩

theorem minHeight_spec (hInfos : infos ≠ []) :
    (∃ p ∈ infos, p.2.blockHeight = minHeight infos) ∧
      ∀ p ∈ infos, minHeight infos ≤ p.2.blockHeight := by
  obtain ⟨h, hMin⟩ : ∃ h, (infos.map fun p => p.2.blockHeight).min? = some h := by
    refine Option.isSome_iff_exists.mp ?_
    simpa using hInfos
  obtain ⟨hMem, hLe⟩ := List.min?_eq_some_iff.mp hMin
  have hEq : minHeight infos = h := by rw [minHeight, hMin, Option.getD_some]
  rw [hEq]
  exact ⟨List.mem_map.mp hMem, fun p hp => hLe _ (List.mem_map_of_mem hp)⟩

theorem level_iff (hInfos : infos ≠ []) :
    Level args infos ↔ maxHeight infos - minHeight infos < args.bigDiffThreshold := by
  obtain ⟨⟨top, hTop, hMax⟩, hLeMax⟩ := maxHeight_spec hInfos
  obtain ⟨⟨bottom, hBottom, hMin⟩, hGeMin⟩ := minHeight_spec hInfos
  constructor
  · intro hLevel
    rw [← hMax, ← hMin]
    exact hLevel top hTop bottom hBottom
  · intro hDiff p hp q hq
    have hHigh := hLeMax p hp
    have hLow := hGeMin q hq
    omega

theorem lookup_increment (lagging : MapView String Nat) (key v : String) :
    ((increment lagging key).lookup v).getD 0 =
      (lagging.lookup v).getD 0 + if key = v then 1 else 0 := by
  unfold increment
  by_cases hKey : key = v
  · subst hKey
    rw [Finmap.lookup_insert, if_pos rfl, Option.getD_some]
  · rw [Finmap.lookup_insert_of_ne _ (Ne.symm hKey), if_neg hKey, Nat.add_zero]

/-- The loop that counts those below `top`. -/
theorem lookup_foldl_increment (top : Nat) (lagging : MapView String Nat) (v : String) :
    ((infos.foldl (fun lagging (addr, info) =>
        if info.blockHeight < top then increment lagging addr else lagging) lagging).lookup
          v).getD 0 =
      (lagging.lookup v).getD 0 + infos.countP fun p => p.1 = v ∧ p.2.blockHeight < top := by
  induction infos generalizing lagging with
  | nil => rfl
  | cons p infos ih =>
    obtain ⟨addr, info⟩ := p
    rw [List.foldl_cons, ih, List.countP_cons]
    dsimp only
    by_cases hBelow : info.blockHeight < top
    · rw [if_pos hBelow, lookup_increment]
      simp only [hBelow, and_true, decide_eq_true_eq]
      omega
    · rw [if_neg hBelow]
      simp [hBelow]

/-- Of different validators, one is counted at most once. -/
theorem countP_eq_ite_behind (hInfos : infos ≠ []) (hNodup : (infos.map Prod.fst).Nodup)
    (v : String) :
    infos.countP (fun p => p.1 = v ∧ p.2.blockHeight < maxHeight infos) =
      if Behind infos v then 1 else 0 := by
  obtain ⟨⟨top, hTop, hMax⟩, hLeMax⟩ := maxHeight_spec hInfos
  have hBehind : Behind infos v ↔
      0 < infos.countP fun p => p.1 = v ∧ p.2.blockHeight < maxHeight infos := by
    rw [List.countP_pos_iff]
    constructor
    · rintro ⟨p, hp, hName, q, hq, hLt⟩
      exact ⟨p, hp, decide_eq_true ⟨hName, Nat.lt_of_lt_of_le hLt (hLeMax q hq)⟩⟩
    · rintro ⟨p, hp, hLags⟩
      obtain ⟨hName, hLt⟩ := of_decide_eq_true hLags
      exact ⟨p, hp, hName, top, hTop, hMax ▸ hLt⟩
  have hOnce : infos.countP (fun p => p.1 = v ∧ p.2.blockHeight < maxHeight infos) ≤ 1 := by
    refine Nat.le_trans (List.countP_mono_left (q := fun p => p.1 == v) ?_) ?_
    · intro p _ hLags
      exact beq_iff_eq.mpr (of_decide_eq_true hLags).1
    · have hCount := List.nodup_iff_count_le_one.mp hNodup v
      rwa [List.count, List.countP_map] at hCount
  split
  · next h =>
    have hPos := hBehind.mp h
    omega
  · next h =>
    have hNot := mt hBehind.mpr h
    omega

theorem checked_checkHeights (args : Args) (hInfos : infos ≠ [])
    (hNodup : (infos.map Prod.fst).Nodup) (chain : ChainId) (m : State ChainId) :
    Checked (¬ Level args infos) (fun v => if Level args infos ∧ Behind infos v then 1 else 0) m
      (checkHeights args chain infos m) := by
  unfold checkHeights
  dsimp only
  split
  · next hBig =>
    have hNot : ¬ Level args infos := fun h => Nat.not_lt.mpr hBig ((level_iff hInfos).mp h)
    exact (checked_issue (by simp)).congr (iff_of_true trivial hNot) (fun _ => by simp [hNot])
  · next hSmall =>
    have hLevel : Level args infos := (level_iff hInfos).mpr (Nat.not_le.mp hSmall)
    split
    · refine ⟨by simp [hLevel], ?_, id⟩
      intro v
      rw [State.count, lookup_foldl_increment, countP_eq_ite_behind hInfos hNodup]
      simp [State.count, hLevel]
    · next hNone =>
      -- all heights are equal
      have hNot : ∀ v, ¬ Behind infos v := by
        rintro v ⟨p, hp, -, q, hq, hLt⟩
        have hLow := (minHeight_spec hInfos).2 p hp
        have hHigh := (maxHeight_spec hInfos).2 q hq
        omega
      exact (Checked.refl m).congr (by simp [hLevel]) (fun v => by simp [hNot])

/-! ### One chain -/

theorem foldl_queryValidator (chain : Chain ChainId) (validators : List String)
    (infos : List (String × ValidatorChainInfo)) (errors : List (String × String)) :
    let answers := validators.foldl (queryValidator chain) (infos, errors)
    answers.1 = infos ++ chain.reports validators ∧
      (answers.2 = [] ↔ errors = [] ∧ ∀ v ∈ validators, ∃ info, chain.query v = .ok info) := by
  induction validators generalizing infos errors with
  | nil => simp [Chain.reports]
  | cons address validators ih =>
    intro answers
    cases hQuery : chain.query address with
    | ok info =>
      have hAnswers : answers =
          validators.foldl (queryValidator chain) (infos ++ [(address, info)], errors) := by
        simp only [answers, List.foldl_cons, queryValidator, hQuery]
      rw [hAnswers, (ih _ _).1, (ih _ _).2]
      simp [Chain.reports, hQuery, Except.toOption]
    | error e =>
      have hAnswers : answers =
          validators.foldl (queryValidator chain) (infos, errors ++ [(address, e)]) := by
        simp only [answers, List.foldl_cons, queryValidator, hQuery]
      rw [hAnswers, (ih _ _).1, (ih _ _).2]
      simp [Chain.reports, hQuery, Except.toOption]

/-- The queries: who has answered, and whether all have. -/
theorem queryValidators_spec (validators : List String) (chain : Chain ChainId) :
    (queryValidators validators chain).1 = chain.reports validators ∧
      ((queryValidators validators chain).2 = [] ↔
        ∀ v ∈ validators, ∃ info, chain.query v = .ok info) := by
  unfold queryValidators
  simpa only [List.nil_append, true_and] using foldl_queryValidator chain validators [] []

theorem nodup_reports (hValidators : validators.Nodup) (chain : Chain ChainId) :
    ((chain.reports validators).map Prod.fst).Nodup := by
  rw [Chain.reports, List.map_filterMap]
  refine hValidators.filterMap ?_
  intro v w name hv hw
  simp only [Option.mem_def, Option.map_map, Option.map_eq_some_iff, Function.comp_apply] at hv hw
  obtain ⟨_, -, rfl⟩ := hv
  obtain ⟨_, -, rfl⟩ := hw
  rfl

/-- Something is wrong with a chain. -/
def Flagged (args : Args) (nowMicros : Nat) (validators : List String) (chain : Chain ChainId) :
    Prop :=
  (¬ ∀ v ∈ validators, ∃ info, chain.query v = .ok info) ∨
    ¬ Level args (chain.reports validators) ∨
    ∃ p ∈ chain.reports validators, ¬ Recent args nowMicros p.2

/-- A validator is behind on a chain whose heights are close. -/
def Lags (args : Args) (validators : List String) (chain : Chain ChainId) (v : String) : Prop :=
  Level args (chain.reports validators) ∧ Behind (chain.reports validators) v

instance (args : Args) (validators : List String) (chain : Chain ChainId) :
    DecidablePred (Lags args validators chain) := fun v =>
  inferInstanceAs (Decidable (Level args (chain.reports validators) ∧
    Behind (chain.reports validators) v))

/-- **One chain.** -/
theorem checked_checkChain (args : Args) (nowMicros : Nat) (hValidators : validators.Nodup)
    (m : State ChainId) (chain : Chain ChainId) :
    Checked (Flagged args nowMicros validators chain)
      (fun v => if Lags args validators chain v then 1 else 0) m
      (checkChain args nowMicros validators m chain) := by
  unfold checkChain
  obtain ⟨hReports, hAnswered⟩ := queryValidators_spec validators chain
  generalize queryValidators validators chain = answers at hReports hAnswered ⊢
  obtain ⟨infos, errors⟩ := answers
  obtain rfl : infos = chain.reports validators := hReports
  rw [← List.isEmpty_iff] at hAnswered
  dsimp only at hAnswered ⊢
  have hFirst : Checked (¬ ∀ v ∈ validators, ∃ info, chain.query v = .ok info) (fun _ => 0) m
      (reportErrors chain.id errors m) := by
    unfold reportErrors
    split
    · next h =>
      exact (Checked.refl m).congr (iff_of_false id (not_not_intro (hAnswered.mp h)))
        (fun _ => rfl)
    · next h =>
      exact (checked_issue (by simp)).congr (iff_of_true trivial (mt hAnswered.mpr h))
        (fun _ => rfl)
  split
  · next hEmpty =>
    -- nobody reported a height or a timestamp
    have hNone : chain.reports validators = [] := List.isEmpty_iff.mp hEmpty
    exact hFirst.congr (by simp [Flagged, hNone, Level])
      (fun v => by simp [Lags, hNone, Behind])
  · next hSome =>
    have hInfos : chain.reports validators ≠ [] := mt List.isEmpty_iff.mpr hSome
    have hHeights := hFirst.trans
      (checked_checkHeights args hInfos (nodup_reports hValidators chain) chain.id _)
    have hStale :=
      checked_foldl (checked_checkStale args nowMicros chain.id) (chain.reports validators)
    have hNoLags : ((chain.reports validators).map fun _ => 0).sum = 0 := by simp
    refine (hHeights.trans (hStale _)).congr (by rw [Flagged, or_assoc]) ?_
    intro v
    rw [hNoLags, Nat.zero_add, Nat.add_zero]
    rfl

-- ---------------------------------------------------------------------------
-- The verdict
-- ---------------------------------------------------------------------------

theorem mem_entries {lagging : MapView String Nat} {v : String} {count : Nat} :
    (v, count) ∈ entries lagging ↔ lagging.lookup v = some count := by
  simp only [entries, List.mem_filterMap, Finset.mem_sort, Option.map_eq_some_iff]
  constructor
  · rintro ⟨key, -, n, hLookup, hPair⟩
    obtain ⟨rfl, rfl⟩ := Prod.mk.inj hPair
    exact hLookup
  · intro hLookup
    refine ⟨v, ?_, count, hLookup, rfl⟩
    rw [Finmap.mem_keys, ← Finmap.lookup_isSome, hLookup]
    rfl

/-- A count is large when the entry of its validator is. -/
theorem exists_entry_iff (m : State ChainId) (bound : Nat) :
    (∃ p ∈ entries m.laggingValidators, bound < p.2) ↔ ∃ v, bound < m.count v := by
  constructor
  · rintro ⟨⟨v, count⟩, hMem, hLarge⟩
    refine ⟨v, ?_⟩
    rw [State.count, mem_entries.mp hMem]
    exact hLarge
  · rintro ⟨v, hLarge⟩
    cases hLookup : m.laggingValidators.lookup v with
    | none =>
      rw [State.count, hLookup] at hLarge
      exact absurd hLarge (Nat.not_lt_zero bound)
    | some count =>
      rw [State.count, hLookup] at hLarge
      exact ⟨(v, count), mem_entries.mpr hLookup, hLarge⟩

theorem checked_reportLag (totalChains : Nat) (m : State ChainId) :
    Checked (∃ v, totalChains / 2 < m.count v) (fun _ => 0) m (reportLag totalChains m) := by
  have hNoLags : ((entries m.laggingValidators).map fun _ => 0).sum = 0 := by simp
  unfold reportLag
  split
  · next hEmpty =>
    have hNone : ¬ ∃ v, totalChains / 2 < m.count v := by
      rw [← exists_entry_iff, List.isEmpty_iff.mp hEmpty]
      simp
    exact (Checked.refl m).congr (iff_of_false id hNone) (fun _ => rfl)
  · have hEntry : ∀ (m : State ChainId) (p : String × Nat),
        Checked (totalChains / 2 < p.2) (fun _ => 0) m
          (if p.2 > totalChains / 2 then m.issue [.behind p.1 p.2 totalChains]
            else m.print [.behind p.1 p.2 totalChains]) := by
      intro m p
      split
      · next hLarge => exact (checked_issue (by simp)).congr (by simp [hLarge]) (fun _ => rfl)
      · next hSmall => exact (checked_print (by simp)).congr (by simp [hSmall]) (fun _ => rfl)
    have hHead : Checked False (fun _ => 0) m (m.print [.blank, .recurringLag]) :=
      checked_print (by simp)
    have hAll := checked_foldl hEntry (entries m.laggingValidators)
      (m.print [.blank, .recurringLag])
    have hLast : ∀ m : State ChainId, Checked False (fun _ => 0) m (m.print [.blank]) :=
      fun _ => checked_print (by simp)
    refine ((hHead.trans hAll).trans (hLast _)).congr ?_ ?_
    · rw [false_or, or_false]
      exact exists_entry_iff m _
    · intro v
      rw [hNoLags]

/-- The counts of a list, chain by chain. -/
theorem sum_map_ite (P : Chain ChainId → Prop) [DecidablePred P] (chains : List (Chain ChainId)) :
    (chains.map fun c => if P c then 1 else 0).sum = chains.countP P := by
  induction chains with
  | nil => rfl
  | cons c chains ih =>
    rw [List.map_cons, List.sum_cons, ih, List.countP_cons, Nat.add_comm]
    simp only [decide_eq_true_eq]

/-- The line is printed when no chain is flagged and no count is large. -/
theorem mem_monitorChains_iff (hValidators : validators.Nodup) (hChains : chains ≠ []) :
    .allChainsHealthy ∈ monitorChains args nowMicros validators chains ↔
      (∀ c ∈ chains, ¬ Flagged args nowMicros validators c) ∧
        ∀ v, 2 * chains.countP (fun c => Lags args validators c v) ≤ chains.length := by
  have hEmpty : chains.isEmpty = false := List.isEmpty_eq_false_iff.mpr hChains
  unfold monitorChains
  rw [hEmpty, if_neg Bool.false_ne_true]
  dsimp only
  generalize hStart : ({ laggingValidators := ∅, issuesFound := false, output := _ } :
    State ChainId) = start
  have hNew : start.issuesFound = false ∧ (∀ v, start.count v = 0) ∧
      .allChainsHealthy ∉ start.output := by
    subst hStart
    exact ⟨rfl, fun _ => rfl, by simp⟩
  have hLoop := checked_foldl (checked_checkChain args nowMicros hValidators) chains start
  have hEnd := hLoop.trans (checked_reportLag chains.length _)
  have hCount : ∀ v, (chains.foldl (checkChain args nowMicros validators) start).count v =
      chains.countP fun c => Lags args validators c v := by
    intro v
    rw [hLoop.counts, hNew.2.1, Nat.zero_add]
    exact sum_map_ite (fun c => Lags args validators c v) chains
  have hIssues := hEnd.issues
  simp only [hNew.1, hCount, Bool.false_eq_true, false_or] at hIssues
  have hQuiet := hEnd.quiet hNew.2.2
  have hVerdict : (reportLag chains.length
      (chains.foldl (checkChain args nowMicros validators) start)).issuesFound = false ↔
      (∀ c ∈ chains, ¬ Flagged args nowMicros validators c) ∧
        ∀ v, 2 * chains.countP (fun c => Lags args validators c v) ≤ chains.length := by
    rw [← Bool.not_eq_true, hIssues, not_or]
    simp only [not_exists, not_and]
    refine and_congr Iff.rfl (forall_congr' ?_)
    intro v
    omega
  rw [← hVerdict]
  split
  · next hFound => simp [hQuiet, hFound]
  · next hFound => simp [hFound]

theorem not_flagged_iff {c : Chain ChainId} :
    ¬ Flagged args nowMicros validators c ↔
      (∀ v ∈ validators, ∃ info, c.query v = .ok info) ∧ Level args (c.reports validators) ∧
        ∀ p ∈ c.reports validators, Recent args nowMicros p.2 := by
  simp only [Flagged, not_or, not_not, not_exists, not_and]

theorem healthy_iff_not_flagged :
    Healthy args nowMicros validators chains ↔
      (∀ c ∈ chains, ¬ Flagged args nowMicros validators c) ∧
        ∀ v, 2 * chains.countP (fun c => Lags args validators c v) ≤ chains.length := by
  -- on chains whose heights are close, lagging is being behind
  have hSame : (∀ c ∈ chains, Level args (c.reports validators)) → ∀ v,
      chains.countP (fun c => Lags args validators c v) =
        chains.countP fun c => Behind (c.reports validators) v := by
    intro hLevel v
    refine List.countP_congr ?_
    intro c hc
    simp [Lags, hLevel c hc]
  constructor
  · intro h
    refine ⟨fun c hc => not_flagged_iff.mpr ⟨h.answered c hc, h.level c hc, h.recent c hc⟩, ?_⟩
    intro v
    rw [hSame h.level]
    by_cases hv : v ∈ validators
    · exact h.noLaggard v hv
    · have hNone : chains.countP (fun c => Behind (c.reports validators) v) = 0 := by
        refine List.countP_eq_zero.mpr ?_
        intro c _
        rw [decide_eq_true_eq]
        rintro ⟨p, hp, rfl, -⟩
        exact hv (mem_reports.mp hp).1
      omega
  · rintro ⟨hFlags, hLags⟩
    have hClear := fun c hc => not_flagged_iff.mp (hFlags c hc)
    refine ⟨fun c hc => (hClear c hc).1, fun c hc => (hClear c hc).2.1,
      fun c hc => (hClear c hc).2.2, ?_⟩
    intro v _
    rw [← hSame fun c hc => (hClear c hc).2.1]
    exact hLags v

/-- The specification does not look at the order of the chains and the validators. -/
theorem Healthy.perm {validators' : List String} {chains' : List (Chain ChainId)}
    (h : Healthy args nowMicros validators chains) (hValidators : validators'.Perm validators)
    (hChains : chains'.Perm chains) : Healthy args nowMicros validators' chains' := by
  have hReports : ∀ (c : Chain ChainId) p,
      p ∈ c.reports validators' ↔ p ∈ c.reports validators := by
    intro c p
    rw [mem_reports, mem_reports, hValidators.mem_iff]
  refine ⟨?_, ?_, ?_, ?_⟩
  · intro c hc v hv
    exact h.answered c (hChains.mem_iff.mp hc) v (hValidators.mem_iff.mp hv)
  · intro c hc p hp q hq
    exact h.level c (hChains.mem_iff.mp hc) p ((hReports c p).mp hp) q ((hReports c q).mp hq)
  · intro c hc p hp
    exact h.recent c (hChains.mem_iff.mp hc) p ((hReports c p).mp hp)
  · intro v hv
    have hBehind : ∀ c : Chain ChainId,
        Behind (c.reports validators') v ↔ Behind (c.reports validators) v := by
      intro c
      simp only [Behind, hReports]
    simp only [hBehind, hChains.countP_eq, hChains.length_eq]
    exact h.noLaggard v (hValidators.mem_iff.mp hv)

/-- **The verdict is exact.** For every list of chains that is not empty, every outcome
of every query, and all arguments, the monitor says that all chains are healthy if and
only if they are; so it says the same in every order of the chains and the
validators. -/
theorem healthy_iff (hValidators : validators.Nodup) (hChains : chains ≠ []) :
    (.allChainsHealthy ∈ monitorChains args nowMicros validators chains ↔
      Healthy args nowMicros validators chains) ∧
    ∀ validators' chains', validators'.Perm validators → chains'.Perm chains →
      (.allChainsHealthy ∈ monitorChains args nowMicros validators' chains' ↔
        .allChainsHealthy ∈ monitorChains args nowMicros validators chains) := by
  have hVerdict : ∀ (validators : List String) (chains : List (Chain ChainId)),
      validators.Nodup → chains ≠ [] →
      (.allChainsHealthy ∈ monitorChains args nowMicros validators chains ↔
        Healthy args nowMicros validators chains) := by
    intro validators chains hValidators hChains
    rw [mem_monitorChains_iff hValidators hChains, healthy_iff_not_flagged]
  refine ⟨hVerdict validators chains hValidators hChains, ?_⟩
  intro validators' chains' hPerm hPerm'
  have hChains' : chains' ≠ [] := by
    rintro rfl
    exact hChains hPerm'.nil_eq.symm
  rw [hVerdict validators' chains' (hPerm.nodup_iff.mpr hValidators) hChains',
    hVerdict validators chains hValidators hChains]
  exact ⟨fun h => h.perm hPerm.symm hPerm'.symm, fun h => h.perm hPerm hPerm'⟩

/-- The first validator is a block behind on one of two chains; the other chain is
new. -/
def sampleChains : List (Chain Nat) :=
  [{ id := 1
     query := fun address =>
      if address = "grpcs:validator-1.testnet-conway.linera.net:443" then .ok ⟨9, 1000000000⟩
      else .ok ⟨10, 1000000000⟩ },
    { id := 2, query := fun _ => .ok ⟨0, 0⟩ }]

theorem healthy_iff_sample :
    .allChainsHealthy ∈ monitorChains ⟨5, 300⟩ 1200000000 VALIDATORS sampleChains := by
  refine (healthy_iff (by decide) (by simp [sampleChains])).1.mpr ⟨?_, ?_, ?_, ?_⟩
  · intro c hc v _
    simp only [sampleChains, List.mem_cons, List.not_mem_nil, or_false] at hc
    rcases hc with rfl | rfl
    · dsimp only
      split
      · exact ⟨_, rfl⟩
      · exact ⟨_, rfl⟩
    · exact ⟨_, rfl⟩
  · decide
  · unfold Recent
    decide
  · decide

end LineraEndToEnd.Monitor
