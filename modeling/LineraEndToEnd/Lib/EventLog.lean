import Mathlib.Logic.Function.Basic
import Mathlib.Data.List.Infix
import LineraEndToEnd.Lib.Run

/-!
# Readers of append-only logs

There are logs, to which entries are only appended, and a reader, who keeps a
state and for every log the position up to which it has read. Reading the next
entry of a log applies the entry to the state; it is not possible where there
is no next entry, or where the entry cannot be applied.

* `Reader.read` — one entry; whole readings are runs (`Lib.run`) whose labels
  are the logs read from.
* `Reader.foldlM_readAt_iff` — a loop over a range of positions of one log is
  the reading of these entries one by one, so it does not matter how a reading
  is split into ranges.
* `Reader.seen` — the entries read so far: a prefix of each log.
* `Reader.run_invariant` — the invariant rule: what holds of the entries seen
  and the state, and is kept by every entry applied, holds after every reading.
* `Reader.run_progress` — the progress rule: where moreover every entry can be
  applied, a reading can go on to the end of the logs.
-/

namespace Lib

variable {K E S ε : Type*} [DecidableEq K]

/-- A reader: its position in every log, and its state. -/
structure Reader (K S : Type*) where
  position : K → ℕ
  state : S

namespace Reader

variable (log : K → List E) (apply : K → E → S → Except ε S)

/-- Read the next entry of the log `k`. -/
def read (r : Reader K S) (k : K) : Option (Reader K S) :=
  match (log k)[r.position k]? with
  | none => none
  | some e =>
    match apply k e r.state with
    | .error _ => none
    | .ok s => some ⟨Function.update r.position k (r.position k + 1), s⟩

/-- Apply the entry at a given position, which has to be there. -/
def readAt (missing : ε) (k : K) (s : S) (i : ℕ) : Except ε S :=
  match (log k)[i]? with
  | none => .error missing
  | some e => apply k e s

/-- The entries of the log `k` read so far. -/
def seen (r : Reader K S) (k : K) : List E :=
  (log k).take (r.position k)

variable {log apply} {r r' : Reader K S} {k : K}

theorem read_eq_some :
    read log apply r k = some r' ↔
      ∃ e s, (log k)[r.position k]? = some e ∧ apply k e r.state = .ok s ∧
        r' = ⟨Function.update r.position k (r.position k + 1), s⟩ := by
  unfold read
  cases hEntry : (log k)[r.position k]? with
  | none => simp
  | some e => cases hApply : apply k e r.state <;> simp [hApply, eq_comm]

omit [DecidableEq K] in
theorem readAt_eq_ok {missing : ε} {s s' : S} {i : ℕ} :
    readAt log apply missing k s i = .ok s' ↔
      ∃ e, (log k)[i]? = some e ∧ apply k e s = .ok s' := by
  unfold readAt
  cases hEntry : (log k)[i]? <;> simp

/-- **Batches.** The loop over `m` positions from the reader's position on is
the reading of `m` entries one by one. -/
theorem foldlM_readAt_iff (missing : ε) (r : Reader K S) (k : K) (m : ℕ) (s' : S) :
    (List.range' (r.position k) m).foldlM (readAt log apply missing k) r.state = .ok s' ↔
      run (read log apply) r (List.replicate m k) =
        some ⟨Function.update r.position k (r.position k + m), s'⟩ := by
  induction m generalizing r with
  | zero =>
    rw [List.replicate_zero, run_nil, Nat.add_zero, Function.update_eq_self, Option.some.injEq]
    constructor
    · intro h
      obtain rfl := Except.ok.inj h
      rfl
    · intro h
      exact congrArg Except.ok (congrArg Reader.state h)
  | succ m ih =>
    rw [List.range'_succ, List.foldlM_cons, List.replicate_succ, run_cons_eq_some]
    have hPosition : Function.update r.position k (r.position k + 1) k = r.position k + 1 :=
      Function.update_self ..
    -- the induction hypothesis, for the reader that has read the first entry
    have hLoop : ∀ s, (List.range' (r.position k + 1) m).foldlM (readAt log apply missing k) s =
        .ok s' ↔ run (read log apply) ⟨Function.update r.position k (r.position k + 1), s⟩
          (List.replicate m k) =
            some ⟨Function.update r.position k (r.position k + (m + 1)), s'⟩ := by
      intro s
      have hRest := ih ⟨Function.update r.position k (r.position k + 1), s⟩
      rw [show (⟨Function.update r.position k (r.position k + 1), s⟩ : Reader K S).position k =
        r.position k + 1 from hPosition] at hRest
      rw [hRest, Function.update_idem, Nat.add_assoc, Nat.add_comm 1]
    constructor
    · intro h
      cases hFirst : readAt log apply missing k r.state (r.position k) with
      | error err =>
        rw [hFirst] at h
        cases h
      | ok s =>
        obtain ⟨e, hEntry, hApply⟩ := readAt_eq_ok.mp hFirst
        rw [hFirst] at h
        exact ⟨_, read_eq_some.mpr ⟨e, s, hEntry, hApply, rfl⟩, (hLoop s).mp h⟩
    · rintro ⟨t, hFirst, hRest⟩
      obtain ⟨e, s, hEntry, hApply, rfl⟩ := read_eq_some.mp hFirst
      rw [readAt_eq_ok.mpr ⟨e, hEntry, hApply⟩]
      exact (hLoop s).mpr hRest

/-- A reading moves every position by the number of entries read there. -/
theorem position_run {ks : List K} (hRun : run (read log apply) r ks = some r') (k : K) :
    r'.position k = r.position k + ks.count k := by
  induction ks generalizing r with
  | nil =>
    obtain rfl := Option.some.inj hRun
    rfl
  | cons j ks ih =>
    obtain ⟨t, hFirst, hRest⟩ := run_cons_eq_some.mp hRun
    obtain ⟨e, s, -, -, rfl⟩ := read_eq_some.mp hFirst
    rw [ih hRest]
    show Function.update r.position j (r.position j + 1) k + ks.count k = _
    by_cases hk : k = j
    · subst hk
      rw [Function.update_self, List.count_cons_self]
      omega
    · rw [Function.update_of_ne hk, List.count_cons_of_ne (Ne.symm hk)]

/-- Reading an entry adds it to what is seen of its log. -/
theorem seen_read {e : E} {s : S} (hEntry : (log k)[r.position k]? = some e) :
    seen log ⟨Function.update r.position k (r.position k + 1), s⟩ =
      Function.update (seen log r) k (seen log r k ++ [e]) := by
  funext k'
  show (log k').take (Function.update r.position k (r.position k + 1) k') = _
  by_cases hk : k' = k
  · subst hk
    rw [Function.update_self, Function.update_self, List.take_add_one, hEntry]
    rfl
  · rw [Function.update_of_ne hk, Function.update_of_ne hk]
    rfl

omit [DecidableEq K] in
theorem concat_seen {e : E} (hEntry : (log k)[r.position k]? = some e) :
    seen log r k ++ [e] <+: log k := by
  have hTake : (log k).take (r.position k + 1) = seen log r k ++ [e] := by
    rw [List.take_add_one, hEntry]
    rfl
  exact hTake ▸ List.take_prefix _ _

/-- **Invariant rule for readers.** -/
theorem run_invariant {P : (K → List E) → S → Prop}
    (hApply : ∀ seen s k e s', P seen s → seen k ++ [e] <+: log k →
      apply k e s = .ok s' → P (Function.update seen k (seen k ++ [e])) s')
    {ks : List K} (hStart : P (seen log r) r.state)
    (hRun : run (read log apply) r ks = some r') : P (seen log r') r'.state := by
  refine Lib.run_invariant (P := fun r => P (seen log r) r.state) ?_ hStart hRun
  intro t k t' hP hRead
  obtain ⟨e, s, hEntry, hOk, rfl⟩ := read_eq_some.mp hRead
  show P (seen log _) s
  rw [seen_read hEntry]
  exact hApply _ _ k e s hP (concat_seen hEntry) hOk

/-- **Progress rule for readers.** If, as long as the positions stay within a
bound, every next entry can be applied and keeps the predicate, then so many
entries can be read. -/
theorem run_progress {P : (K → List E) → S → Prop} {bound : K → ℕ}
    (hBound : ∀ k, bound k ≤ (log k).length)
    (hApply : ∀ seen s k e, P seen s → seen k ++ [e] <+: log k → (seen k).length < bound k →
      ∃ s', apply k e s = .ok s' ∧ P (Function.update seen k (seen k ++ [e])) s')
    {ks : List K} (hStart : P (seen log r) r.state)
    (hFits : ∀ k, r.position k + ks.count k ≤ bound k) :
    ∃ r', run (read log apply) r ks = some r' := by
  induction ks generalizing r with
  | nil => exact ⟨r, rfl⟩
  | cons k ks ih =>
    have hHere : r.position k < bound k := by
      have hFit := hFits k
      rw [List.count_cons_self] at hFit
      omega
    have hLength : r.position k < (log k).length := Nat.lt_of_lt_of_le hHere (hBound k)
    have hEntry := List.getElem?_eq_getElem hLength
    have hSeen : (seen log r k).length = r.position k := by
      rw [seen, List.length_take, Nat.min_eq_left (Nat.le_of_lt hLength)]
    obtain ⟨s, hOk, hP⟩ := hApply _ _ k _ hStart (concat_seen hEntry) (hSeen ▸ hHere)
    rw [← seen_read hEntry] at hP
    -- the other readings fit for the reader that has read this entry
    have hOthers : ∀ j,
        Function.update r.position k (r.position k + 1) j + ks.count j ≤ bound j := by
      intro j
      have hFit := hFits j
      by_cases hj : j = k
      · subst hj
        rw [List.count_cons_self] at hFit
        rw [Function.update_self]
        omega
      · rw [List.count_cons_of_ne (Ne.symm hj)] at hFit
        rwa [Function.update_of_ne hj]
    obtain ⟨r', hRest⟩ := ih (r := ⟨Function.update r.position k (r.position k + 1), s⟩) hP hOthers
    exact ⟨r', run_cons_eq_some.mpr ⟨_, read_eq_some.mpr ⟨_, s, hEntry, hOk, rfl⟩, hRest⟩⟩

end Reader

end Lib
