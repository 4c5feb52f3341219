import Mathlib.Data.List.Perm.Basic

/-!
# Awaiting futures together

Futures that act on a shared state. Each acts at one moment, and the moments come in
any order; when all have completed, the results are handed out in the order of the
futures, whatever the order in which they came.

* `CompletionOrder n` — an order in which `n` futures complete, each of them once.
* `joinAll` — the state after all of them, and the results.
* `joinAll_fst` — the state is that of the futures one after another, as they completed.
* `joinAll_of_pure` — futures that only read give their results position by position.
-/

namespace Lib

/-- An order in which `n` futures complete, each of them once. -/
structure CompletionOrder (n : ℕ) where
  indices : List ℕ
  perm : indices.Perm (List.range n)

variable {S R : Type*} {n : ℕ}

/-- The future `i` acts on the state, and its result is put in its slot. -/
def complete (futures : List (S → S × R)) (w : S × List (Option R)) (i : ℕ) :
    S × List (Option R) :=
  match futures[i]? with
  | none => w
  | some future => ((future w.1).1, w.2.set i (some (future w.1).2))

/-- All futures, as they complete in an order. -/
def joinAll (futures : List (S → S × R)) (order : CompletionOrder n) (s : S) : S × List R :=
  let (s', slots) :=
    order.indices.foldl (complete futures) (s, List.replicate futures.length none)
  (s', slots.filterMap id)

/-- The futures in the order in which they complete. -/
def CompletionOrder.inOrder {α : Type*} (order : CompletionOrder n) (l : List α) : List α :=
  order.indices.filterMap fun i => l[i]?

theorem filterMap_getElem?_range {α : Type*} (l : List α) :
    (List.range l.length).filterMap (fun i => l[i]?) = l := by
  induction l with
  | nil => rfl
  | cons a l ih =>
    rw [List.length_cons, List.range_succ_eq_map, List.filterMap_cons, List.filterMap_map]
    exact congrArg (List.cons a) ih

theorem CompletionOrder.perm_inOrder {α : Type*} {l : List α} (order : CompletionOrder n)
    (hCount : l.length = n) : (order.inOrder l).Perm l := by
  subst hCount
  have hPerm := order.perm.filterMap fun i => l[i]?
  rwa [filterMap_getElem?_range] at hPerm

theorem CompletionOrder.inOrder_map {α β : Type*} (order : CompletionOrder n) (f : α → β)
    (l : List α) : order.inOrder (l.map f) = (order.inOrder l).map f := by
  unfold CompletionOrder.inOrder
  rw [List.map_filterMap]
  simp only [List.getElem?_map]

theorem foldl_complete_fst (futures : List (S → S × R)) (is : List ℕ)
    (w : S × List (Option R)) :
    (is.foldl (complete futures) w).1 =
      (is.filterMap fun i => futures[i]?).foldl (fun s future => (future s).1) w.1 := by
  induction is generalizing w with
  | nil => rfl
  | cons i is ih =>
    rw [List.foldl_cons, ih, List.filterMap_cons, complete]
    cases futures[i]? <;> rfl

/-- **States.** The futures have acted one after another, as they completed. -/
theorem joinAll_fst (futures : List (S → S × R)) (order : CompletionOrder n) (s : S) :
    (joinAll futures order s).1 =
      (order.inOrder futures).foldl (fun s future => (future s).1) s :=
  foldl_complete_fst ..

/-- Futures that only read fill the slots of those that have completed. -/
theorem foldl_complete_of_pure {futures : List (S → S × R)}
    (hPure : ∀ future ∈ futures, ∀ s, (future s).1 = s) (is : List ℕ) (s : S)
    {slots : List (Option R)} (hLength : slots.length = futures.length) :
    ∃ slots', is.foldl (complete futures) (s, slots) = (s, slots') ∧
      slots'.length = futures.length ∧
      ∀ j, slots'[j]? = if j ∈ is then futures[j]?.map (fun future => some (future s).2)
        else slots[j]? := by
  induction is generalizing slots with
  | nil => exact ⟨slots, rfl, hLength, fun j => by simp⟩
  | cons i is ih =>
    rw [List.foldl_cons]
    cases hFuture : futures[i]? with
    | none =>
      have hStep : complete futures (s, slots) i = (s, slots) := by simp only [complete, hFuture]
      have hOut : slots[i]? = none := by
        rw [List.getElem?_eq_none_iff, hLength]
        exact List.getElem?_eq_none_iff.mp hFuture
      obtain ⟨slots', hRest, hLength', hSlots⟩ := ih hLength
      refine ⟨slots', by rw [hStep, hRest], hLength', ?_⟩
      intro j
      rw [hSlots]
      by_cases hj : j = i
      · subst hj
        simp [hFuture, hOut]
      · simp [hj]
    | some future =>
      have hStep : complete futures (s, slots) i = (s, slots.set i (some (future s).2)) := by
        simp only [complete, hFuture, hPure future (List.mem_of_getElem? hFuture)]
      have hIn : i < slots.length := by
        rw [hLength]
        exact (List.getElem?_eq_some_iff.mp hFuture).1
      have hSet : (slots.set i (some (future s).2)).length = futures.length := by
        rw [List.length_set, hLength]
      obtain ⟨slots', hRest, hLength', hSlots⟩ := ih hSet
      refine ⟨slots', by rw [hStep, hRest], hLength', ?_⟩
      intro j
      rw [hSlots]
      by_cases hj : j = i
      · subst hj
        simp [hFuture, hIn]
      · simp [hj, List.getElem?_set_ne (Ne.symm hj)]

/-- **Results.** Futures that only read give what each of them reads, in their own
order. -/
theorem joinAll_of_pure {futures : List (S → S × R)} (order : CompletionOrder n)
    (hCount : futures.length = n) (hPure : ∀ future ∈ futures, ∀ s, (future s).1 = s) (s : S) :
    joinAll futures order s = (s, futures.map fun future => (future s).2) := by
  subst hCount
  obtain ⟨slots, hFold, -, hSlots⟩ :=
    foldl_complete_of_pure hPure order.indices s (List.length_replicate (a := (none : Option R)))
  have hFull : slots = futures.map fun future => some (future s).2 := by
    refine List.ext_getElem? ?_
    intro j
    rw [hSlots, List.getElem?_map]
    by_cases hj : j < futures.length
    · rw [if_pos (order.perm.mem_iff.mpr (List.mem_range.mpr hj))]
    · have hNot : j ∉ order.indices := fun h => hj (List.mem_range.mp (order.perm.mem_iff.mp h))
      have hNone : futures[j]? = none := List.getElem?_eq_none_iff.mpr (Nat.le_of_not_lt hj)
      rw [if_neg hNot, hNone]
      simpa using hj
  rw [joinAll, hFold, hFull]
  simp [List.filterMap_map]

end Lib
