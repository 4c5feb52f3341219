import LineraEndToEnd.Counter.Contract

/-!
# Counter — what is persisted

The value in memory and the value in the storage drift apart with every increment
that is not saved, and meet again at the next one that is. All that matters of a
transaction is the last increment it saves.

* `total` — the increments of some operations, saved or not, modulo `2 ^ 64`.
* `executeOperation_get` and its companions — what one operation does to the value in
  memory, to the storage, and what it returns.
* `persistence` — whole transactions, after any history.
-/

namespace LineraEndToEnd.Counter

/-- What an operation adds to the value. -/
def CounterOperation.amount : CounterOperation → UInt64
  | .increment value _ => value
  | .query => 0

/-- The operation saves the state. -/
def CounterOperation.saves : CounterOperation → Bool
  | .increment _ doSave => doSave
  | .query => false

/-- What some operations add to the value. -/
def total (ops : List CounterOperation) : UInt64 := (ops.map CounterOperation.amount).sum

/-- The value in the storage. -/
def persisted (storage : Storage) : UInt64 := storage.getD 0

variable {c : CounterContract} {storage : Storage} {op : CounterOperation}
  {ops before after : List CounterOperation}

@[simp] theorem total_nil : total [] = 0 := rfl

@[simp] theorem total_cons (op : CounterOperation) (ops : List CounterOperation) :
    total (op :: ops) = op.amount + total ops := by
  simp [total]

theorem total_append (before after : List CounterOperation) :
    total (before ++ after) = total before + total after := by
  simp [total]

/-- The value in memory. -/
def CounterContract.get (c : CounterContract) : UInt64 := c.state.value.get

theorem get_load (storage : Storage) : (CounterContract.load storage).get = persisted storage :=
  rfl

-- ---------------------------------------------------------------------------
-- Operations
-- ---------------------------------------------------------------------------

theorem executeOperation_get (c : CounterContract) (storage : Storage) (op : CounterOperation) :
    (executeOperation c storage op).1.get = c.get + op.amount := by
  cases op with
  | query => simp [executeOperation, CounterOperation.amount]
  | increment value doSave => cases doSave <;> rfl

theorem executeOperation_storage (c : CounterContract) (storage : Storage)
    (op : CounterOperation) :
    (executeOperation c storage op).2.1 =
      if op.saves then some (c.get + op.amount) else storage := by
  cases op with
  | query => rfl
  | increment value doSave => cases doSave <;> rfl

theorem executeOperation_value (c : CounterContract) (storage : Storage) (op : CounterOperation) :
    (executeOperation c storage op).2.2 = c.get + op.amount := by
  cases op with
  | query => simp [executeOperation, CounterOperation.amount, CounterContract.get]
  | increment value doSave => cases doSave <;> rfl

theorem executeOperations_cons (c : CounterContract) (storage : Storage) (op : CounterOperation)
    (ops : List CounterOperation) :
    executeOperations c storage (op :: ops) =
      let first := executeOperation c storage op
      let rest := executeOperations first.1 first.2.1 ops
      (rest.1, rest.2.1, first.2.2 :: rest.2.2) := rfl

theorem executeOperations_get (c : CounterContract) (storage : Storage)
    (ops : List CounterOperation) :
    (executeOperations c storage ops).1.get = c.get + total ops := by
  induction ops generalizing c storage with
  | nil => simp [executeOperations]
  | cons op ops ih =>
    rw [executeOperations_cons]
    show (executeOperations _ _ ops).1.get = _
    rw [ih, executeOperation_get, total_cons, UInt64.add_assoc]

/-- The responses: the value so far. -/
theorem executeOperations_values (c : CounterContract) (storage : Storage)
    (ops : List CounterOperation) :
    (executeOperations c storage ops).2.2.length = ops.length ∧
      ∀ i < ops.length, (executeOperations c storage ops).2.2[i]? =
        some (c.get + total (ops.take (i + 1))) := by
  induction ops generalizing c storage with
  | nil => exact ⟨rfl, fun i hi => absurd hi (Nat.not_lt_zero i)⟩
  | cons op ops ih =>
    obtain ⟨hLength, hValues⟩ :=
      ih (executeOperation c storage op).1 (executeOperation c storage op).2.1
    rw [executeOperations_cons]
    refine ⟨congrArg (· + 1) hLength, ?_⟩
    intro i hi
    cases i with
    | zero =>
      rw [List.getElem?_cons_zero, executeOperation_value]
      simp
    | succ i =>
      rw [List.getElem?_cons_succ, hValues i (Nat.lt_of_succ_lt_succ hi), executeOperation_get,
        List.take_succ_cons, total_cons, UInt64.add_assoc]

theorem executeOperations_append (c : CounterContract) (storage : Storage)
    (before after : List CounterOperation) :
    (executeOperations c storage (before ++ after)).2.1 =
      (executeOperations (executeOperations c storage before).1
        (executeOperations c storage before).2.1 after).2.1 := by
  induction before generalizing c storage with
  | nil => rfl
  | cons op before ih =>
    rw [List.cons_append, executeOperations_cons, executeOperations_cons]
    exact ih ..

/-- Without a save the storage stays as it is. -/
theorem executeOperations_unsaved (hNone : ∀ op ∈ ops, op.saves = false) :
    (executeOperations c storage ops).2.1 = storage := by
  induction ops generalizing c storage with
  | nil => rfl
  | cons op ops ih =>
    rw [executeOperations_cons]
    show (executeOperations _ _ ops).2.1 = _
    rw [ih fun o ho => hNone o (List.mem_cons_of_mem op ho), executeOperation_storage,
      hNone op List.mem_cons_self]
    rfl

/-- **The last save** writes all increments up to it. -/
theorem executeOperations_saved (hSaves : op.saves = true)
    (hLast : ∀ o ∈ after, o.saves = false) :
    (executeOperations c storage (before ++ op :: after)).2.1 =
      some (c.get + total (before ++ [op])) := by
  rw [executeOperations_append, executeOperations_cons]
  show (executeOperations _ _ after).2.1 = _
  rw [executeOperations_unsaved hLast, executeOperation_storage, if_pos hSaves,
    executeOperations_get, total_append, total_cons, total_nil, UInt64.add_zero, UInt64.add_assoc]

/-- Operations with a save in them have a last one. -/
theorem exists_last_save (hSome : ∃ op ∈ ops, op.saves = true) :
    ∃ before op after, ops = before ++ op :: after ∧ op.saves = true ∧
      ∀ o ∈ after, o.saves = false := by
  induction ops with
  | nil => simp at hSome
  | cons op ops ih =>
    by_cases hLater : ∃ o ∈ ops, o.saves = true
    · obtain ⟨before, o, after, rfl, hSaves, hLast⟩ := ih hLater
      exact ⟨op :: before, o, after, rfl, hSaves, hLast⟩
    · have hNone : ∀ o ∈ ops, o.saves = false := by simpa using hLater
      obtain ⟨o, ho, hSaves⟩ := hSome
      rcases List.mem_cons.mp ho with rfl | ho
      · exact ⟨[], o, ops, rfl, hSaves, hNone⟩
      · exact absurd ⟨o, ho, hSaves⟩ hLater

-- ---------------------------------------------------------------------------
-- Transactions
-- ---------------------------------------------------------------------------

/-- The service returns the persisted value. -/
theorem handleQuery_query {ChainId : Type} [DecidableEq ChainId] (chain : ChainId)
    (storage : Storage) :
    handleQuery ⟨chain, chain⟩ storage .query = .ok (persisted storage, []) :=
  if_neg (not_not_intro rfl)

theorem transaction_eq (storage : Storage) (ops : List CounterOperation) :
    transaction storage ops = ((executeOperations (.load storage) storage ops).2.1,
      (executeOperations (.load storage) storage ops).2.2) := rfl

/-- A transaction leaves the storage empty when it was and nothing is saved. -/
theorem transaction_eq_none_iff :
    (transaction storage ops).1 = none ↔ storage = none ∧ ∀ op ∈ ops, op.saves = false := by
  rw [transaction_eq]
  by_cases hSome : ∃ op ∈ ops, op.saves = true
  · obtain ⟨before, op, after, rfl, hSaves, hLast⟩ := exists_last_save hSome
    rw [executeOperations_saved hSaves hLast]
    refine iff_of_false (fun h => nomatch h) ?_
    rintro ⟨-, hNone⟩
    have hNot := hNone op (by simp)
    rw [hSaves] at hNot
    cases hNot
  · have hNone : ∀ op ∈ ops, op.saves = false := by simpa using hSome
    rw [executeOperations_unsaved hNone]
    exact ⟨fun h => ⟨h, hNone⟩, fun h => h.1⟩

/-- The storage is empty until something is saved. -/
theorem history_eq_none_iff {txs : List (List CounterOperation)} :
    history storage txs = none ↔
      storage = none ∧ ∀ ops ∈ txs, ∀ op ∈ ops, op.saves = false := by
  induction txs generalizing storage with
  | nil => simp [history]
  | cons ops txs ih =>
    show history (transaction storage ops).1 txs = none ↔ _
    rw [ih, transaction_eq_none_iff, List.forall_mem_cons, and_assoc]

/-- **What the counter persists.** After any transactions, the next one returns for
each operation the persisted value plus the increments so far; it leaves in the
storage, and so to the service, the persisted value plus all increments up to the
last one that saves, and what it was if none does. The storage is empty as long as
nothing was saved. -/
theorem persistence {ChainId : Type} [DecidableEq ChainId]
    (txs : List (List CounterOperation)) (ops : List CounterOperation) (chain : ChainId) :
    let storage := history none txs
    (transaction storage ops).2.length = ops.length ∧
    (∀ i < ops.length, (transaction storage ops).2[i]? =
      some (persisted storage + total (ops.take (i + 1)))) ∧
    handleQuery ⟨chain, chain⟩ storage .query = .ok (persisted storage, []) ∧
    (∀ before op after, ops = before ++ op :: after → op.saves = true →
      (∀ o ∈ after, o.saves = false) → handleQuery ⟨chain, chain⟩ (transaction storage ops).1
        .query = .ok (persisted storage + total (before ++ [op]), [])) ∧
    ((∀ op ∈ ops, op.saves = false) → handleQuery ⟨chain, chain⟩ (transaction storage ops).1
      .query = .ok (persisted storage, [])) ∧
    (hasEmptyStorage storage = true ↔ ∀ tx ∈ txs, ∀ op ∈ tx, op.saves = false) := by
  intro storage
  obtain ⟨hLength, hValues⟩ := executeOperations_values (.load storage) storage ops
  refine ⟨hLength, hValues, handleQuery_query chain storage, ?_, ?_, ?_⟩
  · rintro before op after rfl hSaves hLast
    rw [handleQuery_query, transaction_eq, executeOperations_saved hSaves hLast, get_load]
    rfl
  · intro hNone
    rw [handleQuery_query, transaction_eq, executeOperations_unsaved hNone]
  · rw [hasEmptyStorage, Option.isNone_iff_eq_none, history_eq_none_iff]
    simp

end LineraEndToEnd.Counter
