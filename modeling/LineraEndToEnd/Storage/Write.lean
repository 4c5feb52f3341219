import Mathlib.Data.List.Nodup
import LineraEndToEnd.Storage.Kernels

/-!
# Storage — three ways to write

One batch, a loop of batches of one entry, or batches of one entry that are awaited
together and take effect in any order: on pairwise different keys all leave the same
contents.

* `putAll` — the contents after some puts, in order; `putAll_cases`: key by key.
* `putAll_perm` — the order does not matter when the keys are different.
* `write_strategies_agree` — the three ways leave the same contents.
-/

namespace LineraEndToEnd.Storage

open Lib

variable {Store : Type} (kv : KeyValueStore Store)

/-- The contents after puts of some pairs, in order. -/
def putAll (contents : Contents) (keyValues : List (Bytes × Bytes)) : Contents :=
  keyValues.foldl (fun contents p => Function.update contents p.1 (some p.2)) contents

/-- A key holds one of the values that were put under it, or what it held before. -/
theorem putAll_cases (contents : Contents) (keyValues : List (Bytes × Bytes)) (key : Bytes) :
    (∃ value, (key, value) ∈ keyValues ∧ putAll contents keyValues key = some value) ∨
      ((∀ value, (key, value) ∉ keyValues) ∧ putAll contents keyValues key = contents key) := by
  induction keyValues generalizing contents with
  | nil => exact Or.inr ⟨fun _ => List.not_mem_nil, rfl⟩
  | cons p rest ih =>
    rcases ih (Function.update contents p.1 (some p.2)) with ⟨value, hMem, hPut⟩ | ⟨hNot, hPut⟩
    · exact Or.inl ⟨value, List.mem_cons_of_mem p hMem, hPut⟩
    · by_cases hKey : key = p.1
      · refine Or.inl ⟨p.2, ?_, ?_⟩
        · rw [hKey]
          exact List.mem_cons_self
        · refine hPut.trans ?_
          rw [hKey, Function.update_self]
      · refine Or.inr ⟨?_, ?_⟩
        · intro value hMem
          rcases List.mem_cons.mp hMem with hHead | hTail
          · exact hKey (congrArg Prod.fst hHead)
          · exact hNot value hTail
        · refine hPut.trans ?_
          rw [Function.update_of_ne hKey]

/-- Under a key that is put once, its value is found. -/
theorem putAll_of_mem {contents : Contents} {keyValues : List (Bytes × Bytes)}
    (hKeys : (keyValues.map Prod.fst).Nodup) {p : Bytes × Bytes} (hp : p ∈ keyValues) :
    putAll contents keyValues p.1 = some p.2 := by
  rcases putAll_cases contents keyValues p.1 with ⟨value, hMem, hPut⟩ | ⟨hNot, -⟩
  · have hSame : (p.1, value) = p := List.inj_on_of_nodup_map hKeys hMem hp rfl
    rw [hPut, ← hSame]
  · exact absurd hp (hNot p.2)

theorem putAll_of_notMem {contents : Contents} {keyValues : List (Bytes × Bytes)} {key : Bytes}
    (hNone : ∀ p ∈ keyValues, p.1 ≠ key) : putAll contents keyValues key = contents key := by
  rcases putAll_cases contents keyValues key with ⟨value, hMem, -⟩ | ⟨-, hPut⟩
  · exact absurd rfl (hNone _ hMem)
  · exact hPut

/-- **Puts under different keys commute.** -/
theorem putAll_perm {contents : Contents} {keyValues keyValues' : List (Bytes × Bytes)}
    (hPerm : keyValues'.Perm keyValues) (hKeys : (keyValues.map Prod.fst).Nodup) :
    putAll contents keyValues' = putAll contents keyValues := by
  have hKeys' : (keyValues'.map Prod.fst).Nodup := (hPerm.map Prod.fst).nodup_iff.mpr hKeys
  funext key
  rcases putAll_cases contents keyValues key with ⟨value, hMem, hPut⟩ | ⟨hNot, hPut⟩
  · rw [hPut]
    exact putAll_of_mem hKeys' (hPerm.mem_iff.mpr hMem)
  · rw [hPut]
    refine putAll_of_notMem ?_
    rintro ⟨key', value⟩ hMem rfl
    exact hNot value (hPerm.mem_iff.mp hMem)

-- ---------------------------------------------------------------------------
-- The three ways
-- ---------------------------------------------------------------------------

theorem apply_puts (contents : Contents) (keyValues : List (Bytes × Bytes)) :
    Batch.apply { operations := keyValues.map fun p => .put p.1 p.2 } contents =
      putAll contents keyValues := by
  rw [Batch.apply, List.foldl_map]
  rfl

theorem foldl_putKeyValueBytes (batch : Batch) (keyValues : List (Bytes × Bytes)) :
    keyValues.foldl (fun batch (key, value) => batch.putKeyValueBytes key value) batch =
      { operations := batch.operations ++ keyValues.map fun p => .put p.1 p.2 } := by
  induction keyValues generalizing batch with
  | nil => simp
  | cons p rest ih =>
    rw [List.foldl_cons, ih]
    simp [Batch.putKeyValueBytes]

theorem contents_multiWrite (store : Store) (keyValues : List (Bytes × Bytes)) :
    kv.contents (multiWrite kv store keyValues) = putAll (kv.contents store) keyValues := by
  rw [multiWrite, kv.contents_writeBatch, foldl_putKeyValueBytes]
  exact apply_puts ..

theorem contents_loopWrite (store : Store) (keyValues : List (Bytes × Bytes)) :
    kv.contents (loopWrite kv store keyValues) = putAll (kv.contents store) keyValues := by
  induction keyValues generalizing store with
  | nil => rfl
  | cons p rest ih =>
    rw [loopWrite, List.foldl_cons]
    refine (ih _).trans ?_
    rw [kv.contents_writeBatch]
    rfl

/-- The futures are a loop over the entries in the order in which they complete. -/
theorem futuresWrite_eq_loopWrite {n : ℕ} (order : CompletionOrder n) (store : Store)
    (keyValues : List (Bytes × Bytes)) :
    futuresWrite kv order store keyValues = loopWrite kv store (order.inOrder keyValues) := by
  rw [futuresWrite, joinAll_fst, CompletionOrder.inOrder_map, List.foldl_map]
  rfl

/-- **The three ways to write agree.** For pairwise different keys and any order in
which the awaited batches take effect, stores that held the same before hold the same
after: the given values under their keys, and what they held before elsewhere. -/
theorem write_strategies_agree {keyValues : List (Bytes × Bytes)}
    (hKeys : (keyValues.map Prod.fst).Nodup) (order : CompletionOrder keyValues.length)
    {store₁ store₂ store₃ : Store} {initial : Contents} (h₁ : kv.contents store₁ = initial)
    (h₂ : kv.contents store₂ = initial) (h₃ : kv.contents store₃ = initial) :
    ∃ final : Contents,
      kv.contents (multiWrite kv store₁ keyValues) = final ∧
      kv.contents (loopWrite kv store₂ keyValues) = final ∧
      kv.contents (futuresWrite kv order store₃ keyValues) = final ∧
      (∀ p ∈ keyValues, final p.1 = some p.2) ∧
      ∀ key, (∀ p ∈ keyValues, p.1 ≠ key) → final key = initial key := by
  refine ⟨putAll initial keyValues, ?_, ?_, ?_, ?_, ?_⟩
  · rw [contents_multiWrite, h₁]
  · rw [contents_loopWrite, h₂]
  · rw [futuresWrite_eq_loopWrite, contents_loopWrite, h₃]
    exact putAll_perm (order.perm_inOrder rfl) hKeys
  · intro p hp
    exact putAll_of_mem hKeys hp
  · intro key hNone
    exact putAll_of_notMem hNone

/-- A store that is the map it holds. -/
def mapStore : KeyValueStore Contents where
  contents store := store
  writeBatch store batch := batch.apply store
  readValueBytes store key := store key
  readMultiValuesBytes store keys := keys.map store
  contents_writeBatch _ _ := rfl
  readValueBytes_eq _ _ := rfl
  readMultiValuesBytes_eq _ _ := rfl

/-- The last future completes first. -/
def sampleOrder : CompletionOrder 3 where
  indices := [2, 0, 1]
  perm := by decide

theorem write_strategies_agree_sample :
    ∃ final : Contents,
      multiWrite mapStore (fun _ => none) [([1], [10]), ([2], [20]), ([3], [30])] = final ∧
      loopWrite mapStore (fun _ => none) [([1], [10]), ([2], [20]), ([3], [30])] = final ∧
      futuresWrite mapStore sampleOrder (fun _ => none)
        [([1], [10]), ([2], [20]), ([3], [30])] = final ∧
      final [2] = some [20] := by
  have hKeys : (([([1], [10]), ([2], [20]), ([3], [30])] : List (Bytes × Bytes)).map
      Prod.fst).Nodup := by decide
  have hEmpty : mapStore.contents (fun _ => none) = fun _ => none := rfl
  obtain ⟨final, hMulti, hLoop, hFutures, hPut, -⟩ :=
    write_strategies_agree mapStore hKeys sampleOrder hEmpty hEmpty hEmpty
  exact ⟨final, hMulti, hLoop, hFutures, hPut ([2], [20]) (by simp)⟩

/-- **The kernel.** When the generator draws no key twice, it leaves three equal
stores. -/
theorem writeKernel_agrees (newTestStore : Store) (bytes : ℕ → UInt8)
    (numKey keySize valueSize : ℕ) (order : CompletionOrder numKey)
    (hKeys : (((drawKeyValues { bytes := bytes, used := 0 } numKey keySize valueSize).1).map
      Prod.fst).Nodup) :
    let stores :=
      testStorageMultiWriteKernel kv newTestStore bytes numKey keySize valueSize order
    kv.contents stores.2.1 = kv.contents stores.1 ∧
      kv.contents stores.2.2 = kv.contents stores.1 := by
  have hCount : (drawKeyValues { bytes := bytes, used := 0 } numKey keySize valueSize).1.length =
      numKey := by
    rw [drawKeyValues_eq]
    simp
  have hMulti := contents_multiWrite kv newTestStore
    (drawKeyValues { bytes := bytes, used := 0 } numKey keySize valueSize).1
  constructor
  · exact (contents_loopWrite ..).trans hMulti.symm
  · refine Eq.trans ?_ hMulti.symm
    show kv.contents (futuresWrite kv order newTestStore _) = _
    rw [futuresWrite_eq_loopWrite, contents_loopWrite]
    exact putAll_perm (order.perm_inOrder hCount) hKeys

end LineraEndToEnd.Storage
