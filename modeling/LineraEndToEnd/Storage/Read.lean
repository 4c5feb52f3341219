import LineraEndToEnd.Runtime.Base
import LineraEndToEnd.Storage.Write

/-!
# Storage — three ways to read

The read kernel expects, for each key it has drawn, the value drawn with it. The store
holds the value that was put last, so the two differ when a key is drawn again with
another value.

* `readKernel_ok_iff` — all three ways read what the store holds, so the assertions
  stand or fall together.
* `reads_hold_iff` — they hold exactly when the keys determine the values.
-/

namespace LineraEndToEnd.Storage

open Lib

variable {Store : Type} (kv : KeyValueStore Store)

/-- Equal keys are drawn with equal values. -/
def KeysDetermineValues (bytes : ℕ → UInt8) (numKey keySize valueSize : ℕ) : Prop :=
  ∀ i < numKey, ∀ j < numKey,
    slice bytes (i * (keySize + valueSize)) keySize =
        slice bytes (j * (keySize + valueSize)) keySize →
      slice bytes (i * (keySize + valueSize) + keySize) valueSize =
        slice bytes (j * (keySize + valueSize) + keySize) valueSize

theorem assertEq_ok_iff {panic : Panic} {values readValues : List (Option Bytes)} :
    assertEq panic values readValues = .ok () ↔ values = readValues := by
  unfold assertEq
  split <;> simp [*]

variable (store : Store) (keys : List Bytes)

/-- All three ways read the contents, key by key. -/
theorem multiRead_eq : kv.readMultiValuesBytes store keys = keys.map (kv.contents store) :=
  kv.readMultiValuesBytes_eq store keys

theorem loopRead_eq :
    keys.foldl (fun values key => values ++ [kv.readValueBytes store key]) [] =
      keys.map (kv.contents store) := by
  simp only [kv.readValueBytes_eq]
  rw [List.foldl_append_eq_append, List.nil_append, ← List.flatMap_def, ← List.map_eq_flatMap]

theorem futuresRead_eq {n : ℕ} (order : CompletionOrder n) (hCount : keys.length = n) :
    (joinAll (keys.map fun key (store : Store) => (store, kv.readValueBytes store key)) order
      store).2 = keys.map (kv.contents store) := by
  have hPure : ∀ future ∈ keys.map fun key (store : Store) =>
      (store, kv.readValueBytes store key), ∀ s, (future s).1 = s := by
    intro future hFuture s
    obtain ⟨key, -, rfl⟩ := List.mem_map.mp hFuture
    rfl
  rw [joinAll_of_pure order (by rw [List.length_map, hCount]) hPure, List.map_map]
  simp only [Function.comp_def, kv.readValueBytes_eq]

/-- **The kernel** compares the contents after the batch with the values drawn, three
times. -/
theorem readKernel_ok_iff (newTestStore : Store) (bytes : ℕ → UInt8)
    (numKey keySize valueSize : ℕ) (order : CompletionOrder numKey) :
    testStorageMultiReadKernel kv newTestStore bytes numKey keySize valueSize order = .ok () ↔
      ∀ p ∈ (List.range numKey).map (drawn bytes 0 keySize valueSize),
        putAll (kv.contents newTestStore)
          ((List.range numKey).map (drawn bytes 0 keySize valueSize)) p.1 = some p.2 := by
  have hDrawn := drawReads_eq { bytes := bytes, used := 0 } numKey keySize valueSize
  generalize hPairs : (List.range numKey).map (drawn bytes 0 keySize valueSize) = keyValues at *
  have hCount : (keyValues.map Prod.fst).length = numKey := by
    rw [← hPairs]
    simp
  unfold testStorageMultiReadKernel
  rw [hDrawn]
  dsimp only
  rw [multiRead_eq, loopRead_eq, futuresRead_eq kv _ _ order hCount, kv.contents_writeBatch,
    apply_puts]
  -- the three comparisons are the same
  have hCompare : (keyValues.map Prod.fst).map (putAll (kv.contents newTestStore) keyValues) =
      (keyValues.map fun p => some p.2) ↔
      ∀ p ∈ keyValues, putAll (kv.contents newTestStore) keyValues p.1 = some p.2 := by
    rw [List.map_map, List.map_inj_left]
    rfl
  rw [← hCompare]
  constructor
  · intro hOk
    obtain ⟨_, hFirst, -⟩ := bind_ok_iff.mp hOk
    exact assertEq_ok_iff.mp hFirst
  · intro hSame
    have hAssert : ∀ panic, assertEq panic _ _ = .ok () := fun panic =>
      assertEq_ok_iff.mpr hSame
    refine bind_ok_iff.mpr ⟨(), hAssert _, ?_⟩
    exact bind_ok_iff.mpr ⟨(), hAssert _, hAssert _⟩

/-- **When the assertions hold.** For every store, all parameters, all bytes the
generator produces, and any order in which the awaited reads complete: all three
assertions hold if and only if equal keys are drawn with equal values. -/
theorem reads_hold_iff (newTestStore : Store) (bytes : ℕ → UInt8)
    (numKey keySize valueSize : ℕ) (order : CompletionOrder numKey) :
    testStorageMultiReadKernel kv newTestStore bytes numKey keySize valueSize order = .ok () ↔
      KeysDetermineValues bytes numKey keySize valueSize := by
  rw [readKernel_ok_iff, List.forall_mem_map]
  have hDrawn : ∀ i, drawn bytes 0 keySize valueSize i =
      (slice bytes (i * (keySize + valueSize)) keySize,
        slice bytes (i * (keySize + valueSize) + keySize) valueSize) := by
    intro i
    simp only [drawn, Nat.zero_add]
  constructor
  · intro hAll i hi j hj hKey
    have hFirst := hAll i (List.mem_range.mpr hi)
    have hSecond := hAll j (List.mem_range.mpr hj)
    rw [hDrawn] at hFirst hSecond
    rw [hKey, hSecond] at hFirst
    exact (Option.some.inj hFirst).symm
  · intro hKeys j hj
    have hMem := List.mem_map_of_mem (f := drawn bytes 0 keySize valueSize) hj
    rcases putAll_cases (kv.contents newTestStore)
        ((List.range numKey).map (drawn bytes 0 keySize valueSize))
        (drawn bytes 0 keySize valueSize j).1 with ⟨value, hPut, hRead⟩ | ⟨hNot, -⟩
    · -- what was put last under the key was drawn with an equal key
      obtain ⟨i, hi, hPair⟩ := List.mem_map.mp hPut
      have hValue := hKeys i (List.mem_range.mp hi) j (List.mem_range.mp hj)
      rw [hDrawn, hDrawn j] at hPair
      obtain ⟨hKey, rfl⟩ := Prod.mk.inj hPair
      rw [hRead, hValue hKey, hDrawn]
    · exact absurd hMem (hNot _)

/-- The arguments `2 0 1`, with the first two bytes of the seeded generator: two keys of no
bytes are equal, and their values are not. The store holds the second, and the first assertion
fails. -/
theorem multiRead_fails_on_equal_keys :
    testStorageMultiReadKernel mapStore (fun _ => none) (fun i => if i = 0 then 140 else 59) 2 0 1
      { indices := [0, 1], perm := by decide } = .error .multiRead := by
  decide

end LineraEndToEnd.Storage
