import Mathlib.Logic.Function.Basic
import LineraEndToEnd.Lib.Join

/-!
# Storage — the kernels of the benchmark

`benchmark_multi_operations_storage`: random keys and values are written to a store in
three ways, and read from it in three ways. What is not in the repository is the store,
of which the benchmark uses batches of writes, single reads and reads of many keys, and
the random generator, of which it uses the bytes.

* `KeyValueStore` — a store, with what it is relied on for: it holds a map, a batch is
  applied to it in order, and a read looks the keys up.
* `Rng`, `getKey` — the bytes of the generator, one after another.
* `testStorageMultiWriteKernel`, `testStorageMultiReadKernel` — the two kernels; a
  failed assertion of the second one is a `Panic`.
-/

namespace LineraEndToEnd.Storage

open Lib

-- ---------------------------------------------------------------------------
-- Stores
-- ---------------------------------------------------------------------------

/-- `Vec<u8>`. -/
abbrev Bytes := List UInt8

/-- What a store holds. -/
abbrev Contents := Bytes → Option Bytes

/-- `WriteOperation`, as far as the benchmark uses it. -/
inductive WriteOperation where
  | put (key value : Bytes)
deriving DecidableEq

/-- The last write to a key wins. -/
def WriteOperation.apply (contents : Contents) : WriteOperation → Contents
  | .put key value => Function.update contents key (some value)

/-- `Batch`. -/
structure Batch where
  operations : List WriteOperation
deriving DecidableEq

/-- `Batch::new`. -/
def Batch.new : Batch := { operations := [] }

/-- `put_key_value_bytes`. -/
def Batch.putKeyValueBytes (batch : Batch) (key value : Bytes) : Batch :=
  { operations := batch.operations ++ [.put key value] }

/-- A batch is applied in order. -/
def Batch.apply (batch : Batch) (contents : Contents) : Contents :=
  batch.operations.foldl WriteOperation.apply contents

/-- `KeyValueStore`. -/
structure KeyValueStore (Store : Type) where
  contents : Store → Contents
  writeBatch : Store → Batch → Store
  readValueBytes : Store → Bytes → Option Bytes
  readMultiValuesBytes : Store → List Bytes → List (Option Bytes)
  contents_writeBatch : ∀ store batch,
    contents (writeBatch store batch) = batch.apply (contents store)
  readValueBytes_eq : ∀ store key, readValueBytes store key = contents store key
  readMultiValuesBytes_eq : ∀ store keys,
    readMultiValuesBytes store keys = keys.map (contents store)

-- ---------------------------------------------------------------------------
-- Random bytes
-- ---------------------------------------------------------------------------

/-- The random generator: the bytes it produces, and how many were used. -/
structure Rng where
  bytes : ℕ → UInt8
  used : ℕ

/-- `rng.gen::<u8>()`. -/
def Rng.gen (rng : Rng) : UInt8 × Rng :=
  (rng.bytes rng.used, { rng with used := rng.used + 1 })

/-- `get_key`. -/
def getKey (rng : Rng) (len : ℕ) : Bytes × Rng :=
  (List.range len).foldl (fun (v, rng) _ =>
    let (value, rng) := rng.gen
    (v ++ [value], rng)) ([], rng)

-- ---------------------------------------------------------------------------
-- The write kernel
-- ---------------------------------------------------------------------------

/-- The loop that draws the keys and values. The three vectors it fills are equal. -/
def drawKeyValues (rng : Rng) (numKey keySize valueSize : ℕ) : List (Bytes × Bytes) × Rng :=
  (List.range numKey).foldl (fun (keyValues, rng) _ =>
    let (key, rng) := getKey rng keySize
    let (value, rng) := getKey rng valueSize
    (keyValues ++ [(key, value)], rng)) ([], rng)

variable {Store : Type} (kv : KeyValueStore Store)

/-- "Multi write": one batch. -/
def multiWrite (store : Store) (keyValues : List (Bytes × Bytes)) : Store :=
  kv.writeBatch store <|
    keyValues.foldl (fun batch (key, value) => batch.putKeyValueBytes key value) Batch.new

/-- "Direct write": a loop of batches. -/
def loopWrite (store : Store) (keyValues : List (Bytes × Bytes)) : Store :=
  keyValues.foldl (fun store (key, value) =>
    kv.writeBatch store (Batch.new.putKeyValueBytes key value)) store

/-- "Futures write": batches that are awaited together. -/
def futuresWrite {n : ℕ} (order : CompletionOrder n) (store : Store)
    (keyValues : List (Bytes × Bytes)) : Store :=
  let futures := keyValues.map fun (key, value) (store : Store) =>
    (kv.writeBatch store (Batch.new.putKeyValueBytes key value), ())
  (joinAll futures order store).1

/-- `test_storage_multi_write_kernel`: the three stores it leaves. -/
def testStorageMultiWriteKernel (newTestStore : Store) (bytes : ℕ → UInt8)
    (numKey keySize valueSize : ℕ) (order : CompletionOrder numKey) : Store × Store × Store :=
  let (keyValues, _) := drawKeyValues { bytes := bytes, used := 0 } numKey keySize valueSize
  (multiWrite kv newTestStore keyValues, loopWrite kv newTestStore keyValues,
    futuresWrite kv order newTestStore keyValues)

-- ---------------------------------------------------------------------------
-- The read kernel
-- ---------------------------------------------------------------------------

/-- What the read kernel has drawn: the keys, of which it keeps three equal vectors,
the values it expects, and the batch. -/
structure Drawn where
  keys : List Bytes
  readValues : List (Option Bytes)
  batch : Batch
  rng : Rng

/-- The loop that draws them. -/
def drawReads (rng : Rng) (numKey keySize valueSize : ℕ) : Drawn :=
  (List.range numKey).foldl (fun d _ =>
    let (key, rng) := getKey d.rng keySize
    let (value, rng) := getKey rng valueSize
    { keys := d.keys ++ [key]
      readValues := d.readValues ++ [some value]
      batch := d.batch.putKeyValueBytes key value
      rng := rng }) { keys := [], readValues := [], batch := Batch.new, rng := rng }

/-- The three assertions. -/
inductive Panic where
  | multiRead
  | loopRead
  | futuresRead
deriving DecidableEq

/-- `assert_eq!`. -/
def assertEq (panic : Panic) (values readValues : List (Option Bytes)) : Except Panic Unit :=
  if values = readValues then .ok () else .error panic

/-- `test_storage_multi_read_kernel`. -/
def testStorageMultiReadKernel (newTestStore : Store) (bytes : ℕ → UInt8)
    (numKey keySize valueSize : ℕ) (order : CompletionOrder numKey) : Except Panic Unit := do
  let drawn := drawReads { bytes := bytes, used := 0 } numKey keySize valueSize
  let store := kv.writeBatch newTestStore drawn.batch
  assertEq .multiRead (kv.readMultiValuesBytes store drawn.keys) drawn.readValues
  assertEq .loopRead
    (drawn.keys.foldl (fun values key => values ++ [kv.readValueBytes store key]) [])
    drawn.readValues
  let futures := drawn.keys.map fun key (store : Store) => (store, kv.readValueBytes store key)
  assertEq .futuresRead (joinAll futures order store).2 drawn.readValues

-- ---------------------------------------------------------------------------
-- What is drawn
-- ---------------------------------------------------------------------------

/-- The bytes from `start` on. -/
def slice (bytes : ℕ → UInt8) (start len : ℕ) : Bytes :=
  (List.range len).map fun t => bytes (start + t)

/-- The `i`-th key and value. -/
def drawn (bytes : ℕ → UInt8) (start keySize valueSize i : ℕ) : Bytes × Bytes :=
  (slice bytes (start + i * (keySize + valueSize)) keySize,
    slice bytes (start + i * (keySize + valueSize) + keySize) valueSize)

theorem getKey_eq (rng : Rng) (len : ℕ) :
    getKey rng len =
      (slice rng.bytes rng.used len, { rng with used := rng.used + len }) := by
  induction len with
  | zero => rfl
  | succ len ih =>
    rw [getKey] at ih ⊢
    rw [List.range_succ, List.foldl_append, ih, slice, slice, List.range_succ, List.map_append]
    rfl

theorem drawKeyValues_eq (rng : Rng) (numKey keySize valueSize : ℕ) :
    drawKeyValues rng numKey keySize valueSize =
      ((List.range numKey).map (drawn rng.bytes rng.used keySize valueSize),
        { rng with used := rng.used + numKey * (keySize + valueSize) }) := by
  induction numKey with
  | zero => simp [drawKeyValues]
  | succ numKey ih =>
    rw [drawKeyValues] at ih ⊢
    rw [List.range_succ, List.foldl_append, ih, List.map_append]
    simp only [List.foldl_cons, List.foldl_nil, getKey_eq, List.map_cons, List.map_nil, drawn,
      Nat.succ_mul, Nat.add_assoc]

theorem drawReads_eq (rng : Rng) (numKey keySize valueSize : ℕ) :
    drawReads rng numKey keySize valueSize =
      let keyValues := (List.range numKey).map (drawn rng.bytes rng.used keySize valueSize)
      { keys := keyValues.map Prod.fst
        readValues := keyValues.map fun p => some p.2
        batch := { operations := keyValues.map fun p => .put p.1 p.2 }
        rng := { rng with used := rng.used + numKey * (keySize + valueSize) } } := by
  induction numKey with
  | zero => simp [drawReads, Batch.new]
  | succ numKey ih =>
    rw [drawReads] at ih ⊢
    rw [List.range_succ, List.foldl_append, ih]
    simp only [List.foldl_cons, List.foldl_nil, getKey_eq, List.map_append, List.map_cons,
      List.map_nil, drawn, Batch.putKeyValueBytes, Nat.succ_mul, Nat.add_assoc]

end LineraEndToEnd.Storage
