import LineraEndToEnd.Lib.BigEndian
import LineraEndToEnd.Social.Contract

/-!
# Social — the bytes of a key

`impl CustomSerialize for Key` in `social/src/lib.rs`. The received posts are stored
under these bytes, so their order is the order in which a feed is listed. A chain is
identified by 32 bytes here; what is not in the repository is the crate `bcs`.

* `Bcs` — the crate, on the tuple that is serialized.
* `keyBytes` — the bytes of a key, `toCustomBytes_eq` and `fromCustomBytes_ok_iff`
  what the two functions do with them.
* `toCustomBytes_lt_iff` — the order of the bytes is the order of the feed.
* `customBytes_bijection` — the two functions are inverse to each other.
-/

namespace LineraEndToEnd.Social

open Lib

/-- The bytes of a `ChainId`. -/
abbrev ChainIdBytes := Vector UInt8 32

/-- The serialized tuple: a timestamp, an author, an index. -/
abbrev KeyData := Vector UInt8 8 × ChainIdBytes × Vector UInt8 4

/-- The `ViewError` of a `bcs` error. -/
inductive ViewError (BcsError : Type) where
  | bcsError (error : BcsError)

/-- `bcs` on the tuple: it writes the fields one after another and nothing else, and
reads them so; missing or trailing bytes are an error. -/
structure Bcs (BcsError : Type) where
  toBytes : KeyData → Except BcsError (List UInt8)
  fromBytes : List UInt8 → Except BcsError KeyData
  toBytes_eq : ∀ time author index,
    toBytes (time, author, index) = .ok (time.toList ++ author.toList ++ index.toList)
  fromBytes_ok_iff : ∀ bytes time author index,
    fromBytes bytes = .ok (time, author, index) ↔
      bytes = time.toList ++ author.toList ++ index.toList

/-- `to_be_bytes`, for `w` bytes. -/
def toBeBytes (w n : Nat) : Vector UInt8 w :=
  ⟨(BigEndian.digits w n).toArray, by simp⟩

/-- `from_be_bytes`. -/
def fromBeBytes {w : Nat} (bytes : Vector UInt8 w) : Nat :=
  BigEndian.value bytes.toList

variable {BcsError : Type} (bcs : Bcs BcsError)

/-- `to_custom_bytes`. -/
def toCustomBytes (key : Key ChainIdBytes) : Except (ViewError BcsError) (List UInt8) :=
  let data :=
    (toBeBytes 8 (~~~key.timestamp).toNat, key.author, toBeBytes 4 (~~~key.index).toNat)
  (bcs.toBytes data).mapError .bcsError

/-- `from_custom_bytes`. -/
def fromCustomBytes (shortKey : List UInt8) :
    Except (ViewError BcsError) (Key ChainIdBytes) := do
  let (timeBytes, author, idxBytes) ← (bcs.fromBytes shortKey).mapError .bcsError
  return { timestamp := ~~~UInt64.ofNat (fromBeBytes timeBytes)
           author := author
           index := ~~~UInt32.ofNat (fromBeBytes idxBytes) }

-- ---------------------------------------------------------------------------
-- The bytes of a key
-- ---------------------------------------------------------------------------

/-- The bytes of a key. -/
def keyBytes (key : Key ChainIdBytes) : List UInt8 :=
  BigEndian.digits 8 (~~~key.timestamp).toNat ++ key.author.toList ++
    BigEndian.digits 4 (~~~key.index).toNat

theorem length_keyBytes (key : Key ChainIdBytes) : (keyBytes key).length = 44 := by
  simp [keyBytes]

theorem toCustomBytes_eq (key : Key ChainIdBytes) :
    toCustomBytes bcs key = .ok (keyBytes key) := by
  rw [toCustomBytes, bcs.toBytes_eq]
  rfl

theorem toNat_compl_timestamp (x : UInt64) : (~~~x).toNat = 256 ^ 8 - 1 - x.toNat :=
  UInt64.toNat_not x

theorem toNat_compl_index (x : UInt32) : (~~~x).toNat = 256 ^ 4 - 1 - x.toNat :=
  UInt32.toNat_not x

theorem digits_fromBeBytes {w : Nat} (bytes : Vector UInt8 w) :
    BigEndian.digits w (fromBeBytes bytes) = bytes.toList := by
  have hDigits := BigEndian.digits_value bytes.toList
  rwa [Vector.length_toList] at hDigits

theorem fromBeBytes_lt {w : Nat} (bytes : Vector UInt8 w) : fromBeBytes bytes < 256 ^ w := by
  have hValue := BigEndian.value_lt bytes.toList
  rwa [Vector.length_toList] at hValue

theorem fromBeBytes_toBeBytes {w n : Nat} (hn : n < 256 ^ w) :
    fromBeBytes (toBeBytes w n) = n :=
  BigEndian.value_digits_of_lt hn

/-- The key that is read from a tuple. -/
def keyOfData (data : KeyData) : Key ChainIdBytes :=
  { timestamp := ~~~UInt64.ofNat (fromBeBytes data.1)
    author := data.2.1
    index := ~~~UInt32.ofNat (fromBeBytes data.2.2) }

/-- The bytes of the key that is read are those it was read from. -/
theorem keyBytes_keyOfData (time : Vector UInt8 8) (author : ChainIdBytes)
    (index : Vector UInt8 4) :
    keyBytes (keyOfData (time, author, index)) =
      time.toList ++ author.toList ++ index.toList := by
  have hTime : (UInt64.ofNat (fromBeBytes time)).toNat = fromBeBytes time :=
    UInt64.toNat_ofNat_of_lt' (fromBeBytes_lt time)
  have hIndex : (UInt32.ofNat (fromBeBytes index)).toNat = fromBeBytes index :=
    UInt32.toNat_ofNat_of_lt' (fromBeBytes_lt index)
  simp only [keyBytes, keyOfData, UInt64.not_not, UInt32.not_not, hTime, hIndex,
    digits_fromBeBytes]

/-- The key is read back from its own bytes. -/
theorem keyOfData_toBeBytes (key : Key ChainIdBytes) :
    keyOfData (toBeBytes 8 (~~~key.timestamp).toNat, key.author,
      toBeBytes 4 (~~~key.index).toNat) = key := by
  have hTime : fromBeBytes (toBeBytes 8 (~~~key.timestamp).toNat) = (~~~key.timestamp).toNat :=
    fromBeBytes_toBeBytes (UInt64.toNat_lt _)
  have hIndex : fromBeBytes (toBeBytes 4 (~~~key.index).toNat) = (~~~key.index).toNat :=
    fromBeBytes_toBeBytes (UInt32.toNat_lt _)
  simp only [keyOfData, hTime, hIndex, UInt64.ofNat_toNat, UInt32.ofNat_toNat, UInt64.not_not,
    UInt32.not_not]

theorem fromCustomBytes_eq (bytes : List UInt8) :
    fromCustomBytes bcs bytes =
      ((bcs.fromBytes bytes).mapError ViewError.bcsError).map keyOfData := by
  unfold fromCustomBytes
  cases bcs.fromBytes bytes <;> rfl

/-- **Reading** succeeds on the bytes of a key, and gives this key. -/
theorem fromCustomBytes_ok_iff {bytes : List UInt8} {key : Key ChainIdBytes} :
    fromCustomBytes bcs bytes = .ok key ↔ bytes = keyBytes key := by
  rw [fromCustomBytes_eq]
  constructor
  · intro h
    cases hData : bcs.fromBytes bytes with
    | error err =>
      rw [hData] at h
      cases h
    | ok data =>
      rw [hData] at h
      obtain rfl : keyOfData data = key := Except.ok.inj h
      exact ((bcs.fromBytes_ok_iff ..).mp hData).trans (keyBytes_keyOfData ..).symm
  · rintro rfl
    have hData : bcs.fromBytes (keyBytes key) = .ok (toBeBytes 8 (~~~key.timestamp).toNat,
        key.author, toBeBytes 4 (~~~key.index).toNat) := (bcs.fromBytes_ok_iff ..).mpr rfl
    rw [hData]
    exact congrArg Except.ok (keyOfData_toBeBytes key)

-- ---------------------------------------------------------------------------
-- Order
-- ---------------------------------------------------------------------------

theorem keyBytes_lt_iff (k₁ k₂ : Key ChainIdBytes) :
    keyBytes k₁ < keyBytes k₂ ↔
      k₂.timestamp < k₁.timestamp ∨
        k₁.timestamp = k₂.timestamp ∧ (k₁.author.toList < k₂.author.toList ∨
          k₁.author = k₂.author ∧ k₂.index < k₁.index) := by
  have hTime₁ : k₁.timestamp.toNat < 256 ^ 8 := k₁.timestamp.toNat_lt
  have hTime₂ : k₂.timestamp.toNat < 256 ^ 8 := k₂.timestamp.toNat_lt
  have hIndex₁ : k₁.index.toNat < 256 ^ 4 := k₁.index.toNat_lt
  have hIndex₂ : k₂.index.toNat < 256 ^ 4 := k₂.index.toNat_lt
  unfold keyBytes
  simp only [toNat_compl_timestamp, toNat_compl_index]
  rw [List.append_assoc, List.append_assoc, append_lt_append_iff (by simp),
    append_lt_append_iff (by simp), BigEndian.digits_compl_lt_iff hTime₁ hTime₂,
    BigEndian.digits_compl_inj hTime₁ hTime₂, BigEndian.digits_compl_lt_iff hIndex₁ hIndex₂,
    UInt64.toNat_inj, Vector.toList_inj]
  rfl

/-- **The order of the serialized keys** is the order of the feed: the latest posts
first, those of the same time by the bytes of their authors, and those of the same
author from the last one back. -/
theorem toCustomBytes_lt_iff (k₁ k₂ : Key ChainIdBytes) :
    ∃ b₁ b₂, toCustomBytes bcs k₁ = .ok b₁ ∧ toCustomBytes bcs k₂ = .ok b₂ ∧
      (b₁ < b₂ ↔ k₁.timestamp > k₂.timestamp ∨
        k₁.timestamp = k₂.timestamp ∧ k₁.author.toList < k₂.author.toList ∨
        k₁.timestamp = k₂.timestamp ∧ k₁.author = k₂.author ∧ k₁.index > k₂.index) := by
  refine ⟨keyBytes k₁, keyBytes k₂, toCustomBytes_eq bcs k₁, toCustomBytes_eq bcs k₂, ?_⟩
  rw [keyBytes_lt_iff, and_or_left]

-- ---------------------------------------------------------------------------
-- Round trips
-- ---------------------------------------------------------------------------

/-- The three fields of a string of 44 bytes. -/
def cut (bytes : List UInt8) (hLength : bytes.length = 44) : KeyData :=
  (⟨(bytes.take 8).toArray, by simp [hLength]⟩,
    ⟨((bytes.drop 8).take 32).toArray, by simp [hLength]⟩,
    ⟨(bytes.drop 40).toArray, by simp [hLength]⟩)

theorem append_cut (bytes : List UInt8) (hLength : bytes.length = 44) :
    (cut bytes hLength).1.toList ++ (cut bytes hLength).2.1.toList ++
      (cut bytes hLength).2.2.toList = bytes := by
  have hRest : (bytes.drop 8).take 32 ++ bytes.drop 40 = bytes.drop 8 := by
    have hSplit := List.take_append_drop 32 (bytes.drop 8)
    rwa [List.drop_drop] at hSplit
  show bytes.take 8 ++ (bytes.drop 8).take 32 ++ bytes.drop 40 = bytes
  rw [List.append_assoc, hRest, List.take_append_drop]

/-- The fields are determined by their concatenation. -/
theorem keyData_inj {data data' : KeyData}
    (h : data.1.toList ++ data.2.1.toList ++ data.2.2.toList =
      data'.1.toList ++ data'.2.1.toList ++ data'.2.2.toList) : data = data' := by
  obtain ⟨hFirst, hIndex⟩ := List.append_inj h (by simp)
  obtain ⟨hTime, hAuthor⟩ := List.append_inj hFirst (by simp)
  exact Prod.ext (Vector.toList_inj.mp hTime)
    (Prod.ext (Vector.toList_inj.mp hAuthor) (Vector.toList_inj.mp hIndex))

/-- **The codec is a bijection** between the keys and the strings of 44 bytes. Every
key is read back from its bytes; what is read from a string has this string as its
bytes; and a string is read exactly when it has the length of a key. -/
theorem customBytes_bijection :
    (∀ key, ∃ bytes, toCustomBytes bcs key = .ok bytes ∧ fromCustomBytes bcs bytes = .ok key) ∧
    (∀ bytes key, fromCustomBytes bcs bytes = .ok key → toCustomBytes bcs key = .ok bytes) ∧
    (∀ bytes, (∃ key, fromCustomBytes bcs bytes = .ok key) ↔ bytes.length = 44) ∧
    ∀ bytes bytes' key, fromCustomBytes bcs bytes = .ok key →
      fromCustomBytes bcs bytes' = .ok key → bytes = bytes' := by
  refine ⟨?_, ?_, ?_, ?_⟩
  · intro key
    exact ⟨keyBytes key, toCustomBytes_eq bcs key, (fromCustomBytes_ok_iff bcs).mpr rfl⟩
  · intro bytes key h
    rw [(fromCustomBytes_ok_iff bcs).mp h]
    exact toCustomBytes_eq bcs key
  · intro bytes
    constructor
    · rintro ⟨key, h⟩
      rw [(fromCustomBytes_ok_iff bcs).mp h]
      exact length_keyBytes key
    · intro hLength
      refine ⟨keyOfData (cut bytes hLength), (fromCustomBytes_ok_iff bcs).mpr ?_⟩
      exact (append_cut bytes hLength).symm.trans (keyBytes_keyOfData ..).symm
  · intro bytes bytes' key h h'
    rw [(fromCustomBytes_ok_iff bcs).mp h, (fromCustomBytes_ok_iff bcs).mp h']

/-- Plain concatenation, read back by cutting. -/
def sampleBcs : Bcs Unit where
  toBytes data := .ok (data.1.toList ++ data.2.1.toList ++ data.2.2.toList)
  fromBytes bytes := if hLength : bytes.length = 44 then .ok (cut bytes hLength) else .error ()
  toBytes_eq _ _ _ := rfl
  fromBytes_ok_iff bytes time author index := by
    constructor
    · intro h
      split at h
      · next hLength =>
        have hCut := append_cut bytes hLength
        rw [Except.ok.inj h] at hCut
        exact hCut.symm
      · cases h
    · rintro rfl
      rw [dif_pos (by simp)]
      exact congrArg Except.ok (keyData_inj (append_cut ..))

/-- A key with the timestamp and the index of the test in the repository. -/
def sampleKey : Key ChainIdBytes :=
  { timestamp := 0x123456789ABCDEF
    author := Vector.ofFn fun i => UInt8.ofNat i
    index := 0x76543210 }

theorem toCustomBytes_lt_iff_sample :
    ∃ b₁ b₂, toCustomBytes sampleBcs sampleKey = .ok b₁ ∧
      toCustomBytes sampleBcs { sampleKey with index := 0 } = .ok b₂ ∧ b₁ < b₂ := by
  obtain ⟨b₁, b₂, h₁, h₂, hLt⟩ :=
    toCustomBytes_lt_iff sampleBcs sampleKey { sampleKey with index := 0 }
  exact ⟨b₁, b₂, h₁, h₂, hLt.mpr (by decide)⟩

theorem customBytes_bijection_sample :
    ∃ bytes, toCustomBytes sampleBcs sampleKey = .ok bytes ∧
      fromCustomBytes sampleBcs bytes = .ok sampleKey :=
  (customBytes_bijection sampleBcs).1 sampleKey

end LineraEndToEnd.Social
