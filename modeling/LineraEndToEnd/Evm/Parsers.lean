import LineraEndToEnd.Lib.BigEndian
import LineraEndToEnd.Runtime.Base

/-!
# Evm — parsing the responses of contracts

The functions of `test_evm_smart_contracts` that read the bytes of an EVM word out of
a JSON array of numbers: the parsers of `main.rs`, which return an error, and those of
`solidity.rs`, which panic.

* `byteAt` — what the parsers of `main.rs` make of one position of the array.
* `parseBytes32FromArray_ok_iff`, `parseU128FromArrayAtOffset_ok_iff` — they read the
  array position by position, and nothing else of it.
* `parsers_outcome_iff` — so they fail on what is not a number where they look, and
  return the bytes of what is there.
-/

namespace LineraEndToEnd.Evm

open Lib

-- ---------------------------------------------------------------------------
-- JSON values
-- ---------------------------------------------------------------------------

/-- `serde_json::Number`: an unsigned number, a negative one, which is `-(n + 1)`, or
the bits of a floating-point number. -/
inductive Number where
  | posInt (n : UInt64)
  | negInt (n : Fin (2 ^ 63))
  | float (bits : UInt64)
deriving DecidableEq

/-- `serde_json::Value`. -/
inductive Value where
  | null
  | bool (b : Bool)
  | number (n : Number)
  | string (s : String)
  | array (elements : List Value)
  | object (entries : List (String × Value))

namespace Value

/-- `as_array`. -/
def asArray : Value → Option (List Value)
  | .array elements => some elements
  | .null | .bool _ | .number _ | .string _ | .object _ => none

/-- `as_u64`. -/
def asU64 : Value → Option UInt64
  | .number (.posInt n) => some n
  | .number (.negInt _) | .number (.float _) => none
  | .null | .bool _ | .string _ | .array _ | .object _ => none

theorem asArray_eq_some {v : Value} {array : List Value} :
    v.asArray = some array ↔ v = .array array := by
  cases v <;> simp [asArray]

theorem asU64_eq_some {v : Value} {n : UInt64} :
    v.asU64 = some n ↔ v = .number (.posInt n) := by
  cases v with
  | number m => cases m <;> simp [asU64]
  | null | bool | string | array | object => simp [asU64]

end Value

-- ---------------------------------------------------------------------------
-- The parsers of `main.rs`
-- ---------------------------------------------------------------------------

/-- The errors of the parsers. -/
inductive ParseError where
  | expectedArray
  | byteValue (index : Nat)
  | byte (index : Nat)
deriving DecidableEq

/-- Their messages. -/
def ParseError.message : ParseError → String
  | .expectedArray => "Expected array response"
  | .byteValue index => "Failed to parse byte value at index " ++ toString index
  | .byte index => "Failed to parse byte at index " ++ toString index

/-- `ok_or_else`. -/
def okOr {α ε : Type} (o : Option α) (e : ε) : Except ε α :=
  match o with
  | none => .error e
  | some a => .ok a

/-- `u128`. -/
abbrev U128 := BitVec 128

/-- `U256`. -/
abbrev U256 := BitVec 256

/-- `u128::from_be_bytes`. -/
def U128.fromBeBytes (bytes : Vector UInt8 16) : U128 :=
  BitVec.ofNat 128 (BigEndian.value bytes.toList)

/-- `U256::from_be_bytes`. -/
def U256.fromBeBytes (bytes : Vector UInt8 32) : U256 :=
  BitVec.ofNat 256 (BigEndian.value bytes.toList)

/-- The body of the loop of `parse_bytes32_from_array`. -/
def bytes32Step (bytes : Vector UInt8 32) : Value × Nat → Except ParseError (Vector UInt8 32)
  | (byteVal, i) =>
    if h : i < 32 then do
      let n ← okOr byteVal.asU64 (.byteValue i)
      return bytes.set i n.toUInt8
    else return bytes

/-- `parse_bytes32_from_array`. -/
def parseBytes32FromArray (value : Value) : Except ParseError (Vector UInt8 32) := do
  let array ← okOr value.asArray .expectedArray
  array.zipIdx.foldlM bytes32Step (Vector.replicate 32 0)

/-- `parse_u256_from_array`. -/
def parseU256FromArray (value : Value) : Except ParseError U256 := do
  let bytes ← parseBytes32FromArray value
  return U256.fromBeBytes bytes

/-- The body of the loop of `parse_u128_from_array_at_offset`. -/
def u128Step (array : List Value) (offset : Nat) (bytes : Vector UInt8 16) (i : Fin 16) :
    Except ParseError (Vector UInt8 16) :=
  let arrayIdx := offset + 16 + i
  if h : arrayIdx < array.length then do
    let n ← okOr array[arrayIdx].asU64 (.byte arrayIdx)
    return bytes.set i n.toUInt8
  else return bytes

/-- `parse_u128_from_array_at_offset`. -/
def parseU128FromArrayAtOffset (value : Value) (offset : Nat) : Except ParseError U128 := do
  let array ← okOr value.asArray .expectedArray
  let bytes ← (List.finRange 16).foldlM (u128Step array offset) (Vector.replicate 16 0)
  return U128.fromBeBytes bytes

-- ---------------------------------------------------------------------------
-- The parsers of `solidity.rs`
-- ---------------------------------------------------------------------------

/-- The panics: `unwrap` on what is not an array or not a number, an index or a slice
out of bounds, and `copy_from_slice` between different lengths. -/
inductive Panic where
  | notAnArray
  | notANumber
  | outOfBounds
  | lengthMismatch
deriving DecidableEq

/-- `value_to_vec_u8`. -/
def valueToVecU8 (value : Value) : Except Panic (List UInt8) := do
  let array ← okOr value.asArray .notAnArray
  array.foldlM (fun vec val => do
    let val ← okOr val.asU64 .notANumber
    return vec ++ [val.toUInt8]) []

/-- `Address`. -/
abbrev Address := Vector UInt8 20

/-- `read_evm_address_entry`. -/
def readEvmAddressEntry (value : Value) : Except Panic Address := do
  let vec ← valueToVecU8 value
  if vec.length < 12 then .error .outOfBounds
  else if h : (vec.drop 12).length = 20 then .ok ⟨(vec.drop 12).toArray, h⟩
  else .error .lengthMismatch

/-- `read_evm_bool_entry`. -/
def readEvmBoolEntry (value : Value) : Except Panic Bool := do
  let vec ← valueToVecU8 value
  match vec[31]? with
  | none => .error .outOfBounds
  | some b => .ok (b == 1)

-- ---------------------------------------------------------------------------
-- Position by position
-- ---------------------------------------------------------------------------

theorem okOr_ok_iff {α ε : Type} {o : Option α} {e : ε} {a : α} :
    okOr o e = .ok a ↔ o = some a := by
  cases o <;> simp [okOr]

/-- What becomes of a byte when an element of the array, or none, is written over it. -/
def overlay (byte : UInt8) : Option Value → Option UInt8
  | none => some byte
  | some v => v.asU64.map UInt64.toUInt8

/-- What the parsers make of the position `i`: a missing element reads as zero, a
number is cast to a byte, and anything else cannot be read. -/
def byteAt (array : List Value) (i : Nat) : Option UInt8 := overlay 0 array[i]?

variable {array : List Value} {offset k : Nat}

theorem bytes32Step_beyond {bytes : Vector UInt8 32} (hk : ¬ k < 32) (v : Value) :
    bytes32Step bytes (v, k) = .ok bytes := by
  simp [bytes32Step, hk, pure, Except.pure]

theorem bytes32Step_error {bytes : Vector UInt8 32} (hk : k < 32) {v : Value}
    (hByte : v.asU64 = none) : bytes32Step bytes (v, k) = .error (.byteValue k) := by
  simp [bytes32Step, hk, hByte, okOr, bind, Except.bind]

theorem bytes32Step_ok {bytes : Vector UInt8 32} (hk : k < 32) {v : Value} {n : UInt64}
    (hByte : v.asU64 = some n) : bytes32Step bytes (v, k) = .ok (bytes.set k n.toUInt8) := by
  simp [bytes32Step, hk, hByte, okOr, bind, Except.bind, pure, Except.pure]

/-- The loop from the position `k` on: what stands before it is left alone, and each
position from there on gets the byte of its element. -/
theorem foldlM_bytes32Step_ok_iff {init bytes : Vector UInt8 32} :
    (array.zipIdx k).foldlM bytes32Step init = .ok bytes ↔
      ∀ (i : Nat) (h : i < 32),
        (if i < k then some init[i] else overlay init[i] array[i - k]?) = some bytes[i] := by
  induction array generalizing k init with
  | nil =>
    simp only [List.zipIdx_nil, List.foldlM_nil, List.getElem?_nil, overlay, ite_self]
    constructor
    · intro hOk i h
      rw [Except.ok.inj hOk]
    · intro hSame
      refine congrArg Except.ok (Vector.ext ?_)
      intro i h
      exact Option.some.inj (hSame i h)
  | cons v array ih =>
    rw [List.zipIdx_cons, List.foldlM_cons]
    by_cases hk : k < 32
    · cases hByte : v.asU64 with
      | none =>
        rw [bytes32Step_error hk hByte]
        refine iff_of_false (fun h => nomatch h) ?_
        intro hAll
        have hHere := hAll k hk
        simp [overlay, hByte] at hHere
      | some n =>
        rw [bytes32Step_ok hk hByte]
        refine ih.trans (forall₂_congr ?_)
        intro i h
        have hSame : (if i < k + 1 then some (init.set k n.toUInt8)[i]
              else overlay (init.set k n.toUInt8)[i] array[i - (k + 1)]?) =
            if i < k then some init[i] else overlay init[i] (v :: array)[i - k]? := by
          rcases Nat.lt_trichotomy i k with hLt | rfl | hGt
          · rw [if_pos (Nat.lt_succ_of_lt hLt), if_pos hLt, Vector.getElem_set_ne _ _ (by omega)]
          · simp [overlay, hByte]
          · have hIndex : i - k = i - (k + 1) + 1 := by omega
            rw [if_neg (by omega), if_neg (by omega), Vector.getElem_set_ne _ _ (by omega),
              hIndex, List.getElem?_cons_succ]
        rw [hSame]
    · rw [bytes32Step_beyond hk]
      refine ih.trans (forall₂_congr ?_)
      intro i h
      rw [if_pos (by omega), if_pos (by omega)]

/-- **`parse_bytes32_from_array`** reads the first 32 positions of an array. -/
theorem parseBytes32FromArray_ok_iff {v : Value} {bytes : Vector UInt8 32} :
    parseBytes32FromArray v = .ok bytes ↔
      ∃ array, v = .array array ∧ ∀ (i : Nat) (h : i < 32), byteAt array i = some bytes[i] := by
  rw [parseBytes32FromArray, bind_ok_iff]
  refine exists_congr ?_
  intro array
  rw [okOr_ok_iff, Value.asArray_eq_some, foldlM_bytes32Step_ok_iff]
  simp [byteAt]

section

variable {bytes : Vector UInt8 16} {i : Fin 16}

theorem u128Step_missing (hCell : array[offset + 16 + i]? = none) :
    u128Step array offset bytes i = .ok bytes := by
  have hOut : ¬ offset + 16 + i < array.length := by simpa using hCell
  simp only [u128Step, dif_neg hOut]
  rfl

theorem u128Step_error {v : Value} (hCell : array[offset + 16 + i]? = some v)
    (hByte : v.asU64 = none) :
    u128Step array offset bytes i = .error (.byte (offset + 16 + i)) := by
  obtain ⟨hIn, rfl⟩ := List.getElem?_eq_some_iff.mp hCell
  simp only [u128Step, dif_pos hIn, hByte]
  rfl

theorem u128Step_ok {v : Value} (hCell : array[offset + 16 + i]? = some v) {n : UInt64}
    (hByte : v.asU64 = some n) :
    u128Step array offset bytes i = .ok (bytes.set i n.toUInt8) := by
  obtain ⟨hIn, rfl⟩ := List.getElem?_eq_some_iff.mp hCell
  simp only [u128Step, dif_pos hIn, hByte]
  rfl

end

/-- The loop over some positions: they get the bytes of their elements, and the others are
left alone. -/
theorem foldlM_u128Step_ok_iff {is : List (Fin 16)} {init bytes : Vector UInt8 16} :
    is.foldlM (u128Step array offset) init = .ok bytes ↔
      ∀ i : Fin 16, (i ∈ is → overlay init[i] array[offset + 16 + i]? = some bytes[i]) ∧
        (i ∉ is → init[i] = bytes[i]) := by
  induction is generalizing init with
  | nil =>
    simp only [List.foldlM_nil, List.not_mem_nil, false_implies, true_and, not_false_eq_true,
      true_implies]
    constructor
    · intro hOk i
      rw [Except.ok.inj hOk]
    · intro hSame
      refine congrArg Except.ok (Vector.ext ?_)
      intro i h
      exact hSame ⟨i, h⟩
  | cons k is ih =>
    rw [List.foldlM_cons]
    cases hCell : array[offset + 16 + k]? with
    | none =>
      rw [u128Step_missing hCell]
      refine ih.trans (forall_congr' ?_)
      intro i
      by_cases hi : i = k
      · subst hi
        simp [hCell, overlay]
      · simp [hi]
    | some v =>
      cases hByte : v.asU64 with
      | none =>
        rw [u128Step_error hCell hByte]
        refine iff_of_false (fun h => nomatch h) ?_
        intro hAll
        have hHere := (hAll k).1 List.mem_cons_self
        rw [hCell] at hHere
        simp [overlay, hByte] at hHere
      | some n =>
        rw [u128Step_ok hCell hByte]
        refine ih.trans (forall_congr' ?_)
        intro i
        by_cases hi : i = k
        · subst hi
          simp [hCell, overlay, hByte]
        · have hNe : (k : Nat) ≠ i := fun h => hi (Fin.ext h.symm)
          simp [hi, Vector.getElem_set_ne _ _ hNe]

/-- **`parse_u128_from_array_at_offset`** reads the second half of the word at the
offset. -/
theorem parseU128FromArrayAtOffset_ok_iff {v : Value} {n : U128} :
    parseU128FromArrayAtOffset v offset = .ok n ↔
      ∃ array, v = .array array ∧ ∃ bytes : Vector UInt8 16,
        (∀ i : Fin 16, byteAt array (offset + 16 + i) = some bytes[i]) ∧
          U128.fromBeBytes bytes = n := by
  rw [parseU128FromArrayAtOffset, bind_ok_iff]
  refine exists_congr ?_
  intro array
  rw [okOr_ok_iff, Value.asArray_eq_some, bind_ok_iff]
  refine and_congr_right' (exists_congr ?_)
  intro bytes
  rw [foldlM_u128Step_ok_iff]
  refine and_congr (forall_congr' ?_) ?_
  · intro i
    simp [byteAt]
  · exact ⟨Except.ok.inj, congrArg Except.ok⟩

-- ---------------------------------------------------------------------------
-- What is rejected
-- ---------------------------------------------------------------------------

/-- The value is an array, and what it has at `count` positions from `start` on are
unsigned numbers. -/
def Readable (v : Value) (start count : Nat) : Prop :=
  ∃ array, v = .array array ∧ ∀ i < count, ∀ w, array[start + i]? = some w →
    ∃ n, w = .number (.posInt n)

theorem isSome_byteAt {i : Nat} :
    (byteAt array i).isSome ↔ ∀ w, array[i]? = some w → ∃ n, w = .number (.posInt n) := by
  unfold byteAt
  cases hCell : array[i]? with
  | none => simp [overlay]
  | some w => simp [overlay, Option.isSome_iff_exists, Value.asU64_eq_some]

/-- The byte that a position gives: zero when it is beyond the end, and its number modulo 256
otherwise. -/
def ReadsAs (array : List Value) (i : Nat) (byte : UInt8) : Prop :=
  (array[i]? = none ∧ byte = 0) ∨
    ∃ n, array[i]? = some (.number (.posInt n)) ∧ byte.toNat = n.toNat % 256

theorem byteAt_eq_some_iff {i : Nat} {byte : UInt8} :
    byteAt array i = some byte ↔ ReadsAs array i byte := by
  have hCast : ∀ n : UInt64, n.toUInt8 = byte ↔ byte.toNat = n.toNat % 256 := by
    intro n
    rw [← UInt8.toNat_inj, UInt64.toNat_toUInt8, eq_comm]
  unfold byteAt ReadsAs
  cases hCell : array[i]? with
  | none => simp [overlay, eq_comm]
  | some w => simp [overlay, Value.asU64_eq_some, hCast]

/-- Bytes can be read from positions that are all readable. -/
theorem exists_bytes_iff {start count : Nat} :
    (∃ bytes : Vector UInt8 count, ∀ i : Fin count, byteAt array (start + i) = some bytes[i]) ↔
      ∀ i < count, (byteAt array (start + i)).isSome := by
  constructor
  · rintro ⟨bytes, hBytes⟩ i hi
    rw [hBytes ⟨i, hi⟩]
    rfl
  · intro hAll
    refine ⟨Vector.ofFn fun i : Fin count => (byteAt array (start + i)).get (hAll i i.2), ?_⟩
    intro i
    simp

theorem exists_error_iff {α ε : Type} {x : Except ε α} :
    (∃ e, x = .error e) ↔ ¬ ∃ a, x = .ok a := by
  cases x <;> simp

theorem exists_parseU128_ok_iff {v : Value} :
    (∃ n, parseU128FromArrayAtOffset v offset = .ok n) ↔ Readable v (offset + 16) 16 := by
  simp only [parseU128FromArrayAtOffset_ok_iff]
  constructor
  · rintro ⟨n, array, rfl, bytes, hBytes, -⟩
    refine ⟨array, rfl, ?_⟩
    intro i hi
    exact isSome_byteAt.mp (exists_bytes_iff.mp ⟨bytes, hBytes⟩ i hi)
  · rintro ⟨array, rfl, hAll⟩
    obtain ⟨bytes, hBytes⟩ := exists_bytes_iff.mpr fun i hi => isSome_byteAt.mpr (hAll i hi)
    exact ⟨_, array, rfl, bytes, hBytes, rfl⟩

theorem exists_parseBytes32_ok_iff {v : Value} :
    (∃ bytes, parseBytes32FromArray v = .ok bytes) ↔ Readable v 0 32 := by
  simp only [parseBytes32FromArray_ok_iff]
  constructor
  · rintro ⟨bytes, array, rfl, hBytes⟩
    refine ⟨array, rfl, ?_⟩
    intro i hi w hw
    rw [Nat.zero_add] at hw
    exact isSome_byteAt.mp (by rw [hBytes i hi]; rfl) w hw
  · rintro ⟨array, rfl, hAll⟩
    obtain ⟨bytes, hBytes⟩ := exists_bytes_iff.mpr fun i hi => isSome_byteAt.mpr (hAll i hi)
    refine ⟨bytes, array, rfl, ?_⟩
    intro i hi
    have hByte := hBytes ⟨i, hi⟩
    rwa [Nat.zero_add] at hByte

theorem exists_parseU256_ok_iff {v : Value} :
    (∃ n, parseU256FromArray v = .ok n) ↔ Readable v 0 32 := by
  rw [← exists_parseBytes32_ok_iff]
  simp only [parseU256FromArray, bind_ok_iff]
  constructor
  · rintro ⟨n, bytes, hBytes, -⟩
    exact ⟨bytes, hBytes⟩
  · rintro ⟨bytes, hBytes⟩
    exact ⟨_, bytes, hBytes, rfl⟩

theorem U128.fromBeBytes_eq_iff {bytes : Vector UInt8 16} {n : U128} :
    U128.fromBeBytes bytes = n ↔ n.toNat = BigEndian.value bytes.toList := by
  have hValue : BigEndian.value bytes.toList < 2 ^ 128 := by
    have hLt := BigEndian.value_lt bytes.toList
    rwa [Vector.length_toList] at hLt
  rw [← BitVec.toNat_inj, U128.fromBeBytes, BitVec.toNat_ofNat, Nat.mod_eq_of_lt hValue, eq_comm]

theorem U256.fromBeBytes_eq_iff {bytes : Vector UInt8 32} {n : U256} :
    U256.fromBeBytes bytes = n ↔ n.toNat = BigEndian.value bytes.toList := by
  have hValue : BigEndian.value bytes.toList < 2 ^ 256 := by
    have hLt := BigEndian.value_lt bytes.toList
    rwa [Vector.length_toList] at hLt
  rw [← BitVec.toNat_inj, U256.fromBeBytes, BitVec.toNat_ofNat, Nat.mod_eq_of_lt hValue, eq_comm]

theorem U128.fromBeBytes_eq_zero_iff {bytes : Vector UInt8 16} :
    U128.fromBeBytes bytes = 0 ↔ ∀ i : Fin 16, bytes[i] = 0 := by
  have hZero : U128.fromBeBytes bytes = 0 ↔ BigEndian.value bytes.toList = 0 :=
    U128.fromBeBytes_eq_iff.trans eq_comm
  rw [hZero, BigEndian.value_eq_zero_iff]
  constructor
  · intro hAll i
    exact hAll _ (Vector.mem_toList_iff.mpr (Vector.getElem_mem i.2))
  · intro hAll b hb
    obtain ⟨i, hi, rfl⟩ := Vector.mem_iff_getElem.mp (Vector.mem_toList_iff.mp hb)
    exact hAll ⟨i, hi⟩

theorem byteAt_eq_zero_iff {i : Nat} :
    byteAt array i = some 0 ↔
      ∀ w, array[i]? = some w → ∃ n, w = .number (.posInt n) ∧ 256 ∣ n.toNat := by
  rw [byteAt_eq_some_iff, ReadsAs]
  cases hCell : array[i]? with
  | none => simp
  | some w => simp [Nat.dvd_iff_mod_eq_zero, eq_comm]

/-- The parsed number is zero when all that is read is. -/
theorem parseU128_eq_zero_iff {v : Value} :
    parseU128FromArrayAtOffset v offset = .ok 0 ↔
      ∃ array, v = .array array ∧ ∀ i < 16, byteAt array (offset + 16 + i) = some 0 := by
  rw [parseU128FromArrayAtOffset_ok_iff]
  refine exists_congr ?_
  intro array
  refine and_congr_right' ?_
  constructor
  · rintro ⟨bytes, hBytes, hZero⟩ i hi
    rw [hBytes ⟨i, hi⟩, U128.fromBeBytes_eq_zero_iff.mp hZero ⟨i, hi⟩]
  · intro hAll
    refine ⟨Vector.replicate 16 0, ?_, U128.fromBeBytes_eq_zero_iff.mpr ?_⟩
    · intro i
      rw [hAll i i.2]
      simp
    · intro i
      simp

theorem parseBytes32_readsAs {v : Value} {bytes : Vector UInt8 32} :
    parseBytes32FromArray v = .ok bytes ↔
      ∃ array, v = .array array ∧ ∀ i : Fin 32, ReadsAs array i bytes[i] := by
  rw [parseBytes32FromArray_ok_iff]
  refine exists_congr fun array => and_congr_right' ?_
  simp only [byteAt_eq_some_iff]
  exact ⟨fun hAll i => hAll i i.2, fun hAll i hi => hAll ⟨i, hi⟩⟩

/-- **What the parsers reject, and what they return.** They reject a response that is not
an array, or that has something else than an unsigned number at one of the positions that
are read: the second half of the word at the offset, or the first 32 positions. Otherwise
they return the bytes of these positions, or the number that they are, big-endian: what is
missing reads as zero, numbers are read modulo 256, and the other positions are not looked
at. So a check for zero succeeds exactly on an array whose elements at the 16 positions,
where it has any, are multiples of 256. -/
theorem parsers_outcome_iff :
    (∀ v offset, (∃ e, parseU128FromArrayAtOffset v offset = .error e) ↔
      ¬ Readable v (offset + 16) 16) ∧
    (∀ v, (∃ e, parseBytes32FromArray v = .error e) ↔ ¬ Readable v 0 32) ∧
    (∀ v, (∃ e, parseU256FromArray v = .error e) ↔ ¬ Readable v 0 32) ∧
    (∀ v offset n, parseU128FromArrayAtOffset v offset = .ok n ↔
      ∃ array, v = .array array ∧ ∃ bytes : Vector UInt8 16,
        (∀ i : Fin 16, ReadsAs array (offset + 16 + i) bytes[i]) ∧
          n.toNat = BigEndian.value bytes.toList) ∧
    (∀ v bytes, parseBytes32FromArray v = .ok bytes ↔
      ∃ array, v = .array array ∧ ∀ i : Fin 32, ReadsAs array i bytes[i]) ∧
    (∀ v n, parseU256FromArray v = .ok n ↔
      ∃ array, v = .array array ∧ ∃ bytes : Vector UInt8 32,
        (∀ i : Fin 32, ReadsAs array i bytes[i]) ∧ n.toNat = BigEndian.value bytes.toList) ∧
    ∀ v offset, parseU128FromArrayAtOffset v offset = .ok 0 ↔
      ∃ array, v = .array array ∧ ∀ i < 16, ∀ w, array[offset + 16 + i]? = some w →
        ∃ n, w = .number (.posInt n) ∧ 256 ∣ n.toNat := by
  refine ⟨?_, ?_, ?_, ?_, ?_, ?_, ?_⟩
  · intro v offset
    rw [exists_error_iff, exists_parseU128_ok_iff]
  · intro v
    rw [exists_error_iff, exists_parseBytes32_ok_iff]
  · intro v
    rw [exists_error_iff, exists_parseU256_ok_iff]
  · intro v offset n
    simp only [parseU128FromArrayAtOffset_ok_iff, byteAt_eq_some_iff, U128.fromBeBytes_eq_iff]
  · intro v bytes
    exact parseBytes32_readsAs
  · intro v n
    simp only [parseU256FromArray, bind_ok_iff, parseBytes32_readsAs]
    constructor
    · rintro ⟨bytes, ⟨array, rfl, hBytes⟩, hValue⟩
      exact ⟨array, rfl, bytes, hBytes, U256.fromBeBytes_eq_iff.mp (Except.ok.inj hValue)⟩
    · rintro ⟨array, rfl, bytes, hBytes, hValue⟩
      exact ⟨bytes, ⟨array, rfl, hBytes⟩, congrArg Except.ok (U256.fromBeBytes_eq_iff.mpr hValue)⟩
  · intro v offset
    simp only [parseU128_eq_zero_iff, byteAt_eq_zero_iff]

/-- An empty response is no error: it has the debt zero, and the zero word. -/
theorem parsers_accept_empty_response :
    parseU128FromArrayAtOffset (.array []) 64 = .ok 0 ∧
      parseBytes32FromArray (.array []) = .ok (Vector.replicate 32 0) ∧
      parseU256FromArray (.array []) = .ok 0 :=
  ⟨by decide, by decide, by decide⟩

end LineraEndToEnd.Evm
