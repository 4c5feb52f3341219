import LineraEndToEnd.Evm.Parsers

/-!
# Evm — parsing what was encoded

The ABI encoding of the values the tests ask for, as the responses carry it: words of
32 bytes, big endian, each byte a number of a JSON array. Two files parse it, with two
ways to find the bytes.

* `wordOfNat`, `wordOfAddress`, `wordOfBool` — the words; `Value.ofBytes` — the array.
* `byteAt_ofBytes`, `valueToVecU8_ofBytes` — both ways give the bytes back.
* `parsers_undo_encoding` — so every parser gives its value back.
-/

namespace LineraEndToEnd.Evm

open Lib

-- ---------------------------------------------------------------------------
-- The encoding
-- ---------------------------------------------------------------------------

/-- A byte as a JSON number. -/
def Value.ofByte (b : UInt8) : Value := .number (.posInt b.toUInt64)

/-- Bytes as a JSON array. -/
def Value.ofBytes (bytes : List UInt8) : Value := .array (bytes.map Value.ofByte)

/-- The word of a number. -/
def wordOfNat (n : Nat) : List UInt8 := BigEndian.digits 32 n

/-- The words of several numbers, one after another. -/
def wordsOfU128s (values : List U128) : List UInt8 :=
  values.flatMap fun value => wordOfNat value.toNat

/-- The word of an address, padded on the left. -/
def wordOfAddress (address : Address) : List UInt8 := List.replicate 12 0 ++ address.toList

/-- The word of a boolean. -/
def wordOfBool (b : Bool) : List UInt8 := wordOfNat b.toNat

-- ---------------------------------------------------------------------------
-- Bytes
-- ---------------------------------------------------------------------------

theorem Value.asU64_ofByte (b : UInt8) : (Value.ofByte b).asU64 = some b.toUInt64 := rfl

/-- What the parsers of `main.rs` read are the bytes. -/
theorem byteAt_ofBytes {bytes : List UInt8} {i : Nat} (hi : i < bytes.length) :
    byteAt (bytes.map Value.ofByte) i = some bytes[i] := by
  rw [byteAt, List.getElem?_map, List.getElem?_eq_getElem hi]
  simp [overlay, Value.asU64_ofByte]

/-- What the parsers of `solidity.rs` read are the bytes. -/
theorem valueToVecU8_ofBytes (bytes : List UInt8) :
    valueToVecU8 (.ofBytes bytes) = .ok bytes := by
  have hLoop : ∀ vec : List UInt8, (bytes.map Value.ofByte).foldlM (fun vec val => do
      let val ← okOr val.asU64 Panic.notANumber
      return vec ++ [val.toUInt8]) vec = .ok (vec ++ bytes) := by
    induction bytes with
    | nil =>
      intro vec
      rw [List.append_nil]
      rfl
    | cons b bytes ih =>
      intro vec
      have hSplit : vec ++ b :: bytes = (vec ++ [b]) ++ bytes := by simp
      rw [hSplit, ← ih (vec ++ [b]), List.map_cons, List.foldlM_cons, Value.asU64_ofByte]
      simp [okOr, bind, Except.bind, pure, Except.pure]
  exact hLoop []

/-- In a list of words of one length, every word stands at its multiple of the length. -/
theorem getElem?_flatMap_words {α β : Type} {f : α → List β} {w : Nat}
    (hLength : ∀ a, (f a).length = w) {l : List α} {k j : Nat} (hk : k < l.length) (hj : j < w) :
    (l.flatMap f)[w * k + j]? = (f l[k])[j]? := by
  induction l generalizing k with
  | nil => cases hk
  | cons a l ih =>
    rw [List.flatMap_cons]
    cases k with
    | zero =>
      have hFirst : w * 0 + j < (f a).length := by
        rw [hLength]
        omega
      rw [List.getElem?_append_left hFirst, Nat.mul_zero, Nat.zero_add]
      rfl
    | succ k =>
      have hLater : w * (k + 1) + j = (f a).length + (w * k + j) := by
        rw [hLength, Nat.mul_succ]
        omega
      rw [hLater, List.getElem?_append_right (Nat.le_add_right ..), Nat.add_sub_cancel_left]
      exact ih (Nat.lt_of_succ_lt_succ hk)

-- ---------------------------------------------------------------------------
-- Words
-- ---------------------------------------------------------------------------

@[simp] theorem length_wordOfNat (n : Nat) : (wordOfNat n).length = 32 :=
  BigEndian.length_digits ..

/-- A word as it is returned by `parse_bytes32_from_array`. -/
theorem parseBytes32_ofBytes (word : Vector UInt8 32) :
    parseBytes32FromArray (.ofBytes word.toList) = .ok word := by
  refine parseBytes32FromArray_ok_iff.mpr ⟨_, rfl, ?_⟩
  intro i hi
  have hLength : i < word.toList.length := by
    rw [Vector.length_toList]
    exact hi
  rw [byteAt_ofBytes hLength, Vector.getElem_toList]

/-- The word at position `k` is parsed at the offset `32 * k`. -/
theorem parseU128_wordsOfU128s (values : List U128) (k : Fin values.length) :
    parseU128FromArrayAtOffset (.ofBytes (wordsOfU128s values)) (32 * k) = .ok values[k] := by
  -- the second half of the word is the number in 16 bytes
  let bytes : Vector UInt8 16 := ⟨(BigEndian.digits 16 values[k].toNat).toArray, by simp⟩
  refine parseU128FromArrayAtOffset_ok_iff.mpr ⟨_, rfl, bytes, ?_, ?_⟩
  · intro i
    have hHalf : (wordOfNat values[k].toNat)[16 + (i : Nat)]? =
        (BigEndian.digits 16 values[k].toNat)[(i : Nat)]? := by
      have hDrop : (wordOfNat values[k].toNat).drop 16 = BigEndian.digits 16 values[k].toNat :=
        BigEndian.drop_digits 16 16 _
      rw [← hDrop, List.getElem?_drop]
    have hWord : (wordsOfU128s values)[32 * (k : Nat) + 16 + i]? = some bytes[i] := by
      have hCell := getElem?_flatMap_words (f := fun value : U128 => wordOfNat value.toNat)
        (fun _ => length_wordOfNat _) k.2 (j := 16 + i) (by omega)
      rw [Nat.add_assoc, wordsOfU128s, hCell]
      refine hHalf.trans ?_
      rw [List.getElem?_eq_getElem (by simp)]
      rfl
    obtain ⟨hIn, hByte⟩ := List.getElem?_eq_some_iff.mp hWord
    rw [byteAt_ofBytes hIn, hByte]
  · have hValue : BigEndian.value bytes.toList = values[k].toNat :=
      BigEndian.value_digits_of_lt values[k].isLt
    rw [U128.fromBeBytes, hValue, BitVec.ofNat_toNat, BitVec.setWidth_eq]

theorem parseU256_wordOfNat (x : U256) :
    parseU256FromArray (.ofBytes (wordOfNat x.toNat)) = .ok x := by
  let word : Vector UInt8 32 := ⟨(wordOfNat x.toNat).toArray, by simp⟩
  have hValue : BigEndian.value word.toList = x.toNat := BigEndian.value_digits_of_lt x.isLt
  refine (bind_ok_iff (x := parseBytes32FromArray _)).mpr ⟨word, parseBytes32_ofBytes word, ?_⟩
  refine congrArg Except.ok ?_
  rw [U256.fromBeBytes, hValue, BitVec.ofNat_toNat, BitVec.setWidth_eq]

theorem readEvmAddressEntry_wordOfAddress (address : Address) :
    readEvmAddressEntry (.ofBytes (wordOfAddress address)) = .ok address := by
  have hLength : (wordOfAddress address).length = 32 := by simp [wordOfAddress]
  have hDrop : (wordOfAddress address).drop 12 = address.toList := by simp [wordOfAddress]
  refine bind_ok_iff.mpr ⟨wordOfAddress address, valueToVecU8_ofBytes _, ?_⟩
  rw [if_neg (by omega), dif_pos (by rw [hDrop, Vector.length_toList])]
  refine congrArg Except.ok (Vector.toList_inj.mp ?_)
  exact hDrop

theorem readEvmBoolEntry_wordOfBool (b : Bool) :
    readEvmBoolEntry (.ofBytes (wordOfBool b)) = .ok b := by
  rw [readEvmBoolEntry, valueToVecU8_ofBytes]
  cases b <;> rfl

/-- **The parsers undo the encoding.** The `k`-th of any list of `u128` values is parsed
at the offset `32 * k`; a number of 256 bits, an address and a boolean are parsed from
their words; and a word of any 32 bytes is read the same by both files. -/
theorem parsers_undo_encoding :
    (∀ (values : List U128) (k : Fin values.length),
      parseU128FromArrayAtOffset (.ofBytes (wordsOfU128s values)) (32 * k) = .ok values[k]) ∧
    (∀ x : U256, parseU256FromArray (.ofBytes (wordOfNat x.toNat)) = .ok x) ∧
    (∀ address, readEvmAddressEntry (.ofBytes (wordOfAddress address)) = .ok address) ∧
    (∀ b, readEvmBoolEntry (.ofBytes (wordOfBool b)) = .ok b) ∧
    ∀ word : Vector UInt8 32, parseBytes32FromArray (.ofBytes word.toList) = .ok word ∧
      valueToVecU8 (.ofBytes word.toList) = .ok word.toList :=
  ⟨parseU128_wordsOfU128s, parseU256_wordOfNat, readEvmAddressEntry_wordOfAddress,
    readEvmBoolEntry_wordOfBool, fun word => ⟨parseBytes32_ofBytes word, valueToVecU8_ofBytes _⟩⟩

end LineraEndToEnd.Evm
