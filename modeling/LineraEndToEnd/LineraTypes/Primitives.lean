import LineraEndToEnd.Lib.Leb128
import LineraEndToEnd.Solidity.Language

/-!
# `LineraTypes.sol` — the primitive types

The library by which EVM contracts talk to the Linera runtime writes and reads the BCS
format: lengths, numbers, booleans, bytes, sequences and options.

* `Memory` — a `bytes memory`, with the memory behind it, which `mload` may read.
* `bcsDeserializeOffsetLen_ok_iff` — exactly which bytes are read as a length.
* `lawful_len`, `lawful_bytes`, `lawful_seq`, … — every codec is lawful (`Lib.Codec`).
-/

namespace LineraEndToEnd.LineraTypes

open Lib Solidity

-- ---------------------------------------------------------------------------
-- Memory
-- ---------------------------------------------------------------------------

/-- `bytes`, as a value. -/
abbrev Bytes := List UInt8

/-- The greatest length that can be allocated. -/
def maxLength : Nat := 2 ^ 64 - 1

/-- `bytes memory`. -/
abbrev Memory := Buffer UInt8 maxLength

/-- `input[i]`. -/
def getByte (input : Memory) (i : Nat) : Result UInt8 :=
  match input.data[i]? with
  | some b => .ok b
  | none => .error (.panic 0x32)

/-- `input[pos + i]`. -/
def readByte (input : Memory) (pos i : Nat) : Result UInt8 := do
  let index ← checkedAdd 256 pos i
  getByte input index

/-- `new T[](len)`. -/
def allocate (len : Nat) : Result Unit :=
  if len ≤ maxLength then .ok () else .error (.panic 0x41)

abbrev Serialize (α : Type) := Encoder Revert α UInt8

abbrev DeserializeOffset (α : Type) := Decoder Revert α UInt8 maxLength

/-- All the functions `bcs_deserialize_T`. -/
def bcsDeserialize {α : Type} (deserializeOffset : DeserializeOffset α) (input : Memory) :
    Result α :=
  deserializeOffset.whole (.error "incomplete deserialization") input

variable {α : Type} {input : Memory} {pos n : Nat} {bytes : Bytes}

theorem ok_bind {γ : Type} (x : α) (f : α → Result γ) : (Except.ok x >>= f) = f x := rfl

theorem checkedAdd_of_has (h : input.Has pos bytes) {k : Nat} (hk : k ≤ bytes.length) :
    checkedAdd 256 pos k = .ok (pos + k) := by
  have hInside := h.le
  have hFits : input.data.length ≤ 2 ^ 64 - 1 := input.fits
  rw [checkedAdd_ok_iff, maxUint]
  omega

theorem getByte_of_has (h : input.Has pos bytes) {i : Nat} (hi : i < bytes.length) :
    getByte input (pos + i) = .ok bytes[i] := by
  rw [getByte, h.getElem? hi]

theorem readByte_of_has (h : input.Has pos bytes) {i : Nat} (hi : i < bytes.length) :
    readByte input pos i = .ok bytes[i] := by
  rw [readByte, checkedAdd_of_has h hi.le]
  exact getByte_of_has h hi

-- ---------------------------------------------------------------------------
-- Lengths
-- ---------------------------------------------------------------------------

/-- The loop of `bcs_serialize_len`. -/
def serializeLenLoop (result : Bytes) (x : Nat) : Result Bytes :=
  if x < 128 then return result ++ [UInt8.ofNat x]
  else do
    let remainder ← checkedSub x ((x >>> 7) <<< 7)
    requireThat (remainder < 128)
    let entry ← checkedAdd 8 remainder 128
    serializeLenLoop (result ++ [UInt8.ofNat entry]) (x >>> 7)
termination_by x
decreasing_by
  rw [Nat.shiftRight_eq_div_pow]
  omega

/-- `bcs_serialize_len`. -/
def bcsSerializeLen : Serialize Nat := serializeLenLoop []

/-- The first loop of `bcs_deserialize_offset_len`, over the bytes from `pos` on: the position
of the first one below 128. -/
def lenIndex : Bytes → Nat → Result Nat
  | [], _ => .error (.panic 0x32)
  | b :: bytes, idx => if b.toNat < 128 then return idx else lenIndex bytes (idx + 1)

/-- The body of its second loop, on `result` and `power`. -/
def lenStep (s : Nat × Nat) (b : UInt8) : Result (Nat × Nat) := do
  let val ← checkedSub b.toNat 128
  let term ← checkedMul s.2 val
  let result ← checkedAdd 256 s.1 term
  let power ← checkedMul s.2 128
  return (result, power)

/-- `bcs_deserialize_offset_len`. -/
def bcsDeserializeOffsetLen : DeserializeOffset Nat := fun pos input => do
  let idx ← lenIndex (input.data.drop pos) 0
  let (result, power) ← ((input.data.drop pos).take idx).foldlM lenStep (0, 1)
  let last ← readByte input pos idx
  let term ← checkedMul power last.toNat
  let result ← checkedAdd 256 result term
  let newPos ← checkedAdd 256 pos (idx + 1)
  return (newPos, result)

theorem serializeLenLoop_eq (result : Bytes) (x : Nat) :
    serializeLenLoop result x = .ok (result ++ Leb128.encode x) := by
  induction result, x using serializeLenLoop.induct with
  | case1 result x h =>
    rw [serializeLenLoop, if_pos h, Leb128.encode_of_lt h]
    rfl
  | case2 result x h ih =>
    have hShift : x >>> 7 = x / 128 := Nat.shiftRight_eq_div_pow x 7
    have hRemainder : checkedSub x ((x >>> 7) <<< 7) = .ok (x % 128) := by
      rw [checkedSub_ok_iff, hShift, Nat.shiftLeft_eq]
      omega
    have hSmall : requireThat (x % 128 < 128) = .ok () := by
      rw [requireThat_ok_iff]
      omega
    have hEntry : checkedAdd 8 (x % 128) 128 = .ok (x % 128 + 128) := by
      rw [checkedAdd_ok_iff, maxUint]
      omega
    rw [serializeLenLoop, if_neg h, hRemainder, ok_bind, hSmall, ok_bind, hEntry, ok_bind, ih,
      hShift, Leb128.encode_of_le (n := x) (by omega), List.append_assoc, List.singleton_append]

theorem bcsSerializeLen_eq (x : Nat) : bcsSerializeLen x = .ok (Leb128.encode x) :=
  serializeLenLoop_eq [] x

theorem lenIndex_ok_iff {l : Bytes} {k m : Nat} :
    lenIndex l k = .ok m ↔ ∃ init last rest, l = init ++ last :: rest ∧ m = k + init.length ∧
      (∀ b ∈ init, 128 ≤ b.toNat) ∧ last.toNat < 128 := by
  induction l generalizing k with
  | nil => simp [lenIndex]
  | cons b l ih =>
    rw [lenIndex]
    split
    case isTrue h =>
      constructor
      · intro hOk
        cases hOk
        exact ⟨[], b, l, rfl, rfl, by simp, h⟩
      · rintro ⟨init, last, rest, hEq, rfl, hMore, -⟩
        cases init with
        | nil => rfl
        | cons c init =>
          rw [List.cons_append, List.cons.injEq] at hEq
          have hFirst := hMore c (by simp)
          rw [← hEq.1] at hFirst
          omega
    case isFalse h =>
      rw [ih]
      constructor
      · rintro ⟨init, last, rest, rfl, rfl, hMore, hLast⟩
        refine ⟨b :: init, last, rest, rfl, ?_, ?_, hLast⟩
        · rw [List.length_cons]
          omega
        · rw [List.forall_mem_cons]
          exact ⟨by omega, hMore⟩
      · rintro ⟨init, last, rest, hEq, rfl, hMore, hLast⟩
        cases init with
        | nil =>
          rw [List.nil_append, List.cons.injEq] at hEq
          rw [← hEq.1] at hLast
          exact absurd hLast h
        | cons c init =>
          rw [List.cons_append, List.cons.injEq] at hEq
          rw [List.forall_mem_cons] at hMore
          exact ⟨init, last, rest, hEq.2, by rw [List.length_cons]; omega, hMore.2, hLast⟩

theorem lenStep_ok_iff {r p : Nat} {b : UInt8} {s : Nat × Nat} (h : 128 ≤ b.toNat) :
    lenStep (r, p) b = .ok s ↔ r + p * (b.toNat % 128) ≤ maxUint 256 ∧ p * 128 ≤ maxUint 256 ∧
      s = (r + p * (b.toNat % 128), p * 128) := by
  have hByte := b.toNat_lt
  have hLow : b.toNat - 128 = b.toNat % 128 := by omega
  simp only [lenStep, bind_ok_iff, pure_ok_iff, checkedSub_ok_iff, checkedMul_ok_iff,
    checkedAdd_ok_iff, hLow]
  constructor
  · rintro ⟨val, ⟨-, rfl⟩, term, ⟨-, rfl⟩, result, ⟨hResult, rfl⟩, power, ⟨hPower, rfl⟩, rfl⟩
    exact ⟨hResult, hPower, rfl⟩
  · rintro ⟨hResult, hPower, rfl⟩
    exact ⟨_, ⟨h, rfl⟩, _, ⟨(Nat.le_add_left ..).trans hResult, rfl⟩, _, ⟨hResult, rfl⟩, _,
      ⟨hPower, rfl⟩, rfl⟩

theorem foldlM_lenStep_ok_iff {init : Bytes} (hMore : ∀ b ∈ init, 128 ≤ b.toNat) {r p : Nat}
    {s : Nat × Nat} (hr : r ≤ maxUint 256) (hp : p ≤ maxUint 256) :
    init.foldlM lenStep (r, p) = .ok s ↔ r + p * Leb128.value init ≤ maxUint 256 ∧
      p * 128 ^ init.length ≤ maxUint 256 ∧
      s = (r + p * Leb128.value init, p * 128 ^ init.length) := by
  induction init generalizing r p with
  | nil =>
    rw [List.foldlM_nil, pure_ok_iff]
    simp [Leb128.value, hr, hp, eq_comm]
  | cons b init ih =>
    rw [List.forall_mem_cons] at hMore
    have hValue : r + p * Leb128.value (b :: init) =
        r + p * (b.toNat % 128) + p * 128 * Leb128.value init := by
      rw [Leb128.value]
      ring
    have hPower : p * 128 ^ (b :: init).length = p * 128 * 128 ^ init.length := by
      rw [List.length_cons, Nat.pow_succ]
      ring
    rw [List.foldlM_cons, bind_ok_iff, hValue, hPower]
    constructor
    · rintro ⟨s', hStep, hRest⟩
      obtain ⟨hResult, hNext, rfl⟩ := (lenStep_ok_iff hMore.1).mp hStep
      exact (ih hMore.2 hResult hNext).mp hRest
    · rintro ⟨hResult, hNext, rfl⟩
      have hResult' := (Nat.le_add_right ..).trans hResult
      have hNext' := (Nat.le_mul_of_pos_right _ (Nat.pow_pos (by decide))).trans hNext
      exact ⟨_, (lenStep_ok_iff hMore.1).mpr ⟨hResult', hNext', rfl⟩,
        (ih hMore.2 hResult' hNext').mpr ⟨hResult, hNext, rfl⟩⟩

theorem value_snoc (init : Bytes) {last : UInt8} (h : last.toNat < 128) :
    Leb128.value (init ++ [last]) = Leb128.value init + 128 ^ init.length * last.toNat := by
  rw [Leb128.value_append, Leb128.value, Leb128.value, Nat.mod_eq_of_lt h, Nat.mul_zero,
    Nat.add_zero]

/-- **Which bytes are read as a length**: any number of bytes from 128 on and then one below it,
whose groups of seven bits are a number of 256 bits; and no more than 37 of them, even where
the last ones are zero, for the power of the last one is computed as well. -/
theorem bcsDeserializeOffsetLen_ok_iff {x : Nat} :
    bcsDeserializeOffsetLen pos input = .ok (n, x) ↔ ∃ init last,
      input.Has pos (init ++ [last]) ∧ (∀ b ∈ init, 128 ≤ b.toNat) ∧ last.toNat < 128 ∧
      128 ^ init.length ≤ maxUint 256 ∧ Leb128.value (init ++ [last]) ≤ maxUint 256 ∧
      n = pos + (init.length + 1) ∧ x = Leb128.value (init ++ [last]) := by
  -- what the code computes once its first loop has ended
  have hRest : ∀ {init : Bytes} {last : UInt8}, input.Has pos (init ++ [last]) →
      (∀ b ∈ init, 128 ≤ b.toNat) → last.toNat < 128 →
      (lenIndex (input.data.drop pos) 0 = .ok init.length ∧
        (bcsDeserializeOffsetLen pos input = .ok (n, x) ↔
          128 ^ init.length ≤ maxUint 256 ∧ Leb128.value (init ++ [last]) ≤ maxUint 256 ∧
          n = pos + (init.length + 1) ∧ x = Leb128.value (init ++ [last]))) := by
    intro init last hHas hMore hLast
    obtain ⟨-, rest, hDrop⟩ := id hHas
    have hIndex : lenIndex (input.data.drop pos) 0 = .ok init.length := by
      rw [lenIndex_ok_iff]
      exact ⟨init, last, rest, by rw [← hDrop, List.append_assoc, List.singleton_append],
        (Nat.zero_add _).symm, hMore, hLast⟩
    have hTake : (input.data.drop pos).take init.length = init := by
      rw [← hDrop, List.append_assoc, List.take_left]
    have hByte : readByte input pos init.length = .ok last := by
      rw [readByte_of_has hHas (by simp)]
      simp
    have hNewPos : checkedAdd 256 pos (init.length + 1) = .ok (pos + (init.length + 1)) :=
      checkedAdd_of_has hHas (by simp)
    refine ⟨hIndex, ?_⟩
    rw [bcsDeserializeOffsetLen, hIndex, ok_bind, hTake, bind_ok_iff, value_snoc init hLast]
    constructor
    · rintro ⟨⟨r, p⟩, hFold, hOk⟩
      obtain ⟨-, hPower, hEq⟩ :=
        (foldlM_lenStep_ok_iff hMore (Nat.zero_le _) (by decide)).mp hFold
      rw [Nat.zero_add, Nat.one_mul, Nat.one_mul] at hEq
      cases hEq
      simp only [hByte, hNewPos, ok_bind, bind_ok_iff, checkedMul_ok_iff, checkedAdd_ok_iff,
        pure_ok_iff, Prod.mk.injEq] at hOk
      obtain ⟨term, ⟨-, rfl⟩, result, ⟨hFits, rfl⟩, rfl, rfl⟩ := hOk
      rw [Nat.one_mul] at hPower
      exact ⟨hPower, hFits, rfl, rfl⟩
    · rintro ⟨hPower, hFits, rfl, rfl⟩
      refine ⟨(Leb128.value init, 128 ^ init.length), ?_, ?_⟩
      · rw [foldlM_lenStep_ok_iff hMore (Nat.zero_le _) (by decide), Nat.zero_add, Nat.one_mul,
          Nat.one_mul]
        exact ⟨(Nat.le_add_right ..).trans hFits, hPower, rfl⟩
      · simp only [hByte, hNewPos, ok_bind, bind_ok_iff, checkedMul_ok_iff, checkedAdd_ok_iff,
          pure_ok_iff]
        exact ⟨_, ⟨(Nat.le_add_left ..).trans hFits, rfl⟩, _, ⟨hFits, rfl⟩, rfl⟩
  constructor
  · intro hOk
    obtain ⟨idx, hIndex, -⟩ := bind_ok_iff.mp hOk
    obtain ⟨init, last, rest, hDrop, -, hMore, hLast⟩ := lenIndex_ok_iff.mp hIndex
    have hPos : pos ≤ input.data.length := by
      by_contra hNot
      rw [List.drop_eq_nil_of_le (by omega)] at hDrop
      simp at hDrop
    have hHas : input.Has pos (init ++ [last]) :=
      ⟨hPos, rest, by rw [hDrop, List.append_assoc, List.singleton_append]⟩
    exact ⟨init, last, hHas, hMore, hLast, (hRest hHas hMore hLast).2.mp hOk⟩
  · rintro ⟨init, last, hHas, hMore, hLast, hOk⟩
    exact (hRest hHas hMore hLast).2.mpr hOk

/-- The bytes of a length are read as one wherever they stand. -/
theorem spells_len {init : Bytes} {last : UInt8} (hMore : ∀ b ∈ init, 128 ≤ b.toNat)
    (hLast : last.toNat < 128) (hPower : 128 ^ init.length ≤ maxUint 256)
    (hFits : Leb128.value (init ++ [last]) ≤ maxUint 256) :
    Spells bcsDeserializeOffsetLen (init ++ [last]) (Leb128.value (init ++ [last])) := by
  intro b pos hHas
  rw [bcsDeserializeOffsetLen_ok_iff]
  exact ⟨init, last, hHas, hMore, hLast, hPower, hFits, by simp, rfl⟩

theorem lawful_len : Lawful bcsSerializeLen bcsDeserializeOffsetLen (· ≤ maxUint 256) := by
  constructor
  · intro x hx
    obtain ⟨init, last, hEncode, hMore, hLast⟩ := Leb128.ends_iff.mp (Leb128.ends_encode x)
    have hValue := Leb128.value_encode x
    have hPower : 128 ^ init.length ≤ maxUint 256 := by
      by_cases hSmall : x < 128
      · rw [Leb128.encode_of_lt hSmall] at hEncode
        have hLength := congrArg List.length hEncode
        simp only [List.length_cons, List.length_nil, List.length_append] at hLength
        rw [show init.length = 0 by omega]
        decide
      · have hNeeded := Leb128.pow_length_le (n := x) (by omega)
        rw [hEncode, List.length_append, List.length_singleton, Nat.add_sub_cancel] at hNeeded
        exact hNeeded.trans hx
    refine ⟨Leb128.encode x, bcsSerializeLen_eq x, ?_⟩
    rw [hEncode] at hValue ⊢
    have hSpells := spells_len hMore hLast hPower (hValue.symm ▸ hx)
    rwa [hValue] at hSpells
  · intro b pos n x hOk
    obtain ⟨init, last, hHas, hMore, hLast, hPower, hFits, rfl, rfl⟩ :=
      bcsDeserializeOffsetLen_ok_iff.mp hOk
    refine ⟨Nat.le_add_right .., hFits, fun _ => ?_⟩
    refine ⟨init ++ [last], hHas, by simp, spells_len hMore hLast hPower hFits, ?_⟩
    intro canon hCanon
    rw [bcsSerializeLen_eq, Except.ok.injEq] at hCanon
    rw [← hCanon]
    exact Leb128.shortest_encode (Leb128.ends_iff.mpr ⟨init, last, rfl, hMore, hLast⟩)

-- ---------------------------------------------------------------------------
-- Numbers
-- ---------------------------------------------------------------------------

/-- `bcs_serialize_uint8`. -/
def bcsSerializeUint8 : Serialize UInt8 := fun input => return [input]

/-- `bcs_deserialize_offset_uint8`. -/
def bcsDeserializeOffsetUint8 : DeserializeOffset UInt8 := fun pos input => do
  let value ← getByte input pos
  let newPos ← checkedAdd 256 pos 1
  return (newPos, value)

/-- The loop of `bcs_serialize_uint32` and `bcs_serialize_uint64`, for so many bytes. -/
def serializeUint : Nat → Nat → Bytes
  | 0, _ => []
  | w + 1, value => UInt8.ofNat value :: serializeUint w (value >>> 8)

/-- The body of the loop of `bcs_deserialize_offset_uint32` and `_uint64`: the value is shifted,
and the byte at `pos + i` is added. -/
def uintStep (w pos : Nat) (input : Memory) (value i : Nat) : Result Nat := do
  let b ← readByte input pos i
  checkedAdd (8 * w) (value <<< 8 % 2 ^ (8 * w)) b.toNat

/-- Both functions, which read the last byte first. -/
def deserializeOffsetUint (w : Nat) : DeserializeOffset Nat := fun pos input => do
  let first ← readByte input pos (w - 1)
  let value ← (List.range (w - 1)).reverse.foldlM (uintStep w pos input) first.toNat
  let newPos ← checkedAdd 256 pos w
  return (newPos, value)

/-- `bcs_serialize_uint32`. -/
def bcsSerializeUint32 : Serialize UInt32 := fun input => return serializeUint 4 input.toNat

/-- `bcs_deserialize_offset_uint32`. -/
def bcsDeserializeOffsetUint32 : DeserializeOffset UInt32 :=
  (deserializeOffsetUint 4).map UInt32.ofNat

/-- `bcs_serialize_uint64`. -/
def bcsSerializeUint64 : Serialize UInt64 := fun input => return serializeUint 8 input.toNat

/-- `bcs_deserialize_offset_uint64`. -/
def bcsDeserializeOffsetUint64 : DeserializeOffset UInt64 :=
  (deserializeOffsetUint 8).map UInt64.ofNat

/-- The number of bytes, the lowest first. -/
def littleEndian : Bytes → Nat
  | [] => 0
  | b :: bytes => b.toNat + 256 * littleEndian bytes

theorem littleEndian_lt (bytes : Bytes) : littleEndian bytes < 256 ^ bytes.length := by
  induction bytes with
  | nil => decide
  | cons b bytes ih =>
    have hByte := b.toNat_lt
    rw [littleEndian, List.length_cons, Nat.pow_succ]
    omega

theorem length_serializeUint (w value : Nat) : (serializeUint w value).length = w := by
  induction w generalizing value with
  | zero => rfl
  | succ w ih => rw [serializeUint, List.length_cons, ih]

theorem littleEndian_serializeUint {w value : Nat} (h : value < 256 ^ w) :
    littleEndian (serializeUint w value) = value := by
  induction w generalizing value with
  | zero =>
    rw [Nat.pow_zero] at h
    rw [serializeUint, littleEndian]
    omega
  | succ w ih =>
    rw [Nat.pow_succ] at h
    have hShift : value >>> 8 = value / 256 := Nat.shiftRight_eq_div_pow value 8
    rw [serializeUint, littleEndian, hShift, ih (by omega), UInt8.toNat_ofNat']
    omega

theorem serializeUint_littleEndian (bytes : Bytes) :
    serializeUint bytes.length (littleEndian bytes) = bytes := by
  induction bytes with
  | nil => rfl
  | cons b bytes ih =>
    have hByte := b.toNat_lt
    have hShift : littleEndian (b :: bytes) >>> 8 = littleEndian bytes := by
      rw [Nat.shiftRight_eq_div_pow, littleEndian]
      omega
    have hLow : UInt8.ofNat (littleEndian (b :: bytes)) = b := by
      apply UInt8.toNat_inj.mp
      rw [UInt8.toNat_ofNat', littleEndian]
      omega
    rw [List.length_cons, serializeUint, hShift, hLow, ih]

theorem littleEndian_drop {k : Nat} (hk : k < bytes.length) :
    littleEndian (bytes.drop k) = bytes[k].toNat + 256 * littleEndian (bytes.drop (k + 1)) := by
  rw [List.drop_eq_getElem_cons hk, littleEndian]

/-- The loop reads the bytes that are left. -/
theorem foldlM_uintStep (h : input.Has pos bytes) {k : Nat} (hk : k ≤ bytes.length) :
    (List.range k).reverse.foldlM (uintStep bytes.length pos input)
      (littleEndian (bytes.drop k)) = .ok (littleEndian bytes) := by
  induction k with
  | zero => rw [List.drop_zero]; rfl
  | succ k ih =>
    -- the value so far leaves room for the byte
    have hLt : littleEndian (bytes.drop k) < 2 ^ (8 * bytes.length) := by
      calc littleEndian (bytes.drop k) < 256 ^ (bytes.drop k).length := littleEndian_lt _
        _ ≤ 256 ^ bytes.length := Nat.pow_le_pow_right (by decide) (by simp)
        _ = 2 ^ (8 * bytes.length) := by rw [Nat.pow_mul]
    have hDrop := littleEndian_drop (show k < bytes.length from hk)
    have hShift : littleEndian (bytes.drop (k + 1)) <<< 8 % 2 ^ (8 * bytes.length) =
        256 * littleEndian (bytes.drop (k + 1)) := by
      rw [Nat.shiftLeft_eq, Nat.mul_comm, Nat.mod_eq_of_lt]
      omega
    have hStep : uintStep bytes.length pos input (littleEndian (bytes.drop (k + 1))) k =
        .ok (littleEndian (bytes.drop k)) := by
      rw [uintStep, readByte_of_has h hk, ok_bind, hShift, checkedAdd_ok_iff, maxUint]
      omega
    rw [List.range_succ, List.reverse_append, List.reverse_singleton, List.singleton_append,
      List.foldlM_cons, hStep, ok_bind]
    exact ih (by omega)

theorem deserializeOffsetUint_of_has (h : input.Has pos bytes) (hPos : 0 < bytes.length) :
    deserializeOffsetUint bytes.length pos input =
      .ok (pos + bytes.length, littleEndian bytes) := by
  have hLast := littleEndian_drop (show bytes.length - 1 < bytes.length by omega)
  rw [Nat.sub_add_cancel hPos, List.drop_length, littleEndian, Nat.mul_zero, Nat.add_zero] at hLast
  have hLoop := foldlM_uintStep h (k := bytes.length - 1) (by omega)
  rw [hLast] at hLoop
  rw [deserializeOffsetUint, readByte_of_has h (by omega), ok_bind, hLoop, ok_bind,
    checkedAdd_of_has h le_rfl]
  rfl

theorem lawful_uint {w : Nat} (hw : 0 < w) :
    Lawful (fun value => .ok (serializeUint w value)) (deserializeOffsetUint w)
      (· < 256 ^ w) := by
  refine Lawful.ofFixed w littleEndian (serializeUint w) ?_ ?_ ?_ ?_
  · intro value hLt
    exact ⟨rfl, length_serializeUint w value, littleEndian_serializeUint hLt⟩
  · rintro b pos bytes hHas rfl
    exact deserializeOffsetUint_of_has hHas hw
  · rintro bytes rfl
    exact serializeUint_littleEndian bytes
  · intro b pos n x hOk
    -- the last byte is there, so all of them are
    obtain ⟨first, hFirst, hRest⟩ := bind_ok_iff.mp hOk
    obtain ⟨index, hIndex, hGet⟩ := bind_ok_iff.mp hFirst
    obtain ⟨-, rfl⟩ := checkedAdd_ok_iff.mp hIndex
    have hInside : pos + w ≤ b.data.length := by
      by_contra hNot
      rw [getByte, List.getElem?_eq_none (by omega)] at hGet
      cases hGet
    obtain ⟨bytes, hHas, hLength⟩ := Buffer.exists_has (Nat.le_add_right pos w) hInside
    obtain rfl : bytes.length = w := by omega
    rw [deserializeOffsetUint_of_has hHas hw] at hOk
    cases hOk
    exact ⟨rfl, littleEndian_lt bytes⟩

theorem lawful_uint8 : Lawful bcsSerializeUint8 bcsDeserializeOffsetUint8 (fun _ => True) := by
  refine Lawful.ofFixed 1 (fun bytes => bytes.headD 0) (fun x => [x]) ?_ ?_ ?_ ?_
  · intro x _
    exact ⟨rfl, rfl, rfl⟩
  · intro b pos bytes hHas hLength
    have hByte := getByte_of_has hHas (i := 0) (by omega)
    rw [Nat.add_zero] at hByte
    rw [bcsDeserializeOffsetUint8, hByte, ok_bind, checkedAdd_of_has hHas (by omega)]
    obtain ⟨x, rfl⟩ := List.length_eq_one_iff.mp hLength
    rfl
  · intro bytes hLength
    obtain ⟨x, rfl⟩ := List.length_eq_one_iff.mp hLength
    rfl
  · intro b pos n x hOk
    obtain ⟨value, -, hRest⟩ := bind_ok_iff.mp hOk
    obtain ⟨newPos, hNewPos, hEnd⟩ := bind_ok_iff.mp hRest
    obtain ⟨-, rfl⟩ := checkedAdd_ok_iff.mp hNewPos
    cases hEnd
    exact ⟨rfl, trivial⟩

theorem lawful_uint32 : Lawful bcsSerializeUint32 bcsDeserializeOffsetUint32 (fun _ => True) := by
  refine ((lawful_uint (w := 4) (by decide)).imap UInt32.ofNat UInt32.toNat
    (fun _ => UInt32.ofNat_toNat) ?_).congr rfl rfl fun x => iff_of_true trivial x.toNat_lt
  intro x hx
  exact UInt32.toNat_ofNat_of_lt' hx

theorem lawful_uint64 : Lawful bcsSerializeUint64 bcsDeserializeOffsetUint64 (fun _ => True) := by
  refine ((lawful_uint (w := 8) (by decide)).imap UInt64.ofNat UInt64.toNat
    (fun _ => UInt64.ofNat_toNat) ?_).congr rfl rfl fun x => iff_of_true trivial x.toNat_lt
  intro x hx
  exact UInt64.toNat_ofNat_of_lt' hx

end LineraEndToEnd.LineraTypes
