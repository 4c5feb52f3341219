import LineraEndToEnd.LineraTypes.Primitives

/-!
# `LineraTypes.sol` — bytes, booleans, options, sequences

What the structures of the library are made of. The functions for an option or a
sequence of each type differ in the type only: they are one definition here.

* `lawful_bytesN` — `bytes20` and `bytes32`, whose reads are not checked.
* `lawful_bool`, `lawful_optionBool`, `lawful_bytes` — the other ones without parameters.
* `lawful_opt`, `lawful_seq` — for every lawful codec of a type.
-/

namespace LineraEndToEnd.LineraTypes

open Lib Solidity

variable {α : Type} {input : Memory} {pos n : Nat} {bytes : Bytes}

-- ---------------------------------------------------------------------------
-- `bytes20` and `bytes32`
-- ---------------------------------------------------------------------------

/-- `bytes20`, `bytes32`. -/
abbrev BytesN (w : Nat) := Vector UInt8 w

/-- `abi.encodePacked(input)`. -/
def serializeBytesN (w : Nat) : Serialize (BytesN w) := fun input => return input.toList

/-- `mload` at `pos`, which does not look at the length of the input. -/
def deserializeOffsetBytesN (w : Nat) : DeserializeOffset (BytesN w) := fun pos input => do
  let dest := Vector.ofFn fun i : Fin w => input.load (pos + i)
  let newPos ← checkedAdd 256 pos w
  return (newPos, dest)

/-- `bcs_serialize_bytes20`. -/
def bcsSerializeBytes20 : Serialize (BytesN 20) := serializeBytesN 20

/-- `bcs_deserialize_offset_bytes20`. -/
def bcsDeserializeOffsetBytes20 : DeserializeOffset (BytesN 20) := deserializeOffsetBytesN 20

/-- `bcs_serialize_bytes32`. -/
def bcsSerializeBytes32 : Serialize (BytesN 32) := serializeBytesN 32

/-- `bcs_deserialize_offset_bytes32`. -/
def bcsDeserializeOffsetBytes32 : DeserializeOffset (BytesN 32) := deserializeOffsetBytesN 32

theorem lawful_bytesN (w : Nat) :
    Lawful (serializeBytesN w) (deserializeOffsetBytesN w) (fun _ => True) := by
  refine Lawful.ofFixed w (fun bytes => Vector.ofFn fun i : Fin w => bytes[(i : Nat)]?.getD 0)
    Vector.toList ?_ ?_ ?_ ?_
  · intro x _
    refine ⟨rfl, x.length_toList, ?_⟩
    ext i hi
    simp
  · rintro b pos bytes hHas rfl
    have hDest : (Vector.ofFn fun i : Fin bytes.length => b.load (pos + i)) =
        Vector.ofFn fun i : Fin bytes.length => bytes[(i : Nat)]?.getD 0 := by
      ext i hi
      simp [hHas.load hi]
    rw [deserializeOffsetBytesN, checkedAdd_of_has hHas le_rfl, ok_bind, hDest]
    rfl
  · rintro bytes rfl
    apply List.ext_getElem
    · simp
    · intro i hi hi'
      simp
  · intro b pos n x hOk
    obtain ⟨newPos, hNewPos, hEnd⟩ := bind_ok_iff.mp hOk
    obtain ⟨-, rfl⟩ := checkedAdd_ok_iff.mp hNewPos
    cases hEnd
    exact ⟨rfl, trivial⟩

theorem lawful_bytes20 :
    Lawful bcsSerializeBytes20 bcsDeserializeOffsetBytes20 (fun _ => True) :=
  lawful_bytesN 20

theorem lawful_bytes32 :
    Lawful bcsSerializeBytes32 bcsDeserializeOffsetBytes32 (fun _ => True) :=
  lawful_bytesN 32

-- ---------------------------------------------------------------------------
-- Booleans
-- ---------------------------------------------------------------------------

/-- `bcs_serialize_bool`. -/
def bcsSerializeBool : Serialize Bool := fun input => return [if input then 1 else 0]

/-- `bcs_deserialize_offset_bool`. -/
def bcsDeserializeOffsetBool : DeserializeOffset Bool := fun pos input => do
  let val ← getByte input pos
  let result ← if val = 1 then pure true else do
    requireThat (val = 0)
    pure false
  let newPos ← checkedAdd 256 pos 1
  return (newPos, result)

/-- `OptionBool`. -/
inductive OptionBool
  | None
  | True
  | False
deriving DecidableEq, Inhabited

/-- `bcs_serialize_OptionBool`. -/
def bcsSerializeOptionBool : Serialize OptionBool := fun input =>
  if input = .None then return [0]
  else if input = .False then return [1, 0]
  else return [1, 1]

/-- `bcs_deserialize_offset_OptionBool`. -/
def bcsDeserializeOffsetOptionBool : DeserializeOffset OptionBool := fun pos input => do
  let choice ← getByte input pos
  if choice = 0 then do
    let newPos ← checkedAdd 256 pos 1
    return (newPos, .None)
  else do
    requireThat (choice = 1)
    let value ← readByte input pos 1
    if value = 0 then do
      let newPos ← checkedAdd 256 pos 2
      return (newPos, .False)
    else do
      requireThat (value = 1)
      let newPos ← checkedAdd 256 pos 2
      return (newPos, .True)

/-- A byte inside the input leaves room for the next position. -/
theorem checkedAdd_of_getByte {i k : Nat} {b : UInt8} (h : getByte input i = .ok b)
    (hk : pos + k = i + 1) : checkedAdd 256 pos k = .ok (i + 1) := by
  have hFits : input.data.length ≤ 2 ^ 64 - 1 := input.fits
  have hInside : i < input.data.length := by
    by_contra hNot
    rw [getByte, List.getElem?_eq_none (by omega)] at h
    cases h
  rw [checkedAdd_ok_iff, maxUint]
  omega

theorem bcsDeserializeOffsetUint8_of_getByte {b : UInt8} (h : getByte input pos = .ok b) :
    bcsDeserializeOffsetUint8 pos input = .ok (pos + 1, b) := by
  rw [bcsDeserializeOffsetUint8, h, ok_bind, checkedAdd_of_getByte h rfl]
  rfl

theorem bcsDeserializeOffsetBool_of_getByte {b : UInt8} (h : getByte input pos = .ok b) :
    bcsDeserializeOffsetBool pos input =
      if b = 1 then .ok (pos + 1, true) else if b = 0 then .ok (pos + 1, false)
      else .error .empty := by
  rw [bcsDeserializeOffsetBool, h, ok_bind, checkedAdd_of_getByte h rfl, requireThat]
  split
  · rfl
  · split <;> rfl

theorem bcsDeserializeOffsetBool_eq : bcsDeserializeOffsetBool =
    (bcsDeserializeOffsetUint8.guard (fun b => b = 0 ∨ b = 1) .empty).map (· == 1) := by
  funext pos input
  cases hGet : getByte input pos with
  | error e =>
    simp only [bcsDeserializeOffsetBool, Decoder.map, Decoder.guard, bcsDeserializeOffsetUint8,
      hGet]
    rfl
  | ok b =>
    rw [bcsDeserializeOffsetBool_of_getByte hGet, Decoder.map, Decoder.guard,
      bcsDeserializeOffsetUint8_of_getByte hGet, ok_bind]
    by_cases hOne : b = 1
    · rw [hOne]
      rfl
    · by_cases hZero : b = 0
      · rw [hZero]
        rfl
      · simp only [hOne, hZero, or_self, if_false]
        rfl

theorem lawful_bool : Lawful bcsSerializeBool bcsDeserializeOffsetBool (fun _ => True) := by
  have hGuard := lawful_uint8.guard (fun b => b = 0 ∨ b = 1) Revert.empty
  refine (hGuard.imap (· == 1) (fun c => if c then 1 else 0) ?_ ?_).congr rfl
    bcsDeserializeOffsetBool_eq fun c => ?_
  · decide
  · rintro b ⟨-, rfl | rfl⟩ <;> rfl
  · cases c <;> decide

theorem bcsDeserializeOffsetOptionBool_eq : bcsDeserializeOffsetOptionBool =
    (bcsDeserializeOffsetBool.bind fun c => bcsDeserializeOffsetBool.when (c = true) false).map
      fun x => if x.1 then if x.2 then .True else .False else .None := by
  funext pos input
  cases hGet : getByte input pos with
  | error e =>
    simp only [bcsDeserializeOffsetOptionBool, Decoder.map, Decoder.bind,
      bcsDeserializeOffsetBool, hGet]
    rfl
  | ok b =>
    have hAdd : checkedAdd 256 pos 1 = .ok (pos + 1) := checkedAdd_of_getByte hGet rfl
    rw [bcsDeserializeOffsetOptionBool, hGet, ok_bind, Decoder.map, Decoder.bind,
      bcsDeserializeOffsetBool_of_getByte hGet, readByte, hAdd, ok_bind, requireThat]
    by_cases hZero : b = 0
    · rw [hZero]
      rfl
    · by_cases hOne : b = 1
      · rw [if_neg hZero, if_pos hOne, if_pos hOne, ok_bind, ok_bind]
        cases hNext : getByte input (pos + 1) with
        | error e =>
          have hBool : bcsDeserializeOffsetBool (pos + 1) input = .error e := by
            rw [bcsDeserializeOffsetBool, hNext]
            rfl
          simp only [Decoder.when, ok_bind, eq_self, if_true, hBool]
          rfl
        | ok b' =>
          have hBool := bcsDeserializeOffsetBool_of_getByte hNext
          have hAdd' : checkedAdd 256 pos 2 = .ok (pos + 1 + 1) := checkedAdd_of_getByte hNext rfl
          simp only [Decoder.when, ok_bind, eq_self, if_true, hBool, hAdd', requireThat]
          by_cases hOne' : b' = 1
          · rw [hOne']
            rfl
          · by_cases hZero' : b' = 0
            · rw [hZero']
              rfl
            · simp only [hZero', hOne', if_false]
              rfl
      · rw [if_neg hZero, if_neg hOne, if_neg hOne, if_neg hZero]
        rfl

theorem lawful_optionBool :
    Lawful bcsSerializeOptionBool bcsDeserializeOffsetOptionBool (fun _ => True) := by
  have hBind := lawful_bool.bind fun c _ => lawful_bool.when (c = true) false
  refine (hBind.imap (fun x => if x.1 then if x.2 then OptionBool.True else .False else .None)
    (fun y => (y ≠ .None, y = .True)) ?_ ?_).congr ?_ bcsDeserializeOffsetOptionBool_eq ?_
  · intro y
    cases y <;> rfl
  · rintro ⟨c, v⟩ ⟨-, hv⟩
    cases c
    · simp only [Bool.false_eq_true, if_false] at hv
      rw [hv]
      rfl
    · cases v <;> rfl
  · funext y
    cases y <;> rfl
  · intro y
    cases y <;> simp

-- ---------------------------------------------------------------------------
-- `bytes`
-- ---------------------------------------------------------------------------

/-- The loop of `bcs_deserialize_offset_bytes`, from `u` on, with so many bytes left. -/
def readBytes (input : Memory) (newPos : Nat) : Nat → Nat → Result Bytes
  | _, 0 => return []
  | u, left + 1 => do
    let b ← readByte input newPos u
    let bytes ← readBytes input newPos (u + 1) left
    return b :: bytes

/-- `bcs_serialize_bytes`. -/
def bcsSerializeBytes : Serialize Bytes := fun input => do
  let result ← bcsSerializeLen input.length
  return result ++ input

/-- `bcs_deserialize_offset_bytes`. -/
def bcsDeserializeOffsetBytes : DeserializeOffset Bytes := fun pos input => do
  let (newPos, len) ← bcsDeserializeOffsetLen pos input
  allocate len
  let result ← readBytes input newPos 0 len
  let newPos ← checkedAdd 256 newPos len
  return (newPos, result)

/-- The bytes after their length. -/
def deserializeOffsetPayload (len : Nat) : DeserializeOffset Bytes := fun pos input => do
  let result ← readBytes input pos 0 len
  let newPos ← checkedAdd 256 pos len
  return (newPos, result)

theorem readBytes_of_has {u : Nat} (h : input.Has (pos + u) bytes)
    (hAdd : ∀ i < bytes.length, checkedAdd 256 pos (u + i) = .ok (pos + (u + i))) :
    readBytes input pos u bytes.length = .ok bytes := by
  induction bytes generalizing u with
  | nil => rfl
  | cons b bytes ih =>
    have hGet := getByte_of_has h (i := 0) (by simp)
    have hRead : readByte input pos u = .ok b := by
      have hFirst := hAdd 0 (by simp)
      rw [Nat.add_zero] at hFirst
      rw [readByte, hFirst, ok_bind]
      exact hGet
    have hTail : input.Has (pos + (u + 1)) bytes := by
      rw [← List.singleton_append, Buffer.has_append] at h
      exact h.2
    have hRest := ih hTail fun i hi => by
      have hNext := hAdd (i + 1) (by rw [List.length_cons]; omega)
      have hIndex : u + 1 + i = u + (i + 1) := by omega
      rw [hIndex]
      exact hNext
    rw [List.length_cons, readBytes, hRead, ok_bind, hRest]
    rfl

theorem length_of_readBytes {u left : Nat} (h : readBytes input pos u left = .ok bytes) :
    bytes.length = left := by
  induction left generalizing u bytes with
  | zero =>
    cases h
    rfl
  | succ left ih =>
    obtain ⟨b, -, hRest⟩ := bind_ok_iff.mp h
    obtain ⟨bytes', hBytes, hEnd⟩ := bind_ok_iff.mp hRest
    cases hEnd
    rw [List.length_cons, ih hBytes]

theorem lawful_payload (len : Nat) :
    Lawful (.ok : Serialize Bytes) (deserializeOffsetPayload len) (fun x => x.length = len) := by
  refine Lawful.ofFixed len id id ?_ ?_ ?_ ?_
  · intro x hx
    exact ⟨rfl, hx, rfl⟩
  · rintro b pos bytes hHas rfl
    have hBytes := readBytes_of_has (u := 0) hHas fun i hi => by
      rw [Nat.zero_add]
      exact checkedAdd_of_has hHas hi.le
    rw [deserializeOffsetPayload, hBytes, ok_bind, checkedAdd_of_has hHas le_rfl]
    rfl
  · intro bytes _
    rfl
  · intro b pos n x hOk
    obtain ⟨result, hResult, hRest⟩ := bind_ok_iff.mp hOk
    obtain ⟨newPos, hNewPos, hEnd⟩ := bind_ok_iff.mp hRest
    obtain ⟨-, rfl⟩ := checkedAdd_ok_iff.mp hNewPos
    cases hEnd
    exact ⟨rfl, length_of_readBytes hResult⟩

/-- A length for which there is memory. -/
theorem lawful_allocated : Lawful bcsSerializeLen
    (bcsDeserializeOffsetLen.guard (· ≤ maxLength) (.panic 0x41)) (· ≤ maxLength) := by
  refine (lawful_len.guard (· ≤ maxLength) (.panic 0x41)).congr rfl rfl fun x => ?_
  exact ⟨fun h => ⟨h.trans (by decide), h⟩, And.right⟩

/-- Memory is allocated before what it is for is read. -/
theorem guard_bind {d : Nat → DeserializeOffset α} :
    ((bcsDeserializeOffsetLen.guard (· ≤ maxLength) (.panic 0x41)).bind d).map Prod.snd =
      fun pos input => (do
        let (newPos, len) ← bcsDeserializeOffsetLen pos input
        allocate len
        d len newPos input) := by
  funext pos input
  simp only [Decoder.map, Decoder.bind, Decoder.guard, allocate]
  cases bcsDeserializeOffsetLen pos input with
  | error e => rfl
  | ok x =>
    simp only [ok_bind]
    split
    · simp only [pure_bind, ok_bind, bind_assoc]
      exact bind_pure _
    · rfl

theorem lawful_bytes : Lawful bcsSerializeBytes bcsDeserializeOffsetBytes
    (fun x => x.length ≤ maxLength) := by
  have hBind := lawful_allocated.bind fun len _ => lawful_payload len
  refine (hBind.imap Prod.snd (fun x => (x.length, x)) (fun _ => rfl) ?_).congr rfl
    (guard_bind (d := deserializeOffsetPayload)).symm fun x => ?_
  · rintro ⟨len, x⟩ ⟨-, hLength⟩
    exact Prod.ext hLength rfl
  · exact (and_iff_left rfl).symm

-- ---------------------------------------------------------------------------
-- Sequences
-- ---------------------------------------------------------------------------

/-- All the functions `bcs_serialize_seq_T`. -/
def serializeSeq (serialize : Serialize α) : Serialize (List α) := fun input => do
  let result ← bcsSerializeLen input.length
  input.foldlM (fun result x => do
    let bytes ← serialize x
    return result ++ bytes) result

/-- All the functions `bcs_deserialize_offset_seq_T`: so many values, one after another. -/
def deserializeOffsetSeq (deserializeOffset : DeserializeOffset α) :
    DeserializeOffset (List α) := fun pos input => do
  let (newPos, len) ← bcsDeserializeOffsetLen pos input
  allocate len
  deserializeOffset.many len newPos input

theorem foldlM_serialize (serialize : Serialize α) (xs : List α) (result : Bytes) :
    xs.foldlM (fun result x => do
      let bytes ← serialize x
      return result ++ bytes) result =
      (do let bytes ← Encoder.many serialize xs; return result ++ bytes) := by
  induction xs generalizing result with
  | nil =>
    rw [List.foldlM_nil, Encoder.many, ok_bind, List.append_nil]
  | cons x xs ih =>
    rw [List.foldlM_cons, Encoder.many]
    simp only [ih, bind_assoc, pure_bind, List.append_assoc]

theorem lawful_seq {serialize : Serialize α} {deserializeOffset : DeserializeOffset α}
    {valid : α → Prop} (h : Lawful serialize deserializeOffset valid) :
    Lawful (serializeSeq serialize) (deserializeOffsetSeq deserializeOffset)
      (fun xs => xs.length ≤ maxLength ∧ ∀ x ∈ xs, valid x) := by
  have hBind := lawful_allocated.bind fun len _ => h.many len
  refine (hBind.imap Prod.snd (fun xs => (xs.length, xs)) (fun _ => rfl) ?_).congr ?_
    (guard_bind (d := fun len => deserializeOffset.many len)).symm fun xs => ?_
  · rintro ⟨len, xs⟩ ⟨-, hLength, -⟩
    exact Prod.ext hLength rfl
  · funext xs
    simp only [serializeSeq, foldlM_serialize]
    rfl
  · simp

-- ---------------------------------------------------------------------------
-- Options
-- ---------------------------------------------------------------------------

/-- All the structures `opt_T`. -/
structure Opt (α : Type) where
  hasValue : Bool
  value : α
deriving DecidableEq, Inhabited

/-- All the functions `bcs_serialize_opt_T`. -/
def serializeOpt (serialize : Serialize α) : Serialize (Opt α) := fun input =>
  if input.hasValue then do
    let bytes ← serialize input.value
    return 1 :: bytes
  else return [0]

/-- All the functions `bcs_deserialize_offset_opt_T`. -/
def deserializeOffsetOpt [Inhabited α] (deserializeOffset : DeserializeOffset α) :
    DeserializeOffset (Opt α) := fun pos input => do
  let (newPos, hasValue) ← bcsDeserializeOffsetBool pos input
  let (newPos, value) ← if hasValue then deserializeOffset newPos input
    else pure (newPos, default)
  return (newPos, ⟨hasValue, value⟩)

/-- A value that a constructor of the type makes: an absent one is the default. -/
def Opt.Valid [Inhabited α] (valid : α → Prop) (x : Opt α) : Prop :=
  if x.hasValue then valid x.value else x.value = default

theorem lawful_opt [Inhabited α] {serialize : Serialize α}
    {deserializeOffset : DeserializeOffset α} {valid : α → Prop}
    (h : Lawful serialize deserializeOffset valid) :
    Lawful (serializeOpt serialize) (deserializeOffsetOpt deserializeOffset)
      (Opt.Valid valid) := by
  have hBind := lawful_bool.bind fun c _ => h.when (c = true) default
  refine (hBind.imap (fun x => Opt.mk x.1 x.2) (fun x => (x.hasValue, x.value)) (fun _ => rfl)
    fun _ _ => rfl).congr ?_ ?_ fun x => ?_
  · funext x
    obtain ⟨c, v⟩ := x
    cases c
    · rfl
    · simp only [serializeOpt, Encoder.bind, Encoder.when, bcsSerializeBool, pure_bind, if_true]
      rfl
  · funext pos input
    rw [deserializeOffsetOpt, Decoder.map, Decoder.bind]
    cases bcsDeserializeOffsetBool pos input with
    | error e => rfl
    | ok x =>
      obtain ⟨newPos, hasValue⟩ := x
      cases hasValue
      · rfl
      · simp only [ok_bind, Decoder.when, if_true, bind_assoc, pure_bind]
  · simp [Opt.Valid]

-- ---------------------------------------------------------------------------
-- Enumerations
-- ---------------------------------------------------------------------------

/-- A field that is there in one case of an enumeration, and holds its default in the other
ones. -/
def Present [Inhabited α] (c : Prop) [Decidable c] (valid : α → Prop) (x : α) : Prop :=
  if c then valid x else x = default

theorem ok_eq_pure (x : α) : (.ok x : Result α) = pure x := rfl

theorem requireThat_bind {p : Prop} [Decidable p] (k : Unit → Result α) :
    (requireThat p >>= k) = if p then k () else .error .empty := by
  unfold requireThat
  split <;> rfl

theorem ite_bind {γ : Type} {p : Prop} [Decidable p] {e : Revert} (x : γ) (k : γ → Result α) :
    ((if p then pure x else .error e) >>= k) = if p then k x else .error e := by
  split <;> rfl

end LineraEndToEnd.LineraTypes
