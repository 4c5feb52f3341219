import Mathlib.Data.List.Infix

/-!
# Reading at a position what was written

A decoder reads a value at a position of a buffer and says where it ends; an encoder
writes the value. Some reads of a decoder may be unchecked, and return what stands in
memory behind the buffer.

* `Buffer.Has` — what stands at a position.
* `Spells` — a decoder reads these bytes as this value, wherever they stand.
* `Lawful` — what was written is read back; and what is read inside the buffer is spelled
  by the bytes it was read from, of which the written ones are the shortest.
* `Lawful.ofFixed` — a codec of a fixed width.
* `Lawful.bind`, `Lawful.imap`, `Lawful.guard`, `Lawful.when`, `Lawful.many` — lawful
  codecs of parts make a lawful codec of the whole.
* `Lawful.whole_encode`, `Lawful.whole_ok`, `Lawful.whole_prefix` — a buffer that is read to its
  end.
-/

namespace Lib

variable {ε α γ β : Type} {capacity : ℕ}

-- ---------------------------------------------------------------------------
-- Buffers
-- ---------------------------------------------------------------------------

/-- An array in memory: its elements, and what stands behind them. -/
structure Buffer (β : Type) (capacity : ℕ) where
  data : List β
  beyond : ℕ → β
  fits : data.length ≤ capacity

namespace Buffer

variable {b : Buffer β capacity} {pos : ℕ} {xs ys : List β}

/-- An unchecked read. -/
def load (b : Buffer β capacity) (i : ℕ) : β := b.data[i]?.getD (b.beyond i)

/-- The elements stand at a position. -/
def Has (b : Buffer β capacity) (pos : ℕ) (xs : List β) : Prop :=
  pos ≤ b.data.length ∧ xs <+: b.data.drop pos

theorem Has.le (h : b.Has pos xs) : pos + xs.length ≤ b.data.length := by
  have hLength := h.2.length_le
  have hPos := h.1
  rw [List.length_drop] at hLength
  omega

theorem Has.getElem? (h : b.Has pos xs) {i : ℕ} (hi : i < xs.length) :
    b.data[pos + i]? = some xs[i] := by
  obtain ⟨-, rest, hRest⟩ := h
  rw [← List.getElem?_drop, ← hRest, List.getElem?_append_left hi, List.getElem?_eq_getElem hi]

theorem Has.load (h : b.Has pos xs) {i : ℕ} (hi : i < xs.length) : b.load (pos + i) = xs[i] := by
  rw [Buffer.load, h.getElem? hi, Option.getD_some]

theorem has_nil (h : pos ≤ b.data.length) : b.Has pos [] := ⟨h, List.nil_prefix⟩

theorem has_append : b.Has pos (xs ++ ys) ↔ b.Has pos xs ∧ b.Has (pos + xs.length) ys := by
  constructor
  · intro h
    have hLength := h.le
    rw [List.length_append] at hLength
    obtain ⟨hPos, rest, hRest⟩ := h
    refine ⟨⟨hPos, ys ++ rest, by rw [← hRest, List.append_assoc]⟩, by omega, rest, ?_⟩
    rw [← List.drop_drop, ← hRest, List.append_assoc, List.drop_left]
  · rintro ⟨⟨hPos, rest, hRest⟩, -, rest', hRest'⟩
    refine ⟨hPos, rest', ?_⟩
    rw [← List.drop_drop, ← hRest, List.drop_left] at hRest'
    rw [← hRest, ← hRest', List.append_assoc]

/-- Up to every later position inside the buffer, something stands. -/
theorem exists_has {n : ℕ} (hPos : pos ≤ n) (hn : n ≤ b.data.length) :
    ∃ xs, b.Has pos xs ∧ pos + xs.length = n := by
  refine ⟨(b.data.drop pos).take (n - pos), ⟨by omega, List.take_prefix ..⟩, ?_⟩
  rw [List.length_take, List.length_drop]
  omega

end Buffer

-- ---------------------------------------------------------------------------
-- Codecs
-- ---------------------------------------------------------------------------

/-- What is written for a value. -/
abbrev Encoder (ε α β : Type) := α → Except ε (List β)

/-- A value that is read at a position, and the position after it. -/
abbrev Decoder (ε α β : Type) (capacity : ℕ) := ℕ → Buffer β capacity → Except ε (ℕ × α)

/-- The bytes are read as the value, wherever they stand. -/
def Spells (d : Decoder ε α β capacity) (bytes : List β) (x : α) : Prop :=
  ∀ b pos, b.Has pos bytes → d pos b = .ok (pos + bytes.length, x)

/-- The first bytes are no more than the second ones, and others only if they are fewer. -/
def Shortest (canon bytes : List β) : Prop :=
  canon.length ≤ bytes.length ∧ (canon.length = bytes.length → canon = bytes)

theorem Shortest.refl (bytes : List β) : Shortest bytes bytes := ⟨Nat.le_refl _, fun _ => rfl⟩

theorem Shortest.append {canon canon' bytes bytes' : List β} (h : Shortest canon bytes)
    (h' : Shortest canon' bytes') : Shortest (canon ++ canon') (bytes ++ bytes') := by
  have hLe := h.1
  have hLe' := h'.1
  constructor
  · rw [List.length_append, List.length_append]
    omega
  · intro hEq
    rw [List.length_append, List.length_append] at hEq
    rw [h.2 (by omega), h'.2 (by omega)]

/-- **A lawful codec** of the valid values. -/
structure Lawful (e : Encoder ε α β) (d : Decoder ε α β capacity) (valid : α → Prop) : Prop where
  complete : ∀ x, valid x → ∃ bytes, e x = .ok bytes ∧ Spells d bytes x
  sound : ∀ b pos n x, d pos b = .ok (n, x) → pos ≤ n ∧ valid x ∧
    (n ≤ b.data.length → ∃ bytes, b.Has pos bytes ∧ pos + bytes.length = n ∧
      Spells d bytes x ∧ ∀ canon, e x = .ok canon → Shortest canon bytes)

/-- A codec of a fixed width: each string of that width is what is written for one value. Its
reads need not be checked. -/
theorem Lawful.ofFixed {e : Encoder ε α β} {d : Decoder ε α β capacity} {valid : α → Prop}
    (w : ℕ) (f : List β → α) (g : α → List β)
    (hWrite : ∀ x, valid x → e x = .ok (g x) ∧ (g x).length = w ∧ f (g x) = x)
    (hRead : ∀ b pos bytes, b.Has pos bytes → bytes.length = w → d pos b = .ok (pos + w, f bytes))
    (hBack : ∀ bytes, bytes.length = w → g (f bytes) = bytes)
    (hEnd : ∀ b pos n x, d pos b = .ok (n, x) → n = pos + w ∧ valid x) : Lawful e d valid := by
  have hSpells : ∀ bytes, bytes.length = w → Spells d bytes (f bytes) := by
    intro bytes hLength b pos hHas
    rw [hRead b pos bytes hHas hLength, hLength]
  constructor
  · intro x hx
    obtain ⟨hBytes, hLength, hValue⟩ := hWrite x hx
    have hx' := hSpells (g x) hLength
    rw [hValue] at hx'
    exact ⟨g x, hBytes, hx'⟩
  · intro b pos n x hOk
    obtain ⟨rfl, hx⟩ := hEnd b pos n x hOk
    refine ⟨Nat.le_add_right .., hx, fun hn => ?_⟩
    obtain ⟨bytes, hHas, hEq⟩ := Buffer.exists_has (Nat.le_add_right pos w) hn
    have hLength : bytes.length = w := by omega
    have hValue : f bytes = x := by
      rw [hRead b pos bytes hHas hLength, Except.ok.injEq, Prod.mk.injEq] at hOk
      exact hOk.2
    refine ⟨bytes, hHas, hEq, hValue ▸ hSpells bytes hLength, ?_⟩
    intro canon hCanon
    rw [(hWrite x hx).1, Except.ok.injEq, ← hValue, hBack bytes hLength] at hCanon
    exact hCanon ▸ Shortest.refl _

-- ---------------------------------------------------------------------------
-- Parts
-- ---------------------------------------------------------------------------

section Parts

variable {e : Encoder ε α β} {d : Decoder ε α β capacity} {valid : α → Prop}

private theorem bindOk {δ δ' : Type} {m : Except ε δ} {f : δ → Except ε δ'} {y : δ'} :
    m >>= f = .ok y ↔ ∃ x, m = .ok x ∧ f x = .ok y := by
  cases m <;> simp [bind, Except.bind]

/-- One value, and then another one, whose codec depends on the first. -/
def Encoder.bind (e : Encoder ε α β) (e' : α → Encoder ε γ β) : Encoder ε (α × γ) β :=
  fun x => do
    let bytes ← e x.1
    let bytes' ← e' x.1 x.2
    return bytes ++ bytes'

def Decoder.bind (d : Decoder ε α β capacity) (d' : α → Decoder ε γ β capacity) :
    Decoder ε (α × γ) β capacity :=
  fun pos b => do
    let (p, x) ← d pos b
    let (n, y) ← d' x p b
    return (n, (x, y))

theorem Spells.bind {d' : α → Decoder ε γ β capacity} {bytes bytes' : List β} {x : α} {y : γ}
    (h : Spells d bytes x) (h' : Spells (d' x) bytes' y) :
    Spells (d.bind d') (bytes ++ bytes') (x, y) := by
  intro b pos hHas
  obtain ⟨hFirst, hSecond⟩ := Buffer.has_append.mp hHas
  rw [Decoder.bind, h b pos hFirst]
  change (do let (n, y) ← d' x (pos + bytes.length) b; return (n, (x, y))) = _
  rw [h' b _ hSecond, List.length_append, ← Nat.add_assoc]
  rfl

theorem Lawful.bind {e' : α → Encoder ε γ β} {d' : α → Decoder ε γ β capacity}
    {valid' : α → γ → Prop} (h : Lawful e d valid)
    (h' : ∀ x, valid x → Lawful (e' x) (d' x) (valid' x)) :
    Lawful (e.bind e') (d.bind d') (fun x => valid x.1 ∧ valid' x.1 x.2) := by
  constructor
  · rintro ⟨x, y⟩ ⟨hx, hy⟩
    obtain ⟨bytes, hBytes, hSpells⟩ := h.complete x hx
    obtain ⟨bytes', hBytes', hSpells'⟩ := (h' x hx).complete y hy
    refine ⟨bytes ++ bytes', ?_, hSpells.bind hSpells'⟩
    exact bindOk.mpr ⟨bytes, hBytes, bindOk.mpr ⟨bytes', hBytes', rfl⟩⟩
  · rintro b pos n ⟨x, y⟩ hRead
    obtain ⟨⟨p, x⟩, hFirst, hRest⟩ := bindOk.mp hRead
    obtain ⟨⟨n', y⟩, hSecond, hEnd⟩ := bindOk.mp hRest
    cases hEnd
    obtain ⟨hLe, hx, hInside⟩ := h.sound b pos p x hFirst
    obtain ⟨hLe', hy, hInside'⟩ := (h' x hx).sound b p n y hSecond
    refine ⟨hLe.trans hLe', ⟨hx, hy⟩, fun hn => ?_⟩
    obtain ⟨bytes, hHas, hLength, hSpells, hShort⟩ := hInside (hLe'.trans hn)
    obtain ⟨bytes', hHas', hLength', hSpells', hShort'⟩ := hInside' hn
    refine ⟨bytes ++ bytes', Buffer.has_append.mpr ⟨hHas, hLength ▸ hHas'⟩, ?_,
      hSpells.bind hSpells', ?_⟩
    · rw [List.length_append]
      omega
    · intro canon hCanon
      obtain ⟨s, hs, hRest⟩ := bindOk.mp hCanon
      obtain ⟨t, ht, hEq⟩ := bindOk.mp hRest
      cases hEq
      exact (hShort s hs).append (hShort' t ht)

/-- A value that stands for another one. -/
def Decoder.map (f : α → γ) (d : Decoder ε α β capacity) : Decoder ε γ β capacity :=
  fun pos b => do
    let (n, x) ← d pos b
    return (n, f x)

theorem Spells.map {bytes : List β} {x : α} (h : Spells d bytes x) (f : α → γ) :
    Spells (d.map f) bytes (f x) := by
  intro b pos hHas
  rw [Decoder.map, h b pos hHas]
  rfl

theorem Lawful.imap (h : Lawful e d valid) (f : α → γ) (g : γ → α) (hfg : ∀ y, f (g y) = y)
    (hgf : ∀ x, valid x → g (f x) = x) :
    Lawful (fun y => e (g y)) (d.map f) (fun y => valid (g y)) := by
  constructor
  · intro y hy
    obtain ⟨bytes, hBytes, hSpells⟩ := h.complete (g y) hy
    have hMap := hSpells.map f
    rw [hfg] at hMap
    exact ⟨bytes, hBytes, hMap⟩
  · intro b pos n y hRead
    obtain ⟨⟨n', x⟩, hFirst, hEnd⟩ := bindOk.mp hRead
    cases hEnd
    obtain ⟨hLe, hx, hInside⟩ := h.sound b pos n x hFirst
    rw [hgf x hx]
    refine ⟨hLe, hx, fun hn => ?_⟩
    obtain ⟨bytes, hHas, hLength, hSpells, hShort⟩ := hInside hn
    exact ⟨bytes, hHas, hLength, hSpells.map f, hShort⟩

/-- A value that is checked after it was read. -/
def Decoder.guard (p : α → Prop) [DecidablePred p] (err : ε) (d : Decoder ε α β capacity) :
    Decoder ε α β capacity :=
  fun pos b => do
    let (n, x) ← d pos b
    if p x then return (n, x) else .error err

theorem Lawful.guard (h : Lawful e d valid) (p : α → Prop) [DecidablePred p] (err : ε) :
    Lawful e (d.guard p err) (fun x => valid x ∧ p x) := by
  have hSpell : ∀ {bytes x}, Spells d bytes x → p x → Spells (d.guard p err) bytes x := by
    intro bytes x hSpells hp b pos hHas
    rw [Decoder.guard, hSpells b pos hHas]
    exact if_pos hp
  constructor
  · rintro x ⟨hx, hp⟩
    obtain ⟨bytes, hBytes, hSpells⟩ := h.complete x hx
    exact ⟨bytes, hBytes, hSpell hSpells hp⟩
  · intro b pos n x hRead
    obtain ⟨⟨n', x'⟩, hFirst, hEnd⟩ := bindOk.mp hRead
    have hp : p x' := by
      by_contra hNot
      simp [if_neg hNot] at hEnd
    simp only [if_pos hp] at hEnd
    cases hEnd
    obtain ⟨hLe, hx, hInside⟩ := h.sound b pos n x hFirst
    refine ⟨hLe, ⟨hx, hp⟩, fun hn => ?_⟩
    obtain ⟨bytes, hHas, hLength, hSpells, hShort⟩ := hInside hn
    exact ⟨bytes, hHas, hLength, hSpell hSpells hp, hShort⟩

/-- A value that is there under a condition, and is `x₀` otherwise. -/
def Encoder.when (c : Prop) [Decidable c] (e : Encoder ε α β) : Encoder ε α β :=
  fun x => if c then e x else .ok []

def Decoder.when (c : Prop) [Decidable c] (x₀ : α) (d : Decoder ε α β capacity) :
    Decoder ε α β capacity :=
  fun pos b => if c then d pos b else .ok (pos, x₀)

theorem Lawful.when (h : Lawful e d valid) (c : Prop) [Decidable c] (x₀ : α) :
    Lawful (e.when c) (d.when c x₀) (fun x => if c then valid x else x = x₀) := by
  by_cases hc : c
  · have hEncoder : e.when c = e := by
      funext x
      exact if_pos hc
    have hDecoder : d.when c x₀ = d := by
      funext pos b
      exact if_pos hc
    simp only [hEncoder, hDecoder, if_pos hc]
    exact h
  · have hSpells : Spells (d.when c x₀) [] x₀ := fun b pos _ => if_neg hc
    simp only [if_neg hc]
    constructor
    · rintro x rfl
      exact ⟨[], if_neg hc, hSpells⟩
    · intro b pos n x hRead
      simp only [Decoder.when, if_neg hc, Except.ok.injEq, Prod.mk.injEq] at hRead
      obtain ⟨rfl, rfl⟩ := hRead
      refine ⟨Nat.le_refl _, rfl, fun hn => ⟨[], Buffer.has_nil hn, rfl, hSpells, ?_⟩⟩
      intro canon hCanon
      simp only [Encoder.when, if_neg hc, Except.ok.injEq] at hCanon
      exact hCanon ▸ Shortest.refl _

/-- Values one after another. -/
def Encoder.many (e : Encoder ε α β) : Encoder ε (List α) β
  | [] => .ok []
  | x :: xs => do
    let bytes ← e x
    let bytes' ← Encoder.many e xs
    return bytes ++ bytes'

/-- A given number of them. -/
def Decoder.many (d : Decoder ε α β capacity) : ℕ → Decoder ε (List α) β capacity
  | 0 => fun pos _ => .ok (pos, [])
  | n + 1 => (d.bind fun _ => Decoder.many d n).map fun x => x.1 :: x.2

theorem Lawful.many (h : Lawful e d valid) (n : ℕ) :
    Lawful (Encoder.many e) (Decoder.many d n)
      (fun xs => xs.length = n ∧ ∀ x ∈ xs, valid x) := by
  induction n with
  | zero =>
    have hSpells : Spells (Decoder.many d 0) [] ([] : List α) := fun b pos _ => rfl
    constructor
    · rintro xs ⟨hLength, -⟩
      obtain rfl := List.eq_nil_of_length_eq_zero hLength
      exact ⟨[], rfl, hSpells⟩
    · intro b pos n xs hRead
      cases hRead
      refine ⟨Nat.le_refl _, ⟨rfl, by simp⟩, fun hn => ⟨[], Buffer.has_nil hn, rfl, hSpells, ?_⟩⟩
      intro canon hCanon
      cases hCanon
      exact Shortest.refl _
  | succ n ih =>
    have hBind : Lawful (e.bind fun _ => Encoder.many e) (d.bind fun _ => Decoder.many d n) _ :=
      h.bind fun _ _ => ih
    constructor
    · rintro xs ⟨hLength, hValid⟩
      obtain ⟨x, xs, rfl⟩ := List.exists_cons_of_length_eq_add_one hLength
      obtain ⟨bytes, hBytes, hSpells⟩ := hBind.complete (x, xs)
        ⟨hValid x (by simp), Nat.succ.inj hLength, fun y hy => hValid y (by simp [hy])⟩
      exact ⟨bytes, hBytes, hSpells.map fun x => x.1 :: x.2⟩
    · intro b pos m xs hRead
      obtain ⟨⟨m', x, xs'⟩, hFirst, hEnd⟩ := bindOk.mp hRead
      cases hEnd
      obtain ⟨hLe, ⟨hx, hLength, hxs⟩, hInside⟩ := hBind.sound b pos m (x, xs') hFirst
      refine ⟨hLe, ⟨by simpa using hLength, ?_⟩, fun hm => ?_⟩
      · intro y hy
        obtain rfl | hy := List.mem_cons.mp hy
        exacts [hx, hxs y hy]
      · obtain ⟨bytes, hHas, hEnd, hSpells, hShort⟩ := hInside hm
        exact ⟨bytes, hHas, hEnd, hSpells.map fun x => x.1 :: x.2, hShort⟩

/-- The same codec, written differently. -/
theorem Lawful.congr {e' : Encoder ε α β} {d' : Decoder ε α β capacity} {valid' : α → Prop}
    (h : Lawful e d valid) (hEncoder : e' = e) (hDecoder : d' = d)
    (hValid : ∀ x, valid' x ↔ valid x) : Lawful e' d' valid' := by
  obtain rfl : valid' = valid := funext fun x => propext (hValid x)
  rw [hEncoder, hDecoder]
  exact h

end Parts

-- ---------------------------------------------------------------------------
-- Whole buffers
-- ---------------------------------------------------------------------------

section Whole

variable {e : Encoder ε α β} {d : Decoder ε α β capacity} {valid : α → Prop}

/-- A buffer that is read from its start has to be read to its end. -/
def Decoder.whole (d : Decoder ε α β capacity) (err : ε) (b : Buffer β capacity) : Except ε α := do
  let (n, x) ← d 0 b
  if n = b.data.length then return x else .error err

theorem Spells.whole {bytes : List β} {x : α} (h : Spells d bytes x) (err : ε)
    {b : Buffer β capacity} (hData : b.data = bytes) : d.whole err b = .ok x := by
  have hHas : b.Has 0 bytes := ⟨Nat.zero_le _, by rw [hData, List.drop_zero]⟩
  rw [Decoder.whole, h b 0 hHas]
  exact if_pos (by rw [Nat.zero_add, hData])

/-- **What was written is read back**, whatever stands behind it. -/
theorem Lawful.whole_encode (h : Lawful e d valid) (err : ε) {x : α} (hx : valid x) :
    ∃ bytes, e x = .ok bytes ∧ ∀ b, b.data = bytes → d.whole err b = .ok x := by
  obtain ⟨bytes, hBytes, hSpells⟩ := h.complete x hx
  exact ⟨bytes, hBytes, fun b hData => hSpells.whole err hData⟩

/-- An accepted buffer spells a valid value, for which no more is written. -/
theorem Lawful.spells_of_whole (h : Lawful e d valid) {err : ε} {b : Buffer β capacity} {x : α}
    (hRead : d.whole err b = .ok x) :
    valid x ∧ Spells d b.data x ∧ ∀ canon, e x = .ok canon → Shortest canon b.data := by
  obtain ⟨⟨n, x'⟩, hFirst, hEnd⟩ := bindOk.mp hRead
  have hAll : n = b.data.length := by
    by_contra hNot
    simp [if_neg hNot] at hEnd
  simp only [if_pos hAll] at hEnd
  cases hEnd
  obtain ⟨-, hx, hInside⟩ := h.sound b 0 n x hFirst
  obtain ⟨bytes, hHas, hLength, hSpells, hShort⟩ := hInside hAll.le
  have hData : b.data = bytes := by
    have hPrefix := hHas.2
    rw [List.drop_zero] at hPrefix
    exact (hPrefix.eq_of_length (by omega)).symm
  rw [hData]
  exact ⟨hx, hSpells, hShort⟩

/-- **What is accepted is a valid value**, read from the buffer alone; and what is written for
it is the shortest that is accepted for it. -/
theorem Lawful.whole_ok (h : Lawful e d valid) {err : ε} {b : Buffer β capacity} {x : α}
    (hRead : d.whole err b = .ok x) :
    valid x ∧ (∀ b' : Buffer β capacity, b'.data = b.data → d.whole err b' = .ok x) ∧
      ∃ canon, e x = .ok canon ∧ Shortest canon b.data := by
  obtain ⟨hx, hSpells, hShort⟩ := h.spells_of_whole hRead
  obtain ⟨canon, hCanon, -⟩ := h.complete x hx
  exact ⟨hx, fun b' hSame => hSpells.whole err hSame, canon, hCanon, hShort canon hCanon⟩

/-- **No accepted buffer begins another one.** -/
theorem Lawful.whole_prefix (h : Lawful e d valid) {err : ε} {b b' : Buffer β capacity} {x y : α}
    (hRead : d.whole err b = .ok x) (hRead' : d.whole err b' = .ok y)
    (hPrefix : b.data <+: b'.data) : b.data = b'.data := by
  obtain ⟨-, hSpells, -⟩ := h.spells_of_whole hRead
  obtain ⟨-, hSpells', -⟩ := h.spells_of_whole hRead'
  -- both are read at the start of the longer one, and end where they end
  have hFirst := hSpells b' 0 ⟨Nat.zero_le _, by rwa [List.drop_zero]⟩
  have hSecond := hSpells' b' 0 ⟨Nat.zero_le _, by rw [List.drop_zero]⟩
  rw [hFirst, Except.ok.injEq, Prod.mk.injEq] at hSecond
  exact hPrefix.eq_of_length (Nat.add_left_cancel hSecond.1)

/-- What is written for one value, whatever follows it, is not what is written for another one
with something else behind it. -/
theorem Lawful.encode_inj [Inhabited β] (h : Lawful e d valid) {x y : α} (hx : valid x)
    (hy : valid y) {bytes bytes' rest rest' : List β} (hBytes : e x = .ok bytes)
    (hBytes' : e y = .ok bytes') (hFits : (bytes ++ rest).length ≤ capacity)
    (hSame : bytes ++ rest = bytes' ++ rest') : x = y := by
  let b : Buffer β capacity := ⟨bytes ++ rest, fun _ => default, hFits⟩
  obtain ⟨s, hs, hSpells⟩ := h.complete x hx
  obtain ⟨t, ht, hSpells'⟩ := h.complete y hy
  obtain rfl : s = bytes := Except.ok.inj (hs.symm.trans hBytes)
  obtain rfl : t = bytes' := Except.ok.inj (ht.symm.trans hBytes')
  have hFirst := hSpells b 0 ⟨Nat.zero_le _, rest, (List.drop_zero (l := b.data)).symm⟩
  have hSecond := hSpells' b 0 ⟨Nat.zero_le _, rest', by rw [List.drop_zero, ← hSame]⟩
  rw [hFirst, Except.ok.injEq, Prod.mk.injEq] at hSecond
  exact hSecond.2

end Whole

end Lib
