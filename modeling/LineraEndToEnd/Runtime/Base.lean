import Mathlib.Algebra.GroupWithZero.Nat
import Mathlib.Data.Finmap
import Mathlib.Data.Multiset.AddSub

/-!
# Base types and views of the Linera SDK

What the contracts of this repository use of `linera_base_types` and
`linera_views`. A contract that panics is `Except.error`.

* `Amount` — a token amount, a `u128`, with the two kinds of arithmetic the
  contracts call: `saturating_add_assign` and `try_sub_assign`.
* `Account` — an owner on a chain. Chain ids and account owners are opaque to
  the contracts, which only compare them: type variables with decidable
  equality throughout.
* `MapView` — a finite map. Mathlib's `Finmap` is equal when its lookups are
  (`Finmap.ext_lookup`), so equality of views is equality of their contents:
  `get` is `lookup`, `remove` is `erase`, and `count` the number of `keys`.
-/

namespace LineraEndToEnd

/-! ## Panics -/

/-- A computation that may panic goes through when its parts do. -/
theorem bind_ok_iff {ε α β : Type} {x : Except ε α} {f : α → Except ε β} {b : β} :
    (x >>= f) = .ok b ↔ ∃ a, x = .ok a ∧ f a = .ok b := by
  cases x <;> simp [bind, Except.bind]

theorem pure_ok_iff {ε α : Type} {a b : α} : (pure a : Except ε α) = .ok b ↔ a = b :=
  ⟨Except.ok.inj, congrArg Except.ok⟩

/-! ## Messages in flight -/

/-- A message is taken out of the bag. -/
theorem erase_add {M : Type} [DecidableEq M] {ms : Multiset M} {m : M} (h : m ∈ ms) :
    ms.erase m + {m} = ms := by
  rw [add_comm, Multiset.singleton_add]
  exact Multiset.cons_erase h

/-! ## Amounts -/

/-- `Amount(u128)`. -/
structure Amount where
  val : Nat
  lt : val < 2 ^ 128
deriving DecidableEq

namespace Amount

@[ext] theorem ext {a b : Amount} (h : a.val = b.val) : a = b := by
  cases a
  cases b
  simp_all

/-- `Amount::ZERO`, also `Amount::default()`. -/
instance : Zero Amount := ⟨⟨0, by decide⟩⟩

/-- `Amount::from_attos`, of a number as a `u128`. -/
def fromAttos (attos : Nat) : Amount := ⟨attos % 2 ^ 128, Nat.mod_lt attos (by decide)⟩

/-- `Amount::MAX`, that is `u128::MAX`. -/
def MAX : Amount := ⟨2 ^ 128 - 1, by decide⟩

@[simp] theorem val_zero : (0 : Amount).val = 0 := rfl

@[simp] theorem val_eq_zero {a : Amount} : a.val = 0 ↔ a = 0 :=
  ⟨fun h => Amount.ext h, fun h => h ▸ rfl⟩

theorem val_le_max (a : Amount) : a.val ≤ MAX.val :=
  Nat.le_sub_one_of_lt a.lt

/-- `saturating_add_assign`. -/
def saturatingAdd (a b : Amount) : Amount :=
  ⟨min (a.val + b.val) MAX.val, Nat.lt_of_le_of_lt (Nat.min_le_right ..) MAX.lt⟩

@[simp] theorem val_saturatingAdd (a b : Amount) :
    (a.saturatingAdd b).val = min (a.val + b.val) MAX.val := rfl

/-- `try_sub_assign`: fails on underflow. -/
def trySub (a b : Amount) : Option Amount :=
  if b.val ≤ a.val then some ⟨a.val - b.val, Nat.lt_of_le_of_lt (Nat.sub_le ..) a.lt⟩ else none

theorem trySub_eq_some {a b c : Amount} :
    a.trySub b = some c ↔ b.val ≤ a.val ∧ c.val = a.val - b.val := by
  unfold trySub
  split
  · simp [Amount.ext_iff, *, eq_comm]
  · simp [*]

theorem trySub_eq_none {a b : Amount} : a.trySub b = none ↔ a.val < b.val := by
  simp [trySub]

end Amount

/-! ## Accounts -/

/-- An account owner on a chain. -/
structure Account (ChainId AccountOwner : Type) where
  chainId : ChainId
  owner : AccountOwner
deriving DecidableEq

/-! ## Views -/

/-- `MapView<K, V>`. -/
abbrev MapView (K V : Type) := Finmap fun _ : K => V

namespace MapView

variable {K : Type} [DecidableEq K]

/-- What stands at a key in a map of amounts, `0` where there is no entry:
`get(..).unwrap_or_default()`. -/
def getOrDefault (m : MapView K Amount) (k : K) : Amount := (m.lookup k).getD 0

/-- How the token contract writes a decreased amount: an amount that has become
zero is removed from the map, any other is inserted. -/
def put (m : MapView K Amount) (k : K) (a : Amount) : MapView K Amount :=
  if a = 0 then m.erase k else m.insert k a

/-- No entry of the map is zero. -/
def NoZero (m : MapView K Amount) : Prop := ∀ k, m.lookup k ≠ some 0

theorem lookup_put_of_ne (m : MapView K Amount) {k k' : K} (a : Amount) (h : k' ≠ k) :
    (m.put k a).lookup k' = m.lookup k' := by
  unfold put
  split
  · exact Finmap.lookup_erase_ne h
  · exact Finmap.lookup_insert_of_ne m h

@[simp] theorem getOrDefault_insert (m : MapView K Amount) (k k' : K) (a : Amount) :
    getOrDefault (Finmap.insert k a m) k' = if k' = k then a else m.getOrDefault k' := by
  unfold getOrDefault
  by_cases h : k' = k
  · subst h
    simp
  · simp [Finmap.lookup_insert_of_ne m h, h]

@[simp] theorem getOrDefault_put (m : MapView K Amount) (k k' : K) (a : Amount) :
    (m.put k a).getOrDefault k' = if k' = k then a else m.getOrDefault k' := by
  unfold put
  split
  · unfold getOrDefault
    by_cases h : k' = k
    · subst h
      simp [*]
    · simp [Finmap.lookup_erase_ne h, h]
  · exact getOrDefault_insert m k k' a

@[simp] theorem getOrDefault_empty (k : K) : getOrDefault (∅ : MapView K Amount) k = 0 := rfl

theorem NoZero.empty : NoZero (∅ : MapView K Amount) := by
  simp [NoZero]

theorem NoZero.insert {m : MapView K Amount} (h : m.NoZero) (k : K) {a : Amount}
    (ha : a ≠ 0) : NoZero (Finmap.insert k a m) := by
  intro k'
  by_cases hk : k' = k
  · subst hk
    simpa using ha
  · rw [Finmap.lookup_insert_of_ne m hk]
    exact h k'

theorem NoZero.put {m : MapView K Amount} (h : m.NoZero) (k : K) (a : Amount) :
    (m.put k a).NoZero := by
  by_cases ha : a = 0
  · intro k'
    by_cases hk : k' = k
    · subst hk
      simp [MapView.put, ha]
    · rw [lookup_put_of_ne m a hk]
      exact h k'
  · rw [MapView.put, if_neg ha]
    exact h.insert k ha

/-- With no zero entries, an entry is determined by what is read with a default. -/
theorem NoZero.lookup_eq {m m' : MapView K Amount} (h : m.NoZero) (h' : m'.NoZero) {k : K}
    (hEq : m.getOrDefault k = m'.getOrDefault k) : m.lookup k = m'.lookup k := by
  have hm := h k
  have hm' := h' k
  unfold getOrDefault at hEq
  cases hl : m.lookup k <;> cases hl' : m'.lookup k <;> simp_all

theorem NoZero.ext {m m' : MapView K Amount} (h : m.NoZero) (h' : m'.NoZero)
    (hEq : ∀ k, m.getOrDefault k = m'.getOrDefault k) : m = m' :=
  Finmap.ext_lookup fun k => h.lookup_eq h' (hEq k)

end MapView

end LineraEndToEnd
