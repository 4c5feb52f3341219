import Mathlib.Algebra.BigOperators.Group.List.Basic
import Mathlib.Algebra.Group.Hom.Defs
import Mathlib.Tactic.Abel

/-!
# The token game

Markings are the elements of a commutative monoid, cancellative where it
matters (numbers of tokens on places, messages in a bag, tuples of these). A
move takes a marking away and gives another one back; it fires where there is
enough to take.

* `Move.Fires.eq_give_add` — the frame rule: what a move does not take is left
  untouched, so a marking and a move determine the result.
* `Move.Fires.conserves` — a weight which the move takes and gives alike is
  the same before and after.
* `FiresAll.stateEquation` / `FiresAll.eq_of_perm` — after a sequence of moves
  the marking is determined by how often each move fired: two sequences that
  are permutations of one another end in the same marking.
-/

namespace Lib

variable {M : Type*} [AddCommMonoid M]

/-- What a step takes away from a marking, and what it gives back. -/
structure Move (M : Type*) where
  take : M
  give : M

namespace Move

/-- The move `t` leads from `m` to `m'`: some rest is left untouched. -/
def Fires (t : Move M) (m m' : M) : Prop :=
  ∃ rest, m = t.take + rest ∧ m' = t.give + rest

namespace Fires

variable {t : Move M} {m m' : M}

/-- **Frame rule.** What is left beside what the move takes is left untouched. -/
theorem eq_give_add [IsCancelAdd M] {rest : M} (h : t.Fires m m') (hRest : m = t.take + rest) :
    m' = t.give + rest := by
  obtain ⟨rest', hRest', rfl⟩ := h
  rw [add_left_cancel (hRest'.symm.trans hRest)]

/-- One step of the state equation. -/
theorem balance (h : t.Fires m m') : m' + t.take = m + t.give := by
  obtain ⟨rest, rfl, rfl⟩ := h
  abel

/-- **Conservation.** A weight that is taken and given alike is kept. -/
theorem conserves {N : Type*} [AddCommMonoid N] (w : M →+ N) (hw : w t.take = w t.give)
    (h : t.Fires m m') : w m' = w m := by
  obtain ⟨rest, rfl, rfl⟩ := h
  rw [map_add, map_add, hw]

end Fires

end Move

/-- The moves of a list fire one after the other. -/
def FiresAll : List (Move M) → M → M → Prop
  | [], m, m' => m' = m
  | t :: ts, m, m' => ∃ m₁, t.Fires m m₁ ∧ FiresAll ts m₁ m'

namespace FiresAll

variable {ts us : List (Move M)} {m m₁ m₂ : M}

/-- **State equation.** -/
theorem stateEquation (h : FiresAll ts m m₁) :
    m₁ + (ts.map Move.take).sum = m + (ts.map Move.give).sum := by
  induction ts generalizing m with
  | nil => exact h ▸ rfl
  | cons t ts ih =>
    obtain ⟨k, hFirst, hRest⟩ := h
    calc m₁ + ((t :: ts).map Move.take).sum
        = m₁ + (ts.map Move.take).sum + t.take := by
          rw [List.map_cons, List.sum_cons, add_comm t.take, add_assoc]
      _ = k + t.take + (ts.map Move.give).sum := by rw [ih hRest, add_right_comm]
      _ = m + ((t :: ts).map Move.give).sum := by
          rw [hFirst.balance, List.map_cons, List.sum_cons, add_assoc]

/-- The order in which moves fired does not show in the marking they lead to. -/
theorem eq_of_perm [IsCancelAdd M] (hPerm : ts.Perm us) (h₁ : FiresAll ts m m₁)
    (h₂ : FiresAll us m m₂) : m₁ = m₂ := by
  have hTake : (ts.map Move.take).sum = (us.map Move.take).sum := (hPerm.map _).sum_eq
  have hGive : (ts.map Move.give).sum = (us.map Move.give).sum := (hPerm.map _).sum_eq
  have hEq : m₁ + (us.map Move.take).sum = m₂ + (us.map Move.take).sum := by
    calc m₁ + (us.map Move.take).sum
        = m₁ + (ts.map Move.take).sum := by rw [hTake]
      _ = m + (us.map Move.give).sum := by rw [h₁.stateEquation, hGive]
      _ = m₂ + (us.map Move.take).sum := h₂.stateEquation.symm
  exact add_right_cancel hEq

end FiresAll

end Lib
