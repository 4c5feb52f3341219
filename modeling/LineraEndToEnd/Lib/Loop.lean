import Mathlib.Init

/-!
# Loops without a bound

A `loop` whose body goes on with a new state or leaves the loop with a result. Nothing
says that it ends: `loop body fuel s` is the result when at most `fuel` turns are needed.

* `loop_of_variant` — total correctness: an invariant, and a number that every turn
  decreases, bound the fuel.
* `loop_invariant` — partial correctness: what the invariant says of a turn that leaves
  holds of every result.
-/

namespace Lib

variable {S R : Type*} {body : S → S ⊕ R}

/-- At most `fuel` turns of the loop. -/
def loop (body : S → S ⊕ R) : Nat → S → Option R
  | 0, _ => none
  | fuel + 1, s =>
    match body s with
    | .inl s' => loop body fuel s'
    | .inr r => some r

theorem loop_succ_inl {s s' : S} (hTurn : body s = .inl s') (fuel : Nat) :
    loop body (fuel + 1) s = loop body fuel s' := by
  rw [loop, hTurn]

theorem loop_succ_inr {s : S} {r : R} (hTurn : body s = .inr r) (fuel : Nat) :
    loop body (fuel + 1) s = some r := by
  rw [loop, hTurn]

/-- **Total correctness.** Every turn from a state of the invariant leaves with a result
as wanted, or keeps the invariant and decreases the variant: the loop ends, after no more
turns than the variant says. -/
theorem loop_of_variant {I : S → Prop} {Q : R → Prop} (variant : S → Nat)
    (hTurn : ∀ s, I s → (∃ r, body s = .inr r ∧ Q r) ∨
      ∃ s', body s = .inl s' ∧ I s' ∧ variant s' < variant s)
    {s : S} (hStart : I s) {fuel : Nat} (hFuel : variant s < fuel) :
    ∃ r, loop body fuel s = some r ∧ Q r := by
  induction fuel generalizing s with
  | zero => omega
  | succ fuel ih =>
    obtain ⟨r, hLeave, hQ⟩ | ⟨s', hNext, hKeep, hLess⟩ := hTurn s hStart
    · exact ⟨r, loop_succ_inr hLeave fuel, hQ⟩
    · rw [loop_succ_inl hNext]
      exact ih hKeep (by omega)

/-- **Partial correctness.** A turn keeps the invariant or leaves with a result as
wanted: every result is. -/
theorem loop_invariant {I : S → Prop} {Q : R → Prop}
    (hNext : ∀ s s', I s → body s = .inl s' → I s')
    (hLeave : ∀ s r, I s → body s = .inr r → Q r)
    {s : S} (hStart : I s) {fuel : Nat} {r : R} (hLoop : loop body fuel s = some r) : Q r := by
  induction fuel generalizing s with
  | zero => cases hLoop
  | succ fuel ih =>
    cases hTurn : body s with
    | inl s' =>
      rw [loop_succ_inl hTurn] at hLoop
      exact ih (hNext s s' hStart hTurn) hLoop
    | inr r' =>
      rw [loop_succ_inr hTurn, Option.some.injEq] at hLoop
      exact hLoop ▸ hLeave s r' hStart hTurn

end Lib
