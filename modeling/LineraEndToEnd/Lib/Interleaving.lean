import LineraEndToEnd.Lib.Run

/-!
# Interleavings of independent components

A system of components: every label belongs to one of them, its owner, and the
component `k` sees of a state `s` only `view k s`.

* `Independent` — a step changes the view of its owner only; what it does there,
  and whether it is possible, depends on this view only.
* `Independent.run_filter` — a component goes through a run as if it were alone.
* `Independent.run_of_forall` — a run is possible when each component could go
  through its part alone.
* `Independent.run_interleaving` — so only the order of each component's own labels
  matters.
-/

namespace Lib

variable {S A K V : Type*} [DecidableEq K]

/-- The components act on their own views. -/
structure Independent (step : S → A → Option S) (owner : A → K) (view : K → S → V) : Prop where
  other : ∀ {s s' a k}, step s a = some s' → owner a ≠ k → view k s' = view k s
  own : ∀ {s t s' a}, view (owner a) s = view (owner a) t → step s a = some s' →
    ∃ t', step t a = some t' ∧ view (owner a) s' = view (owner a) t'

namespace Independent

variable {step : S → A → Option S} {owner : A → K} {view : K → S → V} {s s' t t' : S} {k : K}
  {as bs : List A}

/-- **One component.** Its part of a run is possible from every state that looks
the same to it, and ends the same for it. -/
theorem run_filter (h : Independent step owner view) (hView : view k s = view k t)
    (hRun : run step s as = some s') :
    ∃ t', run step t (as.filter fun a => owner a = k) = some t' ∧ view k s' = view k t' := by
  induction as generalizing s t with
  | nil =>
    obtain rfl := Option.some.inj hRun
    exact ⟨t, rfl, hView⟩
  | cons a as ih =>
    obtain ⟨s₁, hFirst, hRest⟩ := run_cons_eq_some.mp hRun
    by_cases ha : owner a = k
    · subst ha
      obtain ⟨t₁, hFirst', hView₁⟩ := h.own hView hFirst
      obtain ⟨t', hRest', hView'⟩ := ih hView₁ hRest
      refine ⟨t', ?_, hView'⟩
      rw [List.filter_cons_of_pos (by simp)]
      exact run_cons_eq_some.mpr ⟨t₁, hFirst', hRest'⟩
    · rw [List.filter_cons_of_neg (by simpa using ha)]
      exact ih ((h.other hFirst ha).trans hView) hRest

/-- The end of a run, for one component, depends on what it saw at the start and
on its own labels. -/
theorem view_run (h : Independent step owner view) (hView : view k s = view k t)
    (hSame : (as.filter fun a => owner a = k) = bs.filter fun a => owner a = k)
    (hRun : run step s as = some s') (hRun' : run step t bs = some t') :
    view k s' = view k t' := by
  obtain ⟨t₁, hAlone, hEnd⟩ := h.run_filter hView hRun
  obtain ⟨t₂, hAlone', hEnd'⟩ := h.run_filter rfl hRun'
  rw [hSame, hAlone'] at hAlone
  rw [hEnd, hEnd', Option.some.inj hAlone]

/-- **All components.** Where each could go alone, they can go together. -/
theorem run_of_forall (h : Independent step owner view)
    (hAlone : ∀ k, ∃ t t', view k s = view k t ∧
      run step t (as.filter fun a => owner a = k) = some t') :
    ∃ s', run step s as = some s' := by
  induction as generalizing s with
  | nil => exact ⟨s, rfl⟩
  | cons a as ih =>
    obtain ⟨t, t', hView, hRun⟩ := hAlone (owner a)
    rw [List.filter_cons_of_pos (by simp)] at hRun
    obtain ⟨t₁, hFirst, hRest⟩ := run_cons_eq_some.mp hRun
    obtain ⟨s₁, hFirst', hView₁⟩ := h.own hView.symm hFirst
    -- the owner of `a` goes on from `t₁`, the others have not moved
    have hAlone₁ : ∀ k, ∃ t t', view k s₁ = view k t ∧
        run step t (as.filter fun a => owner a = k) = some t' := by
      intro k
      by_cases ha : owner a = k
      · subst ha
        exact ⟨t₁, t', hView₁.symm, hRest⟩
      · obtain ⟨u, u', hViewU, hRunU⟩ := hAlone k
        rw [List.filter_cons_of_neg (by simpa using ha)] at hRunU
        exact ⟨u, u', (h.other hFirst' ha).trans hViewU, hRunU⟩
    obtain ⟨s', hRest'⟩ := ih hAlone₁
    exact ⟨s', run_cons_eq_some.mpr ⟨s₁, hFirst', hRest'⟩⟩

/-- **Interleaving rule.** A list of labels can be replaced by any other in which
the labels of each component stand in the same order. -/
theorem run_interleaving (h : Independent step owner view)
    (hSame : ∀ k, (as.filter fun a => owner a = k) = bs.filter fun a => owner a = k)
    (hRun : run step s as = some s') :
    ∃ t', run step s bs = some t' ∧ ∀ k, view k s' = view k t' := by
  have hAlone : ∀ k, ∃ t t', view k s = view k t ∧
      run step t (bs.filter fun a => owner a = k) = some t' := by
    intro k
    obtain ⟨t', hRunK, -⟩ := h.run_filter (k := k) rfl hRun
    exact ⟨s, t', rfl, hSame k ▸ hRunK⟩
  obtain ⟨t', hRun'⟩ := h.run_of_forall hAlone
  exact ⟨t', hRun', fun k => h.view_run rfl (hSame k) hRun hRun'⟩

end Independent

end Lib
