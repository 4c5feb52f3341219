import Mathlib.Data.List.Induction

/-!
# Runs of a partial step function

A system whose every step is a partial function `step : S → A → Option S` of
its state and of the label of the step (`none`: the step is not possible in
this state). A run is a list of labels; `run step s as` is the state it ends
in, when every step of it is possible.

* `run_append_eq_some` / `run_concat_eq_some` — runs compose, and extend by one step at
  the end.
* `run_induction` — the invariant rule over histories: what holds of the start
  with the empty history, and is kept by a step, holds of every run.
* `run_invariant` — the same for a predicate of the state alone.
* `Along` / `run_invariant_along` — runs all of whose steps meet a condition, and
  the invariant rule for them; `along_iff`: the same, step by step; `run_of_along`: they
  go through.
* `Matches` / `foldlM_matches` — a sequence of calls that may panic refines a run of
  an abstract system: it panics where the run is not possible.
* `foldlM_eq_ok_iff_run` — a loop whose body is a run is a run, so nested loops are
  one run of their innermost steps.
* `run_simulates_by` / `run_simulates` — a relation kept by matching steps is kept
  by whole runs.
-/

namespace Lib

variable {S A : Type*} {step : S → A → Option S}

/-- The state a list of labels leads to, when all its steps are possible. -/
def run (step : S → A → Option S) (s : S) : List A → Option S
  | [] => some s
  | a :: as => (step s a).bind fun s' => run step s' as

@[simp] theorem run_nil (s : S) : run step s [] = some s := rfl

theorem run_cons (s : S) (a : A) (as : List A) :
    run step s (a :: as) = (step s a).bind fun s' => run step s' as := rfl

theorem run_cons_eq_some {s s' : S} {a : A} {as : List A} :
    run step s (a :: as) = some s' ↔
      ∃ t, step s a = some t ∧ run step t as = some s' := by
  rw [run_cons, Option.bind_eq_some_iff]

theorem run_append (s : S) (as bs : List A) :
    run step s (as ++ bs) = (run step s as).bind fun s' => run step s' bs := by
  induction as generalizing s with
  | nil => rfl
  | cons a as ih =>
    rw [List.cons_append, run_cons, run_cons, Option.bind_assoc]
    congr 1
    funext t
    exact ih t

theorem run_append_eq_some {s s' : S} {as bs : List A} :
    run step s (as ++ bs) = some s' ↔
      ∃ t, run step s as = some t ∧ run step t bs = some s' := by
  rw [run_append, Option.bind_eq_some_iff]

theorem run_singleton (s : S) (a : A) : run step s [a] = step s a := by
  rw [run_cons]
  simp

theorem run_concat_eq_some {s s' : S} {as : List A} {a : A} :
    run step s (as ++ [a]) = some s' ↔
      ∃ t, run step s as = some t ∧ step t a = some s' := by
  rw [run_append_eq_some]
  simp only [run_singleton]

/-- What a history collects, extended by one step. -/
theorem filterMap_concat {B : Type*} (f : A → Option B) (as : List A) (a : A) :
    (as ++ [a]).filterMap f = as.filterMap f ++ (f a).toList := by
  rw [List.filterMap_append]
  cases hf : f a <;> simp [hf]

/-- **Induction over histories.** What holds of the start with no history, and
is kept by every possible step, holds at the end of every run. -/
theorem run_induction {s₀ : S} {P : List A → S → Prop} (hStart : P [] s₀)
    (hStep : ∀ as s a s', run step s₀ as = some s → P as s →
      step s a = some s' → P (as ++ [a]) s') :
    ∀ {as : List A} {s : S}, run step s₀ as = some s → P as s := by
  intro as
  induction as using List.reverseRecOn with
  | nil =>
    intro s h
    rw [run_nil, Option.some.injEq] at h
    exact h ▸ hStart
  | append_singleton as a ih =>
    intro s h
    obtain ⟨t, hRun, hLast⟩ := run_concat_eq_some.mp h
    exact hStep as t a s hRun (ih hRun) hLast

/-- **Invariant rule.** A predicate kept by every possible step is kept by
every run. -/
theorem run_invariant {P : S → Prop}
    (hStep : ∀ s a s', P s → step s a = some s' → P s')
    {s s' : S} {as : List A} (hStart : P s) (hRun : run step s as = some s') : P s' :=
  run_induction (P := fun _ => P) hStart
    (fun _ t a t' _ hP hLast => hStep t a t' hP hLast) hRun

/-- **Invariant rule for a run.** A predicate kept by every step of this run holds after it. -/
theorem run_invariant_mem {P : S → Prop} {as : List A}
    (hStep : ∀ s a s', a ∈ as → P s → step s a = some s' → P s')
    {s s' : S} (hStart : P s) (hRun : run step s as = some s') : P s' := by
  induction as generalizing s with
  | nil => exact Option.some.inj hRun ▸ hStart
  | cons a as ih =>
    obtain ⟨t, hFirst, hOthers⟩ := run_cons_eq_some.mp hRun
    have hNext := hStep s a t List.mem_cons_self hStart hFirst
    exact ih (fun s b s' hb => hStep s b s' (List.mem_cons_of_mem a hb)) hNext hOthers

/-- Every step of a run meets a condition on its label and the state before it. -/
def Along (step : S → A → Option S) (Q : S → A → Prop) : S → List A → Prop
  | _, [] => True
  | s, a :: as => Q s a ∧ ∀ s' ∈ step s a, Along step Q s' as

instance decidableAlong {Q : S → A → Prop} [∀ s a, Decidable (Q s a)] :
    ∀ (s : S) (as : List A), Decidable (Along step Q s as)
  | _, [] => isTrue trivial
  | s, a :: as =>
    have : DecidablePred fun s' => Along step Q s' as := fun s' => decidableAlong s' as
    inferInstanceAs (Decidable (Q s a ∧ ∀ s' ∈ step s a, Along step Q s' as))

/-- A condition holds along a run when it holds at every step of it. -/
theorem along_iff {Q : S → A → Prop} {s : S} {as : List A} :
    Along step Q s as ↔ ∀ before a after t, as = before ++ a :: after →
      run step s before = some t → Q t a := by
  induction as generalizing s with
  | nil => simp [Along]
  | cons a as ih =>
    constructor
    · rintro ⟨hHere, hRest⟩ before b after t hSplit hRun
      cases before with
      | nil =>
        obtain ⟨rfl, -⟩ := List.cons.inj hSplit
        obtain rfl := Option.some.inj hRun
        exact hHere
      | cons c before =>
        obtain ⟨rfl, hTail⟩ := List.cons.inj hSplit
        obtain ⟨s', hFirst, hOthers⟩ := run_cons_eq_some.mp hRun
        exact ih.mp (hRest s' hFirst) before b after t hTail hOthers
    · intro hAll
      refine ⟨hAll [] a as s rfl rfl, fun s' hFirst => ih.mpr ?_⟩
      intro before b after t hSplit hRun
      exact hAll (a :: before) b after t (by rw [hSplit]; rfl)
        (run_cons_eq_some.mpr ⟨s', hFirst, hRun⟩)

/-- **Invariant rule under a condition.** A predicate kept by every step that meets
the condition is kept by every run along which the condition is met. -/
theorem run_invariant_along {P : S → Prop} {Q : S → A → Prop}
    (hStep : ∀ s a s', P s → Q s a → step s a = some s' → P s') :
    ∀ {as : List A} {s s' : S}, P s → Along step Q s as → run step s as = some s' → P s' := by
  intro as
  induction as with
  | nil =>
    intro s s' hP _ hRun
    rw [run_nil, Option.some.injEq] at hRun
    exact hRun ▸ hP
  | cons a as ih =>
    intro s s' hP hAlong hRun
    obtain ⟨hQ, hRest⟩ := hAlong
    obtain ⟨t, hFirst, hOthers⟩ := run_cons_eq_some.mp hRun
    exact ih (hStep s a t hP hQ hFirst) (hRest t hFirst) hOthers

/-- **Progress.** If a step is possible wherever the condition is met, so is every run along
which it is. -/
theorem run_of_along {Q : S → A → Prop} (hStep : ∀ s a, Q s a → ∃ s', step s a = some s') :
    ∀ {as : List A} {s : S}, Along step Q s as → ∃ s', run step s as = some s' := by
  intro as
  induction as with
  | nil =>
    intro s _
    exact ⟨s, rfl⟩
  | cons a as ih =>
    intro s ⟨hQ, hRest⟩
    obtain ⟨t, hFirst⟩ := hStep s a hQ
    obtain ⟨s', hOthers⟩ := ih (hRest t hFirst)
    exact ⟨s', run_cons_eq_some.mpr ⟨t, hFirst, hOthers⟩⟩

/-- **Simulation rule.** Each step with a label allowed by `Q` is matched by the
run of the other system which `f` makes of its label, in such a way that related
states stay related. Then so is every run all of whose labels are allowed. -/
theorem run_simulates_by {S' A' : Type*} {step' : S' → A' → Option S'} {R : S → S' → Prop}
    {Q : A → Prop} {f : A → List A'}
    (hStep : ∀ s t a s', R s t → Q a → step s a = some s' →
      ∃ t', run step' t (f a) = some t' ∧ R s' t') :
    ∀ {as : List A} {s : S} {t : S'} {s' : S}, R s t → (∀ a ∈ as, Q a) →
      run step s as = some s' → ∃ t', run step' t (as.flatMap f) = some t' ∧ R s' t' := by
  intro as
  induction as with
  | nil =>
    intro s t s' hR _ hRun
    rw [run_nil, Option.some.injEq] at hRun
    exact ⟨t, rfl, hRun ▸ hR⟩
  | cons a as ih =>
    intro s t s' hR hQ hRun
    obtain ⟨s₁, hFirst, hRest⟩ := run_cons_eq_some.mp hRun
    obtain ⟨t₁, hFirst', hR₁⟩ := hStep s t a s₁ hR (hQ a List.mem_cons_self) hFirst
    obtain ⟨t', hRest', hR'⟩ :=
      ih hR₁ (fun b hb => hQ b (List.mem_cons_of_mem a hb)) hRest
    rw [List.flatMap_cons]
    exact ⟨t', run_append_eq_some.mpr ⟨t₁, hFirst', hRest'⟩, hR'⟩

/-- The same with every step matched by one step of the same label. -/
theorem run_simulates {S' : Type*} {step' : S' → A → Option S'} {R : S → S' → Prop}
    {Q : A → Prop}
    (hStep : ∀ s t a s', R s t → Q a → step s a = some s' →
      ∃ t', step' t a = some t' ∧ R s' t')
    {as : List A} {s : S} {t : S'} {s' : S} (hR : R s t) (hQ : ∀ a ∈ as, Q a)
    (hRun : run step s as = some s') : ∃ t', run step' t as = some t' ∧ R s' t' := by
  rw [← List.flatMap_singleton' as]
  refine run_simulates_by (fun s t a s' hR hQ hOne => ?_) hR hQ hRun
  obtain ⟨t', hOne', hR'⟩ := hStep s t a s' hR hQ hOne
  exact ⟨t', (run_singleton t a).trans hOne', hR'⟩

/-- A result that may be an error and a result that may be missing: both fail, or
both succeed with related values. -/
def Matches {ε S T : Type*} (R : S → T → Prop) : Except ε S → Option T → Prop
  | .error _, none => True
  | .ok s, some t => R s t
  | _, _ => False

theorem Matches.mono {ε S T : Type*} {R R' : S → T → Prop} {x : Except ε S} {y : Option T}
    (h : Matches R x y) (hR : ∀ s t, R s t → R' s t) : Matches R' x y := by
  cases x <;> cases y
  · trivial
  · exact h
  · exact h
  · exact hR _ _ h

theorem Matches.error_iff {ε S T : Type*} {R : S → T → Prop} {x : Except ε S} {y : Option T}
    (h : Matches R x y) : (∃ e, x = .error e) ↔ y = none := by
  cases x with
  | error e =>
    cases y with
    | none => exact ⟨fun _ => rfl, fun _ => ⟨e, rfl⟩⟩
    | some t => exact h.elim
  | ok s =>
    cases y with
    | none => exact h.elim
    | some t => simp

/-- **Refinement rule.** If every step fails exactly where the abstract step does,
and keeps related states related, then so does every sequence of steps. -/
theorem foldlM_matches {ε T : Type*} {f : S → A → Except ε S} {g : T → A → Option T}
    {R : S → T → Prop} (hStep : ∀ s t a, R s t → Matches R (f s a) (g t a)) :
    ∀ {as : List A} {s : S} {t : T}, R s t → Matches R (as.foldlM f s) (run g t as) := by
  intro as
  induction as with
  | nil =>
    intro s t hR
    exact hR
  | cons a as ih =>
    intro s t hR
    have hFirst := hStep s t a hR
    rw [List.foldlM_cons, run_cons]
    cases hf : f s a with
    | error err =>
      cases hg : g t a with
      | none => trivial
      | some t' =>
        rw [hf, hg] at hFirst
        exact hFirst.elim
    | ok s' =>
      cases hg : g t a with
      | none =>
        rw [hf, hg] at hFirst
        exact hFirst.elim
      | some t' =>
        rw [hf, hg] at hFirst
        exact ih hFirst

/-- **Loops.** If the body of a loop is a run, so is the loop. -/
theorem foldlM_eq_ok_iff_run {ε B : Type*} {f : S → B → Except ε S} {g : B → List A}
    {bs : List B}
    (hBody : ∀ b ∈ bs, ∀ s s', f s b = .ok s' ↔ run step s (g b) = some s') (s s' : S) :
    bs.foldlM f s = .ok s' ↔ run step s (bs.flatMap g) = some s' := by
  induction bs generalizing s with
  | nil =>
    rw [List.foldlM_nil, List.flatMap_nil, run_nil, Option.some.injEq]
    exact ⟨fun h => Except.ok.inj h, congrArg Except.ok⟩
  | cons b bs ih =>
    rw [List.foldlM_cons, List.flatMap_cons, run_append_eq_some]
    have hOthers := ih fun c hc => hBody c (List.mem_cons_of_mem b hc)
    constructor
    · intro hLoop
      cases hFirst : f s b with
      | error err =>
        rw [hFirst] at hLoop
        cases hLoop
      | ok t =>
        rw [hFirst] at hLoop
        exact ⟨t, (hBody b List.mem_cons_self s t).mp hFirst, (hOthers t).mp hLoop⟩
    · rintro ⟨t, hFirst, hRest⟩
      rw [(hBody b List.mem_cons_self s t).mpr hFirst]
      exact (hOthers t).mpr hRest

end Lib
