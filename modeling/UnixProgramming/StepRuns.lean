import Mathlib

/-! Runs of a partial step function over a list of operations. A step that is not
defined stops the run; `Throughout` therefore also says that every step of the
run is defined. -/
namespace UnixProgramming.StepRuns

variable {σ ο : Type*}

/-- The property holds in every state the run visits, and the run never gets stuck. -/
def Throughout (step : σ → ο → Option σ) (P : σ → Prop) : σ → List ο → Prop
  | s, [] => P s
  | s, o :: os => P s ∧ ∃ s', step s o = some s' ∧ Throughout step P s' os

/-- Every operation of the run meets the guard in the state it is applied to. -/
def Guarded (step : σ → ο → Option σ) (guard : σ → ο → Prop) : σ → List ο → Prop
  | _, [] => True
  | s, o :: os => guard s o ∧ ∀ s', step s o = some s' → Guarded step guard s' os

def Transitions (step : σ → ο → Option σ) (R : σ → ο → σ → Prop) : σ → List ο → Prop
  | _, [] => True
  | s, o :: os => ∃ s', step s o = some s' ∧ R s o s' ∧ Transitions step R s' os

/-- No operation of the ones that are considered can be taken. -/
def Blocked (step : σ → ο → Option σ) (able : ο → Bool) (s : σ) : Prop :=
  ∀ o, able o = true → step s o = none

instance decidableThroughout (step : σ → ο → Option σ) (P : σ → Prop) [DecidablePred P] :
    ∀ s os, Decidable (Throughout step P s os)
  | s, [] => inferInstanceAs (Decidable (P s))
  | s, o :: os =>
      match he : step s o with
      | none => isFalse fun h => by simp [Throughout, he] at h
      | some s' =>
          have := decidableThroughout step P s' os
          decidable_of_iff (P s ∧ Throughout step P s' os) (by simp [Throughout, he])

instance decidableGuarded (step : σ → ο → Option σ) (guard : σ → ο → Prop)
    [∀ s o, Decidable (guard s o)] : ∀ s os, Decidable (Guarded step guard s os)
  | _, [] => isTrue trivial
  | s, o :: os =>
      match he : step s o with
      | none => decidable_of_iff (guard s o) (by simp [Guarded, he])
      | some s' =>
          have := decidableGuarded step guard s' os
          decidable_of_iff (guard s o ∧ Guarded step guard s' os) (by simp [Guarded, he])

variable {step : σ → ο → Option σ} {P Q : σ → Prop} {guard guard' : σ → ο → Prop}

lemma Throughout.head {s : σ} {os : List ο} (h : Throughout step P s os) : P s := by
  cases os with
  | nil => exact h
  | cons o os => exact h.1

lemma Throughout.imp (hPQ : ∀ s, P s → Q s) {s : σ} {os : List ο}
    (h : Throughout step P s os) : Throughout step Q s os := by
  induction os generalizing s with
  | nil => exact hPQ s h
  | cons o os ih =>
    obtain ⟨hs, s', he, ht⟩ := h
    exact ⟨hPQ s hs, s', he, ih ht⟩

lemma Guarded.imp (hg : ∀ s o, guard s o → guard' s o) {s : σ} {os : List ο}
    (h : Guarded step guard s os) : Guarded step guard' s os := by
  induction os generalizing s with
  | nil => trivial
  | cons o os ih => exact ⟨hg s o h.1, fun s' he => ih (h.2 s' he)⟩

/-- An invariant that every guarded step preserves holds throughout a guarded run. -/
theorem throughout_of_guarded
    (hstep : ∀ s o, P s → guard s o → ∃ s', step s o = some s' ∧ P s')
    {s : σ} {os : List ο} (hs : P s) (hg : Guarded step guard s os) :
    Throughout step P s os := by
  induction os generalizing s with
  | nil => exact hs
  | cons o os ih =>
    obtain ⟨s', he, hs'⟩ := hstep s o hs hg.1
    exact ⟨hs, s', he, ih hs' (hg.2 s' he)⟩

theorem transitions_of_guarded {R : σ → ο → σ → Prop}
    (hstep : ∀ s o, P s → guard s o → ∃ s', step s o = some s' ∧ R s o s' ∧ P s')
    {s : σ} {os : List ο} (hs : P s) (hg : Guarded step guard s os) :
    Transitions step R s os := by
  induction os generalizing s with
  | nil => trivial
  | cons o os ih =>
    obtain ⟨s', he, hr, hs'⟩ := hstep s o hs hg.1
    exact ⟨s', he, hr, ih hs' (hg.2 s' he)⟩

/-- An invariant of the defined steps holds in every state that a run reaches. -/
theorem invariant_of_run (hstep : ∀ s o s', P s → step s o = some s' → P s')
    {s s' : σ} {os : List ο} (hs : P s) (h : os.foldlM step s = some s') : P s' := by
  induction os generalizing s with
  | nil =>
    obtain rfl : s = s' := by simpa using h
    exact hs
  | cons o os ih =>
    rw [List.foldlM_cons] at h
    obtain ⟨t, ht, hrest⟩ := Option.bind_eq_some_iff.mp h
    exact ih (hstep s o t hs ht) hrest

theorem invariant_of_good_run {good : ο → Prop}
    (hstep : ∀ s o s', P s → good o → step s o = some s' → P s') {s s' : σ} {os : List ο}
    (hs : P s) (hgood : ∀ o ∈ os, good o) (h : os.foldlM step s = some s') : P s' := by
  induction os generalizing s with
  | nil =>
    obtain rfl : s = s' := by simpa using h
    exact hs
  | cons o os ih =>
    obtain ⟨ho, hos⟩ := List.forall_mem_cons.mp hgood
    rw [List.foldlM_cons] at h
    obtain ⟨t, ht, hrest⟩ := Option.bind_eq_some_iff.mp h
    exact ih (hstep s o t hs ho ht) hos hrest

/-- A measure that every step decreases bounds the length of the runs. -/
theorem length_le_of_decreasing (measure : σ → ℕ)
    (hstep : ∀ s o s', P s → step s o = some s' → P s' ∧ measure s' < measure s)
    {s s' : σ} {os : List ο} (hs : P s) (h : os.foldlM step s = some s') :
    os.length + measure s' ≤ measure s := by
  induction os generalizing s with
  | nil =>
    obtain rfl : s = s' := by simpa using h
    simp
  | cons o os ih =>
    rw [List.foldlM_cons] at h
    obtain ⟨t, ht, hrest⟩ := Option.bind_eq_some_iff.mp h
    obtain ⟨hinv, hlt⟩ := hstep s o t hs ht
    have hle := ih hinv hrest
    rw [List.length_cons]
    omega

/-- If every state short of the goal has a step that decreases the measure, some run reaches
the goal. -/
theorem exists_run_of_decreasing {Goal : σ → Prop} (measure : σ → ℕ)
    (hstep : ∀ s, P s → ¬ Goal s → ∃ o s', step s o = some s' ∧ P s' ∧ measure s' < measure s)
    {s : σ} (hs : P s) : ∃ (os : List ο) (s' : σ), os.foldlM step s = some s' ∧ P s' ∧ Goal s' := by
  induction hm : measure s using Nat.strong_induction_on generalizing s with
  | _ m ih =>
    by_cases hgoal : Goal s
    · exact ⟨[], s, rfl, hs, hgoal⟩
    · obtain ⟨o, t, ht, hinv, hlt⟩ := hstep s hs hgoal
      obtain ⟨os, s', hrun, hs', hgoal'⟩ := ih (measure t) (hm ▸ hlt) hinv rfl
      exact ⟨o :: os, s', by rw [List.foldlM_cons, ht]; exact hrun, hs', hgoal'⟩

/-- When some run of another system follows each step, some run follows each run. -/
theorem exists_run_of_simulation {τ π : Type*} {step' : τ → π → Option τ} {R : σ → τ → Prop}
    (hstep : ∀ s o s' t, R s t → step s o = some s' →
      ∃ (ps : List π) (t' : τ), ps.foldlM step' t = some t' ∧ R s' t')
    {s s' : σ} {t : τ} {os : List ο} (hs : R s t) (h : os.foldlM step s = some s') :
    ∃ (ps : List π) (t' : τ), ps.foldlM step' t = some t' ∧ R s' t' := by
  induction os generalizing s t with
  | nil =>
    obtain rfl : s = s' := by simpa using h
    exact ⟨[], t, rfl, hs⟩
  | cons o os ih =>
    rw [List.foldlM_cons] at h
    obtain ⟨u, hu, hrest⟩ := Option.bind_eq_some_iff.mp h
    obtain ⟨ps, t', hps, ht'⟩ := hstep s o u t hs hu
    obtain ⟨qs, t'', hqs, ht''⟩ := ih ht' hrest
    exact ⟨ps ++ qs, t'', by rw [List.foldlM_append, hps]; exact hqs, ht''⟩

/-- When each step is defined and keeps the property exactly on good operations, so is a run. -/
theorem run_iff_of_step {good : ο → Prop}
    (hstep : ∀ s o, (∃ s', step s o = some s' ∧ P s') ↔ P s ∧ good o) (s : σ) (os : List ο) :
    (∃ s', os.foldlM step s = some s' ∧ P s') ↔ P s ∧ ∀ o ∈ os, good o := by
  induction os generalizing s with
  | nil => simp
  | cons o os ih =>
    have hfirst : (∃ s', (o :: os).foldlM step s = some s' ∧ P s') ↔
        ∃ t, step s o = some t ∧ ∃ s', os.foldlM step t = some s' ∧ P s' := by
      simp only [List.foldlM_cons, Option.bind_eq_bind, Option.bind_eq_some_iff]
      tauto
    calc (∃ s', (o :: os).foldlM step s = some s' ∧ P s')
        ↔ ∃ t, step s o = some t ∧ P t ∧ ∀ o ∈ os, good o := by simp only [hfirst, ih]
      _ ↔ (∃ t, step s o = some t ∧ P t) ∧ ∀ o ∈ os, good o := by simp only [← and_assoc,
          exists_and_right]
      _ ↔ P s ∧ ∀ o' ∈ o :: os, good o' := by rw [hstep, and_assoc, List.forall_mem_cons]

/-- Where each guarded step keeps a property exactly on good operations, a guarded run has it
throughout exactly when all its operations are good. -/
theorem throughout_iff_of_guarded {good : ο → Prop}
    (hinv : ∀ s o s', Q s → guard s o → step s o = some s' → Q s')
    (hstep : ∀ s o, Q s → P s → guard s o → ((∃ s', step s o = some s' ∧ P s') ↔ good o))
    {s : σ} {os : List ο} (hQ : Q s) (hs : P s) (hg : Guarded step guard s os) :
    Throughout step P s os ↔ ∀ o ∈ os, good o := by
  induction os generalizing s with
  | nil => exact iff_of_true hs (by simp)
  | cons o os ih =>
    have hfirst := hstep s o hQ hs hg.1
    rw [List.forall_mem_cons]
    constructor
    · rintro ⟨-, t, ht, hrest⟩
      have hgood := hfirst.mp ⟨t, ht, hrest.head⟩
      exact ⟨hgood, (ih (hinv s o t hQ hg.1 ht) hrest.head (hg.2 t ht)).mp hrest⟩
    · rintro ⟨hgood, hrest⟩
      obtain ⟨t, ht, hP⟩ := hfirst.mpr hgood
      exact ⟨hs, t, ht, (ih (hinv s o t hQ hg.1 ht) hP (hg.2 t ht)).mpr hrest⟩

lemma guarded_of_run {s s' : σ} {os : List ο} (h : os.foldlM step s = some s') :
    Guarded step (fun s o => ∃ t, step s o = some t) s os := by
  induction os generalizing s with
  | nil => trivial
  | cons o os ih =>
    rw [List.foldlM_cons] at h
    obtain ⟨t, ht, hrest⟩ := Option.bind_eq_some_iff.mp h
    refine ⟨⟨t, ht⟩, fun u hu => ?_⟩
    obtain rfl : t = u := Option.some.inj (ht.symm.trans hu)
    exact ih hrest

/-- When a step from a state with the property keeps it exactly on good operations, a run
has it throughout exactly when all its operations are good. -/
theorem throughout_iff_of_step {good : ο → Prop}
    (hstep : ∀ s o s', P s → step s o = some s' → (P s' ↔ good o)) {s : σ} {os : List ο}
    (hs : P s) (hrun : (os.foldlM step s).isSome = true) :
    Throughout step P s os ↔ ∀ o ∈ os, good o := by
  obtain ⟨last, hlast⟩ := Option.isSome_iff_exists.mp hrun
  refine throughout_iff_of_guarded (Q := fun _ => True) (fun _ _ _ _ _ _ => trivial)
    (fun s o _ hP ⟨t, ht⟩ => ?_) trivial hs (guarded_of_run hlast)
  have hgood := hstep s o t hP ht
  constructor
  · rintro ⟨s', hs', hP'⟩
    obtain rfl : t = s' := Option.some.inj (ht.symm.trans hs')
    exact hgood.mp hP'
  · exact fun ho => ⟨t, ht, hgood.mpr ho⟩

/-- A property that a step keeps exactly under the guard holds throughout the guarded runs, and
throughout no others. -/
theorem throughout_iff_guarded
    (hstep : ∀ s o, P s → ((∃ s', step s o = some s' ∧ P s') ↔ guard s o)) {s : σ} {os : List ο}
    (hs : P s) : Throughout step P s os ↔ Guarded step guard s os := by
  constructor
  · intro h
    induction os generalizing s with
    | nil => trivial
    | cons o os ih =>
      obtain ⟨-, t, ht, hrest⟩ := h
      refine ⟨(hstep s o hs).mp ⟨t, ht, hrest.head⟩, fun s' hs' => ?_⟩
      obtain rfl : t = s' := Option.some.inj (ht.symm.trans hs')
      exact ih hrest.head hrest
  · exact throughout_of_guarded (fun s o hs hguard => (hstep s o hs).mpr hguard) hs

/-- A run whose states have a property throughout is defined. -/
lemma Throughout.run {s : σ} {os : List ο} (h : Throughout step P s os) :
    ∃ s', os.foldlM step s = some s' := by
  induction os generalizing s with
  | nil => exact ⟨s, rfl⟩
  | cons o os ih =>
    obtain ⟨-, t, ht, hrest⟩ := h
    obtain ⟨s', hs'⟩ := ih hrest
    exact ⟨s', by rw [List.foldlM_cons, ht]; exact hs'⟩

end UnixProgramming.StepRuns
