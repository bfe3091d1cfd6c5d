import Mathlib

/-! Parallel loops without synchronisation. Every iteration belongs to one thread, a
thread runs the actions of its iterations in the order of the loop, and the actions of
different threads are interleaved in any way. When actions of different iterations
commute, every execution does what the sequential loop does. -/
namespace UnixProgramming.ParallelFor

variable {ι α : Type*} {σ : Type} {T : ℕ}

def byThread (trace : List (Fin T × α)) (t : Fin T) : List α :=
  (trace.filter fun x => x.1 = t).map Prod.snd

def program (iterations : List ι) (body : ι → List α) (owner : ι → Fin T) (t : Fin T) : List α :=
  (iterations.filter fun i => owner i = t).flatMap body

/-- A parallel run of a loop: an assignment of the iterations to `T` threads and an
interleaving of the programs of the threads. -/
structure Execution (T : ℕ) (iterations : List ι) (body : ι → List α) where
  owner : ι → Fin T
  trace : List (Fin T × α)
  program_order : ∀ t, byThread trace t = program iterations body owner t

def Execution.actions {iterations : List ι} {body : ι → List α}
    (e : Execution T iterations body) : List α := e.trace.map Prod.snd

/-- One thread runs the whole loop. -/
def Execution.serial (t : Fin T) (iterations : List ι) (body : ι → List α) :
    Execution T iterations body where
  owner _ := t
  trace := (iterations.flatMap body).map fun x => (t, x)
  program_order u := by
    by_cases h : t = u
    · simp [byThread, program, h, List.filter_map, Function.comp_def]
    · simp [byThread, program, h, List.filter_map, Function.comp_def]

/-- Actions of different iterations may be exchanged. -/
def Independent {m : Type → Type*} [Monad m] (act : σ → α → m σ) (iterations : List ι)
    (body : ι → List α) : Prop :=
  ∀ i ∈ iterations, ∀ j ∈ iterations, i ≠ j → ∀ x ∈ body i, ∀ y ∈ body j, ∀ s,
    (act s x >>= fun s' => act s' y) = (act s y >>= fun s' => act s' x)

lemma byThread_cons (x : Fin T × α) (trace : List (Fin T × α)) (t : Fin T) :
    byThread (x :: trace) t = if x.1 = t then x.2 :: byThread trace t else byThread trace t := by
  by_cases h : x.1 = t <;> simp [byThread, h]

lemma byThread_append (l l' : List (Fin T × α)) (t : Fin T) :
    byThread (l ++ l') t = byThread l t ++ byThread l' t := by
  simp [byThread]

lemma mem_byThread {trace : List (Fin T × α)} {t : Fin T} {x : α} :
    x ∈ byThread trace t ↔ (t, x) ∈ trace := by
  simp [byThread]

lemma mem_program {iterations : List ι} {body : ι → List α} {owner : ι → Fin T} {t : Fin T}
    {x : α} : x ∈ program iterations body owner t ↔
      ∃ i ∈ iterations, owner i = t ∧ x ∈ body i := by
  simp [program, and_assoc]

lemma program_cons (i : ι) (iterations : List ι) (body : ι → List α) (owner : ι → Fin T)
    (t : Fin T) : program (i :: iterations) body owner t =
      if owner i = t then body i ++ program iterations body owner t
      else program iterations body owner t := by
  by_cases h : owner i = t <;> simp [program, h]

lemma exists_first {trace : List (Fin T × α)} {t : Fin T} {x : α} {p : List α}
    (h : byThread trace t = x :: p) :
    ∃ before after, trace = before ++ (t, x) :: after ∧ (∀ y ∈ before, y.1 ≠ t) ∧
      byThread (before ++ after) t = p := by
  induction trace with
  | nil => cases h
  | cons y trace ih =>
    rw [byThread_cons] at h
    split_ifs at h with hy
    · obtain ⟨hx, hp⟩ := List.cons.inj h
      exact ⟨[], trace, by rw [← hx, ← hy]; rfl, by simp, hp⟩
    · obtain ⟨before, after, rfl, hbefore, hp⟩ := ih h
      refine ⟨y :: before, after, rfl, List.forall_mem_cons.mpr ⟨hy, hbefore⟩, ?_⟩
      rw [List.cons_append, byThread_cons, if_neg hy, hp]

section Commuting

variable {m : Type → Type*} [Monad m] [LawfulMonad m] {act : σ → α → m σ}

lemma foldlM_move_front {before after : List α} {x : α}
    (h : ∀ y ∈ before, ∀ s,
      (act s x >>= fun s' => act s' y) = (act s y >>= fun s' => act s' x)) (s : σ) :
    (before ++ x :: after).foldlM act s =
      act s x >>= fun s' => (before ++ after).foldlM act s' := by
  induction before generalizing s with
  | nil => rfl
  | cons y before ih =>
    have hy := h y (by simp) s
    have ih := ih fun z hz => h z (List.mem_cons_of_mem y hz)
    calc (y :: before ++ x :: after).foldlM act s
        = act s y >>= fun s' => act s' x >>= fun s'' => (before ++ after).foldlM act s'' := by
          simp only [List.cons_append, List.foldlM_cons, ih]
      _ = act s x >>= fun s' => act s' y >>= fun s'' => (before ++ after).foldlM act s'' := by
          rw [← bind_assoc, ← hy, bind_assoc]
      _ = act s x >>= fun s' => (y :: before ++ after).foldlM act s' := by
          simp only [List.cons_append, List.foldlM_cons]

/-- The next actions of a thread may be run first when they commute with the actions of
the other threads. -/
lemma foldlM_move_program {trace : List (Fin T × α)} {t : Fin T} {xs p : List α}
    (hp : byThread trace t = xs ++ p)
    (h : ∀ x ∈ xs, ∀ y ∈ trace, y.1 ≠ t → ∀ s,
      (act s x >>= fun s' => act s' y.2) = (act s y.2 >>= fun s' => act s' x)) :
    ∃ rest : List (Fin T × α), byThread rest t = p ∧
      (∀ u ≠ t, byThread rest u = byThread trace u) ∧ ∀ s,
      (trace.map Prod.snd).foldlM act s =
        xs.foldlM act s >>= fun s' => (rest.map Prod.snd).foldlM act s' := by
  induction xs generalizing trace with
  | nil => exact ⟨trace, hp, fun _ _ => rfl, fun s => by simp⟩
  | cons x xs ih =>
    obtain ⟨before, after, rfl, hbefore, hp'⟩ := exists_first hp
    obtain ⟨rest, hrest, hothers, hrun⟩ := ih hp' (by
      intro z hz y hy
      refine h z (List.mem_cons_of_mem x hz) y ?_
      simp only [List.mem_append, List.mem_cons] at hy ⊢
      tauto)
    refine ⟨rest, hrest, fun u hu => ?_, fun s => ?_⟩
    · rw [hothers u hu, byThread_append, byThread_append, byThread_cons, if_neg (Ne.symm hu)]
    · have hcomm : ∀ y ∈ before.map Prod.snd, ∀ s,
          (act s x >>= fun s' => act s' y) = (act s y >>= fun s' => act s' x) := by
        intro y hy
        obtain ⟨z, hz, rfl⟩ := List.mem_map.mp hy
        exact h x (by simp) z (by simp [hz]) (hbefore z hz)
      rw [List.map_append, List.map_cons, foldlM_move_front hcomm, ← List.map_append,
        List.foldlM_cons, bind_assoc]
      exact bind_congr fun s' => hrun s'

lemma foldlM_trace {iterations : List ι} {body : ι → List α} {owner : ι → Fin T}
    {trace : List (Fin T × α)} (hind : Independent act iterations body)
    (h : ∀ t, byThread trace t = program iterations body owner t) (s : σ) :
    (trace.map Prod.snd).foldlM act s = (iterations.flatMap body).foldlM act s := by
  induction iterations generalizing trace s with
  | nil =>
    have hnil : trace = [] := by
      refine List.eq_nil_iff_forall_not_mem.mpr fun x hx => ?_
      have hmem := mem_byThread.mpr hx
      rw [h x.1] at hmem
      cases hmem
    rw [hnil]
    rfl
  | cons i iterations ih =>
    -- the other threads run other iterations
    have hcomm : ∀ x ∈ body i, ∀ y ∈ trace, y.1 ≠ owner i → ∀ s,
        (act s x >>= fun s' => act s' y.2) = (act s y.2 >>= fun s' => act s' x) := by
      intro x hx y hy hne
      have hmem := mem_byThread.mpr hy
      rw [h y.1] at hmem
      obtain ⟨j, hj, hown, hyj⟩ := mem_program.mp hmem
      exact hind i (by simp) j hj (fun hij => hne (by rw [hij, hown])) x hx y.2 hyj
    have hprogram : byThread trace (owner i) =
        body i ++ program iterations body owner (owner i) := by
      rw [h, program_cons, if_pos rfl]
    obtain ⟨rest, hrest, hothers, hrun⟩ := foldlM_move_program hprogram hcomm
    rw [hrun, List.flatMap_cons, List.foldlM_append]
    refine bind_congr fun s' => ih ?_ ?_ s'
    · intro j hj k hk
      exact hind j (List.mem_cons_of_mem i hj) k (List.mem_cons_of_mem i hk)
    · intro t
      by_cases ht : t = owner i
      · rw [ht, hrest]
      · rw [hothers t ht, h, program_cons, if_neg (Ne.symm ht)]

/-- Every execution of independent iterations does what the sequential loop does. -/
theorem Execution.foldlM_actions {iterations : List ι} {body : ι → List α}
    (e : Execution T iterations body) (hind : Independent act iterations body) (s : σ) :
    e.actions.foldlM act s = (iterations.flatMap body).foldlM act s :=
  foldlM_trace hind e.program_order s

end Commuting

theorem Execution.foldl_actions {iterations : List ι} {body : ι → List α} {act : σ → α → σ}
    (e : Execution T iterations body)
    (hind : ∀ i ∈ iterations, ∀ j ∈ iterations, i ≠ j → ∀ x ∈ body i, ∀ y ∈ body j, ∀ s,
      act (act s x) y = act (act s y) x) (s : σ) :
    e.actions.foldl act s = (iterations.flatMap body).foldl act s := by
  have hpure : Independent (m := Id) (fun s x => pure (act s x)) iterations body := hind
  rw [List.foldl_eq_foldlM, List.foldl_eq_foldlM, e.foldlM_actions hpure]

end UnixProgramming.ParallelFor
