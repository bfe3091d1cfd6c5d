import UnixProgramming.MutexThreadsCounting

/-! How `RunMutexThreads` and its threads end. -/
namespace UnixProgramming.MutexThreads
open ListUpdates

section Progress

variable {n : ℕ} {s s' : State} {event : Event}

/-- The steps that a thread may still take. -/
def MutexThread.rank : MutexThread → ℕ
  | lock => 5
  | load => 4
  | store _ => 3
  | print _ => 2
  | unlock => 1
  | returned _ => 0

/-- The steps of the function, with those of the threads that it creates. -/
def Main.rank (n : ℕ) : Main → ℕ
  | create i => 6 * (n - i) + n + 3
  | join i => n - i + 2
  | check => 1
  | _ => 0

/-- Nothing follows a use of the mutex that is gone. -/
def State.rank (n : ℕ) (s : State) : ℕ :=
  if s.danglingUse = none then s.main.rank n + (s.threads.map MutexThread.rank).sum else 0

lemma rank_le (s : State) : s.rank n ≤ s.main.rank n + (s.threads.map MutexThread.rank).sum := by
  unfold State.rank
  split_ifs
  · exact le_rfl
  · exact Nat.zero_le _

lemma step_rank (hstep : step n s event = some s') : s'.rank n < s.rank n := by
  have hrank : s.rank n = s.main.rank n + (s.threads.map MutexThread.rank).sum :=
    if_pos (step_eq_some.mp hstep).1
  have hthread : ∀ {i current next}, s.threads[i]? = some current →
      MutexThread.rank next < current.rank →
      s.main.rank n + ((s.threads.set i next).map MutexThread.rank).sum < s.rank n :=
    fun h hlt => hrank ▸ Nat.add_lt_add_left (sum_map_set_lt h hlt) _
  have hmain : ∀ {main : Main}, main.rank n < s.main.rank n →
      main.rank n + (s.threads.map MutexThread.rank).sum < s.rank n :=
    fun hlt => hrank ▸ Nat.add_lt_add_right hlt _
  cases stepped_of_step hstep with
  | @created i hm hi =>
    have hsum : ((s.threads ++ [MutexThread.lock]).map MutexThread.rank).sum =
        (s.threads.map MutexThread.rank).sum + 5 := by simp [MutexThread.rank]
    refine (rank_le _).trans_lt ?_
    simp only [hrank, hm, Main.rank, hsum]
    omega
  | createFailed hm hi => exact (rank_le _).trans_lt (hmain (by simp [hm, Main.rank]))
  | allCreated hm hi =>
    exact (rank_le _).trans_lt (hmain (by simp only [hm, Main.rank]; omega))
  | joined hm hi ht => exact (rank_le _).trans_lt (hmain (by simp only [hm, Main.rank]; omega))
  | joinAborted hm hi ht hstatus => exact (rank_le _).trans_lt (hmain (by simp [hm, Main.rank]))
  | joinFailed hm hi => exact (rank_le _).trans_lt (hmain (by simp only [hm, Main.rank]; omega))
  | allJoined hm hi => exact (rank_le _).trans_lt (hmain (by simp only [hm, Main.rank]; omega))
  | checked hm => exact (rank_le _).trans_lt (hmain (by split_ifs <;> simp [hm, Main.rank]))
  | @usedDangling i succeeds current ht huses hm =>
    have hpos : MutexThread.rank (.returned kBadStatus) < current.rank := by
      cases current <;> simp_all [MutexThread.usesMutex, MutexThread.rank]
    have hafter : State.rank n { s with danglingUse := some i } = 0 := if_neg (by simp)
    rw [hafter]
    exact Nat.zero_lt_of_lt (hthread ht hpos)
  | locked ht hm hfree => exact (rank_le _).trans_lt (hthread ht (by simp [MutexThread.rank]))
  | lockFailed ht hm => exact (rank_le _).trans_lt (hthread ht (by simp [MutexThread.rank]))
  | loaded ht => exact (rank_le _).trans_lt (hthread ht (by simp [MutexThread.rank]))
  | stored ht => exact (rank_le _).trans_lt (hthread ht (by simp [MutexThread.rank]))
  | printed ht => exact (rank_le _).trans_lt (hthread ht (by simp [MutexThread.rank]))
  | unlocked ht hm => exact (rank_le _).trans_lt (hthread ht (by simp [MutexThread.rank]))
  | unlockFailed ht hm => exact (rank_le _).trans_lt (hthread ht (by simp [MutexThread.rank]))

def Event.succeeds : Event → Bool
  | main succeeds => succeeds
  | thread _ succeeds => succeeds

/-- Nobody can go on by a call that succeeds, although the mutex is still there. -/
structure Stopped (n : ℕ) (s : State) : Prop where
  blocked : StepRuns.Blocked (step n) Event.succeeds s
  intact : s.danglingUse = none
  running : s.main.aborted = false

lemma Stopped.eventStep_eq_none (h : Stopped n s) (event : Event)
    (hsucceeds : event.succeeds = true) : eventStep n s event = none := by
  have hnone := h.blocked event hsucceeds
  rwa [step, if_pos h.intact] at hnone

lemma Stopped.thread (h : Stopped n s) {i : ℕ} {t : MutexThread} (ht : s.threads[i]? = some t) :
    t.holds = false ∧ (t = .lock → s.mutex ≠ none) := by
  have hnone := h.eventStep_eq_none (.thread i true) rfl
  simp only [eventStep, h.running, Bool.false_eq_true, ↓reduceIte, threadStep, ht] at hnone
  cases t with
  | lock =>
    refine ⟨rfl, fun _ hfree => ?_⟩
    simp only [hfree, ↓reduceIte] at hnone
    split_ifs at hnone
  | load => cases hnone
  | store loaded => cases hnone
  | print loaded => cases hnone
  | unlock =>
    simp only at hnone
    split_ifs at hnone
  | returned status => exact ⟨rfl, by simp⟩

/-- The holder of the mutex could go on. -/
lemma Stopped.threads_returned (h : Stopped n s) (hexplained : Explained n s)
    (hunlock : ¬ ∃ i, Failure.unlock i ∈ s.failures ∧ s.mutex = some i) :
    ∀ t ∈ s.threads, ∃ status, t = .returned status := by
  intro t ht
  obtain ⟨i, hi⟩ := List.mem_iff_getElem?.mp ht
  obtain ⟨hholds, hlock⟩ := h.thread hi
  cases t with
  | lock =>
    obtain ⟨j, hj⟩ := Option.ne_none_iff_exists'.mp (hlock rfl)
    obtain ⟨u, hu, howner⟩ := hexplained.owner j hj
    rcases howner with howner | hfailed
    · rw [(h.thread hu).1] at howner
      cases howner
    · exact absurd ⟨j, hfailed, hj⟩ hunlock
  | returned status => exact ⟨status, rfl⟩
  | load => cases hholds
  | store loaded => cases hholds
  | print loaded => cases hholds
  | unlock => cases hholds

lemma Stopped.main_returned (h : Stopped n s) (hexplained : Explained n s)
    (hreturned : ∀ t ∈ s.threads, ∃ status, t = .returned status) : s.main = .returned := by
  have hnone := h.eventStep_eq_none (.main true) rfl
  have hmain := h.running
  have hreached := hexplained.reached
  simp only [eventStep, mainStep] at hnone
  cases hcase : s.main with
  | create i =>
    simp only [hcase] at hnone
    split_ifs at hnone
  | join i =>
    simp only [hcase, ↓reduceIte] at hnone
    rw [hcase] at hreached
    split_ifs at hnone with hi
    have hlt : i < s.threads.length := hreached.1 ▸ hi
    obtain ⟨status, hstatus⟩ := hreturned _ (List.getElem_mem hlt)
    rw [List.getElem?_eq_getElem hlt, hstatus] at hnone
    cases hnone
  | check => simp [hcase] at hnone
  | returned => rfl
  | joinAssertFailed i =>
    rw [hcase] at hmain
    cases hmain
  | counterAssertFailed =>
    rw [hcase] at hmain
    cases hmain

end Progress

/-- Every run ends after 7 n + 3 steps at most. When nobody can go on, an assertion failed, or
a thread has used the mutex after the function had returned on a failure, or the function and
all its threads have returned, or a thread failed to unlock the mutex. -/
theorem ends_unless_unlock_failed (n : ℕ) (schedule : List Event) (s : State)
    (h : schedule.foldlM (step n) start = some s) :
    schedule.length ≤ 7 * n + 3 ∧
    (StepRuns.Blocked (step n) Event.succeeds s → s.main.aborted = true ∨
      (s.danglingUse ≠ none ∧ Left s) ∨
      (s.main = .returned ∧ ∀ t ∈ s.threads, ∃ status, t = .returned status) ∨
      ∃ i, Failure.unlock i ∈ s.failures ∧ s.mutex = some i) := by
  obtain ⟨-, -, hexplained, hleft⟩ := run_inv h
  refine ⟨?_, fun hblocked => ?_⟩
  · have hlength := StepRuns.length_le_of_decreasing (P := fun _ => True) (State.rank n)
      (fun _ _ _ _ hstep => ⟨trivial, step_rank hstep⟩) trivial h
    have hstart : start.rank n = 7 * n + 3 := by
      simp only [start, State.rank, Main.rank, List.map_nil, List.sum_nil, ↓reduceIte]
      omega
    omega
  · by_cases hmain : s.main.aborted = true
    · exact Or.inl hmain
    by_cases hused : s.danglingUse = none
    · have hstopped : Stopped n s := ⟨hblocked, hused, by simpa using hmain⟩
      by_cases hunlock : ∃ i, Failure.unlock i ∈ s.failures ∧ s.mutex = some i
      · exact Or.inr (Or.inr (Or.inr hunlock))
      · have hreturned := hstopped.threads_returned hexplained hunlock
        exact Or.inr (Or.inr (Or.inl ⟨hstopped.main_returned hexplained hreturned, hreturned⟩))
    · exact Or.inr (Or.inl ⟨hused, hleft hused⟩)

/-- The second thread keeps the mutex, and the first one is waited for. -/
def keeping : List Event :=
  [.main true, .main true, .thread 1 true, .thread 1 true, .thread 1 true, .thread 1 true,
    .thread 1 false, .main true]

theorem ends_unless_unlock_failed_keeping : ∃ s, keeping.foldlM (step 2) start = some s ∧
    s.main = .join 0 ∧ ∃ i, Failure.unlock i ∈ s.failures ∧ s.mutex = some i := by
  obtain ⟨s, hs, hmain, hthreads, hmutex, hused⟩ : ∃ s, keeping.foldlM (step 2) start = some s ∧
      s.main = .join 0 ∧ s.threads = [.lock, .returned kBadStatus] ∧ s.mutex = some 1 ∧
      s.danglingUse = none := ⟨_, rfl, by decide⟩
  have hblocked : StepRuns.Blocked (step 2) Event.succeeds s := by
    intro event hsucceeds
    cases event with
    | main succeeds =>
      obtain rfl : succeeds = true := hsucceeds
      simp [step, eventStep, mainStep, hmain, hthreads]
    | thread i succeeds =>
      obtain rfl : succeeds = true := hsucceeds
      rcases i with - | - | i <;>
        simp [step, eventStep, threadStep, hmain, hthreads, hmutex, Main.aborted]
  rcases (ends_unless_unlock_failed 2 keeping s hs).2 hblocked with h | ⟨h, -⟩ | ⟨h, -⟩ | h
  · simp [hmain, Main.aborted] at h
  · exact absurd hused h
  · simp [hmain] at h
  · exact ⟨s, hs, hmain, h⟩

end UnixProgramming.MutexThreads
