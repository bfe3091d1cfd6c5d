import UnixProgramming.MutexThreads

/-! What the threads of `RunMutexThreads` have counted and printed, and which assertions fail. -/
namespace UnixProgramming.MutexThreads
open ListUpdates SharedCounter
open ProducerConsumer (ints)

section Counting

variable {n : ℕ} {s s' : State} {event : Event}

def MutexThread.hasStored : MutexThread → Bool
  | print _ => true
  | unlock => true
  | returned _ => true
  | _ => false

def MutexThread.hasSucceeded : MutexThread → Bool
  | print _ => true
  | unlock => true
  | returned status => status = kOkStatus
  | _ => false

/-- Each thread that has succeeded has stored once, and only threads that got so far have. -/
structure Counted (s : State) : Prop where
  lower : s.threads.countP MutexThread.hasSucceeded ≤ stores s.accesses
  upper : stores s.accesses ≤ s.threads.countP MutexThread.hasStored

/-- A thread goes on; it counts as successful only once it has stored. -/
lemma Counted.set (h : Counted s) {i : ℕ} {current : MutexThread} (next : MutexThread)
    (accesses : List (Access ℕ)) (hthread : s.threads[i]? = some current)
    (hlower : next.hasSucceeded.toNat + stores s.accesses ≤
      current.hasSucceeded.toNat + stores accesses)
    (hupper : current.hasStored.toNat + stores accesses ≤
      next.hasStored.toNat + stores s.accesses) :
    Counted { s.set i next with accesses := accesses } := by
  have hsucceeded := countP_set_add hthread MutexThread.hasSucceeded next
  have hstored := countP_set_add hthread MutexThread.hasStored next
  obtain ⟨hl, hu⟩ := h
  constructor
  · simp only [State.set]
    omega
  · simp only [State.set]
    omega

lemma step_counted (h : Counted s) (hstep : step n s event = some s') : Counted s' := by
  cases stepped_of_step hstep with
  | created hmain hi =>
    obtain ⟨hl, hu⟩ := h
    constructor
    · simpa [MutexThread.hasSucceeded] using hl
    · simpa [MutexThread.hasStored] using hu
  | createFailed hmain hi => exact ⟨h.lower, h.upper⟩
  | allCreated hmain hi => exact ⟨h.lower, h.upper⟩
  | joined hmain hi hthread => exact ⟨h.lower, h.upper⟩
  | joinAborted hmain hi hthread hstatus => exact ⟨h.lower, h.upper⟩
  | joinFailed hmain hi => exact ⟨h.lower, h.upper⟩
  | allJoined hmain hi => exact ⟨h.lower, h.upper⟩
  | checked hmain => exact ⟨h.lower, h.upper⟩
  | usedDangling hthread huses hmain => exact ⟨h.lower, h.upper⟩
  | locked hthread hmain hfree =>
    have hset := h.set .load s.accesses hthread
      (by simp [MutexThread.hasSucceeded]) (by simp [MutexThread.hasStored])
    exact ⟨hset.lower, hset.upper⟩
  | lockFailed hthread hmain =>
    have hset := h.set (.returned kBadStatus) s.accesses hthread
      (by simp [MutexThread.hasSucceeded, kBadStatus, kOkStatus])
      (by simp [MutexThread.hasStored])
    exact ⟨hset.lower, hset.upper⟩
  | loaded hthread =>
    exact h.set _ _ hthread (by simp [MutexThread.hasSucceeded]) (by simp [MutexThread.hasStored])
  | @stored i succeeds loaded hthread =>
    have hset := h.set (.print loaded) (s.accesses ++ [.store i]) hthread
      (by simp [MutexThread.hasSucceeded, add_comm]) (by simp [MutexThread.hasStored, add_comm])
    exact ⟨hset.lower, hset.upper⟩
  | printed hthread =>
    have hset := h.set .unlock s.accesses hthread
      (by simp [MutexThread.hasSucceeded]) (by simp [MutexThread.hasStored])
    exact ⟨hset.lower, hset.upper⟩
  | unlocked hthread hmain =>
    have hset := h.set (.returned kOkStatus) s.accesses hthread
      (by simp [MutexThread.hasSucceeded]) (by simp [MutexThread.hasStored])
    exact ⟨hset.lower, hset.upper⟩
  | unlockFailed hthread hmain =>
    have hset := h.set (.returned kBadStatus) s.accesses hthread
      (by simp [MutexThread.hasSucceeded, kBadStatus, kOkStatus])
      (by simp [MutexThread.hasStored])
    exact ⟨hset.lower, hset.upper⟩

/-- A thread was joined, or joining it failed. -/
def State.Joined (s : State) (i : ℕ) : Prop :=
  s.threads[i]? = some (.returned kOkStatus) ∨ Failure.join i ∈ s.failures

def Main.Reached (n : ℕ) (s : State) : Main → Prop
  | create i => i ≤ n ∧ s.threads.length = i
  | join i => s.threads.length = n ∧ ∀ j < i, s.Joined j
  | check => s.threads.length = n ∧ ∀ j < n, s.Joined j
  | returned => (∃ i, Failure.create i ∈ s.failures) ∨
    s.threads.length = n ∧ ∀ j < n, s.Joined j
  | joinAssertFailed i => Failure.lock i ∈ s.failures ∨ Failure.unlock i ∈ s.failures
  | counterAssertFailed => ∃ i, Failure.join i ∈ s.failures

/-- What was reported and returned explains where the function is and who has the mutex. -/
structure Explained (n : ℕ) (s : State) : Prop where
  reached : s.main.Reached n s
  length_le : s.threads.length ≤ n
  bad : ∀ (i : ℕ) status, s.threads[i]? = some (.returned status) → status ≠ kOkStatus →
    Failure.lock i ∈ s.failures ∨ Failure.unlock i ∈ s.failures
  owner : ∀ i, s.mutex = some i → ∃ t, s.threads[i]? = some t ∧
    (t.holds = true ∨ Failure.unlock i ∈ s.failures)

/-- Failures stay reported, and a thread that has returned stays so. -/
structure Grows (s s' : State) : Prop where
  length_eq : s'.threads.length = s.threads.length
  failures : ∀ failure ∈ s.failures, failure ∈ s'.failures
  returned : ∀ (i : ℕ) status, s.threads[i]? = some (.returned status) →
    s'.threads[i]? = some (.returned status)

lemma Grows.joined (h : Grows s s') {i : ℕ} (hi : s.Joined i) : s'.Joined i :=
  hi.imp (h.returned i kOkStatus) (h.failures _)

lemma Main.Reached.grow {m : Main} (hm : m.Reached n s) (h : Grows s s') : m.Reached n s' := by
  cases m with
  | create i => exact ⟨hm.1, h.length_eq.trans hm.2⟩
  | join i => exact ⟨h.length_eq.trans hm.1, fun j hj => h.joined (hm.2 j hj)⟩
  | check => exact ⟨h.length_eq.trans hm.1, fun j hj => h.joined (hm.2 j hj)⟩
  | returned =>
    rcases hm with ⟨i, hi⟩ | ⟨hlength, hjoined⟩
    · exact Or.inl ⟨i, h.failures _ hi⟩
    · exact Or.inr ⟨h.length_eq.trans hlength, fun j hj => h.joined (hjoined j hj)⟩
  | joinAssertFailed i => exact hm.imp (h.failures _) (h.failures _)
  | counterAssertFailed =>
    obtain ⟨i, hi⟩ := hm
    exact ⟨i, h.failures _ hi⟩

lemma grows_set {i : ℕ} {current : MutexThread} (next : MutexThread)
    (hthread : s.threads[i]? = some current)
    (hcurrent : ∀ status, current ≠ .returned status) (failures : List Failure)
    (hfailures : ∀ failure ∈ s.failures, failure ∈ failures) (mutex : Option ℕ) :
    Grows s { s.set i next with failures := failures, mutex := mutex } where
  length_eq := by simp [State.set]
  failures := hfailures
  returned j status hj := by
    have hne : j ≠ i := by
      rintro rfl
      rw [hthread] at hj
      exact hcurrent status (Option.some.inj hj)
    have hset := threads_set hthread next j
    rw [if_neg hne, hj] at hset
    exact hset

/-- A thread goes on; if it does not fail it keeps the mutex while it holds it. -/
lemma Explained.set (h : Explained n s) {i : ℕ} {current next : MutexThread}
    (hthread : s.threads[i]? = some current) (hcurrent : ∀ status, current ≠ .returned status)
    {failures : List Failure} (hfailures : ∀ failure ∈ s.failures, failure ∈ failures)
    (hbad : ∀ status, next = .returned status → status ≠ kOkStatus →
      Failure.lock i ∈ failures ∨ Failure.unlock i ∈ failures)
    {mutex : Option ℕ} (hmutex : ∀ j, mutex = some j →
      j = i ∧ (next.holds = true ∨ Failure.unlock i ∈ failures) ∨ j ≠ i ∧ s.mutex = some j) :
    Explained n { s.set i next with failures := failures, mutex := mutex } := by
  have hgrows := grows_set next hthread hcurrent failures hfailures mutex
  obtain ⟨hreached, hlength, hold, howner⟩ := h
  have hlookup := threads_set hthread next
  refine ⟨?_, hgrows.length_eq.le.trans hlength, fun j status hj hstatus => ?_, fun j hj => ?_⟩
  · exact hreached.grow hgrows
  · change (s.set i next).threads[j]? = _ at hj
    rw [hlookup] at hj
    split_ifs at hj with heq
    · exact heq ▸ hbad status (Option.some.inj hj) hstatus
    · exact (hold j status hj hstatus).imp (hfailures _) (hfailures _)
  · rcases hmutex j hj with ⟨rfl, hnext⟩ | ⟨hne, hmutex⟩
    · exact ⟨next, by rw [show _ = _ from hlookup j, if_pos rfl], hnext⟩
    · obtain ⟨t, ht, hholds⟩ := howner j hmutex
      exact ⟨t, by rw [show _ = _ from hlookup j, if_neg hne, ht], hholds.imp_right (hfailures _)⟩

lemma Explained.keep (h : Explained n s) {i : ℕ} {current : MutexThread} (next : MutexThread)
    (hthread : s.threads[i]? = some current) (hcurrent : ∀ status, current ≠ .returned status)
    {failures : List Failure} (hfailures : ∀ failure ∈ s.failures, failure ∈ failures)
    (hbad : ∀ status, next = .returned status → status ≠ kOkStatus →
      Failure.lock i ∈ failures ∨ Failure.unlock i ∈ failures)
    (hholds : current.holds = true → next.holds = true ∨ Failure.unlock i ∈ failures) :
    Explained n { s.set i next with failures := failures } := by
  refine h.set hthread hcurrent hfailures hbad fun j hj => ?_
  by_cases heq : j = i
  · subst heq
    obtain ⟨t, ht, howner⟩ := h.owner j hj
    obtain rfl := Option.some.inj (hthread.symm.trans ht)
    exact Or.inl ⟨rfl, howner.elim hholds fun hunlock => Or.inr (hfailures _ hunlock)⟩
  · exact Or.inr ⟨heq, hj⟩

/-- The function goes on, and the threads do not. -/
lemma Explained.main (h : Explained n s) {main : Main} {failures : List Failure}
    (hfailures : ∀ failure ∈ s.failures, failure ∈ failures)
    (hreached : main.Reached n { s with main := main, failures := failures }) :
    Explained n { s with main := main, failures := failures } where
  reached := hreached
  length_le := h.length_le
  bad i status hi hstatus := (h.bad i status hi hstatus).imp (hfailures _) (hfailures _)
  owner i hi := by
    obtain ⟨t, ht, hholds⟩ := h.owner i hi
    exact ⟨t, ht, hholds.imp_right (hfailures _)⟩

/-- If no thread failed to be joined, each has stored. -/
lemma counter_eq (hcritical : Critical s) (hcounted : Counted s)
    (hlength : s.threads.length = n) (hok : ∀ i < n, s.threads[i]? = some (.returned kOkStatus)) :
    s.counter = n := by
  have hall : s.threads.countP MutexThread.hasSucceeded = n := by
    rw [← hlength, List.countP_eq_length]
    intro t ht
    obtain ⟨i, hi⟩ := List.mem_iff_getElem?.mp ht
    have hlt : i < n := hlength ▸ (List.getElem?_eq_some_iff.mp hi).1
    rw [hok i hlt] at hi
    obtain rfl := Option.some.inj hi
    simp [MutexThread.hasSucceeded]
  have hle : s.threads.countP MutexThread.hasStored ≤ n := hlength ▸ List.countP_le_length
  have hstores : stores s.accesses = n :=
    le_antisymm (hcounted.upper.trans hle) (hall ▸ hcounted.lower)
  rw [← hcritical.value, (value_eq_iff_serial 0 s.accesses).mpr hcritical.serial, hstores, zero_add]

lemma step_explained (hcritical : Critical s) (hcounted : Counted s) (h : Explained n s)
    (hstep : step n s event = some s') : Explained n s' := by
  have hreached := h.reached
  have hsame : ∀ failure ∈ s.failures, failure ∈ s.failures := fun _ hf => hf
  have hadded : ∀ new, ∀ failure ∈ s.failures, failure ∈ s.failures ++ [new] :=
    fun _ _ hf => List.mem_append_left _ hf
  have hnew : ∀ new, new ∈ s.failures ++ [new] := fun _ => by simp
  cases stepped_of_step hstep with
  | @created i hmain hi =>
    rw [hmain] at hreached
    have hold : ∀ (j : ℕ) (t : MutexThread), s.threads[j]? = some t →
        (s.threads ++ [MutexThread.lock])[j]? = some t := by
      intro j t hj
      rwa [List.getElem?_append_left (List.getElem?_eq_some_iff.mp hj).1]
    refine ⟨⟨hi, by simp [hreached.2]⟩, ?_, fun j status hj hstatus => ?_, fun j hj => ?_⟩
    · rw [List.length_append, List.length_singleton, hreached.2]
      exact hi
    · rw [List.getElem?_append] at hj
      split_ifs at hj with hlt
      · exact h.bad j status hj hstatus
      · cases List.mem_singleton.mp (List.mem_of_getElem? hj)
    · obtain ⟨t, ht, hholds⟩ := h.owner j hj
      exact ⟨t, hold j t ht, hholds⟩
  | createFailed hmain hi => exact h.main (hadded _) (Or.inl ⟨_, hnew _⟩)
  | allCreated hmain hi =>
    rw [hmain] at hreached
    exact h.main hsame ⟨hreached.2.trans (le_antisymm hreached.1 hi), by simp⟩
  | @joined i hmain hi hthread =>
    rw [hmain] at hreached
    refine h.main hsame ⟨hreached.1, fun j hj => ?_⟩
    rcases Nat.lt_succ_iff_lt_or_eq.mp hj with hlt | rfl
    · exact hreached.2 j hlt
    · exact Or.inl hthread
  | joinAborted hmain hi hthread hstatus => exact h.main hsame (h.bad _ _ hthread hstatus)
  | @joinFailed i hmain hi =>
    rw [hmain] at hreached
    refine h.main (hadded _) ⟨hreached.1, fun j hj => ?_⟩
    rcases Nat.lt_succ_iff_lt_or_eq.mp hj with hlt | rfl
    · exact (hreached.2 j hlt).imp_right (hadded _ _)
    · exact Or.inr (hnew _)
  | allJoined hmain hi =>
    rw [hmain] at hreached
    exact h.main hsame ⟨hreached.1, fun j hj => hreached.2 j (hj.trans_le hi)⟩
  | checked hmain =>
    rw [hmain] at hreached
    refine h.main hsame ?_
    split_ifs with hcounter
    · exact Or.inr hreached
    · -- some thread was not joined
      by_contra hnone
      refine hcounter (counter_eq hcritical hcounted hreached.1 fun i hi => ?_)
      exact (hreached.2 i hi).resolve_right fun hjoin => hnone ⟨i, hjoin⟩
  | usedDangling hthread huses hmain =>
    exact ⟨hreached.grow ⟨rfl, fun _ hf => hf, fun _ _ hi => hi⟩, h.length_le, h.bad, h.owner⟩
  | @locked i hthread hmain hfree =>
    refine h.set hthread (by simp) hsame (by simp) fun j hj => ?_
    exact Or.inl ⟨(Option.some.inj hj).symm, Or.inl rfl⟩
  | lockFailed hthread hmain =>
    exact h.keep _ hthread (by simp) (hadded _) (fun _ _ _ => Or.inl (hnew _))
      (by simp [MutexThread.holds])
  | @loaded i succeeds hthread =>
    have hkeep := h.keep (.store s.counter) hthread (by simp) hsame (by simp)
      fun _ => Or.inl rfl
    exact ⟨hkeep.reached.grow ⟨rfl, fun _ hf => hf, fun _ _ hi => hi⟩, hkeep.length_le, hkeep.bad,
      hkeep.owner⟩
  | @stored i succeeds loaded hthread =>
    have hkeep := h.keep (.print loaded) hthread (by simp) hsame (by simp)
      fun _ => Or.inl rfl
    exact ⟨hkeep.reached.grow ⟨rfl, fun _ hf => hf, fun _ _ hi => hi⟩, hkeep.length_le, hkeep.bad,
      hkeep.owner⟩
  | printed hthread =>
    have hkeep := h.keep .unlock hthread (by simp) hsame (by simp) fun _ => Or.inl rfl
    exact ⟨hkeep.reached.grow ⟨rfl, fun _ hf => hf, fun _ _ hi => hi⟩, hkeep.length_le, hkeep.bad,
      hkeep.owner⟩
  | unlocked hthread hmain =>
    exact h.set hthread (by simp) hsame (fun _ hnext hstatus => absurd (by simpa using hnext.symm)
      hstatus) (by simp)
  | unlockFailed hthread hmain =>
    exact h.keep _ hthread (by simp) (hadded _) (fun _ _ _ => Or.inr (hnew _))
      fun _ => Or.inr (hnew _)

/-- The function returns before its threads only after it has failed to create or join one. -/
structure Left (s : State) : Prop where
  main : s.main = .returned
  failed : ∃ i, Failure.create i ∈ s.failures ∨ Failure.join i ∈ s.failures

lemma Explained.left (h : Explained n s) (hmain : s.main = .returned) {i : ℕ}
    {current : MutexThread} (hthread : s.threads[i]? = some current)
    (huses : current.usesMutex = true) : Left s := by
  have hreached := h.reached
  rw [hmain] at hreached
  refine ⟨hmain, ?_⟩
  rcases hreached with ⟨j, hj⟩ | ⟨hlength, hjoined⟩
  · exact ⟨j, Or.inl hj⟩
  · have hlt : i < n := hlength ▸ (List.getElem?_eq_some_iff.mp hthread).1
    refine ⟨i, Or.inr ((hjoined i hlt).resolve_left fun hreturned => ?_)⟩
    rw [hthread] at hreturned
    obtain rfl := Option.some.inj hreturned
    cases huses

lemma step_left (hexplained : Explained n s) (hstep : step n s event = some s')
    (hused : s'.danglingUse ≠ none) : Left s' := by
  have hnone := (step_eq_some.mp hstep).1
  cases stepped_of_step hstep with
  | usedDangling hthread huses hmain =>
    obtain ⟨hmain, hfailed⟩ := hexplained.left hmain hthread huses
    exact ⟨hmain, hfailed⟩
  | _ => exact absurd hnone hused

lemma start_inv (n : ℕ) : Critical start ∧ Counted start ∧ Explained n start := by
  refine ⟨⟨rfl, serial_nil, ?_, ?_, ?_, fun _ => rfl⟩, ⟨?_, ?_⟩, ⟨?_, ?_, ?_, ?_⟩⟩ <;>
    simp [start, stores, Main.Reached]

/-- What holds of every state that is reached. -/
structure Inv (n : ℕ) (s : State) : Prop where
  critical : Critical s
  counted : Counted s
  explained : Explained n s
  left : s.danglingUse ≠ none → Left s

lemma run_inv {schedule : List Event} (h : schedule.foldlM (step n) start = some s) :
    Inv n s := by
  refine StepRuns.invariant_of_run (fun s event s' hs hstep => ?_) ?_ h
  · exact ⟨step_critical hs.critical hstep, step_counted hs.counted hstep,
      step_explained hs.critical hs.counted hs.explained hstep, step_left hs.explained hstep⟩
  · obtain ⟨hcritical, hcounted, hexplained⟩ := start_inv n
    exact ⟨hcritical, hcounted, hexplained, fun hused => absurd rfl hused⟩

end Counting

/-- The counters are printed in order and once each; the assertion on the counter fails only
after a thread could not be joined, and those on the threads only after a reported failure;
without a failure to create or join, all threads have counted when the function returns, and
the mutex is not used afterwards. -/
theorem counts_threads (n : ℕ) (schedule : List Event) (s : State)
    (h : schedule.foldlM (step n) start = some s) :
    (∃ k ≤ (n : ℤ), s.printed = ints k) ∧
    (s.main = .counterAssertFailed → ∃ i, Failure.join i ∈ s.failures) ∧
    (∀ i, s.main = .joinAssertFailed i →
      Failure.lock i ∈ s.failures ∨ Failure.unlock i ∈ s.failures) ∧
    (s.main = .returned → (∀ i, Failure.create i ∉ s.failures ∧ Failure.join i ∉ s.failures) →
      s.counter = n ∧ s.printed = ints n ∧
        ∀ i < n, s.threads[i]? = some (.returned kOkStatus)) ∧
    (s.danglingUse ≠ none → Left s) := by
  obtain ⟨hcritical, hcounted, hexplained, hleft⟩ := run_inv h
  have hreached := hexplained.reached
  have hcounter : s.counter ≤ n := by
    have hle : stores s.accesses ≤ n :=
      (hcounted.upper.trans List.countP_le_length).trans hexplained.length_le
    rw [← hcritical.value, (value_eq_iff_serial 0 s.accesses).mpr hcritical.serial, zero_add]
    exact_mod_cast hle
  refine ⟨?_, fun hmain => ?_, fun i hmain => ?_, fun hmain hnone => ?_, hleft⟩
  · by_cases hprint : ∃ (i : ℕ) (loaded : ℤ), s.threads[i]? = some (.print loaded)
    · obtain ⟨i, loaded, hthread⟩ := hprint
      obtain ⟨-, hloaded, hprinted⟩ := hcritical.printing i loaded hthread
      exact ⟨loaded, by omega, hprinted⟩
    · exact ⟨s.counter, hcounter, hcritical.quiet fun i loaded hi => hprint ⟨i, loaded, hi⟩⟩
  · rwa [hmain] at hreached
  · rwa [hmain] at hreached
  · rw [hmain] at hreached
    obtain ⟨hlength, hjoined⟩ := hreached.resolve_left fun ⟨i, hi⟩ => (hnone i).1 hi
    have hok : ∀ i < n, s.threads[i]? = some (.returned kOkStatus) :=
      fun i hi => (hjoined i hi).resolve_right (hnone i).2
    have heq := counter_eq hcritical hcounted hlength hok
    refine ⟨heq, ?_, hok⟩
    rw [← heq]
    refine hcritical.quiet fun i loaded hi => ?_
    have hlt : i < n := hlength ▸ (List.getElem?_eq_some_iff.mp hi).1
    rw [hok i hlt] at hi
    cases hi

/-- One thread fails to lock the mutex, and no thread can be joined. -/
def unjoined : List Event :=
  [.main true, .main true, .thread 0 true, .thread 1 false, .thread 0 true, .thread 0 true,
    .thread 0 true, .main true, .main false, .main false, .main true, .main true]

theorem counts_threads_unjoined : ∃ s, unjoined.foldlM (step 2) start = some s ∧
    s.main = .counterAssertFailed ∧ ∃ i, Failure.join i ∈ s.failures := by
  obtain ⟨s, hs, hmain⟩ : ∃ s, unjoined.foldlM (step 2) start = some s ∧
      s.main = .counterAssertFailed := ⟨_, rfl, by decide⟩
  exact ⟨s, hs, hmain, (counts_threads 2 unjoined s hs).2.1 hmain⟩

/-- The second thread cannot be created, and the first one locks what is no mutex any more. -/
example : ([.main true, .main false, .thread 0 true].foldlM (step 2) start).map
    State.danglingUse = some (some 0) := rfl

end UnixProgramming.MutexThreads
