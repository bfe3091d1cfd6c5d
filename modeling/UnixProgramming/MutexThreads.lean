import UnixProgramming.ListUpdates
import UnixProgramming.ProducerConsumer
import UnixProgramming.SharedCounter

/-! `RunMutexThreads` of `pthread_mutex.cpp` with its threads, for any number of threads.
Every call may fail, and the threads and the function take their steps in any order. The mutex
is a local variable of the function: a run is followed up to the first use of the mutex after
the function has returned, which is undefined. -/
namespace UnixProgramming.MutexThreads
open ListUpdates SharedCounter
open ProducerConsumer (ints ints_succ)

def kOkStatus : ℤ := 2^31 - 1
def kBadStatus : ℤ := -2^31

/-- The next statement of `MutexThread`; `counter++` is a load and a store. -/
inductive MutexThread
  | lock
  | load
  | store (loaded : ℤ)
  | print (loaded : ℤ)
  | unlock
  | returned (status : ℤ)
  deriving DecidableEq, Repr

/-- The next statement of `RunMutexThreads`, or how it ended. -/
inductive Main
  | create (i : ℕ)
  | join (i : ℕ)
  | check
  | returned
  | joinAssertFailed (i : ℕ)
  | counterAssertFailed
  deriving DecidableEq, Repr

/-- The messages on the standard error, with the number of the thread. -/
inductive Failure
  | create (i : ℕ)
  | join (i : ℕ)
  | lock (i : ℕ)
  | unlock (i : ℕ)
  deriving DecidableEq, Repr

/-- `danglingUse` is the thread that has used the mutex after the end of the function. -/
structure State where
  counter : ℤ
  mutex : Option ℕ
  main : Main
  threads : List MutexThread
  printed : List ℤ
  failures : List Failure
  accesses : List (Access ℕ)
  danglingUse : Option ℕ

def start : State := ⟨0, none, .create 0, [], [], [], [], none⟩

/-- Who takes the next step, and whether the call in it succeeds. -/
inductive Event
  | main (succeeds : Bool)
  | thread (i : ℕ) (succeeds : Bool)
  deriving DecidableEq, Repr

def State.set (s : State) (i : ℕ) (next : MutexThread) : State :=
  { s with threads := s.threads.set i next }

def State.fail (s : State) (failure : Failure) : State :=
  { s with failures := s.failures ++ [failure] }

def mainStep (kMutexThreadsNumber : ℕ) (s : State) (succeeds : Bool) : Option State :=
  match s.main with
  | .create i =>
    if i < kMutexThreadsNumber then
      if succeeds then some { s with threads := s.threads ++ [.lock], main := .create (i + 1) }
      else some { s.fail (.create i) with main := .returned }
    else some { s with main := .join 0 }
  | .join i =>
    if i < kMutexThreadsNumber then
      if succeeds then
        match s.threads[i]? with
        | some (.returned status) =>
          some { s with
            main := if status = kOkStatus then .join (i + 1) else .joinAssertFailed i }
        | _ => none
      else some { s.fail (.join i) with main := .join (i + 1) }
    else some { s with main := .check }
  | .check =>
    some { s with
      main := if s.counter = kMutexThreadsNumber then .returned else .counterAssertFailed }
  | .returned => none
  | .joinAssertFailed _ => none
  | .counterAssertFailed => none

def threadStep (s : State) (i : ℕ) (succeeds : Bool) : Option State :=
  match s.threads[i]? with
  | none => none
  | some .lock =>
    if s.main = .returned then some { s with danglingUse := some i }
    else if succeeds then
      if s.mutex = none then some { s.set i .load with mutex := some i } else none
    else some ((s.set i (.returned kBadStatus)).fail (.lock i))
  | some .load => some { s.set i (.store s.counter) with accesses := s.accesses ++ [.load i] }
  | some (.store loaded) =>
    some { s.set i (.print loaded) with
      counter := loaded + 1
      accesses := s.accesses ++ [.store i] }
  | some (.print loaded) => some { s.set i .unlock with printed := s.printed ++ [loaded] }
  | some .unlock =>
    if s.main = .returned then some { s with danglingUse := some i }
    else if succeeds then some { s.set i (.returned kOkStatus) with mutex := none }
    else some ((s.set i (.returned kBadStatus)).fail (.unlock i))
  | some (.returned _) => none

def Main.aborted : Main → Bool
  | joinAssertFailed _ => true
  | counterAssertFailed => true
  | _ => false

/-- A failed assertion ends the threads; the end of the function does not. -/
def eventStep (kMutexThreadsNumber : ℕ) (s : State) : Event → Option State
  | .main succeeds => mainStep kMutexThreadsNumber s succeeds
  | .thread i succeeds => if s.main.aborted then none else threadStep s i succeeds

def step (kMutexThreadsNumber : ℕ) (s : State) (event : Event) : Option State :=
  if s.danglingUse = none then eventStep kMutexThreadsNumber s event else none

def MutexThread.usesMutex : MutexThread → Bool
  | lock => true
  | unlock => true
  | _ => false

/-- The ways to take a step. -/
inductive Stepped (n : ℕ) (s : State) : Event → State → Prop
  | created {i : ℕ} (hmain : s.main = .create i) (hi : i < n) : Stepped n s (.main true)
      { s with threads := s.threads ++ [.lock], main := .create (i + 1) }
  | createFailed {i : ℕ} (hmain : s.main = .create i) (hi : i < n) :
    Stepped n s (.main false) { s.fail (.create i) with main := .returned }
  | allCreated {i : ℕ} {succeeds : Bool} (hmain : s.main = .create i) (hi : n ≤ i) :
    Stepped n s (.main succeeds) { s with main := .join 0 }
  | joined {i : ℕ} (hmain : s.main = .join i) (hi : i < n)
    (hthread : s.threads[i]? = some (.returned kOkStatus)) :
    Stepped n s (.main true) { s with main := .join (i + 1) }
  | joinAborted {i : ℕ} {status : ℤ} (hmain : s.main = .join i) (hi : i < n)
    (hthread : s.threads[i]? = some (.returned status)) (hstatus : status ≠ kOkStatus) :
    Stepped n s (.main true) { s with main := .joinAssertFailed i }
  | joinFailed {i : ℕ} (hmain : s.main = .join i) (hi : i < n) :
    Stepped n s (.main false) { s.fail (.join i) with main := .join (i + 1) }
  | allJoined {i : ℕ} {succeeds : Bool} (hmain : s.main = .join i) (hi : n ≤ i) :
    Stepped n s (.main succeeds) { s with main := .check }
  | checked {succeeds : Bool} (hmain : s.main = .check) : Stepped n s (.main succeeds)
      { s with main := if s.counter = n then .returned else .counterAssertFailed }
  | usedDangling {i : ℕ} {succeeds : Bool} {current : MutexThread}
    (hthread : s.threads[i]? = some current) (huses : current.usesMutex = true)
    (hmain : s.main = .returned) :
    Stepped n s (.thread i succeeds) { s with danglingUse := some i }
  | locked {i : ℕ} (hthread : s.threads[i]? = some .lock) (hmain : s.main ≠ .returned)
    (hfree : s.mutex = none) :
    Stepped n s (.thread i true) { s.set i .load with mutex := some i }
  | lockFailed {i : ℕ} (hthread : s.threads[i]? = some .lock) (hmain : s.main ≠ .returned) :
    Stepped n s (.thread i false) ((s.set i (.returned kBadStatus)).fail (.lock i))
  | loaded {i : ℕ} {succeeds : Bool} (hthread : s.threads[i]? = some .load) :
    Stepped n s (.thread i succeeds)
      { s.set i (.store s.counter) with accesses := s.accesses ++ [.load i] }
  | stored {i : ℕ} {succeeds : Bool} {loaded : ℤ}
    (hthread : s.threads[i]? = some (.store loaded)) :
    Stepped n s (.thread i succeeds)
      { s.set i (.print loaded) with
        counter := loaded + 1
        accesses := s.accesses ++ [.store i] }
  | printed {i : ℕ} {succeeds : Bool} {loaded : ℤ}
    (hthread : s.threads[i]? = some (.print loaded)) :
    Stepped n s (.thread i succeeds) { s.set i .unlock with printed := s.printed ++ [loaded] }
  | unlocked {i : ℕ} (hthread : s.threads[i]? = some .unlock) (hmain : s.main ≠ .returned) :
    Stepped n s (.thread i true) { s.set i (.returned kOkStatus) with mutex := none }
  | unlockFailed {i : ℕ} (hthread : s.threads[i]? = some .unlock) (hmain : s.main ≠ .returned) :
    Stepped n s (.thread i false) ((s.set i (.returned kBadStatus)).fail (.unlock i))

section Steps

variable {n : ℕ} {s s' : State} {event : Event}

lemma step_eq_some : step n s event = some s' ↔
    s.danglingUse = none ∧ eventStep n s event = some s' := by
  simp [step]

lemma stepped_of_step (h : step n s event = some s') : Stepped n s event s' := by
  replace h := (step_eq_some.mp h).2
  cases event with
  | main succeeds =>
    simp only [eventStep, mainStep] at h
    cases hmain : s.main with
    | create i =>
      simp only [hmain] at h
      split_ifs at h with hi hsucceeds
      · exact Option.some.inj h ▸ hsucceeds ▸ .created hmain hi
      · exact Option.some.inj h ▸ Bool.eq_false_iff.mpr hsucceeds ▸ .createFailed hmain hi
      · exact Option.some.inj h ▸ .allCreated hmain (not_lt.mp hi)
    | join i =>
      simp only [hmain] at h
      split_ifs at h with hi hsucceeds
      · split at h
        · next status hthread =>
          obtain rfl := Option.some.inj h
          split_ifs with hstatus
          · exact hsucceeds ▸ .joined hmain hi (hstatus ▸ hthread)
          · exact hsucceeds ▸ .joinAborted hmain hi hthread hstatus
        · cases h
      · exact Option.some.inj h ▸ Bool.eq_false_iff.mpr hsucceeds ▸ .joinFailed hmain hi
      · exact Option.some.inj h ▸ .allJoined hmain (not_lt.mp hi)
    | check =>
      simp only [hmain] at h
      exact Option.some.inj h ▸ .checked hmain
    | returned => simp [hmain] at h
    | joinAssertFailed i => simp [hmain] at h
    | counterAssertFailed => simp [hmain] at h
  | thread i succeeds =>
    simp only [eventStep] at h
    split_ifs at h
    unfold threadStep at h
    cases hthread : s.threads[i]? with
    | none => simp [hthread] at h
    | some current =>
      cases current with
      | lock =>
        simp only [hthread] at h
        split_ifs at h with hmain hsucceeds hfree
        · exact Option.some.inj h ▸ .usedDangling hthread rfl hmain
        · exact Option.some.inj h ▸ hsucceeds ▸ .locked hthread hmain hfree
        · exact Option.some.inj h ▸ Bool.eq_false_iff.mpr hsucceeds ▸ .lockFailed hthread hmain
      | load =>
        simp only [hthread] at h
        exact Option.some.inj h ▸ .loaded hthread
      | store loaded =>
        simp only [hthread] at h
        exact Option.some.inj h ▸ .stored hthread
      | print loaded =>
        simp only [hthread] at h
        exact Option.some.inj h ▸ .printed hthread
      | unlock =>
        simp only [hthread] at h
        split_ifs at h with hmain hsucceeds
        · exact Option.some.inj h ▸ .usedDangling hthread rfl hmain
        · exact Option.some.inj h ▸ hsucceeds ▸ .unlocked hthread hmain
        · exact Option.some.inj h ▸ Bool.eq_false_iff.mpr hsucceeds ▸ .unlockFailed hthread hmain
      | returned status => simp [hthread] at h

def MutexThread.holds : MutexThread → Bool
  | lock => false
  | returned _ => false
  | _ => true

/-- The mutex makes the increments serial and the output ordered. -/
structure Critical (s : State) : Prop where
  value : (after 0 s.accesses).value = s.counter
  serial : Serial s.accesses
  holder : ∀ (i : ℕ) t, s.threads[i]? = some t → t.holds = true → s.mutex = some i
  loaded : ∀ (i : ℕ) loaded, s.threads[i]? = some (.store loaded) →
    (after 0 s.accesses).register i = loaded ∧ storesSince i s.accesses = 0
  printing : ∀ (i : ℕ) loaded, s.threads[i]? = some (.print loaded) →
    0 ≤ loaded ∧ s.counter = loaded + 1 ∧ s.printed = ints loaded
  quiet : (∀ (i : ℕ) loaded, s.threads[i]? ≠ some (.print loaded)) → s.printed = ints s.counter

lemma threads_set {i : ℕ} {current : MutexThread} (hthread : s.threads[i]? = some current)
    (next : MutexThread) (j : ℕ) :
    (s.set i next).threads[j]? = if j = i then some next else s.threads[j]? := by
  obtain ⟨hlt, -⟩ := List.getElem?_eq_some_iff.mp hthread
  by_cases hj : j = i
  · subst hj
    simp [State.set, hlt]
  · simp [State.set, hj, Ne.symm hj]

lemma Critical.only (h : Critical s) {i j : ℕ} {t u : MutexThread}
    (hi : s.threads[i]? = some t) (ht : t.holds = true) (hj : s.threads[j]? = some u)
    (hu : u.holds = true) : j = i := by
  have hmutex := h.holder i t hi ht
  rw [h.holder j u hj hu] at hmutex
  exact Option.some.inj hmutex

/-- When a thread without the mutex goes on, nothing changes for the others. -/
lemma Critical.pass (h : Critical s) {i : ℕ} {current : MutexThread} (next : MutexThread)
    (hthread : s.threads[i]? = some current) (hcurrent : current.holds = false)
    (hnext : next.holds = false) : Critical (s.set i next) := by
  have hkept : ∀ (j : ℕ) (t : MutexThread), (s.set i next).threads[j]? = some t → t.holds = true →
      s.threads[j]? = some t := by
    intro j t hj ht
    rw [threads_set hthread] at hj
    split_ifs at hj with heq
    · obtain rfl := Option.some.inj hj
      rw [hnext] at ht
      cases ht
    · exact hj
  refine ⟨h.value, h.serial, fun j t hj ht => h.holder j t (hkept j t hj ht) ht,
    fun j v hj => h.loaded j v (hkept j _ hj rfl), fun j v hj => h.printing j v (hkept j _ hj rfl),
    fun hquiet => h.quiet fun j v hj => hquiet j v ?_⟩
  rw [threads_set hthread]
  split_ifs with heq
  · subst heq
    rw [hthread] at hj
    obtain rfl := Option.some.inj hj
    cases hcurrent
  · exact hj

/-- The thread that holds the mutex goes on; the others do not hold it. -/
lemma Critical.others (h : Critical s) {i : ℕ} {current next : MutexThread}
    (hthread : s.threads[i]? = some current) (hcurrent : current.holds = true) {j : ℕ}
    {t : MutexThread} (hj : (s.set i next).threads[j]? = some t) (ht : t.holds = true) :
    j = i ∧ t = next := by
  rw [threads_set hthread] at hj
  split_ifs at hj with heq
  · exact ⟨heq, (Option.some.inj hj).symm⟩
  · exact absurd (h.only hthread hcurrent hj ht) heq

/-- While its holder does not print, the output is complete. -/
lemma Critical.printed_eq (h : Critical s) {i : ℕ} {current : MutexThread}
    (hthread : s.threads[i]? = some current) (hcurrent : current.holds = true)
    (hnot : ∀ loaded, current ≠ .print loaded) : s.printed = ints s.counter := by
  refine h.quiet fun j loaded hj => ?_
  obtain rfl := h.only hthread hcurrent hj rfl
  rw [hthread] at hj
  exact hnot loaded (Option.some.inj hj)

lemma Critical.leave (h : Critical s) {i : ℕ} {current : MutexThread} (next : MutexThread)
    (hthread : s.threads[i]? = some current) (hcurrent : current.holds = true)
    (hnot : ∀ loaded, current ≠ .print loaded) (hnext : next.holds = false)
    (mutex : Option ℕ) : Critical { s.set i next with mutex := mutex } := by
  have hprinted := h.printed_eq hthread hcurrent hnot
  have hnone : ∀ (j : ℕ) (t : MutexThread), (s.set i next).threads[j]? = some t →
      t.holds = true → False := by
    intro j t hj ht
    rw [(h.others hthread hcurrent hj ht).2, hnext] at ht
    cases ht
  exact ⟨h.value, h.serial, fun j t hj ht => (hnone j t hj ht).elim,
    fun j v hj => (hnone j _ hj rfl).elim, fun j v hj => (hnone j _ hj rfl).elim,
    fun _ => hprinted⟩

lemma step_critical (h : Critical s) (hstep : step n s event = some s') : Critical s' := by
  cases stepped_of_step hstep with
  | created hmain hi =>
    have hold : ∀ (j : ℕ) (t : MutexThread), (s.threads ++ [MutexThread.lock])[j]? = some t →
        t.holds = true → s.threads[j]? = some t := by
      intro j t hj ht
      rw [List.getElem?_append] at hj
      split_ifs at hj with hlt
      · exact hj
      · obtain rfl := List.mem_singleton.mp (List.mem_of_getElem? hj)
        cases ht
    refine ⟨h.value, h.serial, fun j t hj ht => h.holder j t (hold j t hj ht) ht,
      fun j v hj => h.loaded j v (hold j _ hj rfl), fun j v hj => h.printing j v (hold j _ hj rfl),
      fun hquiet => h.quiet fun j v hj => hquiet j v ?_⟩
    rw [List.getElem?_append_left (List.getElem?_eq_some_iff.mp hj).1, hj]
  | createFailed hmain hi => exact ⟨h.value, h.serial, h.holder, h.loaded, h.printing, h.quiet⟩
  | allCreated hmain hi => exact ⟨h.value, h.serial, h.holder, h.loaded, h.printing, h.quiet⟩
  | joined hmain hi hthread => exact ⟨h.value, h.serial, h.holder, h.loaded, h.printing, h.quiet⟩
  | joinAborted hmain hi hthread hstatus =>
    exact ⟨h.value, h.serial, h.holder, h.loaded, h.printing, h.quiet⟩
  | joinFailed hmain hi => exact ⟨h.value, h.serial, h.holder, h.loaded, h.printing, h.quiet⟩
  | allJoined hmain hi => exact ⟨h.value, h.serial, h.holder, h.loaded, h.printing, h.quiet⟩
  | checked hmain => exact ⟨h.value, h.serial, h.holder, h.loaded, h.printing, h.quiet⟩
  | usedDangling hthread huses hmain =>
    exact ⟨h.value, h.serial, h.holder, h.loaded, h.printing, h.quiet⟩
  | @locked i hthread hmain hfree =>
    have hnone : ∀ (j : ℕ) (t : MutexThread), s.threads[j]? = some t → t.holds = false := by
      intro j t hj
      by_contra ht
      have hmutex := h.holder j t hj (by simpa using ht)
      rw [hfree] at hmutex
      cases hmutex
    have honly : ∀ (j : ℕ) (t : MutexThread), (s.set i .load).threads[j]? = some t →
        t.holds = true → j = i ∧ t = .load := by
      intro j t hj ht
      rw [threads_set hthread] at hj
      split_ifs at hj with heq
      · exact ⟨heq, (Option.some.inj hj).symm⟩
      · rw [hnone j t hj] at ht
        cases ht
    refine ⟨h.value, h.serial, fun j t hj ht => ?_, fun j v hj => ?_, fun j v hj => ?_,
      fun _ => h.quiet fun j v hj => ?_⟩
    · rw [(honly j t hj ht).1]
    · cases (honly j _ hj rfl).2
    · cases (honly j _ hj rfl).2
    · cases hnone j _ hj
  | lockFailed hthread hmain =>
    have hpass := h.pass (.returned kBadStatus) hthread rfl rfl
    exact ⟨hpass.value, hpass.serial, hpass.holder, hpass.loaded, hpass.printing, hpass.quiet⟩
  | @loaded i succeeds hthread =>
    have hprinted := h.printed_eq hthread rfl (by simp)
    refine ⟨?_, serial_load.mpr h.serial, fun j t hj ht => ?_, fun j v hj => ?_, fun j v hj => ?_,
      fun _ => hprinted⟩
    · simpa [after_snoc, Memory.access, State.set] using h.value
    · obtain ⟨rfl, -⟩ := h.others hthread rfl hj ht
      exact h.holder j .load hthread rfl
    · obtain ⟨rfl, hv⟩ := h.others hthread rfl hj rfl
      simp only [MutexThread.store.injEq] at hv
      simp [after_snoc, Memory.access, h.value, hv]
    · cases (h.others hthread rfl hj rfl).2
  | @stored i succeeds loaded hthread =>
    have hprinted := h.printed_eq hthread rfl (by simp)
    obtain ⟨hregister, hsince⟩ := h.loaded i loaded hthread
    have hcounter : s.counter = loaded := by
      rw [← hregister, (bounded 0 s.accesses).fresh i hsince, h.value]
    have hnonneg : 0 ≤ loaded := by
      have hgrown := (bounded 0 s.accesses).grown.2 i
      omega
    refine ⟨?_, serial_store.mpr ⟨h.serial, hsince⟩, fun j t hj ht => ?_, fun j v hj => ?_,
      fun j v hj => ?_, fun hquiet => ?_⟩
    · simp [after_snoc, Memory.access, hregister]
    · obtain ⟨rfl, -⟩ := h.others hthread rfl hj ht
      exact h.holder j _ hthread rfl
    · cases (h.others hthread rfl hj rfl).2
    · obtain ⟨rfl, hv⟩ := h.others hthread rfl hj rfl
      simp only [MutexThread.print.injEq] at hv
      subst hv
      exact ⟨hnonneg, rfl, by rw [← hcounter]; exact hprinted⟩
    · exact absurd (by rw [threads_set hthread]; simp) (hquiet i loaded)
  | @printed i succeeds loaded hthread =>
    obtain ⟨hnonneg, hcounter, hprinted⟩ := h.printing i loaded hthread
    refine ⟨h.value, h.serial, fun j t hj ht => ?_, fun j v hj => ?_, fun j v hj => ?_,
      fun _ => ?_⟩
    · obtain ⟨rfl, -⟩ := h.others hthread rfl hj ht
      exact h.holder j _ hthread rfl
    · cases (h.others hthread rfl hj rfl).2
    · cases (h.others hthread rfl hj rfl).2
    · change s.printed ++ [loaded] = ints s.counter
      rw [hcounter, ints_succ hnonneg, hprinted]
  | unlocked hthread hmain => exact h.leave (.returned kOkStatus) hthread rfl (by simp) rfl none
  | unlockFailed hthread hmain =>
    have hleave := h.leave (.returned kBadStatus) hthread rfl (by simp) rfl s.mutex
    exact ⟨hleave.value, hleave.serial, hleave.holder, hleave.loaded, hleave.printing,
      hleave.quiet⟩

end Steps

end UnixProgramming.MutexThreads
