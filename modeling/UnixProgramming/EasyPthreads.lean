import UnixProgramming.SharedCounter
import UnixProgramming.StepRuns

/-! The two threads of `easy_pthreads.cpp`, which increment the variable `state` of `main`
without a lock. -/
namespace UnixProgramming.EasyPthreads
open SharedCounter

inductive Thread
  | first
  | second
  deriving DecidableEq, Repr

/-- The next statement of `ThreadFunction`; `(*state)++` is a load and a store. -/
inductive ThreadFunction
  | print
  | load
  | store (loaded : ℤ)
  | returned
  deriving DecidableEq, Repr

inductive Main
  | create (thread : Thread)
  | join (thread : Thread)
  | check
  | exited (code : ℤ)
  | aborted
  deriving DecidableEq, Repr

/-- `threads` holds the created threads, and `accesses` records the loads and stores of the
increments. -/
structure State where
  state : ℤ
  main : Main
  threads : Thread → Option ThreadFunction
  printed : List ℤ
  accesses : List (Access Thread)

def start : State := ⟨1, .create .first, fun _ => none, [], []⟩

/-- Who takes the next step; a call of `pthread_create` or `pthread_join` may fail. -/
inductive Event
  | main (succeeds : Bool)
  | thread (thread : Thread)

def State.set (s : State) (thread : Thread) (next : ThreadFunction) : State :=
  { s with threads := Function.update s.threads thread (some next) }

def mainStep (s : State) (succeeds : Bool) : Option State :=
  match s.main with
  | .create .first =>
    some (if succeeds then { s.set .first .print with main := .create .second }
      else { s with main := .exited (-1) })
  | .create .second =>
    some (if succeeds then { s.set .second .print with main := .join .first }
      else { s with main := .exited (-1) })
  | .join .first =>
    if succeeds then
      if s.threads .first = some .returned then some { s with main := .join .second } else none
    else some { s with main := .exited (-1) }
  | .join .second =>
    if succeeds then
      if s.threads .second = some .returned then some { s with main := .check } else none
    else some { s with main := .exited (-1) }
  | .check => some { s with main := if s.state = 3 then .exited 0 else .aborted }
  | .exited _ => none
  | .aborted => none

def threadStep (s : State) (thread : Thread) : Option State :=
  match s.threads thread with
  | none => none
  | some .print => some { s.set thread .load with printed := s.printed ++ [s.state] }
  | some .load =>
    some { s.set thread (.store s.state) with accesses := s.accesses ++ [.load thread] }
  | some (.store loaded) =>
    some { s.set thread .returned with
      state := loaded + 1
      accesses := s.accesses ++ [.store thread] }
  | some .returned => none

def Main.ended : Main → Bool
  | exited _ => true
  | aborted => true
  | _ => false

/-- The end of `main` ends the threads. -/
def step (s : State) : Event → Option State
  | .main succeeds => mainStep s succeeds
  | .thread thread => if s.main.ended then none else threadStep s thread

def State.hasReturned (s : State) (thread : Thread) : ℕ :=
  if s.threads thread = some .returned then 1 else 0

/-- The threads that have returned when `main` is there. -/
def Main.Joined (s : State) : Main → Prop
  | create .first => s.threads .first = none ∧ s.threads .second = none
  | create .second => s.threads .second = none
  | join .first => True
  | join .second => s.threads .first = some .returned
  | check => s.threads .first = some .returned ∧ s.threads .second = some .returned
  | exited code => code = 0 →
    s.threads .first = some .returned ∧ s.threads .second = some .returned ∧ s.state = 3
  | aborted =>
    s.threads .first = some .returned ∧ s.threads .second = some .returned ∧ s.state ≠ 3

/-- The increments are accesses to a shared counter that is 1 at first. -/
structure Inv (s : State) : Prop where
  value : (after 1 s.accesses).value = s.state
  loaded : ∀ thread loaded, s.threads thread = some (.store loaded) →
    (after 1 s.accesses).register thread = loaded
  stores_eq : stores s.accesses = s.hasReturned .first + s.hasReturned .second
  joined : s.main.Joined s

lemma start_inv : Inv start := by
  constructor <;> simp [start, after, stores, State.hasReturned, Main.Joined]

variable {s s' : State} {thread : Thread} {current next : ThreadFunction}

lemma threads_set_of_ne {x : Thread} (hx : x ≠ thread) :
    (s.set thread next).threads x = s.threads x := Function.update_of_ne hx _ _

lemma hasReturned_set (x : Thread) : (s.set thread next).hasReturned x =
    if x = thread then (if next = .returned then 1 else 0) else s.hasReturned x := by
  unfold State.hasReturned State.set
  by_cases hx : x = thread
  · subst hx
    simp
  · simp [hx]

/-- A thread that has not returned takes its next step. -/
lemma Main.Joined.set {m : Main} (h : m.Joined s) (hended : m.ended = false)
    (hcurrent : s.threads thread = some current) (hne : current ≠ .returned)
    (hthreads : s'.threads = (s.set thread next).threads) : m.Joined s' := by
  have hother : ∀ x, s.threads x = none ∨ s.threads x = some .returned →
      s'.threads x = s.threads x := by
    rintro x hx
    have hx : x ≠ thread := by
      rintro rfl
      rw [hcurrent] at hx
      simp [hne] at hx
    rw [hthreads, threads_set_of_ne hx]
  cases m with
  | create x =>
    cases x with
    | first => exact ⟨by rw [hother _ (.inl h.1), h.1], by rw [hother _ (.inl h.2), h.2]⟩
    | second => exact (hother _ (.inl h)).trans h
  | join x =>
    cases x with
    | first => trivial
    | second => exact (hother _ (.inr h)).trans h
  | check => exact ⟨(hother _ (.inr h.1)).trans h.1, (hother _ (.inr h.2)).trans h.2⟩
  | exited code => cases hended
  | aborted => cases hended

lemma mainStep_inv {succeeds : Bool} (h : Inv s) (hstep : mainStep s succeeds = some s') :
    Inv s' := by
  obtain ⟨hvalue, hloaded, hstores, hjoined⟩ := h
  have hcreated : ∀ thread, s.threads thread = none →
      (∀ x loaded, (s.set thread .print).threads x = some (.store loaded) →
        (after 1 s.accesses).register x = loaded) ∧
      (s.set thread .print).hasReturned .first + (s.set thread .print).hasReturned .second =
        s.hasReturned .first + s.hasReturned .second := by
    intro thread hnone
    refine ⟨fun x loaded hx => ?_, ?_⟩
    · by_cases heq : x = thread
      · subst heq
        simp [State.set] at hx
      · exact hloaded x loaded (by rwa [threads_set_of_ne heq] at hx)
    · have hzero : s.hasReturned thread = 0 := by simp [State.hasReturned, hnone]
      cases thread <;> simp [hasReturned_set, hzero]
  have hfailed : Inv { s with main := .exited (-1) } :=
    ⟨hvalue, hloaded, hstores, by simp [Main.Joined]⟩
  unfold mainStep at hstep
  cases hmain : s.main with
  | create thread =>
    rw [hmain] at hjoined hstep
    cases thread with
    | first =>
      obtain rfl := Option.some.inj hstep
      cases succeeds with
      | true =>
        obtain ⟨hkept, hcount⟩ := hcreated .first hjoined.1
        have hsecond : (s.set .first .print).threads .second = none :=
          (threads_set_of_ne (by decide)).trans hjoined.2
        exact ⟨hvalue, hkept, hstores.trans hcount.symm, hsecond⟩
      | false => exact hfailed
    | second =>
      obtain rfl := Option.some.inj hstep
      cases succeeds with
      | true =>
        obtain ⟨hkept, hcount⟩ := hcreated .second hjoined
        exact ⟨hvalue, hkept, hstores.trans hcount.symm, trivial⟩
      | false => exact hfailed
  | join thread =>
    rw [hmain] at hjoined hstep
    cases thread with
    | first =>
      dsimp only at hstep
      split_ifs at hstep with hsucceeds hreturned
      · obtain rfl := Option.some.inj hstep
        exact ⟨hvalue, hloaded, hstores, hreturned⟩
      · exact Option.some.inj hstep ▸ hfailed
    | second =>
      dsimp only at hstep
      split_ifs at hstep with hsucceeds hreturned
      · obtain rfl := Option.some.inj hstep
        exact ⟨hvalue, hloaded, hstores, hjoined, hreturned⟩
      · exact Option.some.inj hstep ▸ hfailed
  | check =>
    rw [hmain] at hjoined hstep
    obtain rfl := Option.some.inj hstep
    refine ⟨hvalue, hloaded, hstores, ?_⟩
    dsimp only
    split_ifs with hthree
    · exact fun _ => ⟨hjoined.1, hjoined.2, hthree⟩
    · exact ⟨hjoined.1, hjoined.2, hthree⟩
  | exited code =>
    rw [hmain] at hstep
    cases hstep
  | aborted =>
    rw [hmain] at hstep
    cases hstep

lemma threadStep_inv (h : Inv s) (hended : s.main.ended = false)
    (hstep : threadStep s thread = some s') : Inv s' := by
  obtain ⟨hvalue, hloaded, hstores, hjoined⟩ := h
  have hother : ∀ next x loaded, x ≠ thread →
      (s.set thread next).threads x = some (.store loaded) →
      (after 1 s.accesses).register x = loaded := by
    intro next x loaded hx hstore
    exact hloaded x loaded (by rwa [threads_set_of_ne hx] at hstore)
  have hcount : ∀ next, next ≠ .returned → s.hasReturned thread = 0 →
      (s.set thread next).hasReturned .first + (s.set thread next).hasReturned .second =
        s.hasReturned .first + s.hasReturned .second := by
    intro next hnext hzero
    cases thread <;> simp [hasReturned_set, hnext, hzero]
  unfold threadStep at hstep
  cases hcurrent : s.threads thread with
  | none =>
    rw [hcurrent] at hstep
    cases hstep
  | some current =>
    rw [hcurrent] at hstep
    cases current with
    | print =>
      obtain rfl := Option.some.inj hstep
      refine ⟨hvalue, fun x loaded hx => ?_, ?_, hjoined.set hended hcurrent (by simp) rfl⟩
      · by_cases heq : x = thread
        · subst heq
          simp [State.set] at hx
        · exact hother _ x loaded heq hx
      · exact hstores.trans (hcount _ (by simp) (by simp [State.hasReturned, hcurrent])).symm
    | load =>
      obtain rfl := Option.some.inj hstep
      refine ⟨?_, fun x loaded hx => ?_, ?_, hjoined.set hended hcurrent (by simp) rfl⟩
      · simpa [State.set, after_snoc, Memory.access] using hvalue
      · by_cases heq : x = thread
        · subst heq
          simpa [State.set, after_snoc, Memory.access, hvalue] using hx
        · simpa [after_snoc, Memory.access, Function.update_of_ne heq]
            using hother _ x loaded heq hx
      · rw [stores_load]
        exact hstores.trans (hcount _ (by simp) (by simp [State.hasReturned, hcurrent])).symm
    | store loaded =>
      obtain rfl := Option.some.inj hstep
      have hregister := hloaded thread loaded hcurrent
      refine ⟨?_, fun x value hx => ?_, ?_, hjoined.set hended hcurrent (by simp) rfl⟩
      · simp [after_snoc, Memory.access, hregister]
      · by_cases heq : x = thread
        · subst heq
          simp [State.set] at hx
        · simpa [after_snoc, Memory.access] using hother _ x value heq hx
      · have hzero : s.hasReturned thread = 0 := by simp [State.hasReturned, hcurrent]
        rw [stores_store, hstores]
        cases thread with
        | first => simp [State.hasReturned, State.set, hcurrent, add_comm]
        | second => simp [State.hasReturned, State.set, hcurrent]
    | returned => cases hstep

lemma run_inv {schedule : List Event} (h : schedule.foldlM step start = some s) : Inv s := by
  refine StepRuns.invariant_of_run (fun s event s' hs hstep => ?_) start_inv h
  cases event with
  | main succeeds => exact mainStep_inv hs hstep
  | thread thread =>
    simp only [step] at hstep
    split_ifs at hstep with hended
    exact threadStep_inv hs (by simpa using hended) hstep

/-- When `main` gets to the assertion, `state` is 2 or 3, and the assertion holds exactly
when no thread stores between the load and the store of the other one. -/
theorem assertion_iff_serial (schedule : List Event) (s : State)
    (h : schedule.foldlM step start = some s) (hend : s.main = .exited 0 ∨ s.main = .aborted) :
    (s.main = .exited 0 ↔ Serial s.accesses) ∧ (s.state = 2 ∨ s.state = 3) := by
  obtain ⟨hvalue, -, hstores, hjoined⟩ := run_inv h
  have hreturned : s.threads .first = some .returned ∧ s.threads .second = some .returned ∧
      (s.main = .exited 0 ↔ s.state = 3) := by
    rcases hend with hmain | hmain
    · rw [hmain] at hjoined ⊢
      obtain ⟨hfirst, hsecond, hthree⟩ := hjoined rfl
      exact ⟨hfirst, hsecond, iff_of_true rfl hthree⟩
    · rw [hmain] at hjoined ⊢
      obtain ⟨hfirst, hsecond, hnot⟩ := hjoined
      exact ⟨hfirst, hsecond, iff_of_false (by simp) hnot⟩
  obtain ⟨hfirst, hsecond, hmain⟩ := hreturned
  have htwo : stores s.accesses = 2 := by
    simpa [State.hasReturned, hfirst, hsecond] using hstores
  have hle := (bounded 1 s.accesses).value
  have hlt := value_pos 1 s.accesses (by omega)
  have hserial := value_eq_iff_serial 1 s.accesses
  rw [hvalue, htwo] at hserial hle
  rw [hvalue] at hlt
  refine ⟨hmain.trans ?_, ?_⟩
  · rw [← hserial]
    norm_num
  · push_cast at hle
    omega

def overlapping : List Event :=
  [.main true, .main true, .thread .first, .thread .second, .thread .first, .thread .second,
    .thread .second, .thread .first, .main true, .main true, .main true]

theorem assertion_fails_overlapping : ∃ s, overlapping.foldlM step start = some s ∧
    s.main = .aborted ∧ ¬ Serial s.accesses := by
  obtain ⟨s, hs, hmain⟩ : ∃ s, overlapping.foldlM step start = some s ∧ s.main = .aborted :=
    ⟨_, rfl, by decide⟩
  refine ⟨s, hs, hmain, fun hserial => ?_⟩
  have hexited := (assertion_iff_serial overlapping s hs (.inr hmain)).1.mpr hserial
  rw [hmain] at hexited
  cases hexited

end UnixProgramming.EasyPthreads
