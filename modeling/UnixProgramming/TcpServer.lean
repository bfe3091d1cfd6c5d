import UnixProgramming.EchoServerModel
import UnixProgramming.StepRuns

/-! The forking TCP server and its handler of `SIGCHLD`. The signal is one pending bit and
is blocked while its handler runs; children exit at any time. -/
namespace UnixProgramming.TcpServer
open EchoServer (Errno)

/-- Where the loop of `main` is. -/
inductive Main
  | accept
  | fork
  | close
  deriving DecidableEq, Repr

/-- Where `sigchld_handler` is, with its local variable. -/
inductive Handler
  | loop (savedErrno : Errno)
  | restore (savedErrno : Errno)

structure State where
  main : Main
  handler : Option Handler
  errno : Errno
  pending : Bool
  running : List ℕ
  zombies : List ℕ

/-- After `reset_sigaction`, before the first connection. -/
def start (errno : Errno) : State := ⟨.accept, none, errno, false, [], []⟩

/-- What happens next. The steps of `main` are those outside of the handler; `waitpid`
carries the exited child that it takes, if there is one. -/
inductive Event
  | accept (result : Except Errno ℕ)
  | fork (result : Except Errno ℕ)
  | close
  | exit (child : ℕ)
  | stop (child : ℕ)
  | deliver
  | waitpid (child : ℕ)
  | restore

def echild : Errno := .other 10

/-- Without an exited child `waitpid` returns 0 while children run, and else -1. -/
def State.noneExited (s : State) : Errno := if s.running = [] then echild else s.errno

def step (s : State) : Event → Option State
  | .accept result =>
    if s.main = .accept ∧ s.handler.isNone then
      match result with
      | .ok _ => some { s with main := .fork }
      | .error e => some { s with errno := e }
    else none
  | .fork result =>
    if s.main = .fork ∧ s.handler.isNone then
      match result with
      | .ok child => some { s with main := .close, running := child :: s.running }
      | .error e => some { s with main := .close, errno := e }
    else none
  | .close =>
    if s.main = .close ∧ s.handler.isNone then some { s with main := .accept } else none
  | .exit child =>
    if child ∈ s.running then
      some { s with
        running := s.running.erase child
        zombies := child :: s.zombies
        pending := true }
    else none
  | .stop child => if child ∈ s.running then some { s with pending := true } else none
  | .deliver =>
    if s.pending ∧ s.handler.isNone then
      some { s with pending := false, handler := some (.loop s.errno) }
    else none
  | .waitpid child =>
    match s.handler with
    | some (.loop saved) =>
      if s.zombies = [] then
        some { s with errno := s.noneExited, handler := some (.restore saved) }
      else if child ∈ s.zombies then some { s with zombies := s.zombies.erase child }
      else none
    | _ => none
  | .restore =>
    match s.handler with
    | some (.restore saved) => some { s with errno := saved, handler := none }
    | _ => none

/-- The ways to take a step. -/
inductive Stepped (s : State) : Event → State → Prop
  | accepted {socket : ℕ} : Stepped s (.accept (.ok socket)) { s with main := .fork }
  | acceptFailed {e : Errno} (hhandler : s.handler = none) :
    Stepped s (.accept (.error e)) { s with errno := e }
  | forked {child : ℕ} :
    Stepped s (.fork (.ok child)) { s with main := .close, running := child :: s.running }
  | forkFailed {e : Errno} (hhandler : s.handler = none) :
    Stepped s (.fork (.error e)) { s with main := .close, errno := e }
  | closed : Stepped s .close { s with main := .accept }
  | exited {child : ℕ} (hchild : child ∈ s.running) : Stepped s (.exit child)
      { s with
        running := s.running.erase child
        zombies := child :: s.zombies
        pending := true }
  | stopped {child : ℕ} (hchild : child ∈ s.running) :
    Stepped s (.stop child) { s with pending := true }
  | delivered (hhandler : s.handler = none) :
    Stepped s .deliver { s with pending := false, handler := some (.loop s.errno) }
  | noneLeft {child : ℕ} {saved : Errno} (hhandler : s.handler = some (.loop saved))
    (hnone : s.zombies = []) :
    Stepped s (.waitpid child)
      { s with errno := s.noneExited, handler := some (.restore saved) }
  | reaped {child : ℕ} {saved : Errno} (hhandler : s.handler = some (.loop saved))
    (hchild : child ∈ s.zombies) :
    Stepped s (.waitpid child) { s with zombies := s.zombies.erase child }
  | restored {saved : Errno} (hhandler : s.handler = some (.restore saved)) :
    Stepped s .restore { s with errno := saved, handler := none }

lemma stepped_of_step {s s' : State} {event : Event} (h : step s event = some s') :
    Stepped s event s' := by
  cases event with
  | accept result =>
    simp only [step] at h
    split_ifs at h with hmain
    cases result with
    | ok socket => exact Option.some.inj h ▸ .accepted
    | error e => exact Option.some.inj h ▸ .acceptFailed (Option.isNone_iff_eq_none.mp hmain.2)
  | fork result =>
    simp only [step] at h
    split_ifs at h with hmain
    cases result with
    | ok child => exact Option.some.inj h ▸ .forked
    | error e => exact Option.some.inj h ▸ .forkFailed (Option.isNone_iff_eq_none.mp hmain.2)
  | close =>
    simp only [step] at h
    split_ifs at h
    exact Option.some.inj h ▸ .closed
  | exit child =>
    simp only [step] at h
    split_ifs at h with hchild
    exact Option.some.inj h ▸ .exited hchild
  | stop child =>
    simp only [step] at h
    split_ifs at h with hchild
    exact Option.some.inj h ▸ .stopped hchild
  | deliver =>
    simp only [step] at h
    split_ifs at h with hsignal
    exact Option.some.inj h ▸ .delivered (Option.isNone_iff_eq_none.mp hsignal.2)
  | waitpid child =>
    simp only [step] at h
    split at h
    · next saved hhandler =>
      split_ifs at h with hnone hchild
      · exact Option.some.inj h ▸ .noneLeft hhandler hnone
      · exact Option.some.inj h ▸ .reaped hhandler hchild
    · cases h
  | restore =>
    simp only [step] at h
    split at h
    · next saved hhandler => exact Option.some.inj h ▸ .restored hhandler
    · cases h

def Handler.looping : Handler → Bool
  | loop _ => true
  | restore _ => false

/-- An exited child is announced by the pending signal, or the handler is going to call
`waitpid` again. -/
def Announced (s : State) : Prop :=
  s.zombies ≠ [] → s.pending = true ∨ s.handler.any Handler.looping = true

lemma step_announced {s s' : State} {event : Event} (hs : Announced s)
    (h : step s event = some s') : Announced s' := by
  cases stepped_of_step h with
  | accepted => exact hs
  | acceptFailed hhandler => exact hs
  | forked => exact hs
  | forkFailed hhandler => exact hs
  | closed => exact hs
  | exited hchild => exact fun _ => Or.inl rfl
  | stopped hchild => exact fun _ => Or.inl rfl
  | delivered hhandler => exact fun _ => Or.inr rfl
  | noneLeft hhandler hnone => exact fun hz => absurd hnone hz
  | reaped hhandler hchild =>
    intro _
    right
    simp [hhandler, Handler.looping]
  | restored hhandler =>
    intro hz
    have hannounced := hs hz
    simpa [hhandler, Handler.looping] using hannounced

/-- In no run is an exited child left behind with no signal pending and no handler
running. -/
theorem no_child_left_behind (errno : Errno) (events : List Event) (s : State)
    (h : events.foldlM step (start errno) = some s) :
    ¬ (s.zombies ≠ [] ∧ s.pending = false ∧ s.handler = none) := by
  have hannounced : Announced s :=
    StepRuns.invariant_of_run (fun _ _ _ hs hstep => step_announced hs hstep)
      (fun hz => absurd rfl hz) h
  rintro ⟨hz, hpending, hhandler⟩
  simpa [hpending, hhandler] using hannounced hz

/-- A child exits during the handler that reaps another one. -/
def collapsing : List Event :=
  [.accept (.ok 4), .fork (.ok 7), .close, .accept (.ok 4), .fork (.ok 8), .close,
    .exit 7, .deliver, .waitpid 7, .waitpid 0, .exit 8, .restore]

theorem no_child_left_behind_collapsing :
    ∃ s, collapsing.foldlM step (start (.other 0)) = some s ∧ s.zombies = [8] ∧
      ¬ (s.zombies ≠ [] ∧ s.pending = false ∧ s.handler = none) := by
  have hrun : ((collapsing.foldlM step (start (.other 0))).any fun s =>
      s.zombies = [8]) = true := by
    decide +kernel
  obtain ⟨s, hs, hz⟩ := (Option.any_eq_true _ _).mp hrun
  exact ⟨s, hs, of_decide_eq_true hz, no_child_left_behind (.other 0) collapsing s hs⟩

end UnixProgramming.TcpServer
