import UnixProgramming.EchoServerModel
import UnixProgramming.StepRuns

/-! The libev server. A client is two resources: its descriptor, and the watcher that
libev calls `read_cb` with. -/
namespace UnixProgramming.Libev
open EchoServer StepRuns

/-- The open descriptors of clients, the descriptors of the started read watchers, the
clients whose end was received, and what was passed to `send`. -/
structure State where
  openClients : Finset ℕ
  watchers : List ℤ
  finished : Finset ℕ
  sent : List (ℕ × List UInt8)

def start : State := ⟨∅, [], ∅, []⟩

/-- The callbacks that libev makes, with the outcome of `accept` or `recv`. -/
inductive Event
  | accept (result : Except Errno ℕ)
  | read (fd : ℕ) (received : Received)

/-- `ev_io_init` and `ev_io_start` with a new watcher. -/
def State.watch (s : State) (clientsd : ℤ) : State := { s with watchers := clientsd :: s.watchers }

/-- The result of `accept` is watched whatever it is. -/
def acceptCb (s : State) : Except Errno ℕ → State
  | .ok clientsd =>
    { s with
      openClients := insert clientsd s.openClients
      finished := s.finished.erase clientsd }.watch clientsd
  | .error _ => s.watch (-1)

def readCb (s : State) (fd : ℕ) : Received → State
  | .failed _ => s
  | .closed =>
    { s with watchers := s.watchers.erase (fd : ℤ), finished := insert fd s.finished }
  | .data chunk => { s with sent := s.sent ++ [(fd, chunk.bytes)] }

def step (s : State) : Event → Option State
  | .accept result => some (acceptCb s result)
  | .read fd received => if (fd : ℤ) ∈ s.watchers then some (readCb s fd received) else none

/-- The open clients are the watched ones, and a client that disconnected is neither. -/
structure Matched (s : State) : Prop where
  watched : ∀ fd : ℤ, fd ∈ s.watchers ↔ ∃ client ∈ s.openClients, fd = (client : ℤ)
  gone : ∀ client ∈ s.finished, client ∉ s.openClients ∧ (client : ℤ) ∉ s.watchers

/-- `accept` succeeds, and `recv` does not return 0. -/
def Event.regular : Event → Bool
  | accept result => result.isOk
  | read _ .closed => false
  | read _ (.data _) => true
  | read _ (.failed _) => true

lemma start_matched : Matched start where
  watched := by simp [start]
  gone := by simp [start]

lemma Matched.accept {s : State} (h : Matched s) (clientsd : ℕ) :
    Matched (acceptCb s (.ok clientsd)) where
  watched fd := by simp [acceptCb, State.watch, h.watched]
  gone client hc := by
    obtain ⟨hne, hfinished⟩ := Finset.mem_erase.mp hc
    obtain ⟨hopen, hwatched⟩ := h.gone client hfinished
    simp [acceptCb, State.watch, hne, hopen, hwatched]

lemma step_matched_iff (s : State) (event : Event) (s' : State) (h : Matched s)
    (hstep : step s event = some s') : Matched s' ↔ event.regular = true := by
  cases event with
  | accept result =>
    obtain rfl := Option.some.inj hstep
    cases result with
    | ok clientsd => exact iff_of_true (h.accept clientsd) rfl
    | error e =>
      refine iff_of_false (fun hmatched => ?_) Bool.false_ne_true
      obtain ⟨client, -, hclient⟩ := (hmatched.watched (-1)).mp (by simp [acceptCb, State.watch])
      omega
  | read fd received =>
    simp only [step] at hstep
    split_ifs at hstep with hwatched
    obtain rfl := Option.some.inj hstep
    cases received with
    | failed e => exact iff_of_true h rfl
    | data chunk => exact iff_of_true ⟨h.watched, h.gone⟩ rfl
    | closed =>
      -- the descriptor stays open
      refine iff_of_false (fun hmatched => ?_) Bool.false_ne_true
      obtain ⟨client, hopen, hclient⟩ := (h.watched fd).mp hwatched
      obtain rfl : fd = client := by exact_mod_cast hclient
      exact (hmatched.gone fd (by simp [readCb])).1 hopen

/-- Watchers and open descriptors match throughout a run exactly when no `accept` fails
and no client disconnects. -/
theorem watchers_match_iff (events : List Event)
    (hrun : (events.foldlM step start).isSome = true) :
    Throughout step Matched start events ↔ ∀ event ∈ events, event.regular = true :=
  throughout_iff_of_step step_matched_iff start_matched hrun

def twoClients : List Event :=
  [.accept (.ok 5), .accept (.ok 6), .read 6 (.data ⟨[104], by simp, by simp [kBufferSize]⟩),
    .read 5 (.failed .eagain)]

theorem watchers_match_two : Throughout step Matched start twoClients :=
  (watchers_match_iff twoClients (by decide +kernel)).mpr (by decide +kernel)

/-- A client that left is not watched, but its descriptor stays open. -/
theorem watchers_mismatch_disconnect :
    (∃ s, [.accept (.ok 5), .read 5 .closed].foldlM step start = some s ∧
      s.openClients = {5} ∧ s.watchers = [] ∧ ¬ Matched s) ∧
    ∃ s, [.accept (.error (.other 24))].foldlM step start = some s ∧
      s.openClients = ∅ ∧ s.watchers = [-1] ∧ ¬ Matched s := by
  refine ⟨⟨_, rfl, rfl, rfl, fun h => ?_⟩, ⟨_, rfl, rfl, rfl, fun h => ?_⟩⟩
  · exact (h.gone 5 (by decide)).1 (by decide)
  · obtain ⟨client, -, hclient⟩ := (h.watched (-1)).mp (by decide)
    omega

end UnixProgramming.Libev
