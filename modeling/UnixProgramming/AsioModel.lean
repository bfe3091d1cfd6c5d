import UnixProgramming.StepRuns

/-! The echo server on Boost.Asio. Asynchronous operations are outstanding from the call
that starts them until they complete; each completion runs one handler, and the handlers
of all sessions run in the order in which the operations happen to complete. -/
namespace UnixProgramming.Asio

def kMaxLength : ℕ := 1024

/-- `data` is the memory of `data_`. The bytes that were delivered to it and written from
it, whether `Start` was called and how often the session was deleted are kept beside. -/
structure Session where
  data : ℕ → UInt8
  received : List UInt8
  sent : List UInt8
  started : Bool
  deletions : ℕ

/-- An outstanding operation. `async_write` writes its bytes in parts. -/
inductive Operation
  | accept (session : ℕ)
  | read (session : ℕ)
  | write (session length written : ℕ)
  deriving DecidableEq, Repr

def Operation.session : Operation → ℕ
  | accept session | read session | write session _ _ => session

/-- Sessions are numbered as they are allocated. -/
structure State where
  sessions : ℕ → Session
  allocated : ℕ
  pending : List Operation

structure Chunk where
  bytes : List UInt8
  nonempty : bytes ≠ []
  fits : bytes.length ≤ kMaxLength

namespace State

def modify (state : State) (session : ℕ) (f : Session → Session) : State :=
  { state with sessions := Function.update state.sessions session (f (state.sessions session)) }

def begin (state : State) (operation : Operation) : State :=
  { state with pending := operation :: state.pending }

def complete (state : State) (operation : Operation) : Option State :=
  if operation ∈ state.pending then
    some { state with pending := state.pending.erase operation }
  else none

/-- `delete this` and `delete new_session`. -/
def delete (state : State) (session : ℕ) : State :=
  state.modify session fun s => { s with deletions := s.deletions + 1 }

def sessionStart (state : State) (session : ℕ) : State :=
  (state.modify session fun s => { s with started := true }).begin (.read session)

def handleRead (state : State) (session : ℕ) (error : Bool) (bytesTransferred : ℕ) : State :=
  if !error then state.begin (.write session bytesTransferred 0) else state.delete session

def handleWrite (state : State) (session : ℕ) (error : Bool) : State :=
  if !error then state.sessionStart session else state.delete session

def newAsyncAccept (state : State) : State :=
  { state with allocated := state.allocated + 1 }.begin (.accept state.allocated)

def handleAccept (state : State) (session : ℕ) (error : Bool) : State :=
  if !error then (state.sessionStart session).newAsyncAccept else state.delete session

end State

def Session.deliver (chunk : Chunk) (session : Session) : Session :=
  { session with
    data := fun i => chunk.bytes.getD i (session.data i)
    received := session.received ++ chunk.bytes }

def Session.transmit (written count : ℕ) (session : Session) : Session :=
  { session with sent := session.sent ++ (List.range' written count).map session.data }

/-- What the operating system reports. An operation fails at any time; `async_write`
completes without an error when all its bytes are written. -/
inductive Completion
  | accepted (session : ℕ) (error : Bool)
  | delivered (session : ℕ) (chunk : Chunk)
  | readFailed (session : ℕ)
  | wroteSome (session length written count : ℕ)
  | wrote (session length written : ℕ) (error : Bool)

def step (state : State) : Completion → Option State
  | .accepted session error => do
    let state ← state.complete (.accept session)
    return state.handleAccept session error
  | .delivered session chunk => do
    let state ← state.complete (.read session)
    return (state.modify session (.deliver chunk)).handleRead session false chunk.bytes.length
  | .readFailed session => do
    let state ← state.complete (.read session)
    return state.handleRead session true 0
  | .wroteSome session length written count =>
    if written + count ≤ length then do
      let state ← state.complete (.write session length written)
      return (state.modify session (.transmit written count)).begin
        (.write session length (written + count))
    else none
  | .wrote session length written error =>
    if error ∨ written = length then do
      let state ← state.complete (.write session length written)
      return state.handleWrite session error
    else none

/-- The constructor of `Server`; what the memory of a session holds is not known. -/
def initial (data : ℕ → ℕ → UInt8) : State :=
  State.newAsyncAccept ⟨fun i => ⟨data i, [], [], false, 0⟩, 0, []⟩

def run (data : ℕ → ℕ → UInt8) (completions : List Completion) : Option State :=
  completions.foldlM step (initial data)

section Lemmas

variable {state state' : State} {session other : ℕ} {operation : Operation}

/-- The outstanding operations of a session. -/
def State.operations (state : State) (session : ℕ) : List Operation :=
  state.pending.filter fun operation => operation.session = session

@[simp] lemma modify_operations (f : Session → Session) :
    (state.modify session f).operations other = state.operations other := rfl

@[simp] lemma modify_sessions_self (f : Session → Session) :
    (state.modify session f).sessions session = f (state.sessions session) :=
  Function.update_self _ _ _

lemma modify_sessions_of_ne (f : Session → Session) (h : other ≠ session) :
    (state.modify session f).sessions other = state.sessions other :=
  Function.update_of_ne h _ _

@[simp] lemma begin_sessions : (state.begin operation).sessions = state.sessions := rfl

lemma begin_operations_self (h : operation.session = session) :
    (state.begin operation).operations session = operation :: state.operations session := by
  simp [State.operations, State.begin, h]

lemma begin_operations_of_ne (h : operation.session ≠ other) :
    (state.begin operation).operations other = state.operations other := by
  simp [State.operations, State.begin, h]

/-- Completing an operation takes one outstanding operation from its session. -/
lemma complete_spec (h : state.complete operation = some state') :
    operation ∈ state.operations operation.session ∧
      state'.sessions = state.sessions ∧ state'.allocated = state.allocated ∧
      state'.operations operation.session =
        (state.operations operation.session).erase operation ∧
      ∀ other, other ≠ operation.session → state'.operations other = state.operations other := by
  unfold State.complete at h
  split_ifs at h with hmem
  obtain rfl := Option.some.inj h
  refine ⟨by simp [State.operations, hmem], rfl, rfl, ?_, fun other hne => ?_⟩
  · exact List.erase_filter.symm
  · have hnot : operation ∉ state.operations other := by simp [State.operations, hne.symm]
    exact List.erase_filter.symm.trans (List.erase_of_not_mem hnot)

/-- The ways to take a step; `next` is left when the completed operation is taken out. -/
inductive Stepped (state : State) : Completion → State → Prop
  | accepted {session : ℕ} {error : Bool} {next : State}
    (h : state.complete (.accept session) = some next) :
    Stepped state (.accepted session error) (next.handleAccept session error)
  | delivered {session : ℕ} {chunk : Chunk} {next : State}
    (h : state.complete (.read session) = some next) :
    Stepped state (.delivered session chunk)
      ((next.modify session (.deliver chunk)).handleRead session false chunk.bytes.length)
  | readFailed {session : ℕ} {next : State} (h : state.complete (.read session) = some next) :
    Stepped state (.readFailed session) (next.handleRead session true 0)
  | wroteSome {session length written count : ℕ} {next : State}
    (hfits : written + count ≤ length)
    (h : state.complete (.write session length written) = some next) :
    Stepped state (.wroteSome session length written count)
      ((next.modify session (.transmit written count)).begin
        (.write session length (written + count)))
  | wrote {session length written : ℕ} {error : Bool} {next : State}
    (hall : error = true ∨ written = length)
    (h : state.complete (.write session length written) = some next) :
    Stepped state (.wrote session length written error) (next.handleWrite session error)

lemma stepped_of_step {completion : Completion} (h : step state completion = some state') :
    Stepped state completion state' := by
  cases completion with
  | accepted session error =>
    obtain ⟨next, hcomplete, hnext⟩ := Option.bind_eq_some_iff.mp h
    exact Option.some.inj hnext ▸ .accepted hcomplete
  | delivered session chunk =>
    obtain ⟨next, hcomplete, hnext⟩ := Option.bind_eq_some_iff.mp h
    exact Option.some.inj hnext ▸ .delivered hcomplete
  | readFailed session =>
    obtain ⟨next, hcomplete, hnext⟩ := Option.bind_eq_some_iff.mp h
    exact Option.some.inj hnext ▸ .readFailed hcomplete
  | wroteSome session length written count =>
    simp only [step] at h
    split_ifs at h with hfits
    obtain ⟨next, hcomplete, hnext⟩ := Option.bind_eq_some_iff.mp h
    exact Option.some.inj hnext ▸ .wroteSome hfits hcomplete
  | wrote session length written error =>
    simp only [step] at h
    split_ifs at h with hall
    obtain ⟨next, hcomplete, hnext⟩ := Option.bind_eq_some_iff.mp h
    exact Option.some.inj hnext ▸ .wrote hall hcomplete

end Lemmas
end UnixProgramming.Asio
