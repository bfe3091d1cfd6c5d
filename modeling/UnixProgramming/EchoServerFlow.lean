import UnixProgramming.EchoServerLoops

/-! What is received and sent on each connection. A connection starts when `accept`
returns its descriptor; a descriptor that is issued again is another connection. -/
namespace UnixProgramming.EchoServer
open MachineInt

/-- The bytes received and sent on the current connection of a descriptor. -/
structure Flow where
  received : List UInt8
  sent : List UInt8
  deriving DecidableEq

def Flow.step (socket : ℕ) (flow : Flow) : Event → Flow
  | .accepted s => if s = socket then ⟨[], []⟩ else flow
  | .received s (.data chunk) =>
    if s = socket then { flow with received := flow.received ++ chunk.bytes } else flow
  | .sent s _ _ taken => if s = socket then { flow with sent := flow.sent ++ taken } else flow
  | _ => flow

def flowOf (trace : List Event) (socket : ℕ) : Flow := trace.foldl (Flow.step socket) ⟨[], []⟩

/-- At all times the bytes sent on a connection are a prefix of the bytes received on it. -/
def EchoesInOrder (trace : List Event) : Prop :=
  ∀ past, past <+: trace → ∀ socket, (flowOf past socket).sent <+: (flowOf past socket).received

def Sent.takesSome : Sent → Bool
  | accepted count => 0 < count
  | failed _ => false

/-- The send that follows `recv` in an `echo` takes nothing after a failed `recv`, and
takes something of a chunk only when nothing received before is still unsent. -/
def keepsOrder (script : Script) (w : World) : Op → Bool
  | .echo socket =>
    match script.recv w.clock with
    | .data _ => !(script.send (w.clock + 1)).takesSome ||
        decide ((flowOf w.trace socket).sent = (flowOf w.trace socket).received)
    | .closed => true
    | .failed _ => !(script.send (w.clock + 1)).takesSome
  | _ => true

lemma flowOf_snoc (trace : List Event) (event : Event) (socket : ℕ) :
    flowOf (trace ++ [event]) socket = (flowOf trace socket).step socket event := by
  simp [flowOf]

lemma EchoesInOrder.last {trace : List Event} (h : EchoesInOrder trace) (socket : ℕ) :
    (flowOf trace socket).sent <+: (flowOf trace socket).received :=
  h trace (List.prefix_refl trace) socket

lemma EchoesInOrder.snoc {trace : List Event} {event : Event} (h : EchoesInOrder trace)
    (hevent : ∀ socket, ((flowOf trace socket).step socket event).sent <+:
      ((flowOf trace socket).step socket event).received) : EchoesInOrder (trace ++ [event]) := by
  intro past hpast socket
  rcases List.prefix_concat_iff.mp hpast with rfl | hpast
  · rw [flowOf_snoc]
    exact hevent socket
  · exact h past hpast socket

lemma EchoesInOrder.record {trace : List Event} {event : Event} (h : EchoesInOrder trace)
    (hevent : ∀ socket memory length taken, event ≠ .sent socket memory length taken) :
    EchoesInOrder (trace ++ [event]) := by
  refine h.snoc fun socket => ?_
  have hlast := h.last socket
  cases event with
  | sent s memory length taken => exact absurd rfl (hevent s memory length taken)
  | accepted s =>
    simp only [Flow.step]
    split_ifs
    · exact List.prefix_refl []
    · exact hlast
  | received s outcome =>
    cases outcome with
    | data chunk =>
      simp only [Flow.step]
      split_ifs
      · exact hlast.trans (List.prefix_append _ _)
      · exact hlast
    | closed => exact hlast
    | failed e => exact hlast
  | waited => exact hlast
  | closed s => exact hlast
  | acceptFailed => exact hlast
  | fcntl s => exact hlast
  | added sockets => exact hlast

lemma EchoesInOrder.send {trace : List Event} {s : ℕ} {memory : ℕ → UInt8} {length : ℕ}
    {taken : List UInt8} (h : EchoesInOrder trace)
    (htaken : (flowOf trace s).sent ++ taken <+: (flowOf trace s).received) :
    EchoesInOrder (trace ++ [.sent s memory length taken]) := by
  refine h.snoc fun socket => ?_
  simp only [Flow.step]
  split_ifs with hs
  · rw [← hs]
    exact htaken
  · exact h.last socket

lemma taken_eq_nil {outcome : Sent} (h : outcome.takesSome = false) (memory : ℕ → UInt8)
    (length : ℕ) : outcome.taken memory length = [] := by
  cases outcome with
  | accepted count =>
    have hzero : count = 0 := by simpa [Sent.takesSome] using h
    simp [Sent.taken, hzero, bytesAt]
  | failed e => rfl

lemma taken_initial (outcome : Sent) (bytes : List UInt8) (memory : ℕ → UInt8) :
    outcome.taken (fun i => bytes.getD i (memory i)) bytes.length <+: bytes := by
  cases outcome with
  | accepted count =>
    rw [Sent.taken, bytesAt_getD (Nat.min_le_right _ _)]
    exact List.take_prefix _ _
  | failed e => exact List.nil_prefix

lemma echo_inOrder {script : Script} {w : World} {socket : ℕ} (h : EchoesInOrder w.trace)
    (hkeeps : keepsOrder script w (.echo socket) = true) :
    EchoesInOrder (echo script w socket).2.trace := by
  have hrecv : EchoesInOrder (recv script w socket).2.trace := by
    rw [recv_trace]
    exact h.record (by simp)
  unfold keepsOrder at hkeeps
  cases hr : script.recv w.clock with
  | closed => rwa [echo_closed hr]
  | failed e =>
    rw [hr] at hkeeps
    have hnone : (script.send (w.clock + 1)).takesSome = false := by simpa using hkeeps
    rw [echo_failed hr]
    dsimp only
    rw [send_trace, recv_clock, taken_eq_nil hnone]
    exact hrecv.send (by simpa using hrecv.last socket)
  | data chunk =>
    rw [hr] at hkeeps
    rw [echo_data hr]
    dsimp only
    rw [send_trace, recv_clock, recv_buffer hr]
    refine hrecv.send ?_
    cases hs : (script.send (w.clock + 1)).takesSome with
    | false =>
      rw [taken_eq_nil hs, List.append_nil]
      exact hrecv.last socket
    | true =>
      -- nothing is unsent from before, so the taken bytes are the next ones
      have heq : (flowOf w.trace socket).sent = (flowOf w.trace socket).received := by
        simpa [hs] using hkeeps
      rw [recv_trace, flowOf_snoc, hr]
      simp only [Flow.step, ↓reduceIte, heq]
      exact (List.prefix_append_right_inj _).mpr (taken_initial _ _ _)

lemma exec_inOrder {script : Script} {w : World} {op : Op} (h : EchoesInOrder w.trace)
    (hkeeps : keepsOrder script w op = true) : EchoesInOrder (exec script w op).2.trace := by
  cases op with
  | wait =>
    unfold exec
    cases script.wait w.clock <;> simpa using h.record (by simp)
  | echo socket => exact echo_inOrder h hkeeps
  | close socket => simpa [exec] using h.record (by simp)
  | accept =>
    unfold exec
    cases script.accept w.clock <;> simpa using h.record (by simp)
  | fcntl socket => simpa [exec] using h.record (by simp)
  | add sockets => simpa [exec] using h.record (by simp)

/-- In a run in which every send meets the condition the servers echo in order. -/
theorem serve_echoesInOrder (script : Script) (kind : Kind) (serverSocket rounds : ℕ)
    (errno : Errno) (buffer : ℕ → UInt8)
    (h : ∀ x ∈ calls script kind serverSocket rounds (.start errno buffer),
      keepsOrder script x.1 x.2 = true) :
    EchoesInOrder (finish script kind serverSocket rounds (.start errno buffer)).trace := by
  have hstart : EchoesInOrder (World.start errno buffer).trace := by
    intro past hpast socket
    rw [List.prefix_nil.mp hpast]
    exact List.prefix_refl []
  have hstep : ∀ w op, EchoesInOrder w.trace → keepsOrder script w op = true →
      EchoesInOrder (exec script w op).2.trace := fun _ _ hw hop => exec_inOrder hw hop
  exact (Program.invariant_of_guarded (P := fun w : World => EchoesInOrder w.trace) hstep
    (serve kind serverSocket rounds) hstart h).2

def twoChunks (count : ℕ) : Script where
  wait k := if k = 0 then .ready [⟨3, true, false⟩] else .ready [⟨5, true, false⟩]
  recv k := if k = 5 then .data ⟨[1, 2], by simp, by simp [kBufferSize]⟩
    else .data ⟨[3], by simp, by simp [kBufferSize]⟩
  send _ := .accepted count
  accept _ := .ok 5
  fcntl _ := none
  close _ := none
  add _ := none

theorem serve_echoesInOrder_sample :
    EchoesInOrder (finish (twoChunks 1024) .select 3 3 (.start (.other 0) fun _ => 0)).trace :=
  serve_echoesInOrder (twoChunks 1024) .select 3 3 (.other 0) (fun _ => 0) (by decide +kernel)

/-- A `send` that takes one byte of the first chunk loses the second byte. -/
theorem echoesInOrder_fails_partial_send :
    flowOf (finish (twoChunks 1) .select 3 3 (.start (.other 0) fun _ => 0)).trace 5 =
        ⟨[1, 2, 3], [1, 3]⟩ ∧
      ¬ EchoesInOrder (finish (twoChunks 1) .select 3 3 (.start (.other 0) fun _ => 0)).trace := by
  have hflow : flowOf (finish (twoChunks 1) .select 3 3 (.start (.other 0) fun _ => 0)).trace 5 =
      ⟨[1, 2, 3], [1, 3]⟩ := by decide +kernel
  refine ⟨hflow, fun h => ?_⟩
  have hlast := h.last 5
  rw [hflow] at hlast
  exact absurd hlast (by decide)

end UnixProgramming.EchoServer
