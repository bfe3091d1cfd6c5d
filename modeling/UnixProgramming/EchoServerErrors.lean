import UnixProgramming.EchoServerClosing

/-! What `echo` should do with each outcome of `recv`, and when it does. -/
namespace UnixProgramming.EchoServer
open MachineInt

def passedToSend (events : List Event) : List (ℕ × List UInt8) :=
  events.filterMap fun
    | .sent socket memory length _ => some (socket, bytesAt memory length)
    | _ => none

def echoEvents (script : Script) (w : World) (socket : ℕ) : List Event :=
  (echo script w socket).2.trace.drop w.trace.length

/-- The bytes received are passed to `send` and nothing else is, and `false` is returned
exactly at the end of the connection and on an error other than `EAGAIN`. -/
structure EchoMeets (script : Script) (w : World) (socket : ℕ) : Prop where
  passes : ∀ chunk, script.recv w.clock = .data chunk →
    passedToSend (echoEvents script w socket) = [(socket, chunk.bytes)]
  silent : (∀ chunk, script.recv w.clock ≠ .data chunk) →
    passedToSend (echoEvents script w socket) = []
  closes : (echo script w socket).1 = false ↔
    script.recv w.clock = .closed ∨ ∃ e, e ≠ .eagain ∧ script.recv w.clock = .failed e

/-- The `recv` of an `echo` does not fail, and `errno` is not `EAGAIN` from an earlier
call when the peer has closed the connection. -/
def recvHandled (script : Script) (w : World) : Op → Bool
  | .echo _ =>
    match script.recv w.clock with
    | .data _ => true
    | .closed => decide (w.errno ≠ .eagain)
    | .failed _ => false
  | _ => true

lemma passedToSend_recv (script : Script) (w : World) (socket : ℕ) :
    passedToSend ((recv script w socket).2.trace.drop w.trace.length) = [] := by
  simp [passedToSend]

lemma passedToSend_send (script : Script) (w : World) (socket length : ℕ) :
    passedToSend ((send script (recv script w socket).2 socket length).2.trace.drop
      w.trace.length) = [(socket, bytesAt (recv script w socket).2.buffer length)] := by
  simp [send_trace, passedToSend]

lemma echoMeets_data {script : Script} {w : World} {chunk : Chunk} (socket : ℕ)
    (h : script.recv w.clock = .data chunk) : EchoMeets script w socket where
  passes := by
    intro chunk' h'
    obtain rfl : chunk = chunk' := Received.data.inj (h.symm.trans h')
    rw [echoEvents, echo_data h]
    dsimp only
    rw [passedToSend_send, recv_buffer h, bytesAt_getD le_rfl, List.take_length]
  silent := fun hne => absurd h (hne chunk)
  closes := by simp [echo_data h, h]

lemma echoMeets_closed_iff {script : Script} {w : World} (socket : ℕ)
    (h : script.recv w.clock = .closed) : EchoMeets script w socket ↔ w.errno ≠ .eagain := by
  constructor
  · intro hmeets
    have hfalse := hmeets.closes.mpr (Or.inl h)
    simpa [echo_closed h] using hfalse
  · intro herrno
    refine ⟨fun chunk h' => ?_, fun _ => ?_, ?_⟩
    · rw [h] at h'
      cases h'
    · rw [echoEvents, echo_closed h, passedToSend_recv]
    · simp [echo_closed h, h, herrno]

lemma not_echoMeets_failed {script : Script} {w : World} {e : Errno} (socket : ℕ)
    (h : script.recv w.clock = .failed e) : ¬ EchoMeets script w socket := by
  intro hmeets
  have hsilent := hmeets.silent (by simp [h])
  rw [echoEvents, echo_failed h] at hsilent
  dsimp only at hsilent
  rw [passedToSend_send] at hsilent
  cases hsilent

theorem echoMeets_iff (script : Script) (w : World) (socket : ℕ) :
    EchoMeets script w socket ↔ recvHandled script w (.echo socket) = true := by
  unfold recvHandled
  cases h : script.recv w.clock with
  | data chunk => simpa using echoMeets_data socket h
  | closed => simpa using echoMeets_closed_iff socket h
  | failed e => simpa using not_echoMeets_failed socket h

def EchoesMeet (script : Script) (kind : Kind) (serverSocket rounds : ℕ) (w : World) : Prop :=
  (∀ x ∈ calls script kind serverSocket rounds w, ∀ socket, x.2 = .echo socket →
    EchoMeets script x.1 socket) ∧ ClosesRefused script (calls script kind serverSocket rounds w)

lemma echoesMeet_iff_recvHandled (script : Script) (kind : Kind) (serverSocket rounds : ℕ)
    (w : World) : EchoesMeet script kind serverSocket rounds w ↔
      ∀ x ∈ calls script kind serverSocket rounds w, recvHandled script x.1 x.2 = true := by
  have hcloses : ClosesRefused script (calls script kind serverSocket rounds w) :=
    (closing_serve kind serverSocket rounds).closesRefused script w
  simp only [EchoesMeet, hcloses, and_true, echoMeets_iff]
  refine forall₂_congr fun x _ => ⟨fun h => ?_, fun h socket hx => hx ▸ h⟩
  cases hx : x.2 with
  | echo socket => exact h socket hx
  | wait => rfl
  | close socket => rfl
  | accept => rfl
  | fcntl socket => rfl
  | add sockets => rfl

/-- In every run of the servers the calls of `echo` are all right exactly when no `recv`
of the run fails and none finds the end of a connection while `errno` is `EAGAIN`. -/
theorem serve_echoesMeet_iff (script : Script) (kind : Kind) (serverSocket rounds : ℕ)
    (errno : Errno) (buffer : ℕ → UInt8) :
    EchoesMeet script kind serverSocket rounds (.start errno buffer) ↔
      ∀ x ∈ calls script kind serverSocket rounds (.start errno buffer),
        recvHandled script x.1 x.2 = true :=
  echoesMeet_iff_recvHandled script kind serverSocket rounds (.start errno buffer)

def afterBusySend (outcome : Received) : Script where
  wait k := if k = 0 then .ready [⟨3, true, false⟩] else .ready [⟨5, true, false⟩]
  recv k := if k = 5 then .data (.ofByte 1) else outcome
  send _ := .failed .eagain
  accept _ := .ok 5
  fcntl _ := none
  close _ := none
  add _ := none

/-- A failed `recv` is followed by a `send`, and the end of a connection is overlooked
when `errno` is `EAGAIN` from an earlier `send`. -/
theorem echoesMeet_fails_error_and_stale_errno :
    ¬ EchoesMeet (afterBusySend (.failed (.other 104))) .select 3 3
        (.start (.other 0) fun _ => 0) ∧
      ¬ EchoesMeet (afterBusySend .closed) .select 3 3 (.start (.other 0) fun _ => 0) := by
  simp only [echoesMeet_iff_recvHandled]
  exact ⟨by decide +kernel, by decide +kernel⟩

end UnixProgramming.EchoServer
