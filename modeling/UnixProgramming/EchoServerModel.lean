import UnixProgramming.MachineInt
import UnixProgramming.OrderedSet
import UnixProgramming.EffectPrograms

/-! The multiplexing echo servers. The operating system answers the system calls by a
script; `errno` keeps its value across successful calls, and all connections share one
receive buffer. The five event loops are programs over the calls they make; what they
print to the standard error is left out. -/
namespace UnixProgramming.EchoServer
open MachineInt

inductive Errno
  | eagain
  | other (code : ℕ)
  deriving DecidableEq, Repr

def kBufferSize : ℕ := 1024
def kPollSize : ℕ := 2048
def fdSetSize : ℕ := 1024

structure Chunk where
  bytes : List UInt8
  nonempty : bytes ≠ []
  fits : bytes.length ≤ kBufferSize

def Chunk.ofByte (b : UInt8) : Chunk := ⟨[b], by simp, by simp [kBufferSize]⟩

inductive Received
  | data (chunk : Chunk)
  | closed
  | failed (errno : Errno)

/-- The number of bytes that `send` takes is capped by the length it is given. -/
inductive Sent
  | accepted (count : ℕ)
  | failed (errno : Errno)

/-- A ready descriptor: `readable` stands for `FD_ISSET`, `POLLIN` and `EVFILT_READ`,
`hangup` for `EPOLLERR` or `EPOLLHUP`. -/
structure Notice where
  socket : ℕ
  readable : Bool
  hangup : Bool

inductive Waited
  | ready (notices : List Notice)
  | failed (errno : Errno)

/-- The answers of the operating system, by the number of the system call. -/
structure Script where
  wait : ℕ → Waited
  recv : ℕ → Received
  send : ℕ → Sent
  accept : ℕ → Except Errno ℕ
  fcntl : ℕ → Option Errno
  close : ℕ → Option Errno
  add : ℕ → Option Errno

/-- The system calls made so far. `sent` holds the memory and the length passed to
`send`, and the bytes that were taken. -/
inductive Event
  | waited
  | received (socket : ℕ) (outcome : Received)
  | sent (socket : ℕ) (memory : ℕ → UInt8) (length : ℕ) (taken : List UInt8)
  | closed (socket : ℕ)
  | accepted (socket : ℕ)
  | acceptFailed
  | fcntl (socket : ℕ)
  | added (sockets : List ℕ)

/-- `buffer` is the memory from the start of the receive buffer on. -/
structure World where
  clock : ℕ
  errno : Errno
  buffer : ℕ → UInt8
  trace : List Event

def World.start (errno : Errno) (buffer : ℕ → UInt8) : World := ⟨0, errno, buffer, []⟩

def World.record (w : World) (event : Event) : World :=
  { w with clock := w.clock + 1, trace := w.trace ++ [event] }

def World.fail (w : World) : Option Errno → World
  | none => w
  | some e => { w with errno := e }

def bytesAt (memory : ℕ → UInt8) (length : ℕ) : List UInt8 := (List.range length).map memory

section Calls

variable (script : Script)

def recv (w : World) (socket : ℕ) : ℤ × World :=
  let outcome := script.recv w.clock
  let w := w.record (.received socket outcome)
  match outcome with
  | .data chunk =>
    (chunk.bytes.length, { w with buffer := fun i => chunk.bytes.getD i (w.buffer i) })
  | .closed => (0, w)
  | .failed e => (-1, w.fail (some e))

def send (w : World) (socket length : ℕ) : ℤ × World :=
  match script.send w.clock with
  | .accepted count =>
    let count := min count length
    (count, w.record (.sent socket w.buffer length (bytesAt w.buffer count)))
  | .failed e => (-1, (w.record (.sent socket w.buffer length [])).fail (some e))

/-- `recv` is signed, `received_message_size` is not. -/
def echo (w : World) (socket : ℕ) : Bool × World :=
  let (received, w) := recv script w socket
  let receivedMessageSize := toSize received
  if receivedMessageSize ≤ 0 then (decide (w.errno = .eagain), w)
  else (true, (send script w socket receivedMessageSize).2)

inductive Op
  | wait
  | echo (socket : ℕ)
  | close (socket : ℕ)
  | accept
  | fcntl (socket : ℕ)
  | add (sockets : List ℕ)

/-- `accept` answers `none`, and `add` answers `false`, for `ERROR`. -/
def Op.Answer : Op → Type
  | wait => Waited
  | echo _ => Bool
  | close _ => Unit
  | accept => Option ℕ
  | fcntl _ => Unit
  | add _ => Bool

def exec (w : World) : (op : Op) → op.Answer × World
  | .wait =>
    match script.wait w.clock with
    | .ready notices => (Waited.ready notices, w.record .waited)
    | .failed e => (Waited.failed e, (w.record .waited).fail (some e))
  | .echo socket => echo script w socket
  | .close socket => ((), (w.record (.closed socket)).fail (script.close w.clock))
  | .accept =>
    match script.accept w.clock with
    | .ok socket => (some socket, w.record (.accepted socket))
    | .error e => ((none : Option ℕ), (w.record .acceptFailed).fail (some e))
  | .fcntl socket => ((), (w.record (.fcntl socket)).fail (script.fcntl w.clock))
  | .add sockets =>
    ((script.add w.clock).isNone, (w.record (.added sockets)).fail (script.add w.clock))

end Calls

@[simp] lemma World.record_trace (w : World) (event : Event) :
    (w.record event).trace = w.trace ++ [event] := rfl

@[simp] lemma World.record_clock (w : World) (event : Event) :
    (w.record event).clock = w.clock + 1 := rfl

@[simp] lemma World.fail_trace (w : World) (e : Option Errno) : (w.fail e).trace = w.trace := by
  cases e <;> rfl

@[simp] lemma World.fail_clock (w : World) (e : Option Errno) : (w.fail e).clock = w.clock := by
  cases e <;> rfl

def Sent.taken (memory : ℕ → UInt8) (length : ℕ) : Sent → List UInt8
  | accepted count => bytesAt memory (min count length)
  | failed _ => []

section Specifications

variable {script : Script} {w : World} {socket : ℕ}

@[simp] lemma recv_trace :
    (recv script w socket).2.trace = w.trace ++ [.received socket (script.recv w.clock)] := by
  unfold recv
  cases h : script.recv w.clock <;> simp

@[simp] lemma recv_clock : (recv script w socket).2.clock = w.clock + 1 := by
  unfold recv
  cases h : script.recv w.clock <;> simp

lemma recv_buffer {chunk : Chunk} (h : script.recv w.clock = .data chunk) :
    (recv script w socket).2.buffer = fun i => chunk.bytes.getD i (w.buffer i) := by
  simp [recv, h, World.record]

lemma send_trace (length : ℕ) : (send script w socket length).2.trace =
    w.trace ++ [.sent socket w.buffer length ((script.send w.clock).taken w.buffer length)] := by
  unfold send
  cases h : script.send w.clock <;> simp [Sent.taken]

lemma bytesAt_getD {bytes : List UInt8} {memory : ℕ → UInt8} {length : ℕ}
    (h : length ≤ bytes.length) :
    bytesAt (fun i => bytes.getD i (memory i)) length = bytes.take length := by
  refine List.ext_getElem (by simpa [bytesAt] using h) fun i hi _ => ?_
  have hlt : i < bytes.length := by
    simp only [bytesAt, List.length_map, List.length_range] at hi
    omega
  simp [bytesAt, hlt]

lemma toSize_chunk (chunk : Chunk) : toSize chunk.bytes.length = chunk.bytes.length := by
  refine toSize_natCast ?_
  have := chunk.fits
  unfold kBufferSize at this
  omega

lemma echo_data {chunk : Chunk} (h : script.recv w.clock = .data chunk) : echo script w socket =
    (true, (send script (recv script w socket).2 socket chunk.bytes.length).2) := by
  have hpos : ¬ chunk.bytes.length ≤ 0 := by simpa using chunk.nonempty
  have hsize : (recv script w socket).1 = chunk.bytes.length := by simp [recv, h]
  simp only [echo, hsize, toSize_chunk, hpos, ↓reduceIte]

lemma echo_closed (h : script.recv w.clock = .closed) : echo script w socket =
    (decide (w.errno = .eagain), (recv script w socket).2) := by
  have hsize : (recv script w socket).1 = 0 := by simp [recv, h]
  have herrno : (recv script w socket).2.errno = w.errno := by simp [recv, h, World.record]
  have hzero : toSize 0 ≤ 0 := by decide
  simp only [echo, hsize, hzero, ↓reduceIte, herrno]

/-- `recv` failed: its result is taken for a very large size. -/
lemma echo_failed {e : Errno} (h : script.recv w.clock = .failed e) : echo script w socket =
    (true, (send script (recv script w socket).2 socket (2^64 - 1)).2) := by
  have hsize : (recv script w socket).1 = -1 := by simp [recv, h]
  have hlarge : toSize (-1) = 2^64 - 1 := by decide
  simp only [echo, hsize, hlarge]
  norm_num

end Specifications

end UnixProgramming.EchoServer
