import UnixProgramming.EchoServerModel
import UnixProgramming.StepRuns

/-! The chat server. An occurrence is an event that `epoll_wait` reports, together with the
outcomes of the calls made while it is handled. Messages are C strings in an array of
`messageSize` bytes; a write outside of an array leaves the run undefined. -/
namespace UnixProgramming.Chat
open EchoServer

def messageSize : ℕ := 1024
def bufferSize : ℕ := 1024

/-- The text of an IPv4 address. -/
structure Address where
  text : List UInt8
  nonzero : 0 ∉ text
  fits : text.length ≤ 15

def ascii (text : List Char) : List UInt8 := text.map fun c => c.toNat.toUInt8

def connected : List UInt8 := ascii [' ', 'c', 'o', 'n', 'n', 'e', 'c', 't', 'e', 'd', '!']
def disconnected : List UInt8 :=
  ascii [' ', 'd', 'i', 's', 'c', 'o', 'n', 'n', 'e', 'c', 't', 'e', 'd', '!']
def colon : List UInt8 := ascii [':', ' ']

/-- `peer` is the address at the other end of `fd`, and `memory` what `inet_ntoa` makes of
`addr` before anything is written there. -/
structure Occurrence where
  fd : ℕ
  peer : Address
  memory : Address
  getpeername : Option Errno
  accept : Except Errno ℕ
  fcntl : Option Errno × Option Errno
  epollCtl : Option Errno
  recv : Received
  shutdown : Option Errno
  close : Option Errno
  send : ℕ → Sent

/-- The address in `clientip`; the result of `getpeername` is not looked at. -/
def Occurrence.address (o : Occurrence) : Address :=
  match o.getpeername with
  | none => o.peer
  | some _ => o.memory

inductive Outcome
  | accept (result : Except Errno ℕ)
  | recv (result : Received)

/-- A call of `send`, with the bytes of the message that were taken. -/
structure Delivery where
  socket : ℤ
  message : List UInt8
  taken : List UInt8

/-- What was done with an occurrence; `closed` says that `close` was called on `fd`, and
`broadcasts` are the arguments of the calls of `SendToAll`. -/
structure Handling where
  fd : ℕ
  peer : Address
  address : Address
  outcome : Outcome
  closed : Bool
  broadcasts : List (List UInt8)
  sends : List Delivery

abbrev Sockets := OrderedSet ℤ (id : ℤ → ℤ)

structure World where
  errno : Errno
  slaveSockets : Sockets
  history : List Handling

def World.start (errno : Errno) : World := ⟨errno, .empty, []⟩

def World.fail (w : World) : Option Errno → World
  | none => w
  | some e => { w with errno := e }

/-- `strcat`, which writes the terminator as well. -/
def strcat (message suffix : List UInt8) : Option (List UInt8) :=
  if message.length + suffix.length < messageSize then some (message ++ suffix) else none

def cString (memory : List UInt8) : List UInt8 := memory.takeWhile (· ≠ 0)

def taken (message : List UInt8) : Sent → List UInt8
  | .accepted count => message.take count
  | .failed _ => []

def afterSend (errno : Errno) : Sent → Errno
  | .accepted _ => errno
  | .failed e => e

def sendEach (send : ℕ → Sent) (message : List UInt8) : ℕ → List ℤ → Errno → List Delivery × Errno
  | _, [], errno => ([], errno)
  | i, socket :: sockets, errno =>
    let (sends, last) := sendEach send message (i + 1) sockets (afterSend errno (send i))
    (⟨socket, message, taken message (send i)⟩ :: sends, last)

def World.sends (w : World) (o : Occurrence) (message : List UInt8) : List Delivery × Errno :=
  sendEach o.send message 0 w.slaveSockets.elems w.errno

def World.handling (w : World) (o : Occurrence) (outcome : Outcome) (closed : Bool)
    (message : List UInt8) : Handling :=
  ⟨o.fd, o.peer, o.address, outcome, closed, [message], (w.sends o message).1⟩

/-- `SendToAll`, after which the occurrence has been handled. -/
def World.sendToAll (w : World) (o : Occurrence) (outcome : Outcome) (closed : Bool)
    (message : List UInt8) : World :=
  { w with
    errno := (w.sends o message).2
    history := w.history ++ [w.handling o outcome closed message] }

def acceptErrno : Except Errno ℕ → Option Errno
  | .ok _ => none
  | .error e => some e

def acceptResult : Except Errno ℕ → ℤ
  | .ok socket => socket
  | .error _ => -1

/-- The result of `accept` is inserted whatever it is. -/
def acceptSlave (w : World) (o : Occurrence) : World :=
  let w := ((w.fail (acceptErrno o.accept)).fail o.fcntl.1).fail o.fcntl.2
  let w := { w with slaveSockets := w.slaveSockets.insert (acceptResult o.accept) }
  w.fail o.epollCtl

def closeSlave (w : World) (o : Occurrence) : World :=
  let w := (w.fail o.shutdown).fail o.close
  { w with slaveSockets := w.slaveSockets.erase o.fd }

def handle (masterSocket : ℕ) (w : World) (o : Occurrence) : Option World :=
  let w := w.fail o.getpeername
  let message := o.address.text
  if o.fd = masterSocket then do
    let message ← strcat message connected
    return (acceptSlave w o).sendToAll o (.accept o.accept) false message
  else
    match o.recv with
    | .closed =>
      if w.errno ≠ .eagain then do
        let message ← strcat message disconnected
        return (closeSlave w o).sendToAll o (.recv .closed) true message
      else return w.sendToAll o (.recv .closed) false message
    | .data chunk =>
      -- `buffer[recv_size] = 0`
      if chunk.bytes.length < bufferSize then do
        let message ← strcat message colon
        let message ← strcat message (cString chunk.bytes)
        return w.sendToAll o (.recv (.data chunk)) false message
      else none
    | .failed e => return (w.fail (some e)).sendToAll o (.recv (.failed e)) false message

inductive Wait
  | ready (events : List Occurrence)
  | failed (errno : Errno)

/-- After a failed `epoll_wait` the loop runs over events that were never written. -/
def round (masterSocket : ℕ) (w : World) : Wait → Option World
  | .ready events => events.foldlM (handle masterSocket) w
  | .failed _ => none

def run (masterSocket : ℕ) (errno : Errno) (waits : List Wait) : Option World :=
  waits.foldlM (round masterSocket) (.start errno)

def Wait.succeeds : Wait → Bool
  | ready _ => true
  | failed _ => false

/-- The occurrences up to the first failed `epoll_wait`. -/
def occurrences : List Wait → List Occurrence
  | [] => []
  | .ready events :: waits => events ++ occurrences waits
  | .failed _ :: _ => []

/-- The state after some occurrences of a run, which may be undefined from there on. -/
def Reaches (masterSocket : ℕ) (errno : Errno) (waits : List Wait) (os : List Occurrence)
    (w : World) : Prop :=
  os <+: occurrences waits ∧ os.foldlM (handle masterSocket) (.start errno) = some w

section Lemmas

@[simp] lemma fail_slaveSockets (w : World) (e : Option Errno) :
    (w.fail e).slaveSockets = w.slaveSockets := by cases e <;> rfl

@[simp] lemma fail_history (w : World) (e : Option Errno) : (w.fail e).history = w.history := by
  cases e <;> rfl

@[simp] lemma acceptSlave_history (w : World) (o : Occurrence) :
    (acceptSlave w o).history = w.history := by simp [acceptSlave]

@[simp] lemma acceptSlave_slaveSockets (w : World) (o : Occurrence) :
    (acceptSlave w o).slaveSockets = w.slaveSockets.insert (acceptResult o.accept) := by
  simp [acceptSlave]

@[simp] lemma closeSlave_history (w : World) (o : Occurrence) :
    (closeSlave w o).history = w.history := by simp [closeSlave]

@[simp] lemma closeSlave_slaveSockets (w : World) (o : Occurrence) :
    (closeSlave w o).slaveSockets = w.slaveSockets.erase (o.fd : ℤ) := by simp [closeSlave]

@[simp] lemma sendToAll_slaveSockets (w : World) (o : Occurrence) (outcome : Outcome)
    (closed : Bool) (message : List UInt8) :
    (w.sendToAll o outcome closed message).slaveSockets = w.slaveSockets := rfl

lemma strcat_eq_some {message suffix result : List UInt8}
    (h : strcat message suffix = some result) :
    result = message ++ suffix ∧ message.length + suffix.length < messageSize := by
  unfold strcat at h
  split_ifs at h with hfits
  exact ⟨(Option.some.inj h).symm, hfits⟩

end Lemmas

/-- The ways to handle an occurrence. -/
inductive Handled (masterSocket : ℕ) (w : World) (o : Occurrence) : World → Prop
  | accept (hfd : o.fd = masterSocket) : Handled masterSocket w o
      ((acceptSlave (w.fail o.getpeername) o).sendToAll o (.accept o.accept) false
        (o.address.text ++ connected))
  | left (hfd : o.fd ≠ masterSocket) (hrecv : o.recv = .closed)
      (herrno : (w.fail o.getpeername).errno ≠ .eagain) : Handled masterSocket w o
      ((closeSlave (w.fail o.getpeername) o).sendToAll o (.recv .closed) true
        (o.address.text ++ disconnected))
  | stayed (hfd : o.fd ≠ masterSocket) (hrecv : o.recv = .closed)
      (herrno : (w.fail o.getpeername).errno = .eagain) : Handled masterSocket w o
      ((w.fail o.getpeername).sendToAll o (.recv .closed) false o.address.text)
  | said (hfd : o.fd ≠ masterSocket) {chunk : Chunk} (hrecv : o.recv = .data chunk)
      (hfits : o.address.text.length + colon.length + (cString chunk.bytes).length < messageSize) :
      Handled masterSocket w o ((w.fail o.getpeername).sendToAll o (.recv (.data chunk)) false
        (o.address.text ++ colon ++ cString chunk.bytes))
  | failed (hfd : o.fd ≠ masterSocket) {e : Errno} (hrecv : o.recv = .failed e) :
      Handled masterSocket w o (((w.fail o.getpeername).fail (some e)).sendToAll o
        (.recv (.failed e)) false o.address.text)

lemma handled_of_handle {masterSocket : ℕ} {w w' : World} {o : Occurrence}
    (h : handle masterSocket w o = some w') : Handled masterSocket w o w' := by
  unfold handle at h
  dsimp only at h
  by_cases hfd : o.fd = masterSocket
  · rw [if_pos hfd] at h
    obtain ⟨message, hmessage, hw⟩ := Option.bind_eq_some_iff.mp h
    obtain rfl := Option.some.inj hw
    rw [(strcat_eq_some hmessage).1]
    exact .accept hfd
  · rw [if_neg hfd] at h
    cases hrecv : o.recv with
    | closed =>
      rw [hrecv] at h
      dsimp only at h
      split_ifs at h with herrno
      · obtain ⟨message, hmessage, hw⟩ := Option.bind_eq_some_iff.mp h
        obtain rfl := Option.some.inj hw
        rw [(strcat_eq_some hmessage).1]
        exact .left hfd hrecv herrno
      · obtain rfl := Option.some.inj h
        exact .stayed hfd hrecv (not_not.mp herrno)
    | data chunk =>
      rw [hrecv] at h
      dsimp only at h
      split_ifs at h with hbuffer
      obtain ⟨start, hstart, h⟩ := Option.bind_eq_some_iff.mp h
      obtain ⟨message, hmessage, hw⟩ := Option.bind_eq_some_iff.mp h
      obtain rfl := Option.some.inj hw
      obtain ⟨rfl, -⟩ := strcat_eq_some hstart
      obtain ⟨rfl, hfits⟩ := strcat_eq_some hmessage
      rw [List.length_append] at hfits
      exact .said hfd hrecv hfits
    | failed e =>
      rw [hrecv] at h
      obtain rfl := Option.some.inj h
      exact .failed hfd hrecv

/-- An invariant of the handling of occurrences holds in every state that is reached. -/
lemma invariant_of_handled {masterSocket : ℕ} {P : World → Prop}
    (hstep : ∀ w o w', P w → Handled masterSocket w o w' → P w') {w w' : World}
    {os : List Occurrence} (hw : P w) (h : os.foldlM (handle masterSocket) w = some w') : P w' :=
  StepRuns.invariant_of_run (fun _ _ _ hv hhandle => hstep _ _ _ hv (handled_of_handle hhandle))
    hw h

/-- A run is defined when no `epoll_wait` fails and its occurrences can be handled. -/
lemma run_eq_some_iff {masterSocket : ℕ} {w w' : World} {waits : List Wait} :
    waits.foldlM (round masterSocket) w = some w' ↔
      (∀ wait ∈ waits, wait.succeeds = true) ∧
        (occurrences waits).foldlM (handle masterSocket) w = some w' := by
  induction waits generalizing w with
  | nil => simp [occurrences]
  | cons wait waits ih =>
    rw [List.foldlM_cons, List.forall_mem_cons]
    cases wait with
    | failed e => simp [round, Wait.succeeds]
    | ready events =>
      have hfirst : Wait.succeeds (.ready events) = true := rfl
      rw [occurrences, List.foldlM_append, and_iff_right hfirst]
      simp only [round, Option.bind_eq_bind, Option.bind_eq_some_iff, ih]
      tauto

/-- What an occurrence does to the slave sockets. -/
def slaveStep (sockets : Sockets) (h : Handling) : Sockets :=
  match h.outcome with
  | .accept result => sockets.insert (acceptResult result)
  | .recv _ => if h.closed then sockets.erase (h.fd : ℤ) else sockets

/-- The text that the outcome of an occurrence calls for. -/
def Handling.announcement (h : Handling) : List UInt8 :=
  match h.outcome with
  | .accept _ => h.address.text ++ connected
  | .recv .closed => if h.closed then h.address.text ++ disconnected else h.address.text
  | .recv (.data chunk) => h.address.text ++ colon ++ cString chunk.bytes
  | .recv (.failed _) => h.address.text

/-- The handling is that of the occurrence, with one message for it. -/
structure Records (masterSocket : ℕ) (o : Occurrence) (h : Handling) : Prop where
  fd : h.fd = o.fd
  address : h.address = o.address
  outcome : h.outcome = if o.fd = masterSocket then .accept o.accept else .recv o.recv
  broadcasts : h.broadcasts = [h.announcement]

/-- The occurrence was recorded, and its message was sent to all slave sockets. -/
def SendsToAll (masterSocket : ℕ) (w : World) (o : Occurrence) (w' : World) : Prop :=
  ∃ h errno, Records masterSocket o h ∧ w'.history = w.history ++ [h] ∧
    w'.slaveSockets = slaveStep w.slaveSockets h ∧
    h.sends = (sendEach o.send h.announcement 0 w'.slaveSockets.elems errno).1

lemma sendsToAll_of_eq {masterSocket : ℕ} {v w : World} {o : Occurrence} {outcome : Outcome}
    {closed : Bool} {message : List UInt8} (hhistory : v.history = w.history)
    (houtcome : outcome = if o.fd = masterSocket then .accept o.accept else .recv o.recv)
    (hmessage : (v.handling o outcome closed message).announcement = message)
    (hslaves : v.slaveSockets = slaveStep w.slaveSockets (v.handling o outcome closed message)) :
    SendsToAll masterSocket w o (v.sendToAll o outcome closed message) := by
  refine ⟨v.handling o outcome closed message, v.errno, ⟨rfl, rfl, houtcome, ?_⟩,
    congrArg (· ++ _) hhistory, hslaves, ?_⟩
  · rw [hmessage]
    rfl
  · rw [hmessage]
    rfl

lemma Handled.sendsToAll {masterSocket : ℕ} {w w' : World} {o : Occurrence}
    (h : Handled masterSocket w o w') : SendsToAll masterSocket w o w' := by
  cases h with
  | accept hfd =>
    refine sendsToAll_of_eq (by simp) (by simp [hfd]) rfl ?_
    simp [slaveStep, World.handling]
  | left hfd hrecv herrno =>
    refine sendsToAll_of_eq (by simp) (by simp [hfd, hrecv]) rfl ?_
    simp [slaveStep, World.handling]
  | stayed hfd hrecv herrno =>
    refine sendsToAll_of_eq (by simp) (by simp [hfd, hrecv]) rfl ?_
    simp [slaveStep, World.handling]
  | said hfd hrecv hfits =>
    refine sendsToAll_of_eq (by simp) (by simp [hfd, hrecv]) rfl ?_
    simp [slaveStep, World.handling]
  | failed hfd hrecv =>
    refine sendsToAll_of_eq (by simp) (by simp [hfd, hrecv]) rfl ?_
    simp [slaveStep, World.handling]

/-- There is one handling for each occurrence, in their order. -/
lemma records_of_foldlM {masterSocket : ℕ} {w w' : World} {os : List Occurrence}
    (h : os.foldlM (handle masterSocket) w = some w') :
    ∃ hs, w'.history = w.history ++ hs ∧ List.Forall₂ (Records masterSocket) os hs := by
  induction os generalizing w with
  | nil =>
    obtain rfl : w = w' := by simpa using h
    exact ⟨[], by simp, .nil⟩
  | cons o os ih =>
    rw [List.foldlM_cons] at h
    obtain ⟨v, hv, hrest⟩ := Option.bind_eq_some_iff.mp h
    obtain ⟨first, -, hfirst, hhistory, -⟩ := (handled_of_handle hv).sendsToAll
    obtain ⟨hs, hall, hrecords⟩ := ih hrest
    exact ⟨first :: hs, by rw [hall, hhistory, List.append_assoc, List.singleton_append],
      .cons hfirst hrecords⟩

end UnixProgramming.Chat
