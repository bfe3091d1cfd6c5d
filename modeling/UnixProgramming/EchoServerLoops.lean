import UnixProgramming.EchoServerModel

/-! The event loops of the echo servers, one round at a time. -/
namespace UnixProgramming.EchoServer

abbrev Server := Program Op.Answer

abbrev Sockets := OrderedSet ℕ (id : ℕ → ℕ)

def callWait : Server Waited := Program.op Op.wait
def callEcho (socket : ℕ) : Server Bool := Program.op (Op.echo socket)
def callClose (socket : ℕ) : Server Unit := Program.op (Op.close socket)
def callAccept : Server (Option ℕ) := Program.op Op.accept
def callAdd (sockets : List ℕ) : Server Bool := Program.op (Op.add sockets)

/-- Two calls of `fcntl`, whose results are not used. -/
def setNonblock (socket : ℕ) : Server Unit := do
  Program.op (Op.fcntl socket)
  Program.op (Op.fcntl socket)

/-- Why a server stops: `break`, `return EXIT_ERROR`, or a write outside of an array. -/
inductive Stop
  | leftLoop
  | exitError
  | undefined
  deriving DecidableEq, Repr

def isReadable (notices : List Notice) (socket : ℕ) : Bool :=
  notices.any fun notice => notice.socket = socket && notice.readable

/-- The loop of the select server over its open sockets; the sockets that were closed are
returned. -/
def echoSockets (notices : List Notice) : List ℕ → Server (List ℕ)
  | [] => pure []
  | socket :: sockets => do
    if isReadable notices socket then
      if ← callEcho socket then echoSockets notices sockets
      else
        callClose socket
        let closedSockets ← echoSockets notices sockets
        return socket :: closedSockets
    else echoSockets notices sockets

def eraseAll (openSockets : Sockets) (closedSockets : List ℕ) : Sockets :=
  closedSockets.foldl (fun sockets socket => OrderedSet.erase socket sockets) openSockets

def acceptNewConnection (openSockets : Sockets) : Server (Except Stop Sockets) := do
  match ← callAccept with
  | some newSocket =>
    setNonblock newSocket
    return .ok (openSockets.insert newSocket)
  | none => return .error .leftLoop

def selectRound (serverSocket : ℕ) (openSockets : Sockets) : Server (Except Stop Sockets) := do
  -- `FD_SET` writes outside of the set from `FD_SETSIZE` on
  if ∃ socket ∈ serverSocket :: openSockets.elems, fdSetSize ≤ socket then return .error .undefined
  match ← callWait with
  | .ready notices =>
    let closedSockets ← echoSockets notices openSockets.elems
    let openSockets := eraseAll openSockets closedSockets
    if isReadable notices serverSocket then acceptNewConnection openSockets
    else return .ok openSockets
  | .failed e => return if e = .eagain then .ok openSockets else .error .leftLoop

/-- An entry of the array `set`; `revents` holds `POLLIN` only. -/
structure PollFd where
  fd : ℕ
  revents : Bool

def PollFd.fill (notices : List Notice) (entry : PollFd) : PollFd :=
  { entry with revents := isReadable notices entry.fd }

def echoEntries : List PollFd → Server (List ℕ)
  | [] => pure []
  | entry :: entries => do
    if entry.revents then
      let socket := entry.fd
      if ← callEcho socket then echoEntries entries
      else
        callClose socket
        let closedSockets ← echoEntries entries
        return socket :: closedSockets
    else echoEntries entries

def pollRound (serverSocket : ℕ) (openSockets : Sockets) : Server (Except Stop Sockets) := do
  let first : PollFd := ⟨serverSocket, false⟩
  let others := openSockets.elems.map fun socket => (⟨socket, false⟩ : PollFd)
  -- the array has `kPollSize` entries
  if kPollSize < 1 + others.length then return .error .undefined
  match ← callWait with
  | .ready notices =>
    let closedSockets ← echoEntries (others.map (PollFd.fill notices))
    let openSockets := eraseAll openSockets closedSockets
    if (first.fill notices).revents then acceptNewConnection openSockets
    else return .ok openSockets
  | .failed e => return if e = .eagain then .ok openSockets else .error .leftLoop

def addNewConnection (socket : ℕ) : Server Bool := do
  setNonblock socket
  callAdd [socket]

def echoOrClose (socket : ℕ) : Server Unit := do
  if ← callEcho socket then return () else callClose socket

/-- The failure to add a connection is not looked at. -/
def epollAcceptNewConnection : Server Unit := do
  match ← callAccept with
  | some newSocket =>
    let _ ← addNewConnection newSocket
    return ()
  | none => return ()

def closeHungUp (event : Notice) : Server Unit :=
  if event.hangup then callClose event.socket else return ()

def epollEvents (serverSocket : ℕ) : List Notice → Server (Except Stop Unit)
  | [] => return .ok ()
  | event :: events => do
    closeHungUp event
    if event.socket = serverSocket then
      if event.hangup then return .error .exitError
      else
        epollAcceptNewConnection
        epollEvents serverSocket events
    else
      echoOrClose event.socket
      epollEvents serverSocket events

def epollRound (serverSocket : ℕ) : Server (Except Stop Unit) := do
  match ← callWait with
  | .ready notices => epollEvents serverSocket notices
  | .failed _ => return .error .leftLoop

def kqueueAcceptNewConnection (newSockets : List ℕ) : Server (List ℕ) := do
  match ← callAccept with
  | some newSocket =>
    setNonblock newSocket
    return newSockets ++ [newSocket]
  | none => return newSockets

def addNewSockets (newSockets : List ℕ) : Server Bool := callAdd newSockets

def kqueueEvents (serverSocket : ℕ) : List ℕ → List Notice → Server (List ℕ)
  | newSockets, [] => return newSockets
  | newSockets, event :: events => do
    if event.readable then
      if event.socket = serverSocket then
        let newSockets ← kqueueAcceptNewConnection newSockets
        kqueueEvents serverSocket newSockets events
      else
        echoOrClose event.socket
        kqueueEvents serverSocket newSockets events
    else kqueueEvents serverSocket newSockets events

def kqueueRound (serverSocket : ℕ) : Server (Except Stop Unit) := do
  match ← callWait with
  | .ready notices =>
    let newSockets ← kqueueEvents serverSocket [] notices
    if newSockets ≠ [] then
      return if ← addNewSockets newSockets then .ok () else .error .leftLoop
    else return .ok ()
  | .failed _ => return .error .leftLoop

def kqueueSingleAcceptNewConnection : Server Bool := do
  match ← callAccept with
  | some newSocket => addNewConnection newSocket
  | none => return false

/-- The server with one event at a time; without an event the zeroed filter is not
`EVFILT_READ`. -/
def kqueueSingleRound (serverSocket : ℕ) : Server (Except Stop Unit) := do
  match ← callWait with
  | .ready (event :: _) =>
    if event.readable then
      if event.socket = serverSocket then
        return if ← kqueueSingleAcceptNewConnection then .ok () else .error .leftLoop
      else
        echoOrClose event.socket
        return .ok ()
    else return .ok ()
  | .ready [] => return .ok ()
  | .failed _ => return .error .leftLoop

inductive Kind
  | select
  | poll
  | epoll
  | kqueue
  | kqueueSingle

/-- A server for `rounds` rounds of its loop. -/
def serve (kind : Kind) (serverSocket rounds : ℕ) : Server Unit :=
  match kind with
  | .select => do let _ ← Program.loop (selectRound serverSocket) rounds .empty
  | .poll => do let _ ← Program.loop (pollRound serverSocket) rounds .empty
  | .epoll => do let _ ← Program.loop (fun _ => epollRound serverSocket) rounds ()
  | .kqueue => do let _ ← Program.loop (fun _ => kqueueRound serverSocket) rounds ()
  | .kqueueSingle => do let _ ← Program.loop (fun _ => kqueueSingleRound serverSocket) rounds ()

def calls (script : Script) (kind : Kind) (serverSocket rounds : ℕ) (w : World) :
    List (World × Op) :=
  (serve kind serverSocket rounds).calls (exec script) w

def finish (script : Script) (kind : Kind) (serverSocket rounds : ℕ) (w : World) : World :=
  ((serve kind serverSocket rounds).run (exec script) w).2

end UnixProgramming.EchoServer
