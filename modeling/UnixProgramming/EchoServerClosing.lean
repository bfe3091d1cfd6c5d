import UnixProgramming.EchoServerLoops

/-! The event loops close a descriptor when `echo` returns `false` for it. -/
namespace UnixProgramming.EchoServer

/-- After every `echo` that returns `false` the next call closes the descriptor. -/
def ClosesRefused (script : Script) : List (World × Op) → Prop
  | [] => True
  | x :: xs => (∀ socket, x.2 = .echo socket → (echo script x.1 socket).1 = false →
      ∃ w, xs.head? = some (w, .close socket)) ∧ ClosesRefused script xs

/-- The same for a program and every answer it may get. -/
def Closing {α : Type} : Server α → Prop
  | .done _ => True
  | .perform (.echo socket) next =>
    (∀ answer, Closing (next answer)) ∧ ∃ rest, next (false : Bool) = .perform (.close socket) rest
  | .perform _ next => ∀ answer, Closing (next answer)

variable {α β : Type}

lemma Closing.bind {p : Server α} {f : α → Server β} (hp : Closing p) (hf : ∀ a, Closing (f a)) :
    Closing (p >>= f) := by
  change Closing (p.bind f)
  induction p with
  | done a => exact hf a
  | perform o next ih =>
    cases o with
    | echo socket =>
      obtain ⟨hnext, rest, hrest⟩ := hp
      exact ⟨fun r => ih r (hnext r), fun r => (rest r).bind f, congrArg (Program.bind · f) hrest⟩
    | wait => exact fun r => ih r (hp r)
    | close socket => exact fun r => ih r (hp r)
    | accept => exact fun r => ih r (hp r)
    | fcntl socket => exact fun r => ih r (hp r)
    | add sockets => exact fun r => ih r (hp r)

lemma closing_echo {socket : ℕ} {f : Bool → Server α} (hf : ∀ b, Closing (f b))
    (hclose : ∃ rest, f false = .perform (.close socket) rest) : Closing (callEcho socket >>= f) :=
  ⟨hf, hclose⟩

lemma closing_setNonblock (socket : ℕ) : Closing (setNonblock socket) := fun _ _ => trivial

lemma closing_loop {ε : Type} {body : α → Server (Except ε α)} (h : ∀ a, Closing (body a)) (n : ℕ)
    (a : α) : Closing (Program.loop body n a) := by
  induction n generalizing a with
  | zero => trivial
  | succ n ih =>
    refine (h a).bind fun r => ?_
    cases r with
    | ok a => exact ih a
    | error e => trivial

lemma closing_echoSockets (notices : List Notice) (sockets : List ℕ) :
    Closing (echoSockets notices sockets) := by
  induction sockets with
  | nil => trivial
  | cons socket sockets ih =>
    unfold echoSockets
    split_ifs
    · refine closing_echo (fun b => ?_) ⟨_, rfl⟩
      cases b with
      | true => exact ih
      | false => exact fun _ => ih.bind fun _ => trivial
    · exact ih

lemma closing_echoEntries (entries : List PollFd) : Closing (echoEntries entries) := by
  induction entries with
  | nil => trivial
  | cons entry entries ih =>
    unfold echoEntries
    split_ifs
    · refine closing_echo (fun b => ?_) ⟨_, rfl⟩
      cases b with
      | true => exact ih
      | false => exact fun _ => ih.bind fun _ => trivial
    · exact ih

lemma closing_acceptNewConnection (openSockets : Sockets) :
    Closing (acceptNewConnection openSockets) := by
  intro answer
  cases answer with
  | some newSocket => exact (closing_setNonblock newSocket).bind fun _ => trivial
  | none => trivial

lemma closing_echoOrClose (socket : ℕ) : Closing (echoOrClose socket) := by
  refine closing_echo (fun b => ?_) ⟨_, rfl⟩
  cases b with
  | true => trivial
  | false => exact fun _ => trivial

lemma closing_selectRound (serverSocket : ℕ) (openSockets : Sockets) :
    Closing (selectRound serverSocket openSockets) := by
  unfold selectRound
  split_ifs
  · trivial
  · intro answer
    cases answer with
    | ready notices =>
      refine (closing_echoSockets notices _).bind fun closedSockets => ?_
      dsimp only
      split_ifs
      · exact closing_acceptNewConnection _
      · trivial
    | failed e => trivial

lemma closing_pollRound (serverSocket : ℕ) (openSockets : Sockets) :
    Closing (pollRound serverSocket openSockets) := by
  unfold pollRound
  dsimp only
  split_ifs
  · trivial
  · intro answer
    cases answer with
    | ready notices =>
      refine (closing_echoEntries _).bind fun closedSockets => ?_
      split_ifs
      · exact closing_acceptNewConnection _
      · trivial
    | failed e => trivial

lemma closing_addNewConnection (socket : ℕ) : Closing (addNewConnection socket) :=
  (closing_setNonblock socket).bind fun _ _ => trivial

lemma closing_epollAcceptNewConnection : Closing epollAcceptNewConnection := by
  intro answer
  cases answer with
  | some newSocket => exact (closing_addNewConnection newSocket).bind fun _ => trivial
  | none => trivial

lemma closing_epollEvents (serverSocket : ℕ) (events : List Notice) :
    Closing (epollEvents serverSocket events) := by
  induction events with
  | nil => trivial
  | cons event events ih =>
    unfold epollEvents closeHungUp
    have hclose : Closing (if event.hangup then callClose event.socket else return ()) := by
      split_ifs
      · exact fun _ => trivial
      · trivial
    refine hclose.bind fun _ => ?_
    split_ifs
    · trivial
    · exact closing_epollAcceptNewConnection.bind fun _ => ih
    · exact (closing_echoOrClose event.socket).bind fun _ => ih

lemma closing_epollRound (serverSocket : ℕ) : Closing (epollRound serverSocket) := by
  intro answer
  cases answer with
  | ready notices => exact closing_epollEvents serverSocket notices
  | failed e => trivial

lemma closing_kqueueAcceptNewConnection (newSockets : List ℕ) :
    Closing (kqueueAcceptNewConnection newSockets) := by
  intro answer
  cases answer with
  | some newSocket => exact (closing_setNonblock newSocket).bind fun _ => trivial
  | none => trivial

lemma closing_kqueueEvents (serverSocket : ℕ) (newSockets : List ℕ) (events : List Notice) :
    Closing (kqueueEvents serverSocket newSockets events) := by
  induction events generalizing newSockets with
  | nil => trivial
  | cons event events ih =>
    unfold kqueueEvents
    split_ifs
    · exact (closing_kqueueAcceptNewConnection newSockets).bind fun _ => ih _
    · exact (closing_echoOrClose event.socket).bind fun _ => ih newSockets
    · exact ih newSockets

lemma closing_kqueueRound (serverSocket : ℕ) : Closing (kqueueRound serverSocket) := by
  intro answer
  cases answer with
  | ready notices =>
    refine (closing_kqueueEvents serverSocket [] notices).bind fun newSockets => ?_
    split_ifs
    · exact fun _ => trivial
    · trivial
  | failed e => trivial

lemma closing_kqueueSingleAcceptNewConnection : Closing kqueueSingleAcceptNewConnection := by
  intro answer
  cases answer with
  | some newSocket => exact closing_addNewConnection newSocket
  | none => trivial

lemma closing_kqueueSingleRound (serverSocket : ℕ) : Closing (kqueueSingleRound serverSocket) := by
  intro answer
  cases answer with
  | failed e => trivial
  | ready notices =>
    cases notices with
    | nil => trivial
    | cons event events =>
      change Closing (if event.readable then _ else _)
      split_ifs
      · exact closing_kqueueSingleAcceptNewConnection.bind fun _ => trivial
      · exact (closing_echoOrClose event.socket).bind fun _ => trivial
      · trivial

lemma closing_serve (kind : Kind) (serverSocket rounds : ℕ) :
    Closing (serve kind serverSocket rounds) := by
  cases kind with
  | select => exact (closing_loop (closing_selectRound serverSocket) _ _).bind fun _ => trivial
  | poll => exact (closing_loop (closing_pollRound serverSocket) _ _).bind fun _ => trivial
  | epoll =>
    exact (closing_loop (fun _ => closing_epollRound serverSocket) _ _).bind fun _ => trivial
  | kqueue =>
    exact (closing_loop (fun _ => closing_kqueueRound serverSocket) _ _).bind fun _ => trivial
  | kqueueSingle =>
    exact (closing_loop (fun _ => closing_kqueueSingleRound serverSocket) _ _).bind fun _ => trivial

lemma Closing.closesRefused {p : Server α} (h : Closing p) (script : Script) (w : World) :
    ClosesRefused script (p.calls (exec script) w) := by
  induction p generalizing w with
  | done a => trivial
  | perform o next ih =>
    have hnext : ∀ r, Closing (next r) := by
      cases o with
      | echo socket => exact h.1
      | wait => exact h
      | close socket => exact h
      | accept => exact h
      | fcntl socket => exact h
      | add sockets => exact h
    refine ⟨fun socket ho hfalse => ?_, ih _ (hnext _) _⟩
    obtain rfl : o = .echo socket := ho
    obtain ⟨rest, hrest⟩ := h.2
    have hanswer : (exec script w (.echo socket)).1 = false := hfalse
    rw [hanswer, hrest]
    exact ⟨_, rfl⟩

end UnixProgramming.EchoServer
