import UnixProgramming.DescriptorTable
import UnixProgramming.EchoServerModel
import UnixProgramming.ListUpdates
import UnixProgramming.StepRuns

/-! The connections between `server.c` and its clients: the descriptors of the server and
of the children that it forks, the bytes under way, and what each client receives. A client is
followed from its `recv` on, and a connection from its `accept` on: those which wait in the backlog
are left out. -/
namespace UnixProgramming.TcpConnections
open ListUpdates
open EchoServer (Errno)

/-- What a descriptor refers to; `other` is what was open before the server started. -/
inductive Open
  | other
  | listening
  | connection (c : ℕ)
  deriving DecidableEq, Repr

abbrev Table := DescriptorTable Open

/-- `"Hello world!"` with its terminating zero. -/
def serverMessage : List UInt8 := [72, 101, 108, 108, 111, 32, 119, 111, 114, 108, 100, 33, 0]

def maxDataSize : ℕ := 200

/-- The next statement of the loop; the descriptor is that of `copy_socket`. -/
inductive Main
  | accept
  | fork (copySocket : ℕ)
  | close (copySocket : ℕ)
  deriving DecidableEq, Repr

/-- The next statement of a child. -/
inductive Statement
  | closeListening
  | send
  | close
  | exit
  | exited
  deriving DecidableEq, Repr

/-- `serves` is the connection that the child was forked for. -/
structure Child where
  statement : Statement
  table : Table
  copySocket : ℕ
  serves : ℕ

/-- The bytes that were sent and not received yet, how many were sent if `send` was called,
and the outcome of the only `recv` of the client. -/
structure Connection where
  stream : List UInt8
  sent : Option ℕ
  received : Option (Except Errno (List UInt8))

structure State where
  table : Table
  main : Main
  children : List Child
  connections : List Connection

/-- Before the loop; `socketFd` is the lowest free descriptor. -/
def start (socketFd : ℕ) : State :=
  ⟨List.replicate socketFd (some .other) ++ [some .listening], .accept, [], []⟩

/-- A `send` that succeeds takes some bytes of the message; a child may be killed by a signal
at any time. -/
inductive Event
  | accept (succeeds : Bool)
  | fork (succeeds : Bool)
  | close
  | child (i : ℕ) (sent : Option ℕ)
  | kill (i : ℕ)
  | recv (c count : ℕ)
  | recvFailed (c : ℕ) (errno : Errno)

/-- Some process of the server has the connection open. -/
def State.Held (s : State) (c : ℕ) : Prop :=
  s.table.Holds (.connection c) ∨ ∃ child ∈ s.children, child.table.Holds (.connection c)

instance (s : State) (c : ℕ) : Decidable (s.Held c) := inferInstanceAs (Decidable (_ ∨ _))

def State.setChild (s : State) (i : ℕ) (child : Child) : State :=
  { s with children := s.children.set i child }

def Connection.send (connection : Connection) (sent : Option ℕ) : Connection :=
  let count := min (sent.getD 0) serverMessage.length
  { connection with
    stream := connection.stream ++ serverMessage.take count
    sent := some count }

def State.modify (s : State) (c : ℕ) (f : Connection → Connection) : State :=
  { s with connections := s.connections.modify c f }

def childStep (socketFd : ℕ) (s : State) (i : ℕ) (child : Child) (sent : Option ℕ) :
    Option State :=
  match child.statement with
  | .closeListening =>
    some (s.setChild i { child with table := child.table.close socketFd, statement := .send })
  | .send =>
    let s' := s.setChild i { child with statement := .close }
    match child.table.lookup child.copySocket with
    | some (.connection c) => some (s'.modify c fun connection => connection.send sent)
    | _ => some s'
  | .close =>
    some (s.setChild i { child with
      table := child.table.close child.copySocket
      statement := .exit })
  | .exit => some (s.setChild i { child with table := [], statement := .exited })
  | .exited => none

/-- `recv` waits for bytes, or until nobody can send any. -/
def recvStep (s : State) (c : ℕ) (connection : Connection) (count : ℕ) : Option State :=
  if connection.received.isSome then none
  else if connection.stream ≠ [] then
    let length := min (count + 1) maxDataSize
    some (s.modify c fun x =>
      { x with stream := x.stream.drop length, received := some (.ok (x.stream.take length)) })
  else if s.Held c then none
  else some (s.modify c fun x => { x with received := some (.ok []) })

def step (socketFd : ℕ) (s : State) : Event → Option State
  | .accept succeeds =>
    if s.main = .accept then
      if succeeds then
        let (copySocket, table) := s.table.allocate (.connection s.connections.length)
        some { s with
          table := table
          main := .fork copySocket
          connections := s.connections ++ [⟨[], none, none⟩] }
      else some s
    else none
  | .fork succeeds =>
    match s.main with
    | .fork copySocket =>
      let child : Child := ⟨.closeListening, s.table, copySocket, s.connections.length - 1⟩
      some { s with
        main := .close copySocket
        children := if succeeds then s.children ++ [child] else s.children }
    | _ => none
  | .close =>
    match s.main with
    | .close copySocket => some { s with table := s.table.close copySocket, main := .accept }
    | _ => none
  | .child i sent =>
    match s.children[i]? with
    | some child => childStep socketFd s i child sent
    | none => none
  | .kill i =>
    match s.children[i]? with
    | some child =>
      if child.statement = .exited then none
      else some (s.setChild i { child with table := [], statement := .exited })
    | none => none
  | .recv c count =>
    match s.connections[c]? with
    | some connection => recvStep s c connection count
    | none => none
  | .recvFailed c errno =>
    match s.connections[c]? with
    | some connection =>
      if connection.received.isSome then none
      else some (s.modify c fun x => { x with received := some (.error errno) })
    | none => none

/-- What the client prints between the quotes: its buffer up to the zero that it puts behind
the bytes, or to the first one in them. -/
def printed (received : List UInt8) : List UInt8 := (received ++ [0]).takeWhile fun b => b ≠ 0

/-- A step of a child that sends nothing. -/
inductive ChildNext (socketFd : ℕ) (child : Child) : Child → Prop
  | closedListening (h : child.statement = .closeListening) : ChildNext socketFd child
      { child with table := child.table.close socketFd, statement := .send }
  | unsent (h : child.statement = .send)
    (hlookup : ∀ c, child.table.lookup child.copySocket ≠ some (.connection c)) :
    ChildNext socketFd child { child with statement := .close }
  | closed (h : child.statement = .close) : ChildNext socketFd child
      { child with table := child.table.close child.copySocket, statement := .exit }
  | ended : ChildNext socketFd child { child with table := [], statement := .exited }

/-- The ways to take a step. -/
inductive Stepped (socketFd : ℕ) (s : State) : State → Prop
  | accepted (hmain : s.main = .accept) : Stepped socketFd s
      { s with
        table := (s.table.allocate (.connection s.connections.length)).2
        main := .fork s.table.lowestFree
        connections := s.connections ++ [⟨[], none, none⟩] }
  | acceptFailed : Stepped socketFd s s
  | forked {copySocket : ℕ} (hmain : s.main = .fork copySocket) : Stepped socketFd s
      { s with
        main := .close copySocket
        children := s.children ++
          [⟨.closeListening, s.table, copySocket, s.connections.length - 1⟩] }
  | forkFailed {copySocket : ℕ} (hmain : s.main = .fork copySocket) :
    Stepped socketFd s { s with main := .close copySocket }
  | closed {copySocket : ℕ} (hmain : s.main = .close copySocket) :
    Stepped socketFd s { s with table := s.table.close copySocket, main := .accept }
  | child {i : ℕ} {child child' : Child} (hchild : s.children[i]? = some child)
    (hnext : ChildNext socketFd child child') : Stepped socketFd s (s.setChild i child')
  | sent {i c : ℕ} {child : Child} {sent : Option ℕ} (hchild : s.children[i]? = some child)
    (hstatement : child.statement = .send)
    (hlookup : child.table.lookup child.copySocket = some (.connection c)) :
    Stepped socketFd s ((s.setChild i { child with statement := .close }).modify c
      fun connection => connection.send sent)
  | received {c count : ℕ} {connection : Connection}
    (hconnection : s.connections[c]? = some connection) (hnone : connection.received = none)
    (hstream : connection.stream ≠ []) : Stepped socketFd s (s.modify c fun x =>
      { x with
        stream := x.stream.drop (min (count + 1) maxDataSize)
        received := some (.ok (x.stream.take (min (count + 1) maxDataSize))) })
  | ended {c : ℕ} {connection : Connection} (hconnection : s.connections[c]? = some connection)
    (hnone : connection.received = none) (hstream : connection.stream = [])
    (hheld : ¬ s.Held c) :
    Stepped socketFd s (s.modify c fun x => { x with received := some (.ok []) })
  | recvFailed {c : ℕ} {errno : Errno} {connection : Connection}
    (hconnection : s.connections[c]? = some connection) (hnone : connection.received = none) :
    Stepped socketFd s (s.modify c fun x => { x with received := some (.error errno) })

section Steps

variable {socketFd : ℕ} {s s' : State} {event : Event}

lemma stepped_of_childStep {i : ℕ} {child : Child} {sent : Option ℕ}
    (hchild : s.children[i]? = some child) (h : childStep socketFd s i child sent = some s') :
    Stepped socketFd s s' := by
  unfold childStep at h
  cases hstatement : child.statement with
  | closeListening =>
    rw [hstatement] at h
    exact Option.some.inj h ▸ .child hchild (.closedListening hstatement)
  | send =>
    rw [hstatement] at h
    dsimp only at h
    split at h
    · next c hlookup => exact Option.some.inj h ▸ .sent hchild hstatement hlookup
    · next hlookup => exact Option.some.inj h ▸ .child hchild (.unsent hstatement hlookup)
  | close =>
    rw [hstatement] at h
    exact Option.some.inj h ▸ .child hchild (.closed hstatement)
  | exit =>
    rw [hstatement] at h
    exact Option.some.inj h ▸ .child hchild .ended
  | exited =>
    rw [hstatement] at h
    cases h

lemma stepped_of_step (h : step socketFd s event = some s') : Stepped socketFd s s' := by
  cases event with
  | accept succeeds =>
    simp only [step] at h
    split_ifs at h with hmain hsucceeds
    · exact Option.some.inj h ▸ .accepted hmain
    · exact Option.some.inj h ▸ .acceptFailed
  | fork succeeds =>
    simp only [step] at h
    split at h
    · next copySocket hmain =>
      cases succeeds with
      | true => exact Option.some.inj h ▸ .forked hmain
      | false => exact Option.some.inj h ▸ .forkFailed hmain
    · cases h
  | close =>
    simp only [step] at h
    split at h
    · next copySocket hmain => exact Option.some.inj h ▸ .closed hmain
    · cases h
  | child i sent =>
    simp only [step] at h
    split at h
    · next child hchild => exact stepped_of_childStep hchild h
    · cases h
  | kill i =>
    simp only [step] at h
    split at h
    · next child hchild =>
      split_ifs at h
      exact Option.some.inj h ▸ .child hchild .ended
    · cases h
  | recv c count =>
    simp only [step] at h
    split at h
    · next connection hconnection =>
      unfold recvStep at h
      split_ifs at h with hreceived hstream hheld
      · exact Option.some.inj h ▸ .received hconnection (by simpa using hreceived) hstream
      · exact Option.some.inj h ▸
          .ended hconnection (by simpa using hreceived) (by simpa using hstream) hheld
    · cases h
  | recvFailed c errno =>
    simp only [step] at h
    split at h
    · next connection hconnection =>
      split_ifs at h with hreceived
      exact Option.some.inj h ▸ .recvFailed hconnection (by simpa using hreceived)
    · cases h

end Steps

section Descriptors

/-- The descriptors of the server between two connections. -/
def atLoop (socketFd fd : ℕ) : Option Open :=
  if fd < socketFd then some .other else if fd = socketFd then some .listening else none

def serving (socketFd c fd : ℕ) : Option Open :=
  if fd = socketFd + 1 then some (.connection c) else atLoop socketFd fd

/-- The descriptors of the server. -/
def Main.Opened (socketFd : ℕ) (s : State) : Main → Prop
  | accept => ∀ fd, s.table.lookup fd = atLoop socketFd fd
  | fork copySocket => copySocket = socketFd + 1 ∧ 0 < s.connections.length ∧
    ∀ fd, s.table.lookup fd = serving socketFd (s.connections.length - 1) fd
  | close copySocket => copySocket = socketFd + 1 ∧ 0 < s.connections.length ∧
    ∀ fd, s.table.lookup fd = serving socketFd (s.connections.length - 1) fd

/-- The descriptors of a child. -/
def Statement.opened (socketFd c : ℕ) : Statement → ℕ → Option Open
  | closeListening, fd => serving socketFd c fd
  | send, fd => if fd = socketFd then none else serving socketFd c fd
  | close, fd => if fd = socketFd then none else serving socketFd c fd
  | exit, fd => if fd < socketFd then some .other else none
  | exited, _ => none

def Statement.holds : Statement → Bool
  | closeListening => true
  | send => true
  | close => true
  | _ => false

structure ChildOpened (socketFd : ℕ) (child : Child) : Prop where
  copySocket_eq : child.copySocket = socketFd + 1
  opened : ∀ fd, child.table.lookup fd = child.statement.opened socketFd child.serves fd

/-- Each process has the descriptors that its next statement expects, and each connection is
served by one child at most. -/
structure Opened (socketFd : ℕ) (s : State) : Prop where
  main : s.main.Opened socketFd s
  children : ∀ child ∈ s.children, ChildOpened socketFd child
  served : ∀ child ∈ s.children, child.serves < s.connections.length
  forking : ∀ copySocket, s.main = .fork copySocket →
    ∀ child ∈ s.children, child.serves ≠ s.connections.length - 1
  distinct : (s.children.map Child.serves).Nodup

variable {socketFd : ℕ} {s s' : State}

lemma serving_eq_connection {c d fd : ℕ} :
    serving socketFd c fd = some (.connection d) ↔ fd = socketFd + 1 ∧ c = d := by
  unfold serving atLoop
  split_ifs with heq <;> simp [heq]

lemma opened_eq_connection {statement : Statement} {c d fd : ℕ} :
    statement.opened socketFd c fd = some (.connection d) ↔
      fd = socketFd + 1 ∧ c = d ∧ statement.holds = true := by
  cases statement with
  | closeListening => simp [Statement.opened, serving_eq_connection, Statement.holds]
  | send =>
    simp only [Statement.opened, Statement.holds]
    split_ifs with heq
    · simp [heq]
    · simp [serving_eq_connection]
  | close =>
    simp only [Statement.opened, Statement.holds]
    split_ifs with heq
    · simp [heq]
    · simp [serving_eq_connection]
  | exit =>
    simp only [Statement.opened, Statement.holds]
    split_ifs <;> simp
  | exited => simp [Statement.opened, Statement.holds]

lemma opened_ne_listening {statement : Statement} {c fd : ℕ}
    (h : statement ≠ .closeListening) : statement.opened socketFd c fd ≠ some .listening := by
  have hserving : (if fd = socketFd then none else serving socketFd c fd) ≠ some .listening := by
    unfold serving atLoop
    split_ifs <;> simp
  cases statement with
  | closeListening => exact absurd rfl h
  | send => exact hserving
  | close => exact hserving
  | exit =>
    simp only [Statement.opened]
    split_ifs <;> simp
  | exited => simp [Statement.opened]

/-- A child has the connection open that it serves, until it closes it. -/
lemma ChildOpened.holds_iff {child : Child} (h : ChildOpened socketFd child) (c : ℕ) :
    child.table.Holds (.connection c) ↔ child.serves = c ∧ child.statement.holds = true := by
  simp [DescriptorTable.holds_iff, h.opened, opened_eq_connection]

/-- The server has the last connection open until the end of the iteration. -/
lemma Opened.main_holds_iff (h : Opened socketFd s) (c : ℕ) :
    s.table.Holds (.connection c) ↔ s.main ≠ .accept ∧ s.connections.length - 1 = c := by
  have hmain := h.main
  rw [DescriptorTable.holds_iff]
  cases hcase : s.main with
  | accept =>
    rw [hcase] at hmain
    simp only [Main.Opened] at hmain
    simp only [hmain, atLoop, ne_eq, not_true_eq_false, false_and, iff_false, not_exists]
    intro fd
    split_ifs <;> simp
  | fork copySocket =>
    rw [hcase] at hmain
    simp [hmain.2.2, serving_eq_connection]
  | close copySocket =>
    rw [hcase] at hmain
    simp [hmain.2.2, serving_eq_connection]

lemma lookup_replicate (socketFd fd : ℕ) :
    (start socketFd).table.lookup fd = atLoop socketFd fd := by
  unfold DescriptorTable.lookup start atLoop
  dsimp only
  rw [List.getElem?_append, List.length_replicate]
  split_ifs with hlt heq
  · simp [hlt]
  · simp [heq]
  · rw [List.getElem?_eq_none (by simp; omega)]
    rfl

lemma start_opened (socketFd : ℕ) : Opened socketFd (start socketFd) where
  main := lookup_replicate socketFd
  children := by simp [start]
  served := by simp [start]
  forking := by simp [start]
  distinct := by simp [start]

lemma map_serves_set {l : List Child} {i : ℕ} {child child' : Child} (hchild : l[i]? = some child)
    (hserves : child'.serves = child.serves) :
    (l.set i child').map Child.serves = l.map Child.serves := by
  refine List.ext_getElem? fun j => ?_
  rw [List.getElem?_map, List.getElem?_map, List.getElem?_set]
  split_ifs with heq hlt
  · subst heq
    simp [hchild, hserves]
  · subst heq
    simp [List.getElem?_eq_none (not_lt.mp hlt)]
  · rfl

lemma Main.Opened.congr {m : Main} (h : m.Opened socketFd s) (htable : s'.table = s.table)
    (hlength : s'.connections.length = s.connections.length) : m.Opened socketFd s' := by
  cases m with
  | accept => simpa only [Main.Opened, htable] using h
  | fork copySocket => simpa only [Main.Opened, htable, hlength] using h
  | close copySocket => simpa only [Main.Opened, htable, hlength] using h

lemma Opened.modify (h : Opened socketFd s) (c : ℕ) (f : Connection → Connection) :
    Opened socketFd (s.modify c f) := by
  have hlength : (s.modify c f).connections.length = s.connections.length :=
    List.length_modify _ _ _
  exact ⟨h.main.congr rfl hlength, h.children, hlength.symm ▸ h.served, hlength.symm ▸ h.forking,
    h.distinct⟩

lemma Opened.setChild (h : Opened socketFd s) {i : ℕ} {child child' : Child}
    (hchild : s.children[i]? = some child) (hserves : child'.serves = child.serves)
    (hopened : ChildOpened socketFd child') : Opened socketFd (s.setChild i child') where
  main := h.main.congr rfl rfl
  children := forall_mem_set h.children hopened
  served := forall_mem_set h.served (hserves ▸ h.served child (List.mem_of_getElem? hchild))
  forking copySocket hmain := by
    have hne := h.forking copySocket hmain
    exact forall_mem_set hne (hserves ▸ hne child (List.mem_of_getElem? hchild))
  distinct := by
    simp only [State.setChild]
    rw [map_serves_set hchild hserves]
    exact h.distinct

lemma ChildOpened.next {child child' : Child} (h : ChildOpened socketFd child)
    (hnext : ChildNext socketFd child child') :
    ChildOpened socketFd child' ∧ child'.serves = child.serves := by
  obtain ⟨hcopy, hopened⟩ := h
  cases hnext with
  | closedListening hstatement =>
    refine ⟨⟨hcopy, fun fd => ?_⟩, rfl⟩
    rw [DescriptorTable.lookup_close, hopened, hstatement]
    rfl
  | unsent hstatement hlookup =>
    refine ⟨⟨hcopy, fun fd => ?_⟩, rfl⟩
    rw [hopened, hstatement]
    rfl
  | closed hstatement =>
    refine ⟨⟨hcopy, fun fd => ?_⟩, rfl⟩
    rw [DescriptorTable.lookup_close, hopened, hstatement, hcopy]
    simp only [Statement.opened, serving, atLoop]
    split_ifs <;> first | rfl | omega
  | ended => exact ⟨⟨hcopy, fun fd => by simp [DescriptorTable.lookup, Statement.opened]⟩, rfl⟩

lemma lowestFree_atLoop {t : Table} (h : ∀ fd, t.lookup fd = atLoop socketFd fd) :
    t.lowestFree = socketFd + 1 := by
  refine DescriptorTable.lowestFree_eq ?_ fun i hi => ?_
  · rw [h]
    simp [atLoop]
  · rw [h, atLoop]
    split_ifs <;> simp
    omega

lemma step_opened (h : Opened socketFd s) (hstep : Stepped socketFd s s') :
    Opened socketFd s' := by
  have hmain := h.main
  cases hstep with
  | accepted hcase =>
    rw [hcase] at hmain
    have hfree := lowestFree_atLoop hmain
    refine ⟨⟨hfree, by simp, fun fd => ?_⟩, h.children, fun child hchild => ?_,
      fun _ _ child hchild => ?_, h.distinct⟩
    · have hlookup := hmain fd
      rw [DescriptorTable.lookup_allocate, hfree, hlookup]
      simp [serving]
    · have hlt := h.served child hchild
      rw [List.length_append]
      omega
    · have hlt := h.served child hchild
      rw [List.length_append, List.length_singleton]
      omega
  | acceptFailed => exact h
  | @forked copySocket hcase =>
    rw [hcase] at hmain
    obtain ⟨hcopy, hpos, hlookup⟩ := hmain
    have hnew := h.forking copySocket hcase
    refine ⟨⟨hcopy, hpos, hlookup⟩, fun child hchild => ?_, fun child hchild => ?_, by simp, ?_⟩
    · rcases List.mem_append.mp hchild with hchild | hchild
      · exact h.children child hchild
      · obtain rfl := List.mem_singleton.mp hchild
        exact ⟨hcopy, hlookup⟩
    · rcases List.mem_append.mp hchild with hchild | hchild
      · exact h.served child hchild
      · obtain rfl := List.mem_singleton.mp hchild
        exact Nat.sub_lt hpos Nat.one_pos
    · rw [List.map_append, List.nodup_append]
      refine ⟨h.distinct, by simp, fun c hc d hd => ?_⟩
      obtain ⟨child, hchild, rfl⟩ := List.mem_map.mp hc
      rw [List.map_singleton, List.mem_singleton] at hd
      exact hd ▸ hnew child hchild
  | forkFailed hcase =>
    rw [hcase] at hmain
    exact ⟨hmain, h.children, h.served, by simp, h.distinct⟩
  | @closed copySocket hcase =>
    rw [hcase] at hmain
    obtain ⟨hcopy, -, hlookup⟩ := hmain
    refine ⟨fun fd => ?_, h.children, h.served, by simp, h.distinct⟩
    rw [DescriptorTable.lookup_close, hlookup, hcopy]
    simp only [serving, atLoop]
    split_ifs <;> first | rfl | omega
  | child hchild hnext =>
    obtain ⟨hopened, hserves⟩ := (h.children _ (List.mem_of_getElem? hchild)).next hnext
    exact h.setChild hchild hserves hopened
  | @sent i c child sent hchild hstatement hlookup =>
    obtain ⟨hcopy, hold⟩ := h.children _ (List.mem_of_getElem? hchild)
    have hopened : ChildOpened socketFd { child with statement := .close } := by
      refine ⟨hcopy, fun fd => ?_⟩
      rw [hold, hstatement]
      rfl
    have hset : Opened socketFd (s.setChild i { child with statement := .close }) :=
      h.setChild hchild rfl hopened
    exact hset.modify _ _
  | received hconnection hnone hstream => exact h.modify _ _
  | ended hconnection hnone hstream hheld => exact h.modify _ _
  | recvFailed hconnection hnone => exact h.modify _ _

lemma run_opened {events : List Event}
    (h : events.foldlM (step socketFd) (start socketFd) = some s) : Opened socketFd s :=
  StepRuns.invariant_of_run (fun _ _ _ hs hstep => step_opened hs (stepped_of_step hstep))
    (start_opened socketFd) h

end Descriptors

/-- Between two connections the server has the descriptors that it started with, and it always
gets the same one for a connection; a child does not keep the listening socket, and no two
children have the same connection open. -/
theorem descriptors_kept (socketFd : ℕ) (events : List Event) (s : State)
    (h : events.foldlM (step socketFd) (start socketFd) = some s) :
    (s.main = .accept → ∀ fd, s.table.lookup fd = (start socketFd).table.lookup fd) ∧
    (∀ copySocket, s.main = .fork copySocket ∨ s.main = .close copySocket →
      copySocket = socketFd + 1) ∧
    (∀ child ∈ s.children, child.statement ≠ .closeListening → ¬ child.table.Holds .listening) ∧
    ∀ (i j : ℕ) (child child' : Child) (c : ℕ), s.children[i]? = some child →
      s.children[j]? = some child' → child.table.Holds (.connection c) →
      child'.table.Holds (.connection c) → i = j := by
  have hopened := run_opened h
  have hmain := hopened.main
  refine ⟨fun hcase fd => ?_, fun copySocket hcase => ?_, fun child hchild hstatement => ?_, ?_⟩
  · rw [hcase] at hmain
    rw [lookup_replicate]
    exact hmain fd
  · rcases hcase with hcase | hcase
    · rw [hcase] at hmain
      exact hmain.1
    · rw [hcase] at hmain
      exact hmain.1
  · rw [DescriptorTable.holds_iff]
    rintro ⟨fd, hfd⟩
    rw [(hopened.children child hchild).opened] at hfd
    exact opened_ne_listening hstatement hfd
  · intro i j child child' c hi hj hholds hholds'
    have hserves := ((hopened.children child (List.mem_of_getElem? hi)).holds_iff c).mp hholds
    have hserves' := ((hopened.children child' (List.mem_of_getElem? hj)).holds_iff c).mp hholds'
    have hlt : i < (s.children.map Child.serves).length := by
      simpa using (List.getElem?_eq_some_iff.mp hi).1
    refine (List.getElem?_inj hlt hopened.distinct).mp ?_
    simp [hi, hj, hserves.1, hserves'.1]

/-- Two connections, the second one while the first child still sends; then it is killed. -/
def twoClients : List Event :=
  [.accept true, .fork true, .child 0 none, .close, .accept false, .accept true, .fork true,
    .child 0 (some 5), .recv 0 199, .kill 0, .close, .accept true, .fork false, .close]

theorem descriptors_kept_two : ∃ s, twoClients.foldlM (step 3) (start 3) = some s ∧
    s.main = .accept ∧ ∀ fd, s.table.lookup fd = (start 3).table.lookup fd := by
  obtain ⟨s, hs, hmain⟩ : ∃ s, twoClients.foldlM (step 3) (start 3) = some s ∧
      s.main = .accept := by
    have hrun : ((twoClients.foldlM (step 3) (start 3)).any fun s => s.main = .accept) = true := by
      decide +kernel
    obtain ⟨s, hs, hmain⟩ := (Option.any_eq_true _ _).mp hrun
    exact ⟨s, hs, of_decide_eq_true hmain⟩
  exact ⟨s, hs, hmain, (descriptors_kept 3 twoClients s hs).1 hmain⟩

end UnixProgramming.TcpConnections
