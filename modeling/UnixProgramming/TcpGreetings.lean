import UnixProgramming.TcpConnections

/-! What the clients of the TCP server receive, from their `recv` on and on the connections that
the server has accepted. -/
namespace UnixProgramming.TcpConnections
open ListUpdates

def Connection.got (connection : Connection) : List UInt8 :=
  match connection.received with
  | some (.ok bytes) => bytes
  | _ => []

/-- The client got the first bytes that were sent, and the others are under way. -/
structure Connection.Delivered (connection : Connection) : Prop where
  stream_eq : connection.got ++ connection.stream = serverMessage.take (connection.sent.getD 0)
  fits : connection.got.length ≤ maxDataSize
  ended : connection.received = some (.ok []) → connection.stream = []

def Statement.beforeSend : Statement → Bool
  | closeListening => true
  | send => true
  | _ => false

/-- Only the child that serves a connection sends on it, and the end is reported when nobody
can send any more. -/
structure Delivers (s : State) : Prop where
  unsent : ∀ child ∈ s.children, child.statement.beforeSend = true →
    ∀ connection, s.connections[child.serves]? = some connection → connection.sent = none
  fresh : ∀ (c : ℕ) connection, s.connections[c]? = some connection →
    (∀ child ∈ s.children, child.serves ≠ c) → connection.sent = none
  delivered : ∀ connection ∈ s.connections, connection.Delivered
  closed : ∀ (c : ℕ) connection, s.connections[c]? = some connection →
    connection.received = some (.ok []) → ¬ s.Held c

variable {socketFd : ℕ} {s s' : State}

lemma start_delivers (socketFd : ℕ) : Delivers (start socketFd) := by
  constructor <;> simp [start]

lemma modify_lookup {c d : ℕ} {f : Connection → Connection} {x' : Connection}
    (h : (s.modify c f).connections[d]? = some x') :
    ∃ x, s.connections[d]? = some x ∧ x' = if c = d then f x else x := by
  simp only [State.modify, List.getElem?_modify, Option.map_eq_map, Option.map_eq_some_iff] at h
  obtain ⟨x, hx, rfl⟩ := h
  exact ⟨x, hx, by split_ifs <;> rfl⟩

/-- A client gets something, or fails. -/
lemma Delivers.receive (h : Delivers s) {c : ℕ} {connection : Connection}
    {f : Connection → Connection} (hconnection : s.connections[c]? = some connection)
    (hsent : ∀ x, (f x).sent = x.sent) (hdelivered : (f connection).Delivered)
    (hclosed : (f connection).received = some (.ok []) → ¬ s.Held c) :
    Delivers (s.modify c f) := by
  have hsame : ∀ (d : ℕ) x, (if c = d then f x else x).sent = x.sent := by
    intro d x
    split_ifs
    · exact hsent x
    · rfl
  refine ⟨fun child hchild hbefore x' hx' => ?_, fun d x' hx' hnone => ?_, fun x' hx' => ?_,
    fun d x' hx' hended => ?_⟩
  · obtain ⟨x, hx, rfl⟩ := modify_lookup hx'
    rw [hsame]
    exact h.unsent child hchild hbefore x hx
  · obtain ⟨x, hx, rfl⟩ := modify_lookup hx'
    rw [hsame]
    exact h.fresh d x hx hnone
  · obtain ⟨d, hd⟩ := List.mem_iff_getElem?.mp hx'
    obtain ⟨x, hx, rfl⟩ := modify_lookup hd
    split_ifs with heq
    · subst heq
      rw [hconnection] at hx
      exact Option.some.inj hx ▸ hdelivered
    · exact h.delivered x (List.mem_of_getElem? hx)
  · obtain ⟨x, hx, rfl⟩ := modify_lookup hx'
    split_ifs at hended with heq
    · subst heq
      rw [hconnection] at hx
      obtain rfl := Option.some.inj hx
      exact hclosed hended
    · exact h.closed d x hx hended

lemma ChildNext.holds {child child' : Child} (hnext : ChildNext socketFd child child') {c : ℕ}
    (h : child'.table.Holds (.connection c)) : child.table.Holds (.connection c) := by
  rw [DescriptorTable.holds_iff] at h ⊢
  obtain ⟨fd, hfd⟩ := h
  refine ⟨fd, ?_⟩
  cases hnext with
  | closedListening hstatement =>
    rw [DescriptorTable.lookup_close] at hfd
    split_ifs at hfd
    exact hfd
  | unsent hstatement hlookup => exact hfd
  | closed hstatement =>
    rw [DescriptorTable.lookup_close] at hfd
    split_ifs at hfd
    exact hfd
  | ended => simp [DescriptorTable.lookup] at hfd

lemma ChildNext.beforeSend {child child' : Child} (hnext : ChildNext socketFd child child')
    (h : child'.statement.beforeSend = true) : child.statement.beforeSend = true := by
  cases hnext with
  | closedListening hstatement => rw [hstatement]; rfl
  | unsent hstatement hlookup => cases h
  | closed hstatement => cases h
  | ended => cases h

/-- A child goes on without opening anything. -/
lemma Delivers.setChild (h : Delivers s) {i : ℕ} {child child' : Child}
    (hchild : s.children[i]? = some child) (hserves : child'.serves = child.serves)
    (hholds : ∀ c, child'.table.Holds (.connection c) → child.table.Holds (.connection c))
    (hbefore : child'.statement.beforeSend = true → child.statement.beforeSend = true) :
    Delivers (s.setChild i child') := by
  have hmem := List.mem_of_getElem? hchild
  refine ⟨forall_mem_set h.unsent ?_, fun c x hx hnone => ?_, h.delivered, fun c x hx hended => ?_⟩
  · rw [hserves]
    exact fun hb => h.unsent child hmem (hbefore hb)
  · refine h.fresh c x hx fun y hy => ?_
    have hall : c ∉ (s.children.set i child').map Child.serves := by
      intro hc
      obtain ⟨z, hz, heq⟩ := List.mem_map.mp hc
      exact hnone z hz heq
    rw [map_serves_set hchild hserves] at hall
    exact fun heq => hall (List.mem_map.mpr ⟨y, hy, heq⟩)
  · rintro (hheld | ⟨y, hy, hheld⟩)
    · exact h.closed c x hx hended (.inl hheld)
    · rcases List.mem_or_eq_of_mem_set hy with hy | rfl
      · exact h.closed c x hx hended (.inr ⟨y, hy, hheld⟩)
      · exact h.closed c x hx hended (.inr ⟨child, hmem, hholds c hheld⟩)

/-- The child that serves a connection has sent on it. -/
lemma Delivers.send (h : Delivers s) {c : ℕ} {connection : Connection} (sent : Option ℕ)
    (hconnection : s.connections[c]? = some connection) (hsent : connection.sent = none)
    (hpast : ∀ child ∈ s.children, child.statement.beforeSend = true → child.serves ≠ c)
    (hserved : ∃ child ∈ s.children, child.serves = c) (hheld : s.Held c) :
    Delivers (s.modify c fun x => x.send sent) := by
  refine ⟨fun child hchild hbefore x' hx' => ?_, fun d x' hx' hnone => ?_, fun x' hx' => ?_,
    fun d x' hx' hended => ?_⟩
  · obtain ⟨x, hx, rfl⟩ := modify_lookup hx'
    rw [if_neg (Ne.symm (hpast child hchild hbefore))]
    exact h.unsent child hchild hbefore x hx
  · obtain ⟨x, hx, rfl⟩ := modify_lookup hx'
    obtain ⟨child, hchild, hserves⟩ := hserved
    rw [if_neg (hserves ▸ hnone child hchild)]
    exact h.fresh d x hx hnone
  · obtain ⟨d, hd⟩ := List.mem_iff_getElem?.mp hx'
    obtain ⟨x, hx, rfl⟩ := modify_lookup hd
    split_ifs with heq
    · subst heq
      obtain rfl := Option.some.inj (hconnection.symm.trans hx)
      obtain ⟨hstream, hfits, -⟩ := h.delivered connection (List.mem_of_getElem? hx)
      obtain ⟨hgot, hnil⟩ : connection.got = [] ∧ connection.stream = [] := by
        simpa [hsent] using hstream
      refine ⟨?_, hfits, fun hended => absurd hheld (h.closed c connection hx hended)⟩
      change connection.got ++ (connection.stream ++ _) = _
      rw [hgot, hnil]
      rfl
    · exact h.delivered x (List.mem_of_getElem? hx)
  · obtain ⟨x, hx, rfl⟩ := modify_lookup hx'
    split_ifs at hended with heq
    · subst heq
      exact absurd hheld (h.closed c x hx hended)
    · exact h.closed d x hx hended

lemma step_delivers (hopened : Opened socketFd s) (h : Delivers s)
    (hstep : Stepped socketFd s s') : Delivers s' := by
  cases hstep with
  | accepted hmain =>
    have hlookup : ∀ (c : ℕ) x, (s.connections ++ [⟨[], none, none⟩])[c]? = some x →
        s.connections[c]? = some x ∨ c = s.connections.length ∧ x = ⟨[], none, none⟩ := by
      intro c x hx
      rw [List.getElem?_append] at hx
      split_ifs at hx with hlt
      · exact .inl hx
      · rw [List.getElem?_singleton] at hx
        split_ifs at hx with hzero
        exact .inr ⟨by omega, (Option.some.inj hx).symm⟩
    refine ⟨fun child hchild hbefore x hx => ?_, fun c x hx hnone => ?_, fun x hx => ?_,
      fun c x hx hended => ?_⟩
    · rcases hlookup _ x hx with hx | ⟨-, rfl⟩
      · exact h.unsent child hchild hbefore x hx
      · rfl
    · rcases hlookup _ x hx with hx | ⟨-, rfl⟩
      · exact h.fresh c x hx hnone
      · rfl
    · rcases List.mem_append.mp hx with hx | hx
      · exact h.delivered x hx
      · obtain rfl := List.mem_singleton.mp hx
        exact ⟨rfl, Nat.zero_le _, by simp⟩
    · rcases hlookup _ x hx with hx | ⟨-, rfl⟩
      · have hlt := (List.getElem?_eq_some_iff.mp hx).1
        rintro (hheld | hheld)
        · refine h.closed c x hx hended (.inl ?_)
          rw [DescriptorTable.holds_iff] at hheld ⊢
          obtain ⟨fd, hfd⟩ := hheld
          rw [DescriptorTable.lookup_allocate] at hfd
          split_ifs at hfd
          · simp only [Option.some.injEq, Open.connection.injEq] at hfd
            omega
          · exact ⟨fd, hfd⟩
        · exact h.closed c x hx hended (.inr hheld)
      · cases hended
  | acceptFailed => exact h
  | @forked copySocket hmain =>
    have hnew := hopened.forking copySocket hmain
    refine ⟨fun child hchild hbefore x hx => ?_, fun c x hx hnone => ?_, h.delivered,
      fun c x hx hended => ?_⟩
    · rcases List.mem_append.mp hchild with hchild | hchild
      · exact h.unsent child hchild hbefore x hx
      · obtain rfl := List.mem_singleton.mp hchild
        exact h.fresh _ x hx hnew
    · exact h.fresh c x hx fun child hchild => hnone child (List.mem_append_left _ hchild)
    · rintro (hheld | ⟨child, hchild, hheld⟩)
      · exact h.closed c x hx hended (.inl hheld)
      · rcases List.mem_append.mp hchild with hchild | hchild
        · exact h.closed c x hx hended (.inr ⟨child, hchild, hheld⟩)
        · obtain rfl := List.mem_singleton.mp hchild
          exact h.closed c x hx hended (.inl hheld)
  | forkFailed hmain => exact ⟨h.unsent, h.fresh, h.delivered, h.closed⟩
  | closed hmain =>
    refine ⟨h.unsent, h.fresh, h.delivered, fun c x hx hended => ?_⟩
    rintro (hheld | hheld)
    · refine h.closed c x hx hended (.inl ?_)
      rw [DescriptorTable.holds_iff] at hheld ⊢
      obtain ⟨fd, hfd⟩ := hheld
      rw [DescriptorTable.lookup_close] at hfd
      split_ifs at hfd
      exact ⟨fd, hfd⟩
    · exact h.closed c x hx hended (.inr hheld)
  | child hchild hnext =>
    have hserves := ((hopened.children _ (List.mem_of_getElem? hchild)).next hnext).2
    exact h.setChild hchild hserves (fun c => hnext.holds) hnext.beforeSend
  | @sent i c child sent hchild hstatement hlookup =>
    have hmem := List.mem_of_getElem? hchild
    rw [(hopened.children child hmem).opened] at hlookup
    obtain ⟨-, rfl, -⟩ := opened_eq_connection.mp hlookup
    have hset : Delivers (s.setChild i { child with statement := .close }) :=
      h.setChild hchild rfl (fun _ hheld => hheld) (by simp [Statement.beforeSend])
    have hnew : { child with statement := .close } ∈
        (s.setChild i { child with statement := .close }).children :=
      List.mem_iff_getElem?.mpr
        ⟨i, by simp [State.setChild, (List.getElem?_eq_some_iff.mp hchild).1]⟩
    obtain ⟨connection, hconnection⟩ : ∃ x, s.connections[child.serves]? = some x :=
      ⟨_, List.getElem?_eq_getElem (hopened.served child hmem)⟩
    refine hset.send sent hconnection (h.unsent child hmem (by rw [hstatement]; rfl) _ hconnection)
      (fun other hother hbefore hserves => ?_) ⟨_, hnew, rfl⟩ (.inr ⟨_, hnew, ?_⟩)
    · obtain ⟨j, hj⟩ := List.mem_iff_getElem?.mp hother
      simp only [State.setChild, List.getElem?_set] at hj
      split_ifs at hj with heq hlt
      · obtain rfl := Option.some.inj hj
        cases hbefore
      · -- no other child serves this connection
        refine heq ((List.getElem?_inj ?_ hopened.distinct).mp ?_)
        · simpa using (List.getElem?_eq_some_iff.mp hchild).1
        · simp [hchild, hj, hserves]
    · exact ((hopened.children child hmem).holds_iff _).mpr ⟨rfl, by rw [hstatement]; rfl⟩
  | @received c count connection hconnection hnone hstream =>
    obtain ⟨hstream_eq, -, -⟩ := h.delivered connection (List.mem_of_getElem? hconnection)
    have hgot : connection.got = [] := by simp [Connection.got, hnone]
    have hne : connection.stream.take (min (count + 1) maxDataSize) ≠ [] := by
      simp [hstream, maxDataSize]
    refine h.receive hconnection (fun _ => rfl) ⟨?_, ?_, ?_⟩ ?_
    · rw [hgot, List.nil_append] at hstream_eq
      simpa [Connection.got] using hstream_eq
    · simp [Connection.got]
    · simp [hstream, maxDataSize]
    · simp [hstream, maxDataSize]
  | @ended c connection hconnection hnone hstream hheld =>
    obtain ⟨hstream_eq, -, -⟩ := h.delivered connection (List.mem_of_getElem? hconnection)
    have hgot : connection.got = [] := by simp [Connection.got, hnone]
    refine h.receive hconnection (fun _ => rfl) ⟨?_, ?_, fun _ => hstream⟩ fun _ => hheld
    · rw [hgot] at hstream_eq
      simpa [Connection.got] using hstream_eq
    · simp [Connection.got]
  | @recvFailed c errno connection hconnection hnone =>
    obtain ⟨hstream_eq, -, -⟩ := h.delivered connection (List.mem_of_getElem? hconnection)
    have hgot : connection.got = [] := by simp [Connection.got, hnone]
    refine h.receive hconnection (fun _ => rfl) ⟨?_, ?_, by simp⟩ (by simp)
    · rw [hgot] at hstream_eq
      simpa [Connection.got] using hstream_eq
    · simp [Connection.got]

lemma run_delivers {events : List Event}
    (h : events.foldlM (step socketFd) (start socketFd) = some s) : Delivers s := by
  have hboth : Opened socketFd s ∧ Delivers s := by
    refine StepRuns.invariant_of_run (P := fun s => Opened socketFd s ∧ Delivers s)
      (fun s event s' hs hstep => ?_) ⟨start_opened socketFd, start_delivers socketFd⟩ h
    exact ⟨step_opened hs.1 (stepped_of_step hstep),
      step_delivers hs.1 hs.2 (stepped_of_step hstep)⟩
  exact hboth.2

/-- `"Hello world!"` -/
def greeting : List UInt8 := serverMessage.dropLast

lemma printed_take (n : ℕ) : printed (serverMessage.take n) = greeting.take n := by
  rcases le_or_gt n 12 with hle | hgt
  · interval_cases n <;> decide
  · have hlong : serverMessage.take n = serverMessage := List.take_of_length_le hgt
    rw [hlong, List.take_of_length_le (hgt.le)]
    decide

/-- A client prints a part of the greeting from its start, and stays within its buffer; it
prints nothing only if nothing was sent to it, and then nothing ever is. -/
theorem clients_print_greeting (socketFd : ℕ) (events : List Event) (s : State)
    (h : events.foldlM (step socketFd) (start socketFd) = some s) (c : ℕ)
    (connection : Connection) (bytes : List UInt8)
    (hconnection : s.connections[c]? = some connection)
    (hreceived : connection.received = some (.ok bytes)) :
    bytes.length ≤ maxDataSize ∧ printed bytes <+: greeting ∧
      (printed bytes = [] → connection.sent.getD 0 = 0 ∧ ¬ s.Held c) := by
  have hdelivers := run_delivers h
  obtain ⟨hstream, hfits, hended⟩ :=
    hdelivers.delivered connection (List.mem_of_getElem? hconnection)
  have hgot : connection.got = bytes := by simp [Connection.got, hreceived]
  rw [hgot] at hstream hfits
  have hsent : bytes <+: serverMessage :=
    List.IsPrefix.trans ⟨connection.stream, hstream⟩ (List.take_prefix _ _)
  have hprinted : printed bytes = greeting.take bytes.length := by
    rw [← printed_take, ← List.prefix_iff_eq_take.mp hsent]
  refine ⟨hfits, hprinted ▸ List.take_prefix _ _, fun hnothing => ?_⟩
  have hempty : bytes = [] := by
    rw [hprinted, List.take_eq_nil_iff] at hnothing
    exact List.eq_nil_of_length_eq_zero (hnothing.resolve_right (by decide))
  subst hempty
  rw [hended hreceived, List.append_nil, eq_comm, List.take_eq_nil_iff] at hstream
  exact ⟨hstream.resolve_right (by decide), hdelivers.closed c connection hconnection hreceived⟩

theorem clients_print_greeting_two : ∃ (s : State) (connection : Connection),
    twoClients.foldlM (step 3) (start 3) = some s ∧ s.connections[0]? = some connection ∧
      connection.received = some (.ok [72, 101, 108, 108, 111]) ∧
      printed [72, 101, 108, 108, 111] <+: greeting := by
  have hrun : ((twoClients.foldlM (step 3) (start 3)).any fun s => s.connections[0]?.any
      fun x => match x.received with
        | some (.ok bytes) => bytes = [72, 101, 108, 108, 111]
        | _ => false) = true := by
    decide +kernel
  obtain ⟨s, hs, hany⟩ := (Option.any_eq_true _ _).mp hrun
  obtain ⟨connection, hconnection, hbytes⟩ := (Option.any_eq_true _ _).mp hany
  have hreceived : connection.received = some (.ok [72, 101, 108, 108, 111]) := by
    split at hbytes
    · next bytes hcase => rw [hcase, of_decide_eq_true hbytes]
    · cases hbytes
  exact ⟨s, connection, hs, hconnection, hreceived,
    (clients_print_greeting 3 twoClients s hs 0 connection _ hconnection hreceived).2.1⟩

section Progress

/-- The steps that are left of an iteration, with those of the child forked in it. -/
def Main.rank : Main → ℕ
  | accept => 0
  | fork _ => 6
  | close _ => 1

def Statement.rank : Statement → ℕ
  | closeListening => 4
  | send => 3
  | close => 2
  | exit => 1
  | exited => 0

def State.rank (s : State) : ℕ :=
  s.main.rank + (s.children.map fun child => child.statement.rank).sum

/-- The loop waits for a connection, and no child runs. -/
def State.Idle (s : State) : Prop :=
  s.main = .accept ∧ ∀ child ∈ s.children, child.statement = .exited

lemma childStep_advances (socketFd : ℕ) {i : ℕ} {child : Child}
    (hchild : s.children[i]? = some child) (hrunning : child.statement ≠ .exited) :
    ∃ s', childStep socketFd s i child none = some s' ∧ s'.rank < s.rank ∧
      s'.connections.length = s.connections.length := by
  have hset : ∀ child' : Child, child'.statement.rank < child.statement.rank →
      (s.setChild i child').rank < s.rank :=
    fun child' hlt => Nat.add_lt_add_left
      (sum_map_set_lt (f := fun x : Child => x.statement.rank) hchild hlt) _
  unfold childStep
  cases hstatement : child.statement with
  | closeListening => exact ⟨_, rfl, hset _ (by simp [hstatement, Statement.rank]), rfl⟩
  | send =>
    have hlt := hset { child with statement := .close }
      (by simp [hstatement, Statement.rank])
    dsimp only
    split
    · exact ⟨_, rfl, hlt, List.length_modify _ _ _⟩
    · exact ⟨_, rfl, hlt, rfl⟩
  | close => exact ⟨_, rfl, hset _ (by simp [hstatement, Statement.rank]), rfl⟩
  | exit => exact ⟨_, rfl, hset _ (by simp [hstatement, Statement.rank]), rfl⟩
  | exited => exact absurd hstatement hrunning

/-- The server goes on as long as it is not idle, and leaves the clients alone. -/
lemma server_advances (socketFd : ℕ) (hidle : ¬ s.Idle) : ∃ event s',
    step socketFd s event = some s' ∧ s'.rank < s.rank ∧
    s'.connections.length = s.connections.length := by
  cases hmain : s.main with
  | accept =>
    obtain ⟨child, hchild, hrunning⟩ : ∃ child ∈ s.children, child.statement ≠ .exited := by
      simpa [State.Idle, hmain] using hidle
    obtain ⟨i, hi⟩ := List.mem_iff_getElem?.mp hchild
    obtain ⟨s', hstep, hadvances⟩ := childStep_advances socketFd hi hrunning
    exact ⟨.child i none, s', by simp only [step, hi, hstep], hadvances⟩
  | fork copySocket =>
    have hstep : step socketFd s (.fork true) = some { s with
        main := .close copySocket
        children := s.children ++
          [⟨.closeListening, s.table, copySocket, s.connections.length - 1⟩] } := by
      simp [step, hmain]
    refine ⟨.fork true, _, hstep, ?_, rfl⟩
    simp only [State.rank, hmain, Main.rank, Statement.rank, List.map_append, List.sum_append,
      List.map_singleton, List.sum_singleton]
    omega
  | close copySocket =>
    have hstep : step socketFd s .close =
        some { s with table := s.table.close copySocket, main := .accept } := by
      simp [step, hmain]
    refine ⟨.close, _, hstep, ?_, rfl⟩
    simp [State.rank, hmain, Main.rank]

/-- When the server is idle, each client can receive. -/
lemma recv_of_idle (hopened : Opened socketFd s) (hidle : s.Idle) {c : ℕ}
    {connection : Connection} (hconnection : s.connections[c]? = some connection)
    (hnone : connection.received = none) (count : ℕ) :
    (step socketFd s (.recv c count)).isSome = true := by
  have hfree : ¬ s.Held c := by
    rintro (hheld | ⟨child, hchild, hheld⟩)
    · exact ((hopened.main_holds_iff c).mp hheld).1 hidle.1
    · have hholds := (((hopened.children child hchild).holds_iff c).mp hheld).2
      rw [hidle.2 child hchild] at hholds
      cases hholds
  simp only [step, hconnection, recvStep, hnone, Option.isSome_none, Bool.false_eq_true, ↓reduceIte,
    hfree]
  split_ifs <;> rfl

end Progress

/-- No client waits for ever: whatever happened so far, the server can go on until it is idle,
and then each client that still waits for the server can receive. -/
theorem clients_never_stuck (socketFd : ℕ) (events : List Event) (s : State)
    (h : events.foldlM (step socketFd) (start socketFd) = some s) :
    ∃ (rest : List Event) (last : State), rest.foldlM (step socketFd) s = some last ∧ last.Idle ∧
      last.connections.length = s.connections.length ∧
      ∀ (c : ℕ) (connection : Connection) (count : ℕ), last.connections[c]? = some connection →
        connection.received = none → (step socketFd last (.recv c count)).isSome = true := by
  obtain ⟨rest, last, hrest, ⟨hopened, hlength⟩, hidle⟩ :=
    StepRuns.exists_run_of_decreasing
      (P := fun t : State => Opened socketFd t ∧ t.connections.length = s.connections.length)
      State.rank
      (fun t ht hnot => by
        obtain ⟨event, t', hstep, hlt, hlength⟩ := server_advances socketFd hnot
        exact ⟨event, t', hstep, ⟨step_opened ht.1 (stepped_of_step hstep), hlength.trans ht.2⟩,
          hlt⟩)
      ⟨run_opened h, rfl⟩
  exact ⟨rest, last, hrest, hidle, hlength,
    fun c connection count hconnection hnone => recv_of_idle hopened hidle hconnection hnone count⟩

theorem clients_never_stuck_two : ∃ s, (twoClients.take 7).foldlM (step 3) (start 3) = some s ∧
    ¬ s.Idle ∧ ∃ (rest : List Event) (last : State),
      rest.foldlM (step 3) s = some last ∧ last.Idle := by
  have hrun : (((twoClients.take 7).foldlM (step 3) (start 3)).any fun s =>
      s.main ≠ .accept) = true := by
    decide +kernel
  obtain ⟨s, hs, hmain⟩ := (Option.any_eq_true _ _).mp hrun
  obtain ⟨rest, last, hrest, hidle, -⟩ := clients_never_stuck 3 (twoClients.take 7) s hs
  exact ⟨s, hs, fun hnot => of_decide_eq_true hmain hnot.1, rest, last, hrest, hidle⟩

end UnixProgramming.TcpConnections
