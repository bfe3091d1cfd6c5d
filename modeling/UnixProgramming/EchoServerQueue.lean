import UnixProgramming.EchoServerKqueue

/-! The sockets registered in the queue by the two kqueue servers. The batched server
registers a new socket after the events of its batch, among which it may be closed only if
it was reported, that is registered and open, when the batch began. -/
namespace UnixProgramming.EchoServer

def registerStep (registered : Finset ℕ) : Event → Finset ℕ
  | .added sockets => registered ∪ sockets.toFinset
  | .closed socket => registered.erase socket
  | _ => registered

/-- The sockets in the queue; a socket that is closed leaves it. -/
def registered (serverSocket : ℕ) (trace : List Event) : Finset ℕ :=
  trace.foldl registerStep {serverSocket}

/-- `kevent` reports registered sockets, and `accept` returns a descriptor that is not
open. -/
def kernelKeeps (outcomes : Outcomes) (batches : List (List Notice)) (serverSocket : ℕ)
    (w : World) : Op → Bool
  | .wait => (nextBatch batches w).all fun event =>
      decide (event.socket ∈ registered serverSocket w.trace)
  | .accept => decide (outcomes.accept (service w.trace) ∉
      insert serverSocket (openClients w.trace))
  | _ => true

/-- A change list of one socket. -/
def Event.addsOne (event : Event) : Prop := ∀ sockets, event = .added sockets → sockets.length = 1

/-- The open clients and the sockets in the queue. -/
structure Queued (serverSocket : ℕ) (clients queue : Finset ℕ) (w : World) : Prop where
  clients_follow : FollowsTrace openStep ∅ (fun _ _ => True) clients w
  queue_follows : FollowsTrace registerStep {serverSocket} (fun _ event => event.addsOne) queue w

section Calls

variable {outcomes : Outcomes} {batches : List (List Notice)} {serverSocket : ℕ}
variable {clients queue : Finset ℕ} {w : World} {socket : ℕ}

lemma Queued.clients_eq (h : Queued serverSocket clients queue w) : openClients w.trace = clients :=
  Follows.state_eq h.clients_follow

lemma Queued.queue_eq (h : Queued serverSocket clients queue w) :
    registered serverSocket w.trace = queue := Follows.state_eq h.queue_follows

lemma Queued.wait (h : Queued serverSocket clients queue w) :
    Queued serverSocket clients queue (execFed outcomes batches w .wait).2 :=
  ⟨h.clients_follow.wait ⟨rfl, trivial⟩, h.queue_follows.wait ⟨rfl, by simp [Event.addsOne]⟩⟩

lemma Queued.echo (h : Queued serverSocket clients queue w) :
    Queued serverSocket clients queue (execFed outcomes batches w (.echo socket)).2 := by
  refine ⟨h.clients_follow.echo fun event he => ⟨?_, trivial⟩,
    h.queue_follows.echo fun event he => ?_⟩
  · cases event <;> first | rfl | exact he.elim
  · cases event <;> first | exact ⟨rfl, by simp [Event.addsOne]⟩ | exact he.elim

lemma Queued.fcntl (h : Queued serverSocket clients queue w) :
    Queued serverSocket clients queue (execFed outcomes batches w (.fcntl socket)).2 :=
  ⟨h.clients_follow.fcntl ⟨rfl, trivial⟩, h.queue_follows.fcntl ⟨rfl, by simp [Event.addsOne]⟩⟩

lemma Queued.close (h : Queued serverSocket clients queue w) :
    Queued serverSocket (clients.erase socket) (queue.erase socket)
      (execFed outcomes batches w (.close socket)).2 :=
  ⟨h.clients_follow.close trivial, h.queue_follows.close (by simp [Event.addsOne])⟩

lemma Queued.accept (h : Queued serverSocket clients queue w) :
    Queued serverSocket (insert (outcomes.accept (service w.trace)) clients) queue
      (execFed outcomes batches w .accept).2 := by
  have hclients : FollowsTrace openStep ∅ (fun _ _ => True) _
    (exec (outcomes.script batches w) w .accept).2 := h.clients_follow.accept fun _ => trivial
  have hqueue : FollowsTrace registerStep {serverSocket} (fun _ event => event.addsOne) _
      (exec (outcomes.script batches w) w .accept).2 :=
    h.queue_follows.accept fun r => by cases r <;> simp [acceptEvent, Event.addsOne]
  exact ⟨hclients, hqueue⟩

lemma Queued.add (h : Queued serverSocket clients queue w) :
    Queued serverSocket clients (insert socket queue)
      (execFed outcomes batches w (.add [socket])).2 := by
  have hqueue : FollowsTrace registerStep {serverSocket} (fun _ event => event.addsOne)
      (queue ∪ [socket].toFinset) (exec (outcomes.script batches w) w (.add [socket])).2 :=
    h.queue_follows.add (by simp [Event.addsOne])
  simp only [List.toFinset_cons, List.toFinset_nil, insert_empty_eq,
    Finset.union_singleton] at hqueue
  exact ⟨h.clients_follow.add trivial, hqueue⟩

end Calls

section Events

variable {outcomes : Outcomes} {batches : List (List Notice)} {serverSocket : ℕ}
variable {guard : World → Op → Prop} {clients queue : Finset ℕ} {fresh : ℕ → Prop}

/-- The outcomes of an event: nothing changes, the client is closed, or a new socket is
accepted. -/
inductive Served (serverSocket : ℕ) (event : Notice) (fresh : ℕ → Prop)
    (clients queue : Finset ℕ) : List ℕ → World → Prop
  | kept {w : World} (h : Queued serverSocket clients queue w) :
    Served serverSocket event fresh clients queue [] w
  | closed {w : World} (hclient : event.socket ≠ serverSocket)
    (h : Queued serverSocket (clients.erase event.socket) (queue.erase event.socket) w) :
    Served serverSocket event fresh clients queue [] w
  | accepted {w : World} {socket : ℕ} (hserver : event.socket = serverSocket)
    (hfresh : fresh socket) (h : Queued serverSocket (insert socket clients) queue w) :
    Served serverSocket event fresh clients queue [socket] w

lemma serveEvent_queued (event : Notice) (hfresh : ∀ w, guard w .accept →
      openClients w.trace = clients → fresh (outcomes.accept (service w.trace))) :
    Program.Triple (execFed outcomes batches) guard (Queued serverSocket clients queue)
      (serveEvent serverSocket event) (Served serverSocket event fresh clients queue) := by
  unfold serveEvent
  split_ifs with hreadable hserver
  · have haccept : Program.Triple (execFed outcomes batches) guard
        (Queued serverSocket clients queue) callAccept fun r w => ∃ socket, r = some socket ∧
          fresh socket ∧ Queued serverSocket (insert socket clients) queue w :=
      Program.triple_op fun w hw hg => ⟨_, rfl, hfresh w hg hw.clients_eq, hw.accept⟩
    refine haccept.bind fun r => ?_
    rintro w ⟨socket, rfl, hsocket, hw⟩ -
    exact .accepted hserver hsocket hw.fcntl.fcntl
  · have hecho : Program.Triple (execFed outcomes batches) guard
        (Queued serverSocket clients queue) (callEcho event.socket)
        fun _ => Queued serverSocket clients queue := Program.triple_op fun w hw _ => hw.echo
    refine Program.Triple.bind (hecho.bind fun b => ?_) fun _ => Program.triple_done fun w hw => hw
    cases b with
    | true => exact Program.triple_done fun w hw => .kept hw
    | false => exact Program.triple_op fun w hw _ => .closed hserver hw.close
  · exact Program.triple_done fun w hw => .kept hw

/-- Within a batch: what is still to be registered, and what is still to be handled. -/
structure Pending (serverSocket : ℕ) (newSockets : List ℕ) (events : List Notice)
    (clients queue : Finset ℕ) : Prop where
  covers : insert serverSocket clients = queue ∪ newSockets.toFinset
  nodup : (events.map Notice.socket).Nodup
  reported : ∀ event ∈ events, event.socket ∈ insert serverSocket clients
  untouched : ∀ event ∈ events, event.socket ∉ newSockets
  one : newSockets = [] ∨ newSockets.length = 1 ∧ serverSocket ∉ events.map Notice.socket

section Steps

variable {newSockets : List ℕ} {event : Notice} {events : List Notice} {w : World}

lemma Pending.kept (h : Pending serverSocket newSockets (event :: events) clients queue) :
    Pending serverSocket newSockets events clients queue where
  covers := h.covers
  nodup := (List.nodup_cons.mp h.nodup).2
  reported e he := h.reported e (List.mem_cons_of_mem event he)
  untouched e he := h.untouched e (List.mem_cons_of_mem event he)
  one := h.one.imp_right fun ⟨hlength, hs⟩ => ⟨hlength, fun hmem => hs (by simp [hmem])⟩

lemma Pending.closed (h : Pending serverSocket newSockets (event :: events) clients queue)
    (hclient : event.socket ≠ serverSocket) :
    Pending serverSocket newSockets events (clients.erase event.socket)
      (queue.erase event.socket) where
  covers := by
    have hnew : event.socket ∉ newSockets.toFinset := by simpa using h.untouched event (by simp)
    rw [← Finset.erase_insert_of_ne hclient.symm, h.covers, Finset.erase_union_distrib,
      Finset.erase_eq_of_notMem hnew]
  nodup := h.kept.nodup
  reported e he := by
    have hne : e.socket ≠ event.socket := fun heq =>
      (List.nodup_cons.mp h.nodup).1 (heq ▸ List.mem_map_of_mem he)
    rw [← Finset.erase_insert_of_ne hclient.symm]
    exact Finset.mem_erase.mpr ⟨hne, h.kept.reported e he⟩
  untouched := h.kept.untouched
  one := h.kept.one

lemma Pending.accepted (h : Pending serverSocket newSockets (event :: events) clients queue)
    (hserver : event.socket = serverSocket) {socket : ℕ}
    (hfresh : socket ∉ insert serverSocket clients) :
    Pending serverSocket (newSockets ++ [socket]) events (insert socket clients) queue := by
  -- the server socket was reported, so no socket was accepted before in this batch
  obtain rfl : newSockets = [] := h.one.resolve_right fun ⟨_, hs⟩ => hs (by simp [hserver])
  have hcovers := h.covers
  simp only [List.toFinset_nil, Finset.union_empty] at hcovers
  refine ⟨?_, h.kept.nodup, fun e he => ?_, fun e he => ?_, Or.inr ⟨rfl, ?_⟩⟩
  · rw [Finset.insert_comm, hcovers]
    simp
  · exact Finset.insert_subset_insert _ (Finset.subset_insert _ _) (h.kept.reported e he)
  · have hne : e.socket ≠ socket := fun heq => hfresh (heq ▸ h.kept.reported e he)
    simpa using hne
  · exact hserver ▸ (List.nodup_cons.mp h.nodup).1

end Steps

lemma kqueueEvents_queued {newSockets : List ℕ} {events : List Notice}
    (hguard : ∀ w, guard w .accept → outcomes.accept (service w.trace) ∉
      insert serverSocket (openClients w.trace))
    (h : Pending serverSocket newSockets events clients queue) :
    Program.Triple (execFed outcomes batches) guard (Queued serverSocket clients queue)
      (kqueueEvents serverSocket newSockets events) fun newSockets w => ∃ clients queue,
        Queued serverSocket clients queue w ∧
          Pending serverSocket newSockets [] clients queue := by
  induction events generalizing newSockets clients queue with
  | nil => exact Program.triple_done fun w hw => ⟨clients, queue, hw, h⟩
  | cons event events ih =>
    rw [kqueueEvents_cons]
    have hserve : Program.Triple (execFed outcomes batches) guard
        (Queued serverSocket clients queue) (serveEvent serverSocket event)
        (Served serverSocket event (· ∉ insert serverSocket clients) clients queue) :=
      serveEvent_queued event fun w hg hclients => hclients ▸ hguard w hg
    refine hserve.bind fun sockets w hw hcalls => ?_
    cases hw with
    | kept hw =>
      rw [List.append_nil] at hcalls ⊢
      exact ih h.kept w hw hcalls
    | closed hclient hw =>
      rw [List.append_nil] at hcalls ⊢
      exact ih (h.closed hclient) w hw hcalls
    | accepted hserver hfresh hw => exact ih (h.accepted hserver hfresh) w hw hcalls

end Events

section Rounds

variable {outcomes : Outcomes} {batches : List (List Notice)} {serverSocket : ℕ}

/-- The server socket and the open clients are in the queue. -/
def AllQueued (serverSocket : ℕ) (w : World) : Prop :=
  ∃ clients, Queued serverSocket clients (insert serverSocket clients) w

/-- At the end of a batch the socket accepted in it is registered. -/
lemma Pending.register {newSockets : List ℕ} {clients queue : Finset ℕ} {w : World}
    (h : Pending serverSocket newSockets [] clients queue)
    (hw : Queued serverSocket clients queue w) :
    AllQueued serverSocket (register outcomes batches w newSockets) := by
  have hcovers := h.covers
  cases newSockets with
  | nil =>
    simp only [List.toFinset_nil, Finset.union_empty] at hcovers
    exact ⟨clients, hcovers ▸ hw⟩
  | cons socket sockets =>
    obtain rfl : sockets = [] := by simpa using h.one
    have hinsert : insert socket queue = insert serverSocket clients := by
      simpa using hcovers.symm
    have hadd : Queued serverSocket clients (insert socket queue)
      (execFed outcomes batches w (.add [socket])).2 := hw.add
    exact ⟨clients, hinsert ▸ hadd⟩

lemma nodup_nextBatch (h : ∀ batch ∈ batches, (batch.map Notice.socket).Nodup) (w : World) :
    ((nextBatch batches w).map Notice.socket).Nodup := by
  unfold nextBatch
  rw [List.getD_eq_getElem?_getD]
  cases hget : batches[waits w.trace]? with
  | none => simp
  | some batch => exact h batch (List.mem_of_getElem? hget)

lemma kqueueRound_queued (h : ∀ batch ∈ batches, (batch.map Notice.socket).Nodup) :
    Program.Triple (execFed outcomes batches)
      (fun w op => kernelKeeps outcomes batches serverSocket w op = true)
      (AllQueued serverSocket) (kqueueRound serverSocket)
      (Program.Ends (fun _ => AllQueued serverSocket) fun _ => AllQueued serverSocket) := by
  have hwait : Program.Triple (execFed outcomes batches)
      (fun w op => kernelKeeps outcomes batches serverSocket w op = true)
      (AllQueued serverSocket) callWait fun r w =>
        (∃ batch clients, r = .ready batch ∧
          Queued serverSocket clients (insert serverSocket clients) w ∧
          Pending serverSocket [] batch clients (insert serverSocket clients)) ∨
        ∃ e, r = .failed e ∧ AllQueued serverSocket w := by
    refine Program.triple_op fun w ⟨clients, hw⟩ hg => ?_
    have hwaited : Queued serverSocket clients (insert serverSocket clients)
      (execFed outcomes batches w .wait).2 := hw.wait
    cases hnext : outcomes.waited batches w with
    | ready batch =>
      have hbatch := nextBatch_of_waited hnext
      rw [execFed_ready hnext] at hwaited ⊢
      refine Or.inl ⟨batch, clients, rfl, hwaited, by simp, ?_, fun e he => ?_, by simp, Or.inl rfl⟩
      · exact hbatch ▸ nodup_nextBatch h w
      · rw [← hw.queue_eq]
        simpa using List.all_eq_true.mp hg e (hbatch ▸ he)
    | failed e =>
      rw [execFed_failed hnext] at hwaited ⊢
      exact Or.inr ⟨e, rfl, clients, hwaited⟩
  have hguard : ∀ w, kernelKeeps outcomes batches serverSocket w .accept = true →
      outcomes.accept (service w.trace) ∉ insert serverSocket (openClients w.trace) :=
    fun w hg => of_decide_eq_true hg
  refine hwait.bind fun r => ?_
  rintro w (⟨batch, clients, rfl, hw, hpending⟩ | ⟨e, rfl, hw⟩) hcalls
  · have hevents : Program.Triple (execFed outcomes batches)
        (fun w op => kernelKeeps outcomes batches serverSocket w op = true)
        (Queued serverSocket clients (insert serverSocket clients))
        (kqueueEvents serverSocket [] batch) _ := kqueueEvents_queued hguard hpending
    refine hevents.bind (fun newSockets => ?_) w hw hcalls
    rintro w ⟨clients, queue, hw, hpending⟩ -
    have hqueued : AllQueued serverSocket (register outcomes batches w newSockets) :=
      hpending.register hw
    cases newSockets with
    | nil => exact hqueued
    | cons socket sockets => exact hqueued
  · exact hw

lemma kqueueSingleRound_queued : Program.Triple (execFed outcomes batches) (fun _ _ => True)
    (AllQueued serverSocket) (kqueueSingleRound serverSocket)
      (Program.Ends (fun _ => AllQueued serverSocket) fun _ => AllQueued serverSocket) := by
  rintro w ⟨clients, hw⟩ -
  have hwaited : Queued serverSocket clients (insert serverSocket clients)
    (execFed outcomes batches w .wait).2 := hw.wait
  cases hnext : outcomes.waited batches w with
  | failed e =>
    rw [execFed_failed hnext] at hwaited
    rw [kqueueSingleRound_fails hnext]
    exact ⟨clients, hwaited⟩
  | ready batch =>
    rw [execFed_ready hnext] at hwaited
    cases batch with
    | nil =>
      rw [kqueueSingleRound_idle hnext]
      exact ⟨clients, hwaited⟩
    | cons event events =>
      have hserved : Served serverSocket event (fun _ => True) clients
          (insert serverSocket clients) ((serveEvent serverSocket event).run
            (execFed outcomes batches) (w.record .waited)).1 _ :=
        @serveEvent_queued outcomes batches serverSocket (fun _ _ => True) _ _ _ event
          (fun _ _ _ => trivial) _ hwaited fun _ _ => trivial
      rw [kqueueSingleRound_run hnext]
      generalize (serveEvent serverSocket event).run (execFed outcomes batches)
        (w.record .waited) = served at hserved ⊢
      obtain ⟨sockets, w'⟩ := served
      cases hserved with
      | kept hw' => exact ⟨clients, hw'⟩
      | closed hclient hw' =>
        rw [Finset.erase_insert_of_ne hclient.symm] at hw'
        exact ⟨_, hw'⟩
      | @accepted _ socket _ _ hw' =>
        have hadd : Queued serverSocket (insert socket clients)
          (insert socket (insert serverSocket clients))
          (execFed outcomes batches w' (.add [socket])).2 := hw'.add
        rw [Finset.insert_comm] at hadd
        exact ⟨_, hadd⟩

/-- However the loop ends. -/
lemma AllQueued.of_ends {result : Except Stop Unit} {w : World}
    (h : Program.Ends (fun _ => AllQueued serverSocket) (fun _ => AllQueued serverSocket)
      result w) : AllQueued serverSocket w := by
  cases result with
  | ok _ => exact h
  | error e => exact h

end Rounds

section Runs

lemma openClients_service (trace : List Event) :
    openClients (service trace) = openClients trace := by
  have hstep : (fun clients event =>
      if event.serves = true then openStep clients event else clients) = openStep := by
    funext clients event
    cases event <;> rfl
  rw [openClients, service, List.foldl_filter, hstep]
  rfl

/-- The two servers make the same calls on the connections and have the same sockets in
their queues, and the batched one never registers more than one socket at a time. If `kevent` fails
after the batches, both leave their loops. -/
theorem kqueue_batches_as_single_events (outcomes : Outcomes) (batches : List (List Notice))
    (serverSocket later : ℕ) (errno : Errno) (buffer : ℕ → UInt8)
    (hnodup : ∀ batch ∈ batches, (batch.map Notice.socket).Nodup)
    (hkernel : ∀ x ∈ (Program.loop (fun _ => kqueueRound serverSocket)
      (batches.length + later) ()).calls (execFed outcomes batches) (.start errno buffer),
        kernelKeeps outcomes batches serverSocket x.1 x.2 = true) :
    let batched := (Program.loop (fun _ => kqueueRound serverSocket)
      (batches.length + later) ()).run (execFed outcomes batches) (.start errno buffer)
    let single := (Program.loop (fun _ => kqueueSingleRound serverSocket)
      (batches.flatten.length + later) ()).run
      (execFed outcomes (batches.flatten.map fun event => [event])) (.start errno buffer)
    batched.1 = outcomes.exit later ∧ single.1 = outcomes.exit later ∧
      service batched.2.trace = service single.2.trace ∧
      registered serverSocket batched.2.trace = registered serverSocket single.2.trace ∧
      ∀ sockets, .added sockets ∈ batched.2.trace → sockets.length = 1 := by
  intro batched single
  have hstart : AllQueued serverSocket (.start errno buffer) := ⟨∅, follows_nil, follows_nil⟩
  obtain ⟨hbatched, hsingle, hsame⟩ : batched.1 = outcomes.exit later ∧
    single.1 = outcomes.exit later ∧ SameService batched.2 single.2 :=
      kqueue_same ⟨rfl, rfl, rfl⟩ rfl rfl
  obtain ⟨clients, hqueue⟩ : AllQueued serverSocket batched.2 := .of_ends
    (Program.triple_loop (fun _ => kqueueRound_queued hnodup) _ () _ hstart hkernel)
  obtain ⟨clients', hqueue'⟩ : AllQueued serverSocket single.2 := .of_ends
    (Program.triple_loop (fun _ => kqueueSingleRound_queued) _ () _ hstart fun _ _ => trivial)
  have hclients : clients = clients' := by
    rw [← hqueue.clients_eq, ← hqueue'.clients_eq, ← openClients_service, hsame.service_eq,
      openClients_service]
  refine ⟨hbatched, hsingle, hsame.service_eq, ?_, fun sockets hs => ?_⟩
  · rw [hqueue.queue_eq, hqueue'.queue_eq, hclients]
  · obtain ⟨past, rest, htrace⟩ := List.append_of_mem hs
    have hpast : past ++ [.added sockets] <+: batched.2.trace := ⟨rest, by simp [htrace]⟩
    exact hqueue.queue_follows.permitted past _ hpast sockets rfl

/-- The first `recv` finds the connection closed; `accept` returns the same descriptor. -/
def reissuing : Outcomes where
  wait := some (.other 9)
  recv past := if past.length = 3 then .closed else .data (.ofByte 1)
  send _ := .accepted 1
  accept _ := 5
  fcntl _ := none
  close _ := none

def reissuingBatches : List (List Notice) :=
  [[⟨3, true, false⟩], [⟨5, true, false⟩, ⟨3, true, false⟩], [⟨5, true, false⟩]]

theorem kqueue_batches_as_single_events_reissuing :
    let batched := (Program.loop (fun _ => kqueueRound 3) (reissuingBatches.length + 1) ()).run
      (execFed reissuing reissuingBatches) (.start (.other 0) fun _ => 0)
    let single := (Program.loop (fun _ => kqueueSingleRound 3)
      (reissuingBatches.flatten.length + 1) ()).run
      (execFed reissuing (reissuingBatches.flatten.map fun event => [event]))
      (.start (.other 0) fun _ => 0)
    batched.1 = .error .leftLoop ∧ single.1 = .error .leftLoop ∧
      service batched.2.trace = service single.2.trace ∧
      registered 3 batched.2.trace = registered 3 single.2.trace ∧
      ∀ sockets, .added sockets ∈ batched.2.trace → sockets.length = 1 :=
  kqueue_batches_as_single_events reissuing reissuingBatches 3 1 (.other 0) (fun _ => 0)
    (by decide +kernel) (by decide +kernel)

end Runs
end UnixProgramming.EchoServer
