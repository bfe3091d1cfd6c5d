import UnixProgramming.EchoServerDescriptors

/-! The kqueue server that handles events in batches against the one that handles them
one at a time. Both get the same events and the same outcomes of the calls that serve the
connections; they differ in when they wait and when they register new sockets. -/
namespace UnixProgramming.EchoServer

/-- Neither waiting nor registering. -/
def Event.serves : Event → Bool
  | waited | added _ => false
  | _ => true

/-- The calls that serve the connections: `recv`, `send`, `close`, `accept` and `fcntl`. -/
def service (trace : List Event) : List Event := trace.filter Event.serves

/-- The outcomes of the calls may depend on the calls before them; `accept` succeeds. After the
last batch `kevent` may fail. -/
structure Outcomes where
  wait : Option Errno
  recv : List Event → Received
  send : List Event → Sent
  accept : List Event → ℕ
  fcntl : List Event → Option Errno
  close : List Event → Option Errno

def waitStep (count : ℕ) : Event → ℕ
  | .waited => count + 1
  | _ => count

def waits (trace : List Event) : ℕ := trace.foldl waitStep 0

/-- The events reported by the next `kevent`. -/
def nextBatch (batches : List (List Notice)) (w : World) : List Notice :=
  batches.getD (waits w.trace) []

def Outcomes.waited (outcomes : Outcomes) (batches : List (List Notice)) (w : World) : Waited :=
  match batches[waits w.trace]? with
  | some batch => .ready batch
  | none => outcomes.wait.elim (.ready []) .failed

/-- How the loop ends when rounds follow those of the batches. -/
def Outcomes.exit (outcomes : Outcomes) : ℕ → Except Stop Unit
  | 0 => .ok ()
  | _ + 1 => if outcomes.wait.isSome then .error .leftLoop else .ok ()

def Outcomes.script (outcomes : Outcomes) (batches : List (List Notice)) (w : World) : Script where
  wait _ := outcomes.waited batches w
  recv _ := outcomes.recv (service w.trace)
  send _ := outcomes.send (service w.trace)
  accept _ := .ok (outcomes.accept (service w.trace))
  fcntl _ := outcomes.fcntl (service w.trace)
  close _ := outcomes.close (service w.trace)
  add _ := none

def execFed (outcomes : Outcomes) (batches : List (List Notice)) (w : World) (op : Op) :
    op.Answer × World := exec (outcomes.script batches w) w op

section Simulation

variable {outcomes : Outcomes} {batches batches' : List (List Notice)}

/-- The same state as far as the connections are concerned. -/
structure SameService (v w : World) : Prop where
  errno_eq : v.errno = w.errno
  buffer_eq : v.buffer = w.buffer
  service_eq : service v.trace = service w.trace

lemma service_snoc (trace : List Event) (event : Event) :
    service (trace ++ [event]) = service trace ++ if event.serves then [event] else [] := by
  simp [service, List.filter_singleton]

lemma SameService.record {v w : World} (h : SameService v w) (event : Event) :
    SameService (v.record event) (w.record event) :=
  ⟨h.errno_eq, h.buffer_eq, by simp [service_snoc, h.service_eq]⟩

lemma SameService.fail {v w : World} (h : SameService v w) (e : Option Errno) :
    SameService (v.fail e) (w.fail e) := by
  cases e with
  | none => exact h
  | some e => exact ⟨rfl, h.buffer_eq, h.service_eq⟩

section Scripts

variable {script script' : Script} {v w : World} {socket : ℕ}

lemma recv_same (h : SameService v w) (hr : script.recv v.clock = script'.recv w.clock) :
    (recv script v socket).1 = (recv script' w socket).1 ∧
      SameService (recv script v socket).2 (recv script' w socket).2 := by
  have hrecord := h.record (.received socket (script'.recv w.clock))
  unfold recv
  rw [hr]
  cases hout : script'.recv w.clock with
  | data chunk =>
    rw [hout] at hrecord
    refine ⟨rfl, hrecord.errno_eq, ?_, hrecord.service_eq⟩
    simp only [hrecord.buffer_eq]
  | closed =>
    rw [hout] at hrecord
    exact ⟨rfl, hrecord⟩
  | failed e =>
    rw [hout] at hrecord
    exact ⟨rfl, hrecord.fail (some e)⟩

lemma send_same (h : SameService v w) (hs : script.send v.clock = script'.send w.clock)
    (length : ℕ) :
    SameService (send script v socket length).2 (send script' w socket length).2 := by
  unfold send
  rw [hs, h.buffer_eq]
  cases script'.send w.clock with
  | accepted count => exact h.record _
  | failed e => exact (h.record (.sent socket w.buffer length [])).fail (some e)

lemma echo_same (h : SameService v w) (hr : script.recv v.clock = script'.recv w.clock)
    (hs : script.send (v.clock + 1) = script'.send (w.clock + 1)) :
    (echo script v socket).1 = (echo script' w socket).1 ∧
      SameService (echo script v socket).2 (echo script' w socket).2 := by
  obtain ⟨hreceived, hrecv⟩ := @recv_same script script' v w socket h hr
  have hsend := @send_same script script' _ _ socket hrecv (by rw [recv_clock, recv_clock, hs])
  simp only [echo, hreceived, hrecv.errno_eq]
  split_ifs
  · exact ⟨rfl, hrecv⟩
  · exact ⟨rfl, hsend _⟩

end Scripts

/-- The calls that serve the connections. -/
def Op.serves : Op → Prop
  | wait | add _ => False
  | _ => True

lemma execFed_same (op : Op) (hop : op.serves) (v w : World) (h : SameService v w) :
    (execFed outcomes batches v op).1 = (execFed outcomes batches' w op).1 ∧
      SameService (execFed outcomes batches v op).2 (execFed outcomes batches' w op).2 := by
  have hservice := h.service_eq
  cases op with
  | wait => exact hop.elim
  | add sockets => exact hop.elim
  | echo socket =>
    refine echo_same h ?_ ?_
    · simp only [Outcomes.script, hservice]
    · simp only [Outcomes.script, hservice]
  | close socket =>
    have hfail := (h.record (.closed socket)).fail (outcomes.close (service w.trace))
    refine ⟨rfl, ?_⟩
    simpa only [execFed, exec, Outcomes.script, hservice] using hfail
  | fcntl socket =>
    have hfail := (h.record (.fcntl socket)).fail (outcomes.fcntl (service w.trace))
    refine ⟨rfl, ?_⟩
    simpa only [execFed, exec, Outcomes.script, hservice] using hfail
  | accept =>
    have hrecord := h.record (.accepted (outcomes.accept (service w.trace)))
    simp only [execFed, exec, Outcomes.script, hservice]
    exact ⟨rfl, hrecord⟩

lemma waited_of_drop {w : World} {batch : List Notice} {rest : List (List Notice)}
    (h : batches.drop (waits w.trace) = batch :: rest) :
    outcomes.waited batches w = .ready batch ∧ batches.drop (waits w.trace + 1) = rest := by
  constructor
  · have hget : batches[waits w.trace]? = some batch := by
      rw [← List.head?_drop, h, List.head?_cons]
    simp [Outcomes.waited, hget]
  · rw [← List.tail_drop, h, List.tail_cons]

/-- After the last batch `kevent` fails, or there is nothing to report. -/
lemma waited_of_drop_nil {w : World} (h : batches.drop (waits w.trace) = []) :
    outcomes.waited batches w = outcomes.wait.elim (.ready []) .failed := by
  simp [Outcomes.waited, List.getElem?_eq_none (List.drop_eq_nil_iff.mp h)]

lemma nextBatch_of_waited {w : World} {batch : List Notice}
    (h : outcomes.waited batches w = .ready batch) : nextBatch batches w = batch := by
  unfold Outcomes.waited at h
  unfold nextBatch
  rw [List.getD_eq_getElem?_getD]
  cases hget : batches[waits w.trace]? with
  | some first =>
    rw [hget] at h
    exact Waited.ready.inj h
  | none =>
    rw [hget] at h
    cases hfails : outcomes.wait with
    | none =>
      rw [hfails] at h
      exact Waited.ready.inj h
    | some e =>
      rw [hfails] at h
      cases h

lemma execFed_ready {w : World} {batch : List Notice}
    (h : outcomes.waited batches w = .ready batch) :
    execFed outcomes batches w .wait = (.ready batch, w.record .waited) := by
  simp only [execFed, exec, Outcomes.script, h]

lemma execFed_failed {w : World} {e : Errno} (h : outcomes.waited batches w = .failed e) :
    execFed outcomes batches w .wait = (.failed e, (w.record .waited).fail (some e)) := by
  simp only [execFed, exec, Outcomes.script, h]

lemma SameService.wait {v w : World} (h : SameService v w) : SameService (v.record .waited) w := by
  refine ⟨h.errno_eq, h.buffer_eq, ?_⟩
  rw [World.record_trace, service_snoc, h.service_eq]
  simp [Event.serves]

lemma SameService.add {v w : World} (h : SameService v w) (sockets : List ℕ) :
    SameService (execFed outcomes batches v (.add sockets)).2 w := by
  refine ⟨h.errno_eq, h.buffer_eq, ?_⟩
  have htrace : (execFed outcomes batches v (.add sockets)).2.trace =
    v.trace ++ [.added sockets] := rfl
  rw [htrace, service_snoc, h.service_eq]
  simp [Event.serves]

lemma SameService.symm {v w : World} (h : SameService v w) : SameService w v :=
  ⟨h.errno_eq.symm, h.buffer_eq.symm, h.service_eq.symm⟩

lemma execFed_waits (op : Op) (hop : op.serves) (w : World) :
    waits (execFed outcomes batches w op).2.trace = waits w.trace := by
  have h : FollowsTrace waitStep 0 (fun _ _ => True) (waits w.trace) w :=
    ⟨rfl, fun _ _ _ => trivial⟩
  have hnext : FollowsTrace waitStep 0 (fun _ _ => True) (waits w.trace)
      (execFed outcomes batches w op).2 := by
    cases op with
    | wait => exact hop.elim
    | add sockets => exact hop.elim
    | echo socket =>
      refine h.echo fun event he => ⟨?_, trivial⟩
      cases event <;> first | rfl | exact he.elim
    | close socket => exact h.close trivial
    | fcntl socket => exact h.fcntl ⟨rfl, trivial⟩
    | accept =>
      have haccept : FollowsTrace waitStep 0 (fun _ _ => True) _
        (exec (outcomes.script batches w) w .accept).2 := h.accept fun _ => trivial
      exact haccept
  exact hnext.state_eq

lemma run_waits {α : Type} {p : Server α} (hp : p.Uses Op.serves) (w : World) :
    waits (p.run (execFed outcomes batches) w).2.trace = waits w.trace := by
  have hop : ∀ op, op.serves → ∀ u v : World, u = v ∧ waits v.trace = waits w.trace →
      (execFed outcomes batches u op).1 = (execFed outcomes batches v op).1 ∧
        (execFed outcomes batches u op).2 = (execFed outcomes batches v op).2 ∧
          waits (execFed outcomes batches v op).2.trace = waits w.trace := by
    rintro op hop u v ⟨rfl, hv⟩
    exact ⟨rfl, rfl, (execFed_waits op hop u).trans hv⟩
  exact (Program.run_related hop hp (s := w) ⟨rfl, rfl⟩).2.2

end Simulation

section Events

/-- What both servers do with an event; the new sockets are returned. -/
def serveEvent (serverSocket : ℕ) (event : Notice) : Server (List ℕ) := do
  if event.readable then
    if event.socket = serverSocket then kqueueAcceptNewConnection []
    else
      echoOrClose event.socket
      return []
  else return []

variable {outcomes : Outcomes} {batches batches' : List (List Notice)} {serverSocket : ℕ}

lemma uses_setNonblock (socket : ℕ) : (setNonblock socket).Uses Op.serves :=
  ⟨trivial, fun _ => ⟨trivial, fun _ => trivial⟩⟩

lemma uses_kqueueAcceptNewConnection (newSockets : List ℕ) :
    (kqueueAcceptNewConnection newSockets).Uses Op.serves := by
  refine ⟨trivial, fun r => ?_⟩
  cases r with
  | some socket => exact (uses_setNonblock socket).bind fun _ => trivial
  | none => trivial

lemma uses_echoOrClose (socket : ℕ) : (echoOrClose socket).Uses Op.serves := by
  refine ⟨trivial, fun r => ?_⟩
  cases r with
  | true => trivial
  | false => exact ⟨trivial, fun _ => trivial⟩

lemma uses_serveEvent (event : Notice) : (serveEvent serverSocket event).Uses Op.serves := by
  unfold serveEvent
  split_ifs
  · exact uses_kqueueAcceptNewConnection []
  · exact (uses_echoOrClose event.socket).bind fun _ => trivial
  · trivial

lemma kqueueEvents_cons (newSockets : List ℕ) (event : Notice) (events : List Notice) :
    kqueueEvents serverSocket newSockets (event :: events) =
      (serveEvent serverSocket event).bind fun sockets =>
        kqueueEvents serverSocket (newSockets ++ sockets) events := by
  simp only [kqueueEvents, serveEvent]
  split_ifs
  · change Program.perform _ _ = Program.perform _ _
    congr 1
    funext r
    cases r with
    | some socket => rfl
    | none => exact congrArg (kqueueEvents serverSocket · events) (List.append_nil _).symm
  · change Program.perform _ _ = Program.perform _ _
    congr 1
    funext r
    cases r with
    | true => exact congrArg (kqueueEvents serverSocket · events) (List.append_nil _).symm
    | false =>
      change Program.perform _ _ = Program.perform _ _
      congr 1
      funext _
      exact congrArg (kqueueEvents serverSocket · events) (List.append_nil _).symm
  · exact congrArg (kqueueEvents serverSocket · events) (List.append_nil _).symm

lemma uses_kqueueEvents (newSockets : List ℕ) (events : List Notice) :
    (kqueueEvents serverSocket newSockets events).Uses Op.serves := by
  induction events generalizing newSockets with
  | nil => trivial
  | cons event events ih =>
    rw [kqueueEvents_cons]
    exact (uses_serveEvent event).bind fun _ => ih _

/-- Registering a list of sockets, unless it is empty. -/
def register (outcomes : Outcomes) (batches : List (List Notice)) (w : World) :
    List ℕ → World
  | [] => w
  | sockets => (execFed outcomes batches w (.add sockets)).2

lemma kqueueRound_run {v : World} {batch : List Notice}
    (h : outcomes.waited batches v = .ready batch) :
    let events := (kqueueEvents serverSocket [] batch).run (execFed outcomes batches)
      (v.record .waited)
    (kqueueRound serverSocket).run (execFed outcomes batches) v =
      (.ok (), register outcomes batches events.2 events.1) := by
  intro events
  have hwait : (callWait : Server Waited).run (execFed outcomes batches) v =
    (.ready batch, v.record .waited) := execFed_ready h
  have hadd : ∀ sockets w, (addNewSockets sockets).run (execFed outcomes batches) w =
    (true, (execFed outcomes batches w (.add sockets)).2) := fun _ _ => rfl
  have hevents : (kqueueEvents serverSocket [] batch).run
    (execFed outcomes batches) (v.record .waited) = events := rfl
  simp only [kqueueRound, Program.bind_eq_bind, Program.run_bind, hwait, hevents]
  cases hnew : events.1 with
  | nil => simp [register]
  | cons socket sockets => simp [hadd, register]

lemma kqueueSingleRound_run {w : World} {event : Notice} {events : List Notice}
    (h : outcomes.waited batches w = .ready (event :: events)) :
    let served := (serveEvent serverSocket event).run (execFed outcomes batches)
      (w.record .waited)
    (kqueueSingleRound serverSocket).run (execFed outcomes batches) w =
      (.ok (), register outcomes batches served.2 served.1) := by
  have hwait : (callWait : Server Waited).run (execFed outcomes batches) w =
    (.ready (event :: events), w.record .waited) := execFed_ready h
  have haccept : ∀ w, (callAccept : Server (Option ℕ)).run (execFed outcomes batches) w =
      (some (outcomes.accept (service w.trace)), (execFed outcomes batches w .accept).2) :=
    fun _ => rfl
  have hadd : ∀ sockets w, (callAdd sockets).run (execFed outcomes batches) w =
    (true, (execFed outcomes batches w (.add sockets)).2) := fun _ _ => rfl
  simp only [kqueueSingleRound, serveEvent, Program.bind_eq_bind, Program.run_bind, hwait]
  split_ifs
  · simp [kqueueSingleAcceptNewConnection, kqueueAcceptNewConnection, haccept, addNewConnection,
      hadd, register]
  · simp [register]
  · simp [register]

lemma kqueueRound_fails {v : World} {e : Errno} (h : outcomes.waited batches v = .failed e) :
    (kqueueRound serverSocket).run (execFed outcomes batches) v =
      (.error .leftLoop, (v.record .waited).fail (some e)) := by
  have hwait : (callWait : Server Waited).run (execFed outcomes batches) v =
    (.failed e, (v.record .waited).fail (some e)) := execFed_failed h
  simp only [kqueueRound, Program.bind_eq_bind, Program.run_bind, hwait]
  rfl

lemma kqueueSingleRound_fails {w : World} {e : Errno}
    (h : outcomes.waited batches w = .failed e) :
    (kqueueSingleRound serverSocket).run (execFed outcomes batches) w =
      (.error .leftLoop, (w.record .waited).fail (some e)) := by
  have hwait : (callWait : Server Waited).run (execFed outcomes batches) w =
    (.failed e, (w.record .waited).fail (some e)) := execFed_failed h
  simp only [kqueueSingleRound, Program.bind_eq_bind, Program.run_bind, hwait]
  rfl

lemma kqueueSingleRound_idle {w : World} (h : outcomes.waited batches w = .ready []) :
    (kqueueSingleRound serverSocket).run (execFed outcomes batches) w =
      (.ok (), w.record .waited) := by
  have hwait : (callWait : Server Waited).run (execFed outcomes batches) w =
    (.ready [], w.record .waited) := execFed_ready h
  simp only [kqueueSingleRound, Program.bind_eq_bind, Program.run_bind, hwait]
  rfl

lemma serveEvent_same {v w : World} (event : Notice) (h : SameService v w) :
    ((serveEvent serverSocket event).run (execFed outcomes batches) v).1 =
        ((serveEvent serverSocket event).run (execFed outcomes batches') w).1 ∧
      SameService ((serveEvent serverSocket event).run (execFed outcomes batches) v).2
        ((serveEvent serverSocket event).run (execFed outcomes batches') w).2 :=
  Program.run_related execFed_same (uses_serveEvent event) h

lemma SameService.register {v w : World} (h : SameService v w) (sockets : List ℕ) :
    SameService (register outcomes batches v sockets) w := by
  cases sockets with
  | nil => exact h
  | cons socket sockets => exact h.add _

lemma waits_register (w : World) (sockets : List ℕ) :
    waits (register outcomes batches w sockets).trace = waits w.trace := by
  cases sockets with
  | nil => rfl
  | cons socket sockets =>
    have htrace : (execFed outcomes batches w (.add (socket :: sockets))).2.trace =
      w.trace ++ [.added (socket :: sockets)] := rfl
    simp [EchoServer.register, htrace, waits, waitStep]

lemma waits_record (w : World) : waits (w.record .waited).trace = waits w.trace + 1 := by
  simp [waits, waitStep]

/-- The events of a batch, handled one at a time, take the other server through the same
service. -/
lemma kqueueEvents_same {events : List Notice} {newSockets : List ℕ} {rest : List (List Notice)}
    {v w : World} (h : SameService v w)
    (hfed : batches'.drop (waits w.trace) = events.map (fun event => [event]) ++ rest) :
    ∃ w', SameService ((kqueueEvents serverSocket newSockets events).run
        (execFed outcomes batches) v).2 w' ∧ batches'.drop (waits w'.trace) = rest ∧
      ∀ n, (Program.loop (fun _ => kqueueSingleRound serverSocket) (events.length + n) ()).run
          (execFed outcomes batches') w =
        (Program.loop (fun _ => kqueueSingleRound serverSocket) n ()).run
          (execFed outcomes batches') w' := by
  induction events generalizing newSockets v w with
  | nil => exact ⟨w, h, hfed, fun n => by rw [List.length_nil, Nat.zero_add]⟩
  | cons event events ih =>
    obtain ⟨hnext, hrest⟩ := @waited_of_drop outcomes batches' _ _ _ hfed
    have hw : SameService v (w.record .waited) := h.symm.wait.symm
    set served := (serveEvent serverSocket event).run (execFed outcomes batches')
      (w.record .waited) with hrun
    have hsingle : (kqueueSingleRound serverSocket).run (execFed outcomes batches') w =
      (.ok (), register outcomes batches' served.2 served.1) := kqueueSingleRound_run hnext
    have hsame : SameService ((serveEvent serverSocket event).run (execFed outcomes batches) v).2
        (register outcomes batches' served.2 served.1) :=
      ((serveEvent_same event hw).2.symm.register _).symm
    have hwaits : waits (register outcomes batches' served.2 served.1).trace =
        waits w.trace + 1 := by
      rw [waits_register, hrun, run_waits (uses_serveEvent event), waits_record]
    obtain ⟨w', hsame', hrest', hloop⟩ := ih hsame (by rw [hwaits]; exact hrest)
    refine ⟨w', ?_, hrest', fun n => ?_⟩
    · rw [kqueueEvents_cons, Program.run_bind]
      exact hsame'
    · rw [List.length_cons, Nat.succ_add, Program.loop, Program.run_bind, hsingle]
      exact hloop n

/-- The rounds after the last batch. -/
lemma kqueue_idle {later : ℕ} {v w : World} (h : SameService v w)
    (hv : batches.drop (waits v.trace) = []) (hw : batches'.drop (waits w.trace) = []) :
    let batched := (Program.loop (fun _ => kqueueRound serverSocket) later ()).run
      (execFed outcomes batches) v
    let single := (Program.loop (fun _ => kqueueSingleRound serverSocket) later ()).run
      (execFed outcomes batches') w
    batched.1 = outcomes.exit later ∧ single.1 = outcomes.exit later ∧
      SameService batched.2 single.2 := by
  induction later generalizing v w with
  | zero => exact ⟨rfl, rfl, h⟩
  | succ later ih =>
    have hnext := @waited_of_drop_nil outcomes batches v hv
    have hnext' := @waited_of_drop_nil outcomes batches' w hw
    have hboth : SameService (v.record .waited) (w.record .waited) := h.wait.symm.wait.symm
    cases hfails : outcomes.wait with
    | none =>
      rw [hfails, Option.elim_none] at hnext hnext'
      have hexit : outcomes.exit (later + 1) = outcomes.exit later := by
        cases later <;> simp [Outcomes.exit, hfails]
      have hround : (kqueueRound serverSocket).run (execFed outcomes batches) v =
        (.ok (), v.record .waited) := kqueueRound_run hnext
      have hsingle : (kqueueSingleRound serverSocket).run (execFed outcomes batches') w =
        (.ok (), w.record .waited) := kqueueSingleRound_idle hnext'
      simp only [Program.loop, Program.run_bind, hround, hsingle, hexit]
      refine ih hboth ?_ ?_
      · rw [waits_record, ← List.tail_drop, hv, List.tail_nil]
      · rw [waits_record, ← List.tail_drop, hw, List.tail_nil]
    | some e =>
      rw [hfails, Option.elim_some] at hnext hnext'
      have hexit : outcomes.exit (later + 1) = .error .leftLoop := by
        simp [Outcomes.exit, hfails]
      have hround := @kqueueRound_fails outcomes batches serverSocket v e hnext
      have hsingle := @kqueueSingleRound_fails outcomes batches' serverSocket w e hnext'
      simp only [Program.loop, Program.run_bind, hround, hsingle, hexit]
      exact ⟨rfl, rfl, hboth.fail (some e)⟩

/-- Whole batches, and the rounds after them. -/
lemma kqueue_same {todo : List (List Notice)} {later : ℕ} {v w : World} (h : SameService v w)
    (hbatched : batches.drop (waits v.trace) = todo)
    (hsingle : batches'.drop (waits w.trace) = todo.flatten.map fun event => [event]) :
    let batched := (Program.loop (fun _ => kqueueRound serverSocket) (todo.length + later) ()).run
      (execFed outcomes batches) v
    let single := (Program.loop (fun _ => kqueueSingleRound serverSocket)
      (todo.flatten.length + later) ()).run (execFed outcomes batches') w
    batched.1 = outcomes.exit later ∧ single.1 = outcomes.exit later ∧
      SameService batched.2 single.2 := by
  induction todo generalizing v w with
  | nil =>
    rw [List.length_nil, List.flatten_nil, List.length_nil, Nat.zero_add]
    exact kqueue_idle h hbatched hsingle
  | cons batch todo ih =>
    obtain ⟨hnext, hrest⟩ := @waited_of_drop outcomes batches _ _ _ hbatched
    rw [List.flatten_cons, List.map_append] at hsingle
    have hv : SameService (v.record .waited) w := h.wait
    obtain ⟨w', hsame, hrest', hloop⟩ := @kqueueEvents_same outcomes batches batches' serverSocket
      batch [] _ _ _ hv hsingle
    set events := (kqueueEvents serverSocket [] batch).run (execFed outcomes batches)
      (v.record .waited) with hrun
    have hround : (kqueueRound serverSocket).run (execFed outcomes batches) v =
      (.ok (), register outcomes batches events.2 events.1) := kqueueRound_run hnext
    have hwaits : waits (register outcomes batches events.2 events.1).trace =
        waits v.trace + 1 := by
      rw [waits_register, hrun, run_waits (uses_kqueueEvents [] batch), waits_record]
    have hih := ih (hsame.register events.1) (by rw [hwaits]; exact hrest) hrest'
    simp only [List.length_cons, List.flatten_cons, List.length_append, Nat.add_assoc, hloop]
    rw [← Nat.add_assoc, Nat.add_right_comm, Program.loop, Program.run_bind, hround]
    exact hih

end Events
end UnixProgramming.EchoServer
