import UnixProgramming.EchoServerPollSet
import UnixProgramming.EchoServerTraces

/-! The descriptors that the select and the poll server hold open. A descriptor may be
issued again after it was closed; the open clients are read off the calls made so far. -/
namespace UnixProgramming.EchoServer

def openStep (clients : Finset ℕ) : Event → Finset ℕ
  | .accepted socket => insert socket clients
  | .closed socket => clients.erase socket
  | _ => clients

/-- The clients that were accepted and not closed since. -/
def openClients (trace : List Event) : Finset ℕ := trace.foldl openStep ∅

/-- Every descriptor that is closed is open at that time. -/
def ClosesOpen (trace : List Event) : Prop :=
  EachAllowed (fun past event => ∀ socket, event = .closed socket → socket ∈ openClients past) trace

@[simp] lemma openClients_snoc (trace : List Event) (event : Event) :
    openClients (trace ++ [event]) = openStep (openClients trace) event := by
  simp [openClients]

lemma accepted_of_mem_openClients {trace : List Event} {socket : ℕ}
    (h : socket ∈ openClients trace) : .accepted socket ∈ trace := by
  induction trace using List.reverseRecOn with
  | nil => simp [openClients] at h
  | append_singleton trace event ih =>
    rw [openClients_snoc] at h
    cases event with
    | accepted s =>
      rcases Finset.mem_insert.mp h with rfl | h
      · simp
      · exact List.mem_append_left _ (ih h)
    | closed s => exact List.mem_append_left _ (ih (Finset.mem_of_mem_erase h))
    | waited => exact List.mem_append_left _ (ih h)
    | received s outcome => exact List.mem_append_left _ (ih h)
    | sent s memory length taken => exact List.mem_append_left _ (ih h)
    | acceptFailed => exact List.mem_append_left _ (ih h)
    | fcntl s => exact List.mem_append_left _ (ih h)
    | added sockets => exact List.mem_append_left _ (ih h)

/-- The open clients are `clients`, and only open ones were closed. -/
def Tracked (clients : Finset ℕ) : World → Prop :=
  FollowsTrace openStep ∅ (fun clients event => ∀ socket, event = .closed socket → socket ∈ clients)
    clients

lemma Tracked.clients_eq {clients : Finset ℕ} {w : World} (h : Tracked clients w) :
    openClients w.trace = clients := Follows.state_eq h

lemma Tracked.closesOpen {clients : Finset ℕ} {w : World} (h : Tracked clients w) :
    ClosesOpen w.trace := Follows.permitted h

lemma mem_eraseAll {openSockets : Sockets} {closedSockets : List ℕ} {socket : ℕ} :
    socket ∈ eraseAll openSockets closedSockets ↔
      socket ∈ openSockets ∧ socket ∉ closedSockets := by
  induction closedSockets generalizing openSockets with
  | nil => simp [eraseAll]
  | cons s closedSockets ih =>
    have hstep : eraseAll openSockets (s :: closedSockets) =
        eraseAll (openSockets.erase s) closedSockets := rfl
    rw [hstep, ih, OrderedSet.mem_erase]
    simp only [id, List.mem_cons, not_or]
    tauto

lemma toFinset_eraseAll (openSockets : Sockets) (closedSockets : List ℕ) :
    (eraseAll openSockets closedSockets).elems.toFinset =
      openSockets.elems.toFinset \ closedSockets.toFinset := by
  ext socket
  simp [OrderedSet.mem_elems, mem_eraseAll]

lemma toFinset_insert (openSockets : Sockets) (socket : ℕ) :
    (openSockets.insert socket).elems.toFinset = insert socket openSockets.elems.toFinset := by
  ext s
  simp [OrderedSet.mem_elems, OrderedSet.mem_insert_of_injective Function.injective_id]

section Rounds

variable {script : Script} {guard : World → Op → Prop} {clients : Finset ℕ}

/-- The open sockets of the server are the open clients. -/
def Tracks (openSockets : Sockets) : World → Prop := Tracked openSockets.elems.toFinset

lemma echoSockets_tracked (notices : List Notice) {sockets : List ℕ} (hnodup : sockets.Nodup)
    (hopen : ∀ socket ∈ sockets, socket ∈ clients) :
    Program.Triple (exec script) guard (Tracked clients) (echoSockets notices sockets)
      fun closedSockets => Tracked (clients \ closedSockets.toFinset) := by
  induction sockets generalizing clients with
  | nil => exact Program.triple_done fun w hw => by simpa using hw
  | cons socket sockets ih =>
    obtain ⟨hfirst, hnodup⟩ := List.nodup_cons.mp hnodup
    have hothers : ∀ s ∈ sockets, s ∈ clients := fun s hs => hopen s (List.mem_cons_of_mem _ hs)
    simp only [echoSockets]
    split_ifs
    · have hecho : Program.Triple (exec script) guard (Tracked clients) (callEcho socket)
          fun _ => Tracked clients := by
        refine callEcho_follows fun event he => ?_
        cases event <;> simp_all [Event.transfers, openStep]
      refine hecho.bind fun b => ?_
      cases b with
      | true => exact ih hnodup hothers
      | false =>
        -- the rest of the loop runs without the socket that was just closed
        have hrest : ∀ s ∈ sockets, s ∈ clients.erase socket := fun s hs =>
          Finset.mem_erase.mpr ⟨fun he => hfirst (he ▸ hs), hothers s hs⟩
        refine (callClose_follows (by simpa using hopen socket)).bind fun _ => ?_
        refine (ih hnodup hrest).bind fun closedSockets => Program.triple_done fun w hw => ?_
        have heq : clients \ (socket :: closedSockets).toFinset =
            clients.erase socket \ closedSockets.toFinset := by
          ext s
          simp only [Finset.mem_sdiff, List.mem_toFinset, List.mem_cons, Finset.mem_erase]
          tauto
        rwa [heq]
    · exact ih hnodup hothers

lemma acceptNewConnection_tracked (openSockets : Sockets) :
    Program.Triple (exec script) guard (Tracks openSockets) (acceptNewConnection openSockets)
      (Program.Ends Tracks fun _ w => ClosesOpen w.trace) := by
  refine (callAccept_follows fun r => by cases r <;> simp [acceptEvent]).bind fun r => ?_
  cases r with
  | none => exact Program.triple_done fun w hw => Tracked.closesOpen hw
  | some socket =>
    refine (setNonblock_follows ⟨rfl, by simp⟩).bind fun _ => Program.triple_done fun w hw => ?_
    change Tracked (openSockets.insert socket).elems.toFinset w
    rwa [toFinset_insert]

lemma waitAndServe_tracked (serverSocket : ℕ) (openSockets : Sockets) :
    Program.Triple (exec script) guard (Tracks openSockets)
      (waitAndServe serverSocket openSockets)
      (Program.Ends Tracks fun _ w => ClosesOpen w.trace) := by
  refine (callWait_follows ⟨rfl, by simp⟩).bind fun r => ?_
  cases r with
  | failed e =>
    refine Program.triple_done fun w hw => ?_
    split_ifs
    · exact hw
    · exact Tracked.closesOpen hw
  | ready notices =>
    refine (echoSockets_tracked notices openSockets.nodup_elems fun s hs =>
      List.mem_toFinset.mpr hs).bind fun closedSockets => ?_
    dsimp only
    rw [← toFinset_eraseAll]
    split_ifs
    · exact acceptNewConnection_tracked _
    · exact Program.triple_done fun w hw => hw

lemma selectRound_tracked (serverSocket : ℕ) (openSockets : Sockets) :
    Program.Triple (exec script) guard (Tracks openSockets) (selectRound serverSocket openSockets)
      (Program.Ends Tracks fun _ w => ClosesOpen w.trace) := by
  rw [selectRound_eq]
  split_ifs
  · exact Program.triple_done fun w hw => hw.closesOpen
  · exact waitAndServe_tracked serverSocket openSockets

lemma pollRound_tracked (serverSocket : ℕ) (openSockets : Sockets) :
    Program.Triple (exec script) guard (Tracks openSockets) (pollRound serverSocket openSockets)
      (Program.Ends Tracks fun _ w => ClosesOpen w.trace) := by
  rw [pollRound_eq]
  split_ifs
  · exact Program.triple_done fun w hw => hw.closesOpen
  · exact waitAndServe_tracked serverSocket openSockets

end Rounds

section Runs

variable {script : Script} {errno : Errno} {buffer : ℕ → UInt8}

lemma start_tracks : Tracks .empty (.start errno buffer) :=
  follows_nil

lemma loop_tracked {round : Sockets → Server (Except Stop Sockets)}
    (h : ∀ openSockets, Program.Triple (exec script) (fun _ _ => True) (Tracks openSockets)
      (round openSockets) (Program.Ends Tracks fun _ w => ClosesOpen w.trace)) (rounds : ℕ) :
    Program.Ends Tracks (fun _ w => ClosesOpen w.trace)
      ((Program.loop round rounds .empty).run (exec script) (.start errno buffer)).1
      ((Program.loop round rounds .empty).run (exec script) (.start errno buffer)).2 :=
  Program.triple_loop h rounds .empty _ start_tracks fun _ _ => trivial

lemma select_tracked (serverSocket rounds : ℕ) :
    let r := (Program.loop (selectSetRound serverSocket) rounds .empty).run (exec script)
      (.start errno buffer)
    Program.Ends Tracks (fun _ w => ClosesOpen w.trace) r.1 r.2 := by
  dsimp only
  rw [selectSet_loop_run]
  exact loop_tracked (selectRound_tracked serverSocket) rounds

lemma poll_tracked (serverSocket rounds : ℕ) (set : PollSet) :
    let r := (Program.loop pollSetRound rounds (.start set serverSocket)).run (exec script)
      (.start errno buffer)
    Program.Ends Tracks (fun _ w => ClosesOpen w.trace) (r.1.map PollState.openSockets) r.2 := by
  obtain ⟨hworld, hopen⟩ := pollSet_loop_run script serverSocket rounds set (.start errno buffer)
  dsimp only at hworld hopen ⊢
  rw [hworld, hopen]
  exact loop_tracked (pollRound_tracked serverSocket) rounds

/-- Only open descriptors were closed; if the loop goes on, its open sockets are the open
clients, and the server socket is not one of them. -/
def KeepsOpenSockets (serverSocket : ℕ) (result : Except Stop Sockets) (w : World) : Prop :=
  ClosesOpen w.trace ∧ ∀ openSockets, result = .ok openSockets →
    serverSocket ∉ openSockets ∧ ∀ socket, socket ∈ openSockets ↔ socket ∈ openClients w.trace

lemma keepsOpenSockets_of_tracked {serverSocket : ℕ} {result : Except Stop Sockets} {w : World}
    (h : Program.Ends Tracks (fun _ w => ClosesOpen w.trace) result w)
    (hserver : .accepted serverSocket ∉ w.trace) : KeepsOpenSockets serverSocket result w := by
  cases result with
  | error e => exact ⟨h, fun _ he => by cases he⟩
  | ok openSockets =>
    refine ⟨h.closesOpen, fun _ he => ?_⟩
    obtain rfl := Except.ok.inj he
    have hmem : ∀ socket, socket ∈ openSockets ↔ socket ∈ openClients w.trace := fun socket => by
      rw [h.clients_eq, List.mem_toFinset, OrderedSet.mem_elems]
    exact ⟨fun hs => hserver (accepted_of_mem_openClients ((hmem _).mp hs)), hmem⟩

/-- At the start of every round of the select and of the poll server. The server socket is
open, so `accept` does not return it. -/
theorem select_poll_keep_open_sockets (script : Script) (serverSocket rounds : ℕ) (set : PollSet)
    (errno : Errno) (buffer : ℕ → UInt8) :
    let select := (Program.loop (selectSetRound serverSocket) rounds .empty).run (exec script)
      (.start errno buffer)
    let poll := (Program.loop pollSetRound rounds (.start set serverSocket)).run (exec script)
      (.start errno buffer)
    (.accepted serverSocket ∉ select.2.trace →
      KeepsOpenSockets serverSocket select.1 select.2) ∧
    (.accepted serverSocket ∉ poll.2.trace →
      KeepsOpenSockets serverSocket (poll.1.map PollState.openSockets) poll.2) :=
  ⟨keepsOpenSockets_of_tracked (select_tracked serverSocket rounds),
    keepsOpenSockets_of_tracked (poll_tracked serverSocket rounds set)⟩

theorem select_poll_keep_open_sockets_reissued :
    let w := World.start (.other 0) fun _ => 0
    let select := (Program.loop (selectSetRound 3) 3 .empty).run (exec reissued) w
    let poll := (Program.loop pollSetRound 3 (.start (fun _ => ⟨0, false, true⟩) 3)).run
      (exec reissued) w
    KeepsOpenSockets 3 select.1 select.2 ∧
      KeepsOpenSockets 3 (poll.1.map PollState.openSockets) poll.2 := by
  have hnone : ∀ {trace : List Event}, (trace.all fun | .accepted s => s ≠ 3 | _ => true) = true →
      .accepted 3 ∉ trace := fun h hmem => by simpa using List.all_eq_true.mp h _ hmem
  have h := select_poll_keep_open_sockets reissued 3 3 (fun _ => ⟨0, false, true⟩) (.other 0)
    fun _ => 0
  exact ⟨h.1 (hnone (by decide +kernel)), h.2 (hnone (by decide +kernel))⟩

end Runs

section Bounds

variable {script : Script} {w : World}

lemma acceptNewConnection_defined (openSockets : Sockets) :
    ((acceptNewConnection openSockets).run (exec script) w).1 ≠ .error .undefined := by
  simp only [acceptNewConnection, Program.bind_eq_bind, Program.run_bind]
  cases ((callAccept : Server (Option ℕ)).run (exec script) w).1 with
  | some socket => simp
  | none => simp

/-- Once the descriptors are set up nothing is out of bounds. -/
lemma waitAndServe_defined (serverSocket : ℕ) (openSockets : Sockets) :
    ((waitAndServe serverSocket openSockets).run (exec script) w).1 ≠ .error .undefined := by
  simp only [waitAndServe, Program.bind_eq_bind, Program.run_bind]
  cases ((callWait : Server Waited).run (exec script) w).1 with
  | failed e =>
    by_cases he : e = .eagain
    · simp [he]
    · simp [he]
  | ready notices =>
    simp only [Program.run_bind]
    split_ifs
    · exact acceptNewConnection_defined _
    · simp

lemma selectRound_defined_iff {serverSocket : ℕ} {openSockets : Sockets} :
    ((selectRound serverSocket openSockets).run (exec script) w).1 ≠ .error .undefined ↔
      serverSocket < fdSetSize ∧ ∀ socket ∈ openSockets.elems, socket < fdSetSize := by
  rw [selectRound_eq]
  split_ifs with h
  · simpa [imp_iff_not_or] using h
  · simpa [waitAndServe_defined] using h

lemma pollRound_defined_iff {serverSocket : ℕ} {openSockets : Sockets} :
    ((pollRound serverSocket openSockets).run (exec script) w).1 ≠ .error .undefined ↔
      openSockets.elems.length < kPollSize := by
  rw [pollRound_eq]
  split_ifs with h
  · simpa using (by omega : kPollSize ≤ openSockets.elems.length)
  · simpa [waitAndServe_defined] using (by omega : openSockets.elems.length < kPollSize)

lemma loop_defined_iff {round : Sockets → Server (Except Stop Sockets)} {fits : Finset ℕ → Prop}
    (htracked : ∀ openSockets, Program.Triple (exec script) (fun _ _ => True) (Tracks openSockets)
      (round openSockets) (Program.Ends Tracks fun _ w => ClosesOpen w.trace))
    (hdefined : ∀ openSockets w, ((round openSockets).run (exec script) w).1 ≠ .error .undefined ↔
      fits openSockets.elems.toFinset) (rounds : ℕ) (errno : Errno) (buffer : ℕ → UInt8) :
    let run k := (Program.loop round k .empty).run (exec script) (.start errno buffer)
    (run rounds).1 ≠ .error .undefined ↔
      ∀ k < rounds, (run k).1.isOk → fits (openClients (run k).2.trace) := by
  intro run
  rw [Program.loop_ne_error_iff]
  refine forall_congr' fun k => forall_congr' fun _ => ?_
  have hk : Program.Ends Tracks (fun _ w => ClosesOpen w.trace) (run k).1 (run k).2 :=
    loop_tracked htracked k
  change (∀ openSockets w, run k = (.ok openSockets, w) → _) ↔ _
  generalize run k = r at hk ⊢
  obtain ⟨result, w⟩ := r
  cases result with
  | error e => simp [Except.isOk, Except.toBool]
  | ok openSockets =>
    have hclients : openClients w.trace = openSockets.elems.toFinset := hk.clients_eq
    simp [Except.isOk, Except.toBool, hdefined, hclients]

lemma select_in_bounds_iff (serverSocket rounds : ℕ) (errno : Errno) (buffer : ℕ → UInt8) :
    let select k := (Program.loop (selectSetRound serverSocket) k .empty).run (exec script)
      (.start errno buffer)
    (select rounds).1 ≠ .error .undefined ↔ ∀ k < rounds, (select k).1.isOk →
      serverSocket < fdSetSize ∧ ∀ socket ∈ openClients (select k).2.trace, socket < fdSetSize := by
  simp only [selectSet_loop_run]
  refine @loop_defined_iff script _ (fun clients => serverSocket < fdSetSize ∧
    ∀ socket ∈ clients, socket < fdSetSize) (selectRound_tracked serverSocket) ?_ rounds errno
    buffer
  intro openSockets w
  simpa using selectRound_defined_iff

lemma poll_in_bounds_iff (serverSocket rounds : ℕ) (set : PollSet) (errno : Errno)
    (buffer : ℕ → UInt8) :
    let poll k := (Program.loop pollSetRound k (.start set serverSocket)).run (exec script)
      (.start errno buffer)
    (poll rounds).1 ≠ .error .undefined ↔ ∀ k < rounds, (poll k).1.isOk →
      (openClients (poll k).2.trace).card < kPollSize := by
  have hlist := @loop_defined_iff script _ (fun clients => clients.card < kPollSize)
    (pollRound_tracked serverSocket) (fun openSockets w => by
      rw [List.toFinset_card_of_nodup openSockets.nodup_elems]
      exact pollRound_defined_iff) rounds errno buffer
  have hworld := fun k => (pollSet_loop_run script serverSocket k set (.start errno buffer)).1
  have hresult := fun k => (pollSet_loop_run script serverSocket k set (.start errno buffer)).2
  dsimp only at hlist hworld hresult ⊢
  simp only [← hworld, ← hresult] at hlist
  have herror : ∀ x : Except Stop PollState,
      x.map PollState.openSockets ≠ .error .undefined ↔ x ≠ .error .undefined := fun x => by
    cases x <;> simp [Except.map]
  have hok : ∀ x : Except Stop PollState, (x.map PollState.openSockets).isOk = x.isOk := fun x => by
    cases x <;> rfl
  simpa only [herror, hok] using hlist

/-- No access is out of bounds exactly when, at the start of every round, the descriptors
in use are below `FD_SETSIZE` and the clients fewer than `kPollSize`. -/
theorem select_poll_in_bounds_iff (script : Script) (serverSocket rounds : ℕ) (set : PollSet)
    (errno : Errno) (buffer : ℕ → UInt8) :
    let select k := (Program.loop (selectSetRound serverSocket) k .empty).run (exec script)
      (.start errno buffer)
    let poll k := (Program.loop pollSetRound k (.start set serverSocket)).run (exec script)
      (.start errno buffer)
    ((select rounds).1 ≠ .error .undefined ↔ ∀ k < rounds, (select k).1.isOk →
      serverSocket < fdSetSize ∧ ∀ socket ∈ openClients (select k).2.trace, socket < fdSetSize) ∧
    ((poll rounds).1 ≠ .error .undefined ↔ ∀ k < rounds, (poll k).1.isOk →
      (openClients (poll k).2.trace).card < kPollSize) :=
  ⟨select_in_bounds_iff serverSocket rounds errno buffer,
    poll_in_bounds_iff serverSocket rounds set errno buffer⟩

/-- A client connects in every round and none says anything. -/
def connecting : Script where
  wait _ := .ready [⟨3, true, false⟩]
  recv _ := .closed
  send _ := .failed .eagain
  accept k := .ok (1023 + k)
  fcntl _ := none
  close _ := none
  add _ := none

lemma echoSockets_connecting {sockets : List ℕ} (h : ∀ socket ∈ sockets, 3 < socket) :
    echoSockets [⟨3, true, false⟩] sockets = .done [] := by
  induction sockets with
  | nil => rfl
  | cons socket sockets ih =>
    have hsocket := h socket (by simp)
    have hready : isReadable [⟨3, true, false⟩] socket = false := by
      simpa [isReadable] using (by omega : 3 ≠ socket)
    simp only [echoSockets, hready, Bool.false_eq_true, ↓reduceIte]
    exact ih fun s hs => h s (List.mem_cons_of_mem socket hs)

lemma pollRound_connecting {openSockets : Sockets}
    (hold : ∀ socket ∈ openSockets, 3 < socket ∧ socket < 1023 + w.clock)
    (hfits : openSockets.elems.length < kPollSize) :
    ((pollRound 3 openSockets).run (exec connecting) w).1 =
        .ok (openSockets.insert (1023 + (w.clock + 1))) ∧
      ((pollRound 3 openSockets).run (exec connecting) w).2.clock = w.clock + 4 := by
  rw [pollRound_eq, if_neg (by omega)]
  have hquiet := echoSockets_connecting fun socket hs => (hold socket hs).1
  have hserver : isReadable [⟨3, true, false⟩] 3 = true := by decide
  have hnone : eraseAll openSockets [] = openSockets := rfl
  have hwait : (callWait : Server Waited).run (exec connecting) w =
    (.ready [⟨3, true, false⟩], w.record .waited) := rfl
  have haccept : ∀ w, (callAccept : Server (Option ℕ)).run (exec connecting) w =
    (some (1023 + w.clock), w.record (.accepted (1023 + w.clock))) := fun _ => rfl
  have hset : ∀ s w, (setNonblock s).run (exec connecting) w =
    ((), (w.record (.fcntl s)).record (.fcntl s)) := fun _ _ => rfl
  simp [waitAndServe, acceptNewConnection, hwait, hquiet, hserver, hnone, haccept, hset]

lemma poll_connecting {rounds : ℕ} {openSockets : Sockets}
    (hold : ∀ socket ∈ openSockets, 3 < socket ∧ socket < 1023 + w.clock)
    (hfits : openSockets.elems.length ≤ kPollSize)
    (hrounds : kPollSize < openSockets.elems.length + rounds) :
    ((Program.loop (pollRound 3) rounds openSockets).run (exec connecting) w).1 =
      .error .undefined := by
  induction rounds generalizing openSockets w with
  | zero => omega
  | succ rounds ih =>
    simp only [Program.loop, Program.run_bind]
    by_cases hfull : openSockets.elems.length < kPollSize
    · obtain ⟨hresult, hclock⟩ := pollRound_connecting hold hfull
      have hfresh : ∀ s ∈ openSockets, id s ≠ id (1023 + (w.clock + 1)) := fun s hs => by
        have := (hold s hs).2
        simp only [id]
        omega
      have hlength := (OrderedSet.insert_perm hfresh).length_eq
      simp only [List.length_cons] at hlength
      rw [hresult]
      refine ih (fun s hs => ?_) (by omega) (by omega)
      rw [hclock]
      rcases (OrderedSet.mem_insert hfresh).mp hs with rfl | hs
      · omega
      · have := hold s hs
        omega
    · rw [pollRound_eq, if_pos (by omega)]
      rfl

/-- The 1024th descriptor is too large for `FD_SET`, and the 2048th client for the array. -/
theorem select_poll_out_of_bounds :
    let w := World.start (.other 0) fun _ => 0
    ((Program.loop (selectSetRound 3) 2 .empty).run (exec connecting) w).1 = .error .undefined ∧
      ((Program.loop pollSetRound 2049 (.start (fun _ => ⟨0, false, false⟩) 3)).run
        (exec connecting) w).1 = .error .undefined := by
  refine ⟨rfl, ?_⟩
  have hpoll := (pollSet_loop_run connecting 3 2049 (fun _ => ⟨0, false, false⟩)
    (.start (.other 0) fun _ => 0)).2
  rw [poll_connecting (by simp) (by decide) (by decide)] at hpoll
  exact pollSet_error hpoll

end Bounds
end UnixProgramming.EchoServer
