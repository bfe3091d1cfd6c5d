import UnixProgramming.EchoServerTraces

/-! The use of closed descriptors by the epoll server. An event with `EPOLLERR` or
`EPOLLHUP` closes the client and still goes on to `echo`. -/
namespace UnixProgramming.EchoServer

def staleStep (stale : Finset ℕ) : Event → Finset ℕ
  | .closed socket => insert socket stale
  | .accepted socket => stale.erase socket
  | _ => stale

/-- The descriptors that were closed and not returned by `accept` since. -/
def staleSockets (trace : List Event) : Finset ℕ := trace.foldl staleStep ∅

/-- The descriptor of a `recv`, `send` or `close`. -/
def Event.use : Event → Option ℕ
  | received socket _ => some socket
  | sent socket _ _ _ => some socket
  | closed socket => some socket
  | _ => none

/-- No call uses a descriptor that was closed before and not issued again. -/
def UsesLive (trace : List Event) : Prop :=
  EachAllowed (fun past event => ∀ socket, event.use = some socket → socket ∉ staleSockets past)
    trace

/-- `epoll_wait` reports a descriptor at most once, and none that was closed. -/
def ReportsLive (w : World) (events : List Notice) : Prop :=
  (events.map Notice.socket).Nodup ∧ ∀ event ∈ events, event.socket ∉ staleSockets w.trace

instance (w : World) (events : List Notice) : Decidable (ReportsLive w events) :=
  inferInstanceAs (Decidable (_ ∧ _))

/-- The server exits at a hang-up of its own socket. -/
def handled (serverSocket : ℕ) (events : List Notice) : List Notice :=
  events.takeWhile fun event => !(decide (event.socket = serverSocket) && event.hangup)

def ClientsUp (serverSocket : ℕ) (events : List Notice) : Prop :=
  ∀ event ∈ handled serverSocket events, event.socket ≠ serverSocket → event.hangup = false

instance (serverSocket : ℕ) (events : List Notice) : Decidable (ClientsUp serverSocket events) :=
  inferInstanceAs (Decidable (∀ event ∈ _, _))

def Live (stale : Finset ℕ) : World → Prop :=
  FollowsTrace staleStep ∅ (fun stale event => ∀ socket, event.use = some socket → socket ∉ stale)
    stale

lemma Live.usesLive {stale : Finset ℕ} {w : World} (h : Live stale w) : UsesLive w.trace :=
  Follows.permitted h

lemma UsesLive.live {w : World} (h : UsesLive w.trace) : Live (staleSockets w.trace) w := ⟨rfl, h⟩

section Rounds

variable {script : Script} {guard : World → Op → Prop} {stale : Finset ℕ}

lemma callEcho_live {socket : ℕ} (hs : socket ∉ stale) : Program.Triple (exec script) guard
    (Live stale) (callEcho socket) fun _ => Live stale := by
  refine callEcho_follows fun event he => ?_
  cases event <;> simp_all [Event.transfers, Event.use, staleStep]

lemma callClose_live {socket : ℕ} (hs : socket ∉ stale) : Program.Triple (exec script) guard
    (Live stale) (callClose socket) fun _ => Live (insert socket stale) :=
  callClose_follows (by simpa [Event.use] using hs)

lemma echoOrClose_live {socket : ℕ} (hs : socket ∉ stale) : Program.Triple (exec script) guard
    (Live stale) (echoOrClose socket) fun _ w => ∃ closed ⊆ insert socket stale, Live closed w := by
  refine (callEcho_live hs).bind fun b => ?_
  cases b with
  | true => exact Program.triple_done fun w hw => ⟨stale, Finset.subset_insert _ _, hw⟩
  | false => exact (callClose_live hs).weaken (fun _ h => h) fun _ w hw => ⟨_, subset_rfl, hw⟩

lemma epollAcceptNewConnection_live : Program.Triple (exec script) guard (Live stale)
    epollAcceptNewConnection fun _ w => ∃ closed ⊆ stale, Live closed w := by
  refine (callAccept_follows fun r => by cases r <;> simp [acceptEvent, Event.use]).bind fun r => ?_
  cases r with
  | none => exact Program.triple_done fun w hw => ⟨stale, subset_rfl, hw⟩
  | some socket =>
    have hset : Program.Triple (exec script) guard (Live (stale.erase socket))
        (setNonblock socket) fun _ => Live (stale.erase socket) :=
      setNonblock_follows ⟨rfl, by simp [Event.use]⟩
    have hadd : Program.Triple (exec script) guard (Live (stale.erase socket))
        (callAdd [socket]) fun _ => Live (stale.erase socket) :=
      callAdd_follows (by simp [Event.use])
    exact (hset.bind fun _ => hadd).bind fun _ =>
      Program.triple_done fun w hw => ⟨_, Finset.erase_subset _ _, hw⟩

lemma handled_cons {serverSocket : ℕ} {event : Notice} (events : List Notice)
    (h : ¬ (event.socket = serverSocket ∧ event.hangup = true)) :
    handled serverSocket (event :: events) = event :: handled serverSocket events := by
  have hgoes : (!(decide (event.socket = serverSocket) && event.hangup)) = true := by
    by_cases hs : event.socket = serverSocket <;> simp_all
  simp only [handled, List.takeWhile_cons, hgoes, ↓reduceIte]

lemma epollEvents_live {serverSocket : ℕ} {events : List Notice}
    (hnodup : (events.map Notice.socket).Nodup) (hlive : ∀ event ∈ events, event.socket ∉ stale)
    (hup : ClientsUp serverSocket events) : Program.Triple (exec script) guard (Live stale)
      (epollEvents serverSocket events) fun _ w => UsesLive w.trace := by
  induction events generalizing stale with
  | nil => exact Program.triple_done fun w hw => hw.usesLive
  | cons event events ih =>
    obtain ⟨hfirst, hnodup⟩ := List.nodup_cons.mp hnodup
    have hsocket := hlive event (by simp)
    by_cases hexit : event.socket = serverSocket ∧ event.hangup = true
    · simp only [epollEvents, closeHungUp, hexit.1, hexit.2, ↓reduceIte]
      rw [hexit.1] at hsocket
      exact (callClose_live hsocket).bind fun _ => Program.triple_done fun w hw => hw.usesLive
    · -- no hang-up: the event is followed by the others
      have hhandled := handled_cons events hexit
      have hup' : ClientsUp serverSocket events := fun e he =>
        hup e (hhandled ▸ List.mem_cons_of_mem event he)
      have hhangup : event.hangup = false := by
        by_cases hs : event.socket = serverSocket
        · simpa [hs] using hexit
        · exact hup event (hhandled ▸ List.mem_cons_self) hs
      have hrest : ∀ closed ⊆ insert event.socket stale, Program.Triple (exec script) guard
          (Live closed) (epollEvents serverSocket events) fun _ w => UsesLive w.trace := by
        refine fun closed hsub => ih hnodup (fun e he hmem => ?_) hup'
        rcases Finset.mem_insert.mp (hsub hmem) with heq | hmem
        · exact hfirst (heq ▸ List.mem_map_of_mem he)
        · exact hlive e (List.mem_cons_of_mem event he) hmem
      simp only [epollEvents, closeHungUp, hhangup, Bool.false_eq_true, ↓reduceIte]
      split_ifs
      · refine epollAcceptNewConnection_live.bind fun _ => ?_
        rintro w ⟨closed, hsub, hw⟩
        exact hrest closed (hsub.trans (Finset.subset_insert _ _)) w hw
      · refine (echoOrClose_live hsocket).bind fun _ => ?_
        rintro w ⟨closed, hsub, hw⟩
        exact hrest closed hsub w hw

lemma UsesLive.of_prefix {past trace : List Event} (h : UsesLive trace) (hp : past <+: trace) :
    UsesLive past := fun _ _ he => h _ _ (he.trans hp)

lemma recv_after_close (socket : ℕ) (w : World) :
    ¬ UsesLive
      ((callClose socket >>= fun _ => echoOrClose socket).run (exec script) w).2.trace := by
  intro h
  set closed := (exec script w (.close socket)).2 with hclosed
  have htrace : closed.trace = w.trace ++ [.closed socket] := World.fail_trace _ _
  have hrecv : closed.trace ++ [.received socket (script.recv closed.clock)] <+:
      ((callClose socket >>= fun _ => echoOrClose socket).run (exec script) w).2.trace := by
    refine recv_trace_initial.trans ?_
    simp only [Program.bind_eq_bind, Program.run_bind, echoOrClose]
    exact run_trace_grows script _ _
  refine h closed.trace _ hrecv socket rfl ?_
  simp [htrace, staleSockets, staleStep]

/-- A handled hang-up of a client leads to a `recv` on its closed descriptor. -/
lemma epollEvents_stale {serverSocket : ℕ} {events : List Notice} {w : World}
    (hup : ¬ ClientsUp serverSocket events) :
    ¬ UsesLive ((epollEvents serverSocket events).run (exec script) w).2.trace := by
  induction events generalizing w with
  | nil => exact absurd (fun e he => by simp [handled] at he) hup
  | cons event events ih =>
    by_cases hbad : event.socket ≠ serverSocket ∧ event.hangup = true
    · intro h
      refine @recv_after_close script event.socket w (h.of_prefix ?_)
      simp only [epollEvents, closeHungUp, hbad.1, hbad.2, ↓reduceIte, Program.bind_eq_bind,
        Program.run_bind]
      exact run_trace_grows script _ _
    · have hexit : ¬ (event.socket = serverSocket ∧ event.hangup = true) := by
        intro hexit
        refine hup fun e he => ?_
        simp [handled, hexit.1, hexit.2] at he
      have hhangup : event.hangup = false := by
        by_cases hs : event.socket = serverSocket <;> simp_all
      have hrest : ¬ ClientsUp serverSocket events := by
        intro hrest
        refine hup fun e he hne => ?_
        rw [handled_cons events hexit] at he
        rcases List.mem_cons.mp he with rfl | he
        · exact hhangup
        · exact hrest e he hne
      simp only [epollEvents, closeHungUp, hhangup, Bool.false_eq_true, ↓reduceIte,
        Program.bind_eq_bind, Program.pure_eq_done, Program.run_bind]
      split_ifs
      · simpa using ih hrest
      · simpa using ih hrest

end Rounds

/-- The events that `epoll_wait` reports in a state. -/
def reported (script : Script) (w : World) : List Notice :=
  match script.wait w.clock with
  | .ready events => events
  | .failed _ => []

section Runs

variable {script : Script}

lemma epollRound_run (serverSocket : ℕ) (w : World) :
    ∃ w' : World, w'.trace = w.trace ++ [.waited] ∧
      ((epollRound serverSocket).run (exec script) w).2 =
        ((epollEvents serverSocket (reported script w)).run (exec script) w').2 := by
  refine ⟨(exec script w .wait).2, ?_, ?_⟩
  · unfold exec
    cases script.wait w.clock <;> simp
  · have hwait : (callWait : Server Waited).run (exec script) w = exec script w .wait := rfl
    simp only [epollRound, Program.bind_eq_bind, Program.run_bind, hwait, reported]
    cases hscript : script.wait w.clock with
    | ready events => simp [exec, hscript]
    | failed e => simp [exec, hscript, epollEvents]

lemma epollRound_usesLive_iff {serverSocket : ℕ} {w : World}
    (hreports : ReportsLive w (reported script w)) :
    UsesLive ((epollRound serverSocket).run (exec script) w).2.trace ↔
      UsesLive w.trace ∧ ClientsUp serverSocket (reported script w) := by
  obtain ⟨w', htrace, hrun⟩ := @epollRound_run script serverSocket w
  constructor
  · intro h
    refine ⟨h.of_prefix (run_trace_grows script _ w), ?_⟩
    by_contra hup
    rw [hrun] at h
    exact epollEvents_stale hup h
  · rintro ⟨hw, hup⟩
    have hstale : staleSockets w'.trace = staleSockets w.trace := by
      simp [htrace, staleSockets, staleStep]
    have hw' : UsesLive w'.trace := by
      rw [htrace]
      exact eachAllowed_snoc.mpr ⟨hw, by simp [Event.use]⟩
    have hlive : ∀ event ∈ reported script w, event.socket ∉ staleSockets w'.trace := by
      rw [hstale]
      exact hreports.2
    rw [hrun]
    exact @epollEvents_live script (fun _ _ => True) _ _ _ hreports.1 hlive hup w' hw'.live
      fun _ _ => trivial

/-- No closed descriptor is used exactly when no client that is handled hung up. -/
theorem epoll_usesLive_iff (script : Script) (serverSocket rounds : ℕ) (errno : Errno)
    (buffer : ℕ → UInt8) :
    let run k := (Program.loop (fun _ => epollRound serverSocket) k ()).run (exec script)
      (.start errno buffer)
    (∀ k < rounds, (run k).1.isOk → ReportsLive (run k).2 (reported script (run k).2)) →
    (UsesLive (run rounds).2.trace ↔
      ∀ k < rounds, (run k).1.isOk → ClientsUp serverSocket (reported script (run k).2)) := by
  intro run
  induction rounds with
  | zero => exact fun _ => ⟨fun _ k hk => absurd hk (Nat.not_lt_zero k), fun _ => eachAllowed_nil⟩
  | succ n ih =>
    intro hreports
    obtain ⟨hbefore, hlast⟩ := Nat.forall_lt_succ_right.mp hreports
    rw [Nat.forall_lt_succ_right, ← ih hbefore]
    cases hn : run n with
    | mk result w =>
      rw [hn] at hlast
      cases result with
      | error e =>
        have hsucc : run (n + 1) = (.error e, w) := Program.loop_succ_of_error hn
        simp [hsucc, Except.isOk, Except.toBool]
      | ok _ =>
        have hsucc : run (n + 1) = (epollRound serverSocket).run (exec script) w :=
          Program.loop_succ_of_ok hn
        rw [hsucc]
        simpa [Except.isOk, Except.toBool] using epollRound_usesLive_iff (hlast rfl)

/-- The client hangs up, or it closes its connection. -/
def leaving (hangup : Bool) : Script where
  wait k := .ready (if k = 0 then [⟨3, true, false⟩] else [⟨5, true, hangup⟩])
  recv _ := if hangup then .failed (.other 9) else .closed
  send _ := .failed (.other 9)
  accept _ := .ok 5
  fcntl _ := none
  close _ := none
  add _ := none

theorem epoll_usesLive_closing :
    UsesLive ((Program.loop (fun _ => epollRound 3) 2 ()).run (exec (leaving false))
      (.start (.other 0) fun _ => 0)).2.trace :=
  (epoll_usesLive_iff (leaving false) 3 2 (.other 0) (fun _ => 0) (by decide +kernel)).mpr
    (by decide +kernel)

/-- After a hang-up `recv` and `send` are called on the closed descriptor. -/
theorem epoll_uses_closed_descriptor :
    let run k := (Program.loop (fun _ => epollRound 3) k ()).run (exec (leaving true))
      (.start (.other 0) fun _ => 0)
    (∀ k < 2, (run k).1.isOk → ReportsLive (run k).2 (reported (leaving true) (run k).2)) ∧
      ¬ UsesLive (run 2).2.trace := by
  intro run
  refine ⟨by decide +kernel, fun h => ?_⟩
  have hsecond : run 2 = (epollRound 3).run (exec (leaving true)) (run 1).2 :=
    Program.loop_succ_of_ok (Prod.ext rfl rfl)
  obtain ⟨w', -, hevents⟩ := @epollRound_run (leaving true) 3 (run 1).2
  rw [hsecond, hevents] at h
  exact epollEvents_stale (by decide +kernel) h

end Runs
end UnixProgramming.EchoServer
