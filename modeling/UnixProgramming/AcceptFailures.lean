import UnixProgramming.EchoServerDescriptors
import UnixProgramming.AsioModel

/-! Failures of `accept`. The select, poll and single-event kqueue servers leave their
loop, and the Boost.Asio server does not start another `async_accept`. -/
namespace UnixProgramming

namespace EchoServer

def failStep (failed : Bool) : Event → Bool
  | .acceptFailed => true
  | _ => failed

/-- Whether an `accept` failed; no call follows one that did. -/
def Failing (failed : Bool) : World → Prop :=
  FollowsTrace failStep false (fun failed _ => failed = false) failed

/-- A loop goes on while no `accept` failed, and is left when one does. -/
def LeavesOnFailure {α : Type} : Except Stop α → World → Prop :=
  Program.Ends (fun _ => Failing false) fun stop w =>
    ∃ failed, Failing failed w ∧ (failed = true → stop = .leftLoop)

section Rounds

variable {script : Script} {guard : World → Op → Prop}

lemma callWait_failing : Program.Triple (exec script) guard (Failing false) callWait
    fun _ => Failing false := callWait_follows ⟨rfl, rfl⟩

lemma callAccept_failing : Program.Triple (exec script) guard (Failing false) callAccept
    fun r => Failing r.isNone := by
  refine (callAccept_follows fun _ => rfl).weaken (fun _ h => h) fun r w hw => ?_
  cases r with
  | some socket => exact hw
  | none => exact hw

lemma setNonblock_failing (socket : ℕ) : Program.Triple (exec script) guard (Failing false)
    (setNonblock socket) fun _ => Failing false := setNonblock_follows ⟨rfl, rfl⟩

lemma callEcho_failing (socket : ℕ) : Program.Triple (exec script) guard (Failing false)
    (callEcho socket) fun _ => Failing false := by
  refine callEcho_follows fun event he => ⟨?_, rfl⟩
  cases event <;> first | rfl | exact he.elim

lemma callClose_failing (socket : ℕ) : Program.Triple (exec script) guard (Failing false)
    (callClose socket) fun _ => Failing false := callClose_follows rfl

lemma echoSockets_failing (notices : List Notice) (sockets : List ℕ) :
    Program.Triple (exec script) guard (Failing false) (echoSockets notices sockets)
      fun _ => Failing false := by
  induction sockets with
  | nil => exact Program.triple_done fun _ hw => hw
  | cons socket sockets ih =>
    simp only [echoSockets]
    split_ifs
    · refine (callEcho_failing socket).bind fun b => ?_
      cases b with
      | true => exact ih
      | false =>
        exact (callClose_failing socket).bind fun _ =>
          ih.bind fun _ => Program.triple_done fun _ hw => hw
    · exact ih

lemma acceptNewConnection_leaves (openSockets : Sockets) :
    Program.Triple (exec script) guard (Failing false) (acceptNewConnection openSockets)
      LeavesOnFailure := by
  refine callAccept_failing.bind fun r => ?_
  cases r with
  | some socket =>
    exact (setNonblock_failing socket).bind fun _ => Program.triple_done fun _ hw => hw
  | none => exact Program.triple_done fun _ hw => ⟨true, hw, fun _ => rfl⟩

lemma waitAndServe_leaves (serverSocket : ℕ) (openSockets : Sockets) :
    Program.Triple (exec script) guard (Failing false) (waitAndServe serverSocket openSockets)
      LeavesOnFailure := by
  refine callWait_failing.bind fun r => ?_
  cases r with
  | failed e =>
    refine Program.triple_done fun w hw => ?_
    split_ifs
    · exact hw
    · exact ⟨false, hw, fun h => absurd h Bool.false_ne_true⟩
  | ready notices =>
    refine (echoSockets_failing notices _).bind fun closedSockets => ?_
    dsimp only
    split_ifs
    · exact acceptNewConnection_leaves _
    · exact Program.triple_done fun _ hw => hw

lemma undefined_leaves {α : Type} : Program.Triple (exec script) guard (Failing false)
    (.done (.error .undefined) : Server (Except Stop α)) LeavesOnFailure :=
  Program.triple_done fun _ hw => ⟨false, hw, fun h => absurd h Bool.false_ne_true⟩

lemma selectRound_leaves (serverSocket : ℕ) (openSockets : Sockets) :
    Program.Triple (exec script) guard (Failing false) (selectRound serverSocket openSockets)
      LeavesOnFailure := by
  rw [selectRound_eq]
  split_ifs
  · exact undefined_leaves
  · exact waitAndServe_leaves serverSocket openSockets

lemma pollRound_leaves (serverSocket : ℕ) (openSockets : Sockets) :
    Program.Triple (exec script) guard (Failing false) (pollRound serverSocket openSockets)
      LeavesOnFailure := by
  rw [pollRound_eq]
  split_ifs
  · exact undefined_leaves
  · exact waitAndServe_leaves serverSocket openSockets

lemma echoOrClose_failing (socket : ℕ) : Program.Triple (exec script) guard (Failing false)
    (echoOrClose socket) fun _ => Failing false := by
  refine (callEcho_failing socket).bind fun b => ?_
  cases b with
  | true => exact Program.triple_done fun _ hw => hw
  | false => exact callClose_failing socket

lemma kqueueSingleAcceptNewConnection_failing : Program.Triple (exec script) guard (Failing false)
    kqueueSingleAcceptNewConnection fun added w =>
      ∃ failed, Failing failed w ∧ (added = true → failed = false) := by
  refine callAccept_failing.bind fun r => ?_
  cases r with
  | none => exact Program.triple_done fun _ hw => ⟨true, hw, fun h => absurd h Bool.false_ne_true⟩
  | some socket =>
    have hadd : Program.Triple (exec script) guard (Failing false) (callAdd [socket])
      fun _ => Failing false := callAdd_follows rfl
    exact ((setNonblock_failing socket).bind fun _ => hadd).weaken (fun _ h => h)
      fun _ w hw => ⟨false, hw, fun _ => rfl⟩

lemma kqueueSingleRound_leaves (serverSocket : ℕ) :
    Program.Triple (exec script) guard (Failing false) (kqueueSingleRound serverSocket)
      LeavesOnFailure := by
  refine callWait_failing.bind fun r => ?_
  cases r with
  | failed e =>
    exact Program.triple_done fun _ hw => ⟨false, hw, fun _ => rfl⟩
  | ready notices =>
    cases notices with
    | nil => exact Program.triple_done fun _ hw => hw
    | cons event events =>
      dsimp only
      split_ifs
      · refine kqueueSingleAcceptNewConnection_failing.bind fun added => ?_
        refine Program.triple_done fun w ⟨failed, hw, hadded⟩ => ?_
        cases added with
        | true =>
          obtain rfl := hadded rfl
          exact hw
        | false => exact ⟨failed, hw, fun _ => rfl⟩
      · exact (echoOrClose_failing event.socket).bind fun _ => Program.triple_done fun _ hw => hw
      · exact Program.triple_done fun _ hw => hw

end Rounds

section Runs

variable {script : Script} {errno : Errno} {buffer : ℕ → UInt8}

/-- The last call was an `accept` that failed, and the loop was left. -/
def StoppedByAccept {α : Type} (result : Except Stop α) (w : World) : Prop :=
  result = .error .leftLoop ∧ ∃ past, w.trace = past ++ [.acceptFailed]

lemma failed_of_mem {trace : List Event} (h : .acceptFailed ∈ trace) :
    trace.foldl failStep false = true := by
  induction trace using List.reverseRecOn with
  | nil => simp at h
  | append_singleton trace event ih =>
    rw [List.foldl_append]
    rcases List.mem_append.mp h with h | h
    · rw [ih h]
      cases event <;> rfl
    · rw [← List.mem_singleton.mp h]
      rfl

lemma Failing.last {failed : Bool} {w : World} (h : Failing failed w)
    (hmem : .acceptFailed ∈ w.trace) : ∃ past, w.trace = past ++ [.acceptFailed] := by
  obtain ⟨past, rest, htrace⟩ := List.append_of_mem hmem
  cases rest with
  | nil => exact ⟨past, htrace⟩
  | cons event rest =>
    -- the call after the failure is not permitted
    have hprevious : (past ++ [.acceptFailed]) ++ [event] <+: w.trace := ⟨rest, by simp [htrace]⟩
    have hfalse : (past ++ [Event.acceptFailed]).foldl failStep false = false :=
      Follows.permitted h _ _ hprevious
    rw [failed_of_mem (by simp)] at hfalse
    exact absurd hfalse.symm Bool.false_ne_true

lemma LeavesOnFailure.stopped {α : Type} {result : Except Stop α} {w : World}
    (h : LeavesOnFailure result w) (hmem : .acceptFailed ∈ w.trace) : StoppedByAccept result w := by
  cases result with
  | ok a =>
    have hfalse : w.trace.foldl failStep false = false := Follows.state_eq h
    rw [failed_of_mem hmem] at hfalse
    exact absurd hfalse.symm Bool.false_ne_true
  | error stop =>
    obtain ⟨failed, hw, hstop⟩ := h
    have hfailed : w.trace.foldl failStep false = failed := Follows.state_eq hw
    rw [failed_of_mem hmem] at hfailed
    exact ⟨congrArg _ (hstop hfailed.symm), hw.last hmem⟩

lemma loop_leaves {α : Type} {round : α → Server (Except Stop α)}
    (h : ∀ a, Program.Triple (exec script) (fun _ _ => True) (Failing false) (round a)
      LeavesOnFailure) (rounds : ℕ) (a : α) :
    LeavesOnFailure ((Program.loop round rounds a).run (exec script) (.start errno buffer)).1
      ((Program.loop round rounds a).run (exec script) (.start errno buffer)).2 :=
  Program.triple_loop h rounds a _ follows_nil fun _ _ => trivial

lemma select_stopped (serverSocket rounds : ℕ) :
    let select := (Program.loop (selectSetRound serverSocket) rounds .empty).run (exec script)
      (.start errno buffer)
    .acceptFailed ∈ select.2.trace → StoppedByAccept select.1 select.2 := by
  dsimp only
  rw [selectSet_loop_run]
  exact (loop_leaves (selectRound_leaves serverSocket) rounds _).stopped

lemma poll_stopped (serverSocket rounds : ℕ) (set : PollSet) :
    let poll := (Program.loop pollSetRound rounds (.start set serverSocket)).run (exec script)
      (.start errno buffer)
    .acceptFailed ∈ poll.2.trace → StoppedByAccept poll.1 poll.2 := by
  obtain ⟨hworld, hresult⟩ := pollSet_loop_run script serverSocket rounds set (.start errno buffer)
  intro poll hmem
  have hstopped := (loop_leaves (pollRound_leaves serverSocket) rounds _).stopped (hworld ▸ hmem)
  exact ⟨pollSet_error (hresult.trans hstopped.1), hworld ▸ hstopped.2⟩

lemma kqueueSingle_stopped (serverSocket rounds : ℕ) :
    let kqueue := (Program.loop (fun _ => kqueueSingleRound serverSocket) rounds ()).run
      (exec script) (.start errno buffer)
    .acceptFailed ∈ kqueue.2.trace → StoppedByAccept kqueue.1 kqueue.2 :=
  (loop_leaves (fun _ => kqueueSingleRound_leaves serverSocket) rounds ()).stopped

end Runs
end EchoServer

namespace Asio

def Operation.isAccept : Operation → Bool
  | accept _ => true
  | _ => false

def State.accepts (state : State) : ℕ := state.pending.countP Operation.isAccept

def Completion.failsAccept : Completion → Bool
  | accepted _ error => error
  | _ => false

lemma complete_accepts {state state' : State} {operation : Operation}
    (h : state.complete operation = some state') :
    state.accepts = state'.accepts + if operation.isAccept then 1 else 0 := by
  unfold State.complete at h
  split_ifs at h with hmem
  obtain rfl := Option.some.inj h
  rw [State.accepts, (List.perm_cons_erase hmem).countP_eq, List.countP_cons]
  rfl

/-- Every failed `async_accept` takes one from the outstanding ones. -/
lemma step_accepts {state state' : State} {completion : Completion}
    (h : step state completion = some state') :
    state.accepts = state'.accepts + if completion.failsAccept then 1 else 0 := by
  cases stepped_of_step h with
  | @accepted session error next hcomplete =>
    rw [complete_accepts hcomplete]
    cases error with
    | true => rfl
    | false =>
      have hnew : (next.handleAccept session false).accepts = next.accepts + 1 := by
        simp [State.accepts, State.handleAccept, State.newAsyncAccept, State.sessionStart,
          State.begin, State.modify, List.countP_cons, Operation.isAccept]
      rw [hnew]
      rfl
  | delivered hcomplete =>
    rw [complete_accepts hcomplete]
    rfl
  | readFailed hcomplete =>
    rw [complete_accepts hcomplete]
    rfl
  | wroteSome hfits hcomplete =>
    rw [complete_accepts hcomplete]
    rfl
  | @wrote session length written error next hall hcomplete =>
    rw [complete_accepts hcomplete]
    cases error with
    | true => rfl
    | false => rfl

lemma run_accepts {state state' : State} {completions : List Completion}
    (h : completions.foldlM step state = some state') :
    state.accepts = state'.accepts + completions.countP Completion.failsAccept := by
  induction completions generalizing state with
  | nil =>
    obtain rfl : state = state' := by simpa using h
    rfl
  | cons completion completions ih =>
    rw [List.foldlM_cons] at h
    obtain ⟨next, hstep, hrest⟩ := Option.bind_eq_some_iff.mp h
    rw [step_accepts hstep, ih hrest, List.countP_cons]
    omega

lemma no_accept_of_failed {data : ℕ → ℕ → UInt8} {completions : List Completion} {state : State}
    (h : run data completions = some state) (hfails : ∃ c ∈ completions, c.failsAccept = true)
    (session : ℕ) : .accept session ∉ state.pending := by
  have hinitial : (initial data).accepts = 1 := rfl
  have hcount := run_accepts h
  have hpositive : 0 < completions.countP Completion.failsAccept :=
    List.countP_pos_iff.mpr hfails
  intro hmem
  have haccept : 0 < state.accepts := List.countP_pos_iff.mpr ⟨.accept session, hmem, rfl⟩
  omega

end Asio

/-- A failed `accept` ends the three event loops, and after it the Boost.Asio server has no
`async_accept` outstanding, whatever completes later. -/
theorem failed_accept_stops_serving (script : EchoServer.Script) (serverSocket rounds : ℕ)
    (set : EchoServer.PollSet) (errno : EchoServer.Errno) (buffer : ℕ → UInt8)
    (data : ℕ → ℕ → UInt8) (completions : List Asio.Completion) (state : Asio.State) :
    let select := (Program.loop (EchoServer.selectSetRound serverSocket) rounds .empty).run
      (EchoServer.exec script) (.start errno buffer)
    let poll := (Program.loop EchoServer.pollSetRound rounds (.start set serverSocket)).run
      (EchoServer.exec script) (.start errno buffer)
    let kqueue := (Program.loop (fun _ => EchoServer.kqueueSingleRound serverSocket) rounds ()).run
      (EchoServer.exec script) (.start errno buffer)
    (.acceptFailed ∈ select.2.trace → EchoServer.StoppedByAccept select.1 select.2) ∧
    (.acceptFailed ∈ poll.2.trace → EchoServer.StoppedByAccept poll.1 poll.2) ∧
    (.acceptFailed ∈ kqueue.2.trace → EchoServer.StoppedByAccept kqueue.1 kqueue.2) ∧
    (Asio.run data completions = some state → (∃ c ∈ completions, c.failsAccept = true) →
      ∀ session, .accept session ∉ state.pending) := by
  refine ⟨EchoServer.select_stopped serverSocket rounds, EchoServer.poll_stopped serverSocket rounds
    set, EchoServer.kqueueSingle_stopped serverSocket rounds, fun hrun hfails => ?_⟩
  exact Asio.no_accept_of_failed hrun hfails

/-- A client connects and aborts the connection before it is accepted. -/
def aborting : EchoServer.Script where
  wait _ := .ready [⟨3, true, false⟩]
  recv _ := .closed
  send _ := .accepted 0
  accept _ := .error (.other 103)
  fcntl _ := none
  close _ := none
  add _ := none

theorem failed_accept_stops_aborting :
    let w := EchoServer.World.start (.other 0) fun _ => 0
    let select := (Program.loop (EchoServer.selectSetRound 3) 2 .empty).run
      (EchoServer.exec aborting) w
    let poll := (Program.loop EchoServer.pollSetRound 2 (.start (fun _ => ⟨0, false, false⟩) 3)).run
      (EchoServer.exec aborting) w
    let kqueue := (Program.loop (fun _ => EchoServer.kqueueSingleRound 3) 2 ()).run
      (EchoServer.exec aborting) w
    EchoServer.StoppedByAccept select.1 select.2 ∧ EchoServer.StoppedByAccept poll.1 poll.2 ∧
      EchoServer.StoppedByAccept kqueue.1 kqueue.2 ∧
      ∃ state, Asio.run (fun _ _ => 0) [.accepted 0 true] = some state ∧
        ∀ session, .accept session ∉ state.pending := by
  intro w select poll kqueue
  have hselect : select.2.trace = [.waited, .acceptFailed] := rfl
  have hpoll : poll.2.trace = [.waited, .acceptFailed] := rfl
  have hkqueue : kqueue.2.trace = [.waited, .acceptFailed] := rfl
  have hasio : (Asio.run (fun _ _ => 0) [.accepted 0 true]).isSome = true := by decide +kernel
  obtain ⟨state, hstate⟩ := Option.isSome_iff_exists.mp hasio
  have h := failed_accept_stops_serving aborting 3 2 (fun _ => ⟨0, false, false⟩) (.other 0)
    (fun _ => 0) (fun _ _ => 0) [.accepted 0 true] state
  exact ⟨h.1 (hselect ▸ by simp), h.2.1 (hpoll ▸ by simp), h.2.2.1 (hkqueue ▸ by simp), state,
    hstate, h.2.2.2 hstate ⟨_, List.mem_singleton_self _, rfl⟩⟩

theorem failed_accept_stops_all_four :
    let w := EchoServer.World.start (.other 0) fun _ => 0
    let select := (Program.loop (EchoServer.selectSetRound 3) 2 .empty).run
      (EchoServer.exec aborting) w
    let poll := (Program.loop EchoServer.pollSetRound 2 (.start (fun _ => ⟨0, false, false⟩) 3)).run
      (EchoServer.exec aborting) w
    let kqueue := (Program.loop (fun _ => EchoServer.kqueueSingleRound 3) 2 ()).run
      (EchoServer.exec aborting) w
    (select.1 = .error .leftLoop ∧ poll.1 = .error .leftLoop ∧ kqueue.1 = .error .leftLoop) ∧
      select.2.trace = [.waited, .acceptFailed] ∧ poll.2.trace = [.waited, .acceptFailed] ∧
      kqueue.2.trace = [.waited, .acceptFailed] ∧
      (Asio.run (fun _ _ => 0) [.accepted 0 true]).map Asio.State.pending = some [] := by
  refine ⟨⟨rfl, rfl, rfl⟩, rfl, rfl, rfl, ?_⟩
  decide +kernel

end UnixProgramming
