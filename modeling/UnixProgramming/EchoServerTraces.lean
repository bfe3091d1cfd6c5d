import UnixProgramming.EchoServerLoops
import UnixProgramming.Histories

/-! What the calls of the echo servers add to the trace, for any state that is read off
the trace and any condition on its events. -/
namespace UnixProgramming.EchoServer

/-- A `recv` or `send` on a descriptor. -/
def Event.transfers (socket : ℕ) : Event → Prop
  | received s _ => s = socket
  | sent s _ _ _ => s = socket
  | _ => False

lemma recv_trace_initial {script : Script} {w : World} {socket : ℕ} :
    w.trace ++ [.received socket (script.recv w.clock)] <+: (echo script w socket).2.trace := by
  cases hr : script.recv w.clock with
  | closed =>
    rw [echo_closed hr, recv_trace, hr]
  | failed e =>
    rw [echo_failed hr, send_trace, recv_trace, hr]
    exact List.prefix_append _ _
  | data chunk =>
    rw [echo_data hr, send_trace, recv_trace, hr]
    exact List.prefix_append _ _

lemma exec_trace_grows (script : Script) (w : World) (op : Op) :
    w.trace <+: (exec script w op).2.trace := by
  cases op with
  | wait =>
    unfold exec
    cases script.wait w.clock <;> simp
  | echo socket => exact (List.prefix_append _ _).trans recv_trace_initial
  | close socket => simp [exec]
  | accept =>
    unfold exec
    cases script.accept w.clock <;> simp
  | fcntl socket => simp [exec]
  | add sockets => simp [exec]

/-- No call is taken back. -/
lemma run_trace_grows {α : Type} (script : Script) (p : Server α) (w : World) :
    w.trace <+: (p.run (exec script) w).2.trace := by
  have hstep : ∀ v op, w.trace <+: v.trace → True → w.trace <+: (exec script v op).2.trace :=
    fun v op hv _ => hv.trans (exec_trace_grows script v op)
  exact (Program.invariant_of_guarded (P := fun v : World => w.trace <+: v.trace) hstep p
    (List.prefix_refl _) fun _ _ => trivial).2

variable {S : Type} {step : S → Event → S} {init : S} {ok : S → Event → Prop} {state : S}
variable {script : Script} {guard : World → Op → Prop}

def FollowsTrace (step : S → Event → S) (init : S) (ok : S → Event → Prop) (state : S)
    (w : World) : Prop := Follows step init ok state w.trace

lemma FollowsTrace.snoc {w w' : World} {event : Event} (h : FollowsTrace step init ok state w)
    (htrace : w'.trace = w.trace ++ [event]) (hok : ok state event) :
    FollowsTrace step init ok (step state event) w' := by
  unfold FollowsTrace
  rw [htrace]
  exact Follows.snoc h hok

lemma FollowsTrace.quiet {w w' : World} {event : Event} (h : FollowsTrace step init ok state w)
    (htrace : w'.trace = w.trace ++ [event]) (hquiet : step state event = state ∧ ok state event) :
    FollowsTrace step init ok state w' := by
  have hnext := h.snoc htrace hquiet.2
  rwa [hquiet.1] at hnext

def acceptEvent : Option ℕ → Event
  | some socket => .accepted socket
  | none => .acceptFailed

section Calls

variable {w : World} {socket : ℕ} (h : FollowsTrace step init ok state w)
include h

lemma FollowsTrace.wait (hquiet : step state .waited = state ∧ ok state .waited) :
    FollowsTrace step init ok state (exec script w .wait).2 := by
  have htrace : (exec script w .wait).2.trace = w.trace ++ [.waited] := by
    unfold exec
    cases script.wait w.clock <;> simp
  exact h.quiet htrace hquiet

lemma FollowsTrace.echo (hquiet : ∀ event : Event, event.transfers socket →
      step state event = state ∧ ok state event) :
    FollowsTrace step init ok state (exec script w (.echo socket)).2 := by
  have hrecv : FollowsTrace step init ok state (recv script w socket).2 :=
    h.quiet recv_trace (hquiet _ rfl)
  change FollowsTrace step init ok state (EchoServer.echo script w socket).2
  cases hr : script.recv w.clock with
  | closed => rwa [echo_closed hr]
  | failed e =>
    rw [echo_failed hr]
    exact hrecv.quiet (send_trace _) (hquiet _ rfl)
  | data chunk =>
    rw [echo_data hr]
    exact hrecv.quiet (send_trace _) (hquiet _ rfl)

lemma FollowsTrace.close (hok : ok state (.closed socket)) :
    FollowsTrace step init ok (step state (.closed socket)) (exec script w (.close socket)).2 := by
  have htrace : (exec script w (.close socket)).2.trace = w.trace ++ [.closed socket] :=
    World.fail_trace _ _
  exact h.snoc htrace hok

lemma FollowsTrace.accept (hok : ∀ r, ok state (acceptEvent r)) :
    FollowsTrace step init ok (step state (acceptEvent (exec script w .accept).1))
      (exec script w .accept).2 := by
  have htrace : (exec script w .accept).2.trace =
      w.trace ++ [acceptEvent (exec script w .accept).1] := by
    unfold exec
    cases script.accept w.clock with
    | ok socket => rfl
    | error e => exact World.fail_trace _ _
  exact h.snoc htrace (hok _)

lemma FollowsTrace.fcntl
    (hquiet : step state (.fcntl socket) = state ∧ ok state (.fcntl socket)) :
    FollowsTrace step init ok state (exec script w (.fcntl socket)).2 := by
  have htrace : (exec script w (.fcntl socket)).2.trace = w.trace ++ [.fcntl socket] :=
    World.fail_trace _ _
  exact h.quiet htrace hquiet

lemma FollowsTrace.add {sockets : List ℕ} (hok : ok state (.added sockets)) :
    FollowsTrace step init ok (step state (.added sockets)) (exec script w (.add sockets)).2 := by
  have htrace : (exec script w (.add sockets)).2.trace = w.trace ++ [.added sockets] :=
    World.fail_trace _ _
  exact h.snoc htrace hok

end Calls

lemma callWait_follows (hquiet : step state .waited = state ∧ ok state .waited) :
    Program.Triple (exec script) guard (FollowsTrace step init ok state) callWait
      fun _ => FollowsTrace step init ok state :=
  Program.triple_op fun _ hw _ => hw.wait hquiet

lemma callEcho_follows {socket : ℕ} (hquiet : ∀ event : Event, event.transfers socket →
      step state event = state ∧ ok state event) :
    Program.Triple (exec script) guard (FollowsTrace step init ok state) (callEcho socket)
      fun _ => FollowsTrace step init ok state :=
  Program.triple_op fun _ hw _ => hw.echo hquiet

lemma callClose_follows {socket : ℕ} (hok : ok state (.closed socket)) :
    Program.Triple (exec script) guard (FollowsTrace step init ok state) (callClose socket)
      fun _ => FollowsTrace step init ok (step state (.closed socket)) :=
  Program.triple_op fun _ hw _ => hw.close hok

lemma callAccept_follows (hok : ∀ r, ok state (acceptEvent r)) :
    Program.Triple (exec script) guard (FollowsTrace step init ok state) callAccept
      fun r => FollowsTrace step init ok (step state (acceptEvent r)) :=
  Program.triple_op fun _ hw _ => hw.accept hok

lemma setNonblock_follows {socket : ℕ}
    (hquiet : step state (.fcntl socket) = state ∧ ok state (.fcntl socket)) :
    Program.Triple (exec script) guard (FollowsTrace step init ok state) (setNonblock socket)
      fun _ => FollowsTrace step init ok state := by
  have hfcntl : Program.Triple (exec script) guard (FollowsTrace step init ok state)
      (Program.op (Op.fcntl socket)) fun _ => FollowsTrace step init ok state :=
    Program.triple_op fun _ hw _ => hw.fcntl hquiet
  exact hfcntl.bind fun _ => hfcntl

lemma callAdd_follows {sockets : List ℕ} (hok : ok state (.added sockets)) :
    Program.Triple (exec script) guard (FollowsTrace step init ok state) (callAdd sockets)
      fun _ => FollowsTrace step init ok (step state (.added sockets)) :=
  Program.triple_op fun _ hw _ => hw.add hok

end UnixProgramming.EchoServer
