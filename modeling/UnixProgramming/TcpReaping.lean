import UnixProgramming.TcpConnections
import UnixProgramming.TcpServer

/-! What the handler of `SIGCHLD` does for the rest of `server.c`: it keeps `errno`, and it takes
the children that have exited. For the latter the model of the connections is followed by that
of the processes. -/
namespace UnixProgramming.TcpServer
open EchoServer (Errno)

/-- Without anything in between, a handler that has begun takes all exited children. -/
lemma exists_reaping (saved : Errno) (s : State) (hhandler : s.handler = some (.loop saved)) :
    ∃ events : List Event, events.foldlM step s =
      some { s with zombies := [], handler := none, errno := saved } := by
  induction hzombies : s.zombies generalizing s with
  | nil => exact ⟨[.waitpid 0, .restore], by simp [step, hhandler, hzombies]⟩
  | cons child zombies ih =>
    obtain ⟨events, hevents⟩ := ih { s with zombies := zombies } hhandler rfl
    refine ⟨.waitpid child :: events, ?_⟩
    have hfirst : step s (.waitpid child) = some { s with zombies := zombies } := by
      simp [step, hhandler, hzombies]
    rw [List.foldlM_cons, hfirst]
    exact hevents

/-- The handler of the pending signal takes all exited children and changes nothing else. -/
lemma exists_delivery {s : State} (hannounced : Announced s) (hhandler : s.handler = none) :
    ∃ events : List Event,
      events.foldlM step s = some { s with zombies := [], pending := false } := by
  by_cases hpending : s.pending = true
  · have hdelivered : step s .deliver =
        some { s with pending := false, handler := some (.loop s.errno) } := by
      simp [step, hpending, hhandler]
    obtain ⟨events, hevents⟩ := exists_reaping s.errno
      { s with pending := false, handler := some (.loop s.errno) } rfl
    refine ⟨.deliver :: events, ?_⟩
    rw [List.foldlM_cons, hdelivered]
    refine hevents.trans (congrArg some ?_)
    rw [hhandler]
  · have hzombies : s.zombies = [] := by
      by_contra hne
      simpa [hpending, hhandler] using hannounced hne
    refine ⟨[], congrArg some ?_⟩
    rw [← hzombies, ← Bool.eq_false_iff.mpr hpending]

/-- The error with which the call has failed. -/
def Event.failure : Event → Option Errno
  | accept (.error e) => some e
  | fork (.error e) => some e
  | _ => none

end UnixProgramming.TcpServer

namespace UnixProgramming.TcpConnections

def Main.view : Main → TcpServer.Main
  | accept => .accept
  | fork _ => .fork
  | close _ => .close

def Running (children : List Child) (i : ℕ) : Prop :=
  ∃ child, children[i]? = some child ∧ child.statement ≠ .exited

def Exited (children : List Child) (i : ℕ) : Prop :=
  ∃ child, children[i]? = some child ∧ child.statement = .exited

/-- Both models are at the same statement of `main` and have the same children. -/
structure View (s : State) (t : TcpServer.State) : Prop where
  main : t.main = s.main.view
  handler : t.handler = none
  nodup : t.running.Nodup
  running : ∀ i, i ∈ t.running ↔ Running s.children i
  zombies : ∀ i, i ∈ t.zombies ↔ Exited s.children i

variable {socketFd : ℕ} {s s' : State} {t : TcpServer.State} {event : Event}

lemma exists_set_iff {children : List Child} {i : ℕ} {child : Child}
    (hchild : children[i]? = some child) (child' : Child) (P : Child → Prop) (j : ℕ) :
    (∃ x, (children.set i child')[j]? = some x ∧ P x) ↔
      if j = i then P child' else ∃ x, children[j]? = some x ∧ P x := by
  obtain ⟨hlt, -⟩ := List.getElem?_eq_some_iff.mp hchild
  split_ifs with heq
  · rw [heq, List.getElem?_set_self hlt]
    simp
  · rw [List.getElem?_set_ne (Ne.symm heq)]

/-- A child goes on that neither has exited nor exits. -/
lemma View.setChild (h : View s t) {i : ℕ} {child child' : Child}
    (hchild : s.children[i]? = some child) (hsame : child'.statement = .exited ↔
      child.statement = .exited) : View (s.setChild i child') t where
  main := h.main
  handler := h.handler
  nodup := h.nodup
  running j := by
    have hset := exists_set_iff hchild child' (fun x => x.statement ≠ .exited) j
    rw [h.running, Running, Running]
    refine Iff.trans ?_ hset.symm
    split_ifs with heq
    · subst heq
      simp [hchild, hsame]
    · rfl
  zombies j := by
    have hset := exists_set_iff hchild child' (fun x => x.statement = .exited) j
    rw [h.zombies, Exited, Exited]
    refine Iff.trans ?_ hset.symm
    split_ifs with heq
    · subst heq
      simp [hchild, hsame]
    · rfl

lemma View.exit (h : View s t) {i : ℕ} {child : Child} (hchild : s.children[i]? = some child)
    (table : Table) : View
      (s.setChild i { child with table := table, statement := .exited })
      { t with running := t.running.erase i, zombies := i :: t.zombies, pending := true } where
  main := h.main
  handler := h.handler
  nodup := h.nodup.erase i
  running j := by
    have hset := exists_set_iff hchild { child with table := table, statement := .exited }
      (fun x => x.statement ≠ .exited) j
    rw [h.nodup.mem_erase_iff, h.running, Running, Running]
    refine Iff.trans ?_ hset.symm
    split_ifs with heq <;> simp [heq]
  zombies j := by
    have hset := exists_set_iff hchild { child with table := table, statement := .exited }
      (fun x => x.statement = .exited) j
    rw [List.mem_cons, h.zombies, Exited, Exited]
    refine Iff.trans ?_ hset.symm
    split_ifs with heq <;> simp [heq]

lemma exists_concat_iff (children : List Child) (child : Child) (P : Child → Prop) (j : ℕ) :
    (∃ x, (children ++ [child])[j]? = some x ∧ P x) ↔
      (∃ x, children[j]? = some x ∧ P x) ∨ j = children.length ∧ P child := by
  rcases lt_trichotomy j children.length with hlt | rfl | hgt
  · rw [List.getElem?_append_left hlt]
    simp [hlt.ne]
  · rw [List.getElem?_concat_length]
    simp
  · rw [List.getElem?_eq_none (by rw [List.length_append, List.length_singleton]; omega),
      List.getElem?_eq_none (by omega)]
    simp [hgt.ne']

lemma View.fork (h : View s t) {child : Child} (hstatement : child.statement ≠ .exited)
    (main : Main) :
    View { s with main := main, children := s.children ++ [child] }
      { t with main := main.view, running := s.children.length :: t.running } where
  main := rfl
  handler := h.handler
  nodup := by
    refine List.nodup_cons.mpr ⟨fun hmem => ?_, h.nodup⟩
    obtain ⟨x, hx, -⟩ := (h.running _).mp hmem
    simp at hx
  running j := by
    have hconcat := exists_concat_iff s.children child (fun x => x.statement ≠ .exited) j
    rw [List.mem_cons, h.running, Running, Running]
    refine Iff.trans ?_ hconcat.symm
    simp only [hstatement, not_false_eq_true, and_true, ne_eq, or_comm]
  zombies j := by
    have hconcat := exists_concat_iff s.children child (fun x => x.statement = .exited) j
    rw [h.zombies, Exited, Exited]
    refine Iff.trans ?_ hconcat.symm
    simp only [hstatement, and_false, or_false]

/-- Some events of the processes follow each event of the connections. -/
lemma step_view (h : View s t) (hstep : step socketFd s event = some s') :
    ∃ (events : List TcpServer.Event) (t' : TcpServer.State),
      events.foldlM TcpServer.step t = some t' ∧ View s' t' := by
  have hhandler := h.handler
  cases stepped_of_step hstep with
  | accepted hmain =>
    refine ⟨[.accept (.ok 0)], { t with main := .fork }, ?_, ?_⟩
    · simp [TcpServer.step, h.main, hmain, Main.view, hhandler]
    · exact ⟨rfl, hhandler, h.nodup, h.running, h.zombies⟩
  | acceptFailed => exact ⟨[], t, rfl, h⟩
  | forked hmain =>
    refine ⟨[.fork (.ok s.children.length)], _, ?_, h.fork (by simp) (.close _)⟩
    simp [TcpServer.step, h.main, hmain, Main.view, hhandler]
  | forkFailed hmain =>
    refine ⟨[.fork (.error (.other 0))], { t with main := .close, errno := .other 0 }, ?_, ?_⟩
    · simp [TcpServer.step, h.main, hmain, Main.view, hhandler]
    · exact ⟨rfl, hhandler, h.nodup, h.running, h.zombies⟩
  | closed hmain =>
    refine ⟨[.close], { t with main := .accept }, ?_, ?_⟩
    · simp [TcpServer.step, h.main, hmain, Main.view, hhandler]
    · exact ⟨rfl, hhandler, h.nodup, h.running, h.zombies⟩
  | @child i child child' hchild hnext =>
    cases hnext with
    | closedListening hat => exact ⟨[], t, rfl, h.setChild hchild (by simp [hat])⟩
    | unsent hat hlookup => exact ⟨[], t, rfl, h.setChild hchild (by simp [hat])⟩
    | closed hat => exact ⟨[], t, rfl, h.setChild hchild (by simp [hat])⟩
    | ended =>
      by_cases hat : child.statement = .exited
      · exact ⟨[], t, rfl, h.setChild hchild (by simp [hat])⟩
      · refine ⟨[.exit i], _, ?_, h.exit hchild []⟩
        have hmem : i ∈ t.running := (h.running i).mpr ⟨child, hchild, hat⟩
        simp [TcpServer.step, hmem]
  | @sent i c child sent hchild hstatement hlookup =>
    have hset : View (s.setChild i { child with statement := .close }) t :=
      h.setChild hchild (by simp [hstatement])
    exact ⟨[], t, rfl, hset.main, hset.handler, hset.nodup, hset.running, hset.zombies⟩
  | received hconnection hnone hstream =>
    exact ⟨[], t, rfl, h.main, hhandler, h.nodup, h.running, h.zombies⟩
  | ended hconnection hnone hstream hheld =>
    exact ⟨[], t, rfl, h.main, hhandler, h.nodup, h.running, h.zombies⟩
  | recvFailed hconnection hnone =>
    exact ⟨[], t, rfl, h.main, hhandler, h.nodup, h.running, h.zombies⟩

/-- What happens on the connections is what some run of the processes does, and after it the
handler of `SIGCHLD` takes exactly the children that have exited: those which still serve a
connection go on, and nothing else has changed. -/
theorem exited_are_reaped (events : List Event)
    (h : events.foldlM (step socketFd) (start socketFd) = some s) (errno : EchoServer.Errno) :
    ∃ (before handling : List TcpServer.Event) (t : TcpServer.State),
      before.foldlM TcpServer.step (TcpServer.start errno) = some t ∧ View s t ∧
      handling.foldlM TcpServer.step t = some { t with zombies := [], pending := false } := by
  have hstart : View (start socketFd) (TcpServer.start errno) := by
    constructor <;> simp [start, TcpServer.start, Main.view, Running, Exited]
  obtain ⟨before, t, hbefore, hview⟩ := StepRuns.exists_run_of_simulation
    (fun _ _ _ _ hs hstep => step_view hs hstep) hstart h
  have hannounced : TcpServer.Announced t :=
    StepRuns.invariant_of_run (fun _ _ _ hs hstep => TcpServer.step_announced hs hstep)
      (fun hz => absurd rfl hz) hbefore
  obtain ⟨handling, hhandling⟩ := TcpServer.exists_delivery hannounced hview.handler
  exact ⟨before, handling, t, hbefore, hview, hhandling⟩

/-- Of the two children of `twoClients` the first is killed. -/
theorem exited_are_reaped_two : ∃ s, twoClients.foldlM (step 3) (start 3) = some s ∧
    ∃ (before handling : List TcpServer.Event) (t t' : TcpServer.State),
      before.foldlM TcpServer.step (TcpServer.start (.other 0)) = some t ∧ 0 ∈ t.zombies ∧
      handling.foldlM TcpServer.step t = some t' ∧ 0 ∉ t'.zombies := by
  obtain ⟨s, hs, hkilled⟩ : ∃ s, twoClients.foldlM (step 3) (start 3) = some s ∧
      s.children.head?.map Child.statement = some .exited := by
    have hrun : ((twoClients.foldlM (step 3) (start 3)).any fun s =>
        s.children.head?.map Child.statement = some .exited) = true := by
      decide +kernel
    obtain ⟨s, hs, hkilled⟩ := (Option.any_eq_true _ _).mp hrun
    exact ⟨s, hs, of_decide_eq_true hkilled⟩
  obtain ⟨child, hchild, hstatement⟩ := Option.map_eq_some_iff.mp hkilled
  obtain ⟨before, handling, t, hbefore, hview, hhandling⟩ :=
    exited_are_reaped twoClients hs (.other 0)
  refine ⟨s, hs, before, handling, t, _, hbefore, ?_, hhandling, by simp⟩
  exact (hview.zombies 0).mpr ⟨child, by rw [← hchild, List.head?_eq_getElem?], hstatement⟩

end UnixProgramming.TcpConnections
