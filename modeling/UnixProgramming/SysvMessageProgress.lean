import UnixProgramming.SysvMessageInvariant

/-! How the runs of `sysv_msg_queue.cpp` end. -/
namespace UnixProgramming.SysvMessageQueue
open ListUpdates
open StepRuns (Blocked)

variable {capacity : ℕ} {s s' : State} {event : Event}

section Progress

def Parent.rank : Parent → ℕ
  | get => 8
  | fork => 7
  | receive => 4
  | print _ => 3
  | wait => 2
  | remove _ => 1
  | exited _ => 0

def Child.rank : Child → ℕ
  | send => 2
  | remove => 1
  | raise => 1
  | exited _ => 0
  | killed => 0

/-- The steps that a run may still take. -/
def Run.rank (run : Run) : ℕ := run.parent.rank + (run.child.map Child.rank).getD 0

def State.rank (s : State) : ℕ := (s.runs.map Run.rank).sum

lemma step_rank (h : Inv s) (hstep : step capacity s event = some s') : s'.rank < s.rank := by
  have hset : ∀ {i run run'}, s.runs[i]? = some run → Run.rank run' < run.rank →
      ((s.runs.set i run').map Run.rank).sum < s.rank := fun hrun hlt => sum_map_set_lt hrun hlt
  cases stepped_of_step hstep with
  | found hrun hat hcurrent => exact hset hrun (by simp [Run.rank, hat, Parent.rank])
  | created hrun hat hcurrent => exact hset hrun (by simp [Run.rank, hat, Parent.rank])
  | getFailed hrun hat => exact hset hrun (by simp [Run.rank, hat, Parent.rank])
  | forked hrun hat =>
    have hchild := (h.ok _ (List.mem_of_getElem? hrun)).unforked (.inr hat)
    exact hset hrun (by simp [Run.rank, hat, Parent.rank, hchild, Child.rank])
  | forkFailed hrun hat => exact hset hrun (by simp [Run.rank, hat, Parent.rank])
  | received hrun hat hcurrent hid hfind =>
    exact hset hrun (by simp [Run.rank, hat, Parent.rank])
  | receiveFailed hrun hat hwhy => exact hset hrun (by simp [Run.rank, hat, Parent.rank])
  | printed hrun hat => exact hset hrun (by simp [Run.rank, hat, Parent.rank])
  | waited hrun hat => exact hset hrun (by simp [Run.rank, hat, Parent.rank])
  | removed hrun hat => exact hset hrun (by simp [Run.rank, hat, Parent.rank])
  | sent hrun hat hcurrent hid hroom => exact hset hrun (by simp [Run.rank, hat, Child.rank])
  | sendFailed hrun hat hwhy => exact hset hrun (by simp [Run.rank, hat, Child.rank])
  | childRemoved hrun hat => exact hset hrun (by simp [Run.rank, hat, Child.rank])
  | raised hrun hat => exact hset hrun (by simp [Run.rank, hat, Child.rank])

def Event.succeeds : Event → Bool
  | parent _ succeeds => succeeds
  | child _ succeeds => succeeds

/-- The parent has returned, and so has the child, if there is one. -/
structure Run.Ended (run : Run) : Prop where
  parent : ∃ status, run.parent = .exited status
  child : run.child = none ∨ run.child = some .killed ∨ ∃ status, run.child = some (.exited status)

end Progress

/-- `msgsnd` and `msgctl` fail in the child, and the parent waits for a message. -/
example : ([.parent 0 true, .parent 0 true, .child 0 false, .child 0 false].foldlM (step 1)
    (start 1)).map (fun s => (s.current, s.unremoved)) = some (some (0, []), [0]) := rfl

end UnixProgramming.SysvMessageQueue
