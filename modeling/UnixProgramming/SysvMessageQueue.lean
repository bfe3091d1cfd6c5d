import Mathlib

/-! `sysv_msg_queue.cpp`: any number of runs at once, which share the queue of one key. The calls
of the queue, `fork` and `waitpid` may fail, and `SIGTERM` kills the child. The parents and
children of the runs take their steps in any order. -/
namespace UnixProgramming.SysvMessageQueue

structure Message where
  mtype : ℤ
  mtext : List Char
  deriving DecidableEq, Repr

def helloFromChild : Message :=
  ⟨10, ['H', 'e', 'l', 'l', 'o', ' ', 'f', 'r', 'o', 'm', ' ', 'c', 'h', 'i', 'l', 'd']⟩

/-- What a parent prints, without the end of the line. -/
def Message.line (message : Message) : List Char :=
  ['P', 'a', 'r', 'e', 'n', 't', ':', ' '] ++ message.mtext

def exitFailure : ℤ := 1

@[simp] lemma exitFailure_ne_zero : exitFailure ≠ 0 := by decide

/-- The next call of a parent, or how it ended. -/
inductive Parent
  | get
  | fork
  | receive
  | print (message : Message)
  | wait
  | remove (status : ℤ)
  | exited (status : ℤ)
  deriving DecidableEq, Repr

inductive Child
  | send
  | remove
  | raise
  | exited (status : ℤ)
  | killed
  deriving DecidableEq, Repr

/-- A run of the program; without an id, `msgget` has failed or is still to come. -/
structure Run where
  msgId : Option ℕ
  parent : Parent
  child : Option Child
  deriving DecidableEq, Repr

/-- The queue that exists for the key has an id and its messages; ids are not used again.
`unremoved` are the ids for which a removal has failed. -/
structure State where
  current : Option (ℕ × List Message)
  nextId : ℕ
  runs : List Run
  printed : List (List Char)
  unremoved : List ℕ
  deriving DecidableEq, Repr

def start (n : ℕ) : State := ⟨none, 0, List.replicate n ⟨none, .get, none⟩, [], []⟩

/-- Who takes the next step, and whether the environment lets the call in it succeed. -/
inductive Event
  | parent (i : ℕ) (succeeds : Bool)
  | child (i : ℕ) (succeeds : Bool)
  deriving DecidableEq, Repr

def State.set (s : State) (i : ℕ) (run : Run) : State := { s with runs := s.runs.set i run }

/-- The messages of the queue with this id, if it still exists. -/
def State.queue (s : State) (msgId : Option ℕ) : Option (List Message) :=
  match s.current with
  | some (id, messages) => if msgId = some id then some messages else none
  | none => none

def State.afterRemoval (s : State) (msgId : Option ℕ) : Option (ℕ × List Message) :=
  if (s.queue msgId).isSome then none else s.current

/-- `msgctl` with `IPC_RMID`, whose result is not looked at. -/
def State.remove (s : State) (msgId : Option ℕ) (succeeds : Bool) : State :=
  { s with
    current := if succeeds then s.afterRemoval msgId else s.current
    unremoved := s.unremoved ++ if succeeds then [] else msgId.toList }

def isRequested (message : Message) : Bool := message.mtype = 10

def parentStep (s : State) (i : ℕ) (run : Run) (succeeds : Bool) : Option State :=
  match run.parent with
  | .get =>
    if succeeds then
      match s.current with
      | some (id, _) => some (s.set i { run with msgId := some id, parent := .fork })
      | none =>
        some { s.set i { run with msgId := some s.nextId, parent := .fork } with
          current := some (s.nextId, [])
          nextId := s.nextId + 1 }
    else some (s.set i { run with parent := .fork })
  | .fork =>
    if succeeds then some (s.set i { run with parent := .receive, child := some .send })
    else some (s.set i { run with parent := .exited exitFailure })
  | .receive =>
    match s.queue run.msgId with
    | some messages =>
      if succeeds then
        match messages.find? isRequested with
        | some message =>
          some { s.set i { run with parent := .print message } with
            current := s.current.map fun q => (q.1, q.2.eraseP isRequested) }
        | none => none
      else some (s.set i { run with parent := .remove exitFailure })
    | none => some (s.set i { run with parent := .remove exitFailure })
  | .print message =>
    some { s.set i { run with parent := .wait } with printed := s.printed ++ [message.line] }
  | .wait =>
    if succeeds then
      match run.child with
      | some (.exited _) => some (s.set i { run with parent := .remove 0 })
      | some .killed => some (s.set i { run with parent := .remove 0 })
      | _ => none
    else some (s.set i { run with parent := .remove 0 })
  | .remove status =>
    some ((s.remove run.msgId succeeds).set i { run with parent := .exited status })
  | .exited _ => none

def childStep (capacity : ℕ) (s : State) (i : ℕ) (run : Run) (succeeds : Bool) : Option State :=
  match run.child with
  | some .send =>
    match s.queue run.msgId with
    | some messages =>
      if succeeds then
        if messages.length < capacity then
          some { s.set i { run with child := some .raise } with
            current := s.current.map fun q => (q.1, q.2 ++ [helloFromChild]) }
        else none
      else some (s.set i { run with child := some .remove })
    | none => some (s.set i { run with child := some .remove })
  | some .remove =>
    some ((s.remove run.msgId succeeds).set i
      { run with child := some (.exited exitFailure) })
  | some .raise => some (s.set i { run with child := some .killed })
  | some (.exited _) => none
  | some .killed => none
  | none => none

/-- `capacity` is the number of messages that fit into the queue. -/
def step (capacity : ℕ) (s : State) : Event → Option State
  | .parent i succeeds =>
    match s.runs[i]? with
    | some run => parentStep s i run succeeds
    | none => none
  | .child i succeeds =>
    match s.runs[i]? with
    | some run => childStep capacity s i run succeeds
    | none => none

/-- The ways to take a step. -/
inductive Stepped (capacity : ℕ) (s : State) : Event → State → Prop
  | found {i : ℕ} {run : Run} {id : ℕ} {messages : List Message} (hrun : s.runs[i]? = some run)
    (hat : run.parent = .get) (hcurrent : s.current = some (id, messages)) :
    Stepped capacity s (.parent i true)
      (s.set i { run with msgId := some id, parent := .fork })
  | created {i : ℕ} {run : Run} (hrun : s.runs[i]? = some run) (hat : run.parent = .get)
    (hcurrent : s.current = none) :
    Stepped capacity s (.parent i true)
      { s.set i { run with msgId := some s.nextId, parent := .fork } with
        current := some (s.nextId, [])
        nextId := s.nextId + 1 }
  | getFailed {i : ℕ} {run : Run} (hrun : s.runs[i]? = some run) (hat : run.parent = .get) :
    Stepped capacity s (.parent i false) (s.set i { run with parent := .fork })
  | forked {i : ℕ} {run : Run} (hrun : s.runs[i]? = some run) (hat : run.parent = .fork) :
    Stepped capacity s (.parent i true)
      (s.set i { run with parent := .receive, child := some .send })
  | forkFailed {i : ℕ} {run : Run} (hrun : s.runs[i]? = some run) (hat : run.parent = .fork) :
    Stepped capacity s (.parent i false) (s.set i { run with parent := .exited exitFailure })
  | received {i : ℕ} {run : Run} {id : ℕ} {messages : List Message} {message : Message}
    (hrun : s.runs[i]? = some run) (hat : run.parent = .receive)
    (hcurrent : s.current = some (id, messages)) (hid : run.msgId = some id)
    (hfind : messages.find? isRequested = some message) :
    Stepped capacity s (.parent i true)
      { s.set i { run with parent := .print message } with
        current := some (id, messages.eraseP isRequested) }
  | receiveFailed {i : ℕ} {run : Run} {succeeds : Bool} (hrun : s.runs[i]? = some run)
    (hat : run.parent = .receive) (hwhy : succeeds = false ∨ s.queue run.msgId = none) :
    Stepped capacity s (.parent i succeeds) (s.set i { run with parent := .remove exitFailure })
  | printed {i : ℕ} {run : Run} {succeeds : Bool} {message : Message}
    (hrun : s.runs[i]? = some run) (hat : run.parent = .print message) :
    Stepped capacity s (.parent i succeeds)
      { s.set i { run with parent := .wait } with printed := s.printed ++ [message.line] }
  | waited {i : ℕ} {run : Run} {succeeds : Bool} (hrun : s.runs[i]? = some run)
    (hat : run.parent = .wait) :
    Stepped capacity s (.parent i succeeds) (s.set i { run with parent := .remove 0 })
  | removed {i : ℕ} {run : Run} {succeeds : Bool} {status : ℤ} (hrun : s.runs[i]? = some run)
    (hat : run.parent = .remove status) :
    Stepped capacity s (.parent i succeeds)
      ((s.remove run.msgId succeeds).set i { run with parent := .exited status })
  | sent {i : ℕ} {run : Run} {id : ℕ} {messages : List Message} (hrun : s.runs[i]? = some run)
    (hat : run.child = some .send) (hcurrent : s.current = some (id, messages))
    (hid : run.msgId = some id) (hroom : messages.length < capacity) :
    Stepped capacity s (.child i true)
      { s.set i { run with child := some .raise } with
        current := some (id, messages ++ [helloFromChild]) }
  | sendFailed {i : ℕ} {run : Run} {succeeds : Bool} (hrun : s.runs[i]? = some run)
    (hat : run.child = some .send) (hwhy : succeeds = false ∨ s.queue run.msgId = none) :
    Stepped capacity s (.child i succeeds) (s.set i { run with child := some .remove })
  | childRemoved {i : ℕ} {run : Run} {succeeds : Bool} (hrun : s.runs[i]? = some run)
    (hat : run.child = some .remove) :
    Stepped capacity s (.child i succeeds)
      ((s.remove run.msgId succeeds).set i { run with child := some (.exited exitFailure) })
  | raised {i : ℕ} {run : Run} {succeeds : Bool} (hrun : s.runs[i]? = some run)
    (hat : run.child = some .raise) :
    Stepped capacity s (.child i succeeds) (s.set i { run with child := some .killed })

variable {capacity : ℕ} {s s' : State} {event : Event}

lemma queue_eq_some {msgId : Option ℕ} {messages : List Message}
    (h : s.queue msgId = some messages) :
    ∃ id, s.current = some (id, messages) ∧ msgId = some id := by
  unfold State.queue at h
  cases hcurrent : s.current with
  | none => simp [hcurrent] at h
  | some q =>
    simp only [hcurrent, Option.ite_none_right_eq_some, Option.some.injEq] at h
    obtain ⟨hid, rfl⟩ := h
    exact ⟨q.1, rfl, hid⟩

lemma parentStepped {i : ℕ} {run : Run} {succeeds : Bool} (hrun : s.runs[i]? = some run)
    (h : parentStep s i run succeeds = some s') :
    Stepped capacity s (.parent i succeeds) s' := by
  unfold parentStep at h
  cases hat : run.parent with
  | get =>
    simp only [hat] at h
    split_ifs at h with hsucceeds
    · subst hsucceeds
      cases hcurrent : s.current with
      | none =>
        simp only [hcurrent] at h
        exact Option.some.inj h ▸ .created hrun hat hcurrent
      | some q =>
        simp only [hcurrent] at h
        exact Option.some.inj h ▸ .found hrun hat hcurrent
    · exact Option.some.inj h ▸ Bool.eq_false_iff.mpr hsucceeds ▸ .getFailed hrun hat
  | fork =>
    simp only [hat] at h
    split_ifs at h with hsucceeds
    · exact Option.some.inj h ▸ hsucceeds ▸ .forked hrun hat
    · exact Option.some.inj h ▸ Bool.eq_false_iff.mpr hsucceeds ▸ .forkFailed hrun hat
  | receive =>
    simp only [hat] at h
    cases hqueue : s.queue run.msgId with
    | none =>
      simp only [hqueue] at h
      exact Option.some.inj h ▸ .receiveFailed hrun hat (.inr hqueue)
    | some messages =>
      simp only [hqueue] at h
      obtain ⟨id, hcurrent, hid⟩ := queue_eq_some hqueue
      split_ifs at h with hsucceeds
      · subst hsucceeds
        split at h
        · next message hfind =>
          obtain rfl := Option.some.inj h
          rw [hcurrent]
          exact .received hrun hat hcurrent hid hfind
        · cases h
      · exact Option.some.inj h ▸
          .receiveFailed hrun hat (.inl (Bool.eq_false_iff.mpr hsucceeds))
  | print message =>
    simp only [hat] at h
    exact Option.some.inj h ▸ .printed hrun hat
  | wait =>
    simp only [hat] at h
    have hwaited : s' = s.set i { run with parent := .remove 0 } := by
      split_ifs at h
      · split at h
        · exact (Option.some.inj h).symm
        · exact (Option.some.inj h).symm
        · cases h
      · exact (Option.some.inj h).symm
    exact hwaited ▸ .waited hrun hat
  | remove status =>
    simp only [hat] at h
    exact Option.some.inj h ▸ .removed hrun hat
  | exited status => simp [hat] at h

lemma childStepped {i : ℕ} {run : Run} {succeeds : Bool} (hrun : s.runs[i]? = some run)
    (h : childStep capacity s i run succeeds = some s') :
    Stepped capacity s (.child i succeeds) s' := by
  unfold childStep at h
  cases hat : run.child with
  | none => simp [hat] at h
  | some child =>
    cases child with
    | send =>
      simp only [hat] at h
      cases hqueue : s.queue run.msgId with
      | none =>
        simp only [hqueue] at h
        exact Option.some.inj h ▸ .sendFailed hrun hat (.inr hqueue)
      | some messages =>
        simp only [hqueue] at h
        obtain ⟨id, hcurrent, hid⟩ := queue_eq_some hqueue
        split_ifs at h with hsucceeds hroom
        · subst hsucceeds
          obtain rfl := Option.some.inj h
          rw [hcurrent]
          exact .sent hrun hat hcurrent hid hroom
        · exact Option.some.inj h ▸ .sendFailed hrun hat (.inl (Bool.eq_false_iff.mpr hsucceeds))
    | remove =>
      simp only [hat] at h
      exact Option.some.inj h ▸ .childRemoved hrun hat
    | raise =>
      simp only [hat] at h
      exact Option.some.inj h ▸ .raised hrun hat
    | exited status => simp [hat] at h
    | killed => simp [hat] at h

lemma stepped_of_step (h : step capacity s event = some s') : Stepped capacity s event s' := by
  cases event with
  | parent i succeeds =>
    simp only [step] at h
    split at h
    · next run hrun => exact parentStepped hrun h
    · cases h
  | child i succeeds =>
    simp only [step] at h
    split at h
    · next run hrun => exact childStepped hrun h
    · cases h

end UnixProgramming.SysvMessageQueue
