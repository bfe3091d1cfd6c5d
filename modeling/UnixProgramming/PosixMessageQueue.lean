import Mathlib

/-! `posix_msg_queue.cpp`: any number of runs at once, which share the queue of one name. Every
call may fail, and the parents and children of the runs take their steps in any order. A parent
whose print runs past its array is followed no further. -/
namespace UnixProgramming.PosixMessageQueue

def kMsgSize : ℕ := 8192

def oRdonly : ℕ := 0

def oWronly : ℕ := 1

def oRdwr : ℕ := 2

def oCreat : ℕ := 64

/-- The access mode is in the two lowest bits of the flags. -/
def canRead (flags : ℕ) : Bool := flags % 4 = oRdonly || flags % 4 = oRdwr

def canWrite (flags : ℕ) : Bool := flags % 4 = oWronly || flags % 4 = oRdwr

structure Message where
  priority : ℕ
  text : List Char
  deriving DecidableEq, Repr

/-- The size that the child passes to `mq_send` is that of a pointer. -/
def helloFromChild : Message :=
  ⟨20, ['H', 'e', 'l', 'l', 'o', ' ', 'f', 'r', 'o', 'm', ' ', 'c', 'h', 'i', 'l', 'd'].take 8⟩

/-- What is printed of a message: the text up to the first zero character. -/
def Message.cString (message : Message) : List Char :=
  message.text.takeWhile fun c => c ≠ Char.ofNat 0

/-- The array `msg` of a parent, all zero before, has a zero after the text. -/
def Message.terminated (message : Message) : Bool :=
  message.text.length < kMsgSize || Char.ofNat 0 ∈ message.text

/-- The messages are in the order in which they are received. -/
structure Queue where
  maxMsg : ℕ
  messages : List Message
  deriving DecidableEq, Repr

def Queue.insert (queue : Queue) (message : Message) : Queue :=
  let earlier := queue.messages.takeWhile fun other => message.priority ≤ other.priority
  let later := queue.messages.dropWhile fun other => message.priority ≤ other.priority
  { queue with messages := earlier ++ message :: later }

def exitFailure : ℕ := 1

/-- The next call of a parent, or how it ended. -/
inductive Parent
  | fork
  | wait
  | openQueue
  | receive (queue : ℕ)
  | print (message : Message)
  | unlink
  | exited (status : ℕ)
  | overread (message : Message)
  deriving DecidableEq, Repr

inductive Child
  | openQueue
  | send (queue : ℕ)
  | report
  | exited (status : ℕ)
  | killed (signal : ℕ) (core : Bool)
  deriving DecidableEq, Repr

/-- How `waitpid` has ended: `return_value` is stored, or it is what the memory holds. -/
inductive Waited
  | stored
  | failed (memory : ℤ)
  deriving DecidableEq, Repr

structure Run where
  parent : Parent
  child : Option Child
  waited : Option Waited
  deriving DecidableEq, Repr

/-- What the runs print; of the messages with `errno` only which call failed. -/
inductive Output
  | forkFailed
  | mqOpenFailed
  | sndFailed
  | rcvFailed
  | errorInChild
  | childLine
  | parentLine
  | message (text : List Char)
  deriving DecidableEq, Repr

/-- A queue stays in use by those who have opened it when its name is gone. -/
structure State where
  queues : List Queue
  name : Option ℕ
  runs : List Run
  printed : List Output
  deriving DecidableEq, Repr

def start (initial : Option Queue) (n : ℕ) : State :=
  ⟨initial.toList, initial.map fun _ => 0, List.replicate n ⟨.fork, none, none⟩, []⟩

/-- Who takes the next step, and whether the environment lets the call in it succeed, or which
`waitpid` fails, or which child is killed. -/
inductive Event
  | parent (i : ℕ) (succeeds : Bool)
  | waitFails (i : ℕ) (memory : ℤ)
  | child (i : ℕ) (succeeds : Bool)
  | kill (i : ℕ) (signal : ℕ) (core : Bool)
  deriving DecidableEq, Repr

def State.set (s : State) (i : ℕ) (run : Run) (printed : List Output) : State :=
  { s with runs := s.runs.set i run, printed := s.printed ++ printed }

/-- The `return_value` that `waitpid` stores. -/
def Child.returnValue : Child → Option ℕ
  | exited status => some (status * 256)
  | killed signal core => some (signal + if core then 128 else 0)
  | _ => none

/-- The statements after `waitpid`. -/
def checkChild (s : State) (i : ℕ) (run : Run) (waited : Waited) (returnValue : ℤ) : State :=
  if returnValue = exitFailure then
    s.set i { run with parent := .exited exitFailure, waited := some waited } [.errorInChild]
  else s.set i { run with parent := .openQueue, waited := some waited } [.parentLine]

def parentStep (s : State) (i : ℕ) (run : Run) (succeeds : Bool) : Option State :=
  match run.parent with
  | .fork =>
    if succeeds then some (s.set i { run with parent := .wait, child := some .openQueue } [])
    else some (s.set i { run with parent := .exited exitFailure } [.forkFailed])
  | .wait =>
    match if succeeds then run.child.bind Child.returnValue else none with
    | some returnValue => some (checkChild s i run .stored returnValue)
    | none => none
  | .openQueue =>
    match if succeeds then s.name else none with
    | some queue => some (s.set i { run with parent := .receive queue } [])
    | none => some (s.set i { run with parent := .exited exitFailure } [.mqOpenFailed])
  | .receive i' =>
    if succeeds && canRead oRdonly then
      match s.queues[i']? with
      | some ⟨maxMsg, message :: messages⟩ =>
        if message.text.length ≤ kMsgSize then
          some { s.set i { run with parent := .print message } [] with
            queues := s.queues.set i' ⟨maxMsg, messages⟩ }
        else some (s.set i { run with parent := .unlink } [.rcvFailed])
      | _ => none
    else some (s.set i { run with parent := .unlink } [.rcvFailed])
  | .print message =>
    if message.terminated then
      some (s.set i { run with parent := .unlink } [.message message.cString])
    else some (s.set i { run with parent := .overread message } [])
  | .unlink =>
    some { s.set i { run with parent := .exited 0 } [] with
      name := if succeeds then none else s.name }
  | .exited _ => none
  | .overread _ => none

def waitFailsStep (s : State) (i : ℕ) (run : Run) (memory : ℤ) : Option State :=
  if run.parent = .wait then some (checkChild s i run (.failed memory) memory) else none

def childStep (s : State) (i : ℕ) (run : Run) (succeeds : Bool) : Option State :=
  match run.child with
  | some .openQueue =>
    if succeeds then
      match s.name with
      | some queue => some (s.set i { run with child := some (.send queue) } [])
      | none =>
        some { s.set i { run with child := some (.send s.queues.length) } [] with
          queues := s.queues ++ [⟨10, []⟩]
          name := some s.queues.length }
    else some (s.set i { run with child := some (.exited exitFailure) } [.mqOpenFailed])
  | some (.send i') =>
    if succeeds && canWrite oCreat then
      match s.queues[i']? with
      | some queue =>
        if queue.messages.length < queue.maxMsg then
          some { s.set i { run with child := some .report } [] with
            queues := s.queues.set i' (queue.insert helloFromChild) }
        else none
      | none => none
    else some (s.set i { run with child := some (.exited exitFailure) } [.sndFailed])
  | some .report => some (s.set i { run with child := some (.exited 0) } [.childLine])
  | some (.exited _) => none
  | some (.killed _ _) => none
  | none => none

def killStep (s : State) (i : ℕ) (run : Run) (signal : ℕ) (core : Bool) : Option State :=
  match run.child with
  | some child =>
    if child.returnValue = none ∧ 0 < signal ∧ signal < 127 then
      some (s.set i { run with child := some (.killed signal core) } [])
    else none
  | none => none

def step (s : State) : Event → Option State
  | .parent i succeeds =>
    match s.runs[i]? with
    | some run => parentStep s i run succeeds
    | none => none
  | .waitFails i memory =>
    match s.runs[i]? with
    | some run => waitFailsStep s i run memory
    | none => none
  | .child i succeeds =>
    match s.runs[i]? with
    | some run => childStep s i run succeeds
    | none => none
  | .kill i signal core =>
    match s.runs[i]? with
    | some run => killStep s i run signal core
    | none => none

/-- The ways to take a step. A queue that was opened with `O_CREAT` alone cannot be written. -/
inductive Stepped (s : State) : Event → State → Prop
  | forked {i : ℕ} {run : Run} (hrun : s.runs[i]? = some run) (hat : run.parent = .fork) :
    Stepped s (.parent i true)
      (s.set i { run with parent := .wait, child := some .openQueue } [])
  | forkFailed {i : ℕ} {run : Run} (hrun : s.runs[i]? = some run) (hat : run.parent = .fork) :
    Stepped s (.parent i false)
      (s.set i { run with parent := .exited exitFailure } [.forkFailed])
  | waited {i : ℕ} {run : Run} {child : Child} {returnValue : ℕ}
    (hrun : s.runs[i]? = some run) (hat : run.parent = .wait) (hchild : run.child = some child)
    (hvalue : child.returnValue = some returnValue) (hne : returnValue ≠ exitFailure) :
    Stepped s (.parent i true)
      (s.set i { run with parent := .openQueue, waited := some .stored } [.parentLine])
  | childFailed {i : ℕ} {run : Run} {child : Child}
    (hrun : s.runs[i]? = some run) (hat : run.parent = .wait) (hchild : run.child = some child)
    (hvalue : child.returnValue = some exitFailure) :
    Stepped s (.parent i true)
      (s.set i { run with parent := .exited exitFailure, waited := some .stored } [.errorInChild])
  | waitFailed {i : ℕ} {run : Run} {memory : ℤ} (hrun : s.runs[i]? = some run)
    (hat : run.parent = .wait) (hne : memory ≠ exitFailure) :
    Stepped s (.waitFails i memory)
      (s.set i { run with parent := .openQueue, waited := some (.failed memory) } [.parentLine])
  | childBlamed {i : ℕ} {run : Run} (hrun : s.runs[i]? = some run) (hat : run.parent = .wait) :
    Stepped s (.waitFails i exitFailure)
      (s.set i { run with parent := .exited exitFailure, waited := some (.failed exitFailure) }
        [.errorInChild])
  | opened {i : ℕ} {run : Run} {queue : ℕ} (hrun : s.runs[i]? = some run)
    (hat : run.parent = .openQueue) (hname : s.name = some queue) :
    Stepped s (.parent i true) (s.set i { run with parent := .receive queue } [])
  | openFailed {i : ℕ} {run : Run} {succeeds : Bool} (hrun : s.runs[i]? = some run)
    (hat : run.parent = .openQueue) (hwhy : succeeds = false ∨ s.name = none) :
    Stepped s (.parent i succeeds)
      (s.set i { run with parent := .exited exitFailure } [.mqOpenFailed])
  | received {i i' : ℕ} {run : Run} {maxMsg : ℕ} {message : Message} {messages : List Message}
    (hrun : s.runs[i]? = some run) (hat : run.parent = .receive i')
    (hqueue : s.queues[i']? = some ⟨maxMsg, message :: messages⟩)
    (hfits : message.text.length ≤ kMsgSize) :
    Stepped s (.parent i true)
      { s.set i { run with parent := .print message } [] with
        queues := s.queues.set i' ⟨maxMsg, messages⟩ }
  | receiveFailed {i i' : ℕ} {run : Run} {succeeds : Bool} (hrun : s.runs[i]? = some run)
    (hat : run.parent = .receive i')
    (hwhy : succeeds = false ∨ ∃ queue, s.queues[i']? = some queue ∧ queue.messages ≠ []) :
    Stepped s (.parent i succeeds) (s.set i { run with parent := .unlink } [.rcvFailed])
  | printed {i : ℕ} {run : Run} {succeeds : Bool} {message : Message}
    (hrun : s.runs[i]? = some run) (hat : run.parent = .print message)
    (hend : message.terminated = true) :
    Stepped s (.parent i succeeds)
      (s.set i { run with parent := .unlink } [.message message.cString])
  | overread {i : ℕ} {run : Run} {succeeds : Bool} {message : Message}
    (hrun : s.runs[i]? = some run) (hat : run.parent = .print message)
    (hend : message.terminated = false) :
    Stepped s (.parent i succeeds) (s.set i { run with parent := .overread message } [])
  | unlinked {i : ℕ} {run : Run} {succeeds : Bool} (hrun : s.runs[i]? = some run)
    (hat : run.parent = .unlink) :
    Stepped s (.parent i succeeds)
      { s.set i { run with parent := .exited 0 } [] with
        name := if succeeds then none else s.name }
  | found {i : ℕ} {run : Run} {queue : ℕ} (hrun : s.runs[i]? = some run)
    (hat : run.child = some .openQueue) (hname : s.name = some queue) :
    Stepped s (.child i true) (s.set i { run with child := some (.send queue) } [])
  | created {i : ℕ} {run : Run} (hrun : s.runs[i]? = some run)
    (hat : run.child = some .openQueue) (hname : s.name = none) :
    Stepped s (.child i true)
      { s.set i { run with child := some (.send s.queues.length) } [] with
        queues := s.queues ++ [⟨10, []⟩]
        name := some s.queues.length }
  | createFailed {i : ℕ} {run : Run} (hrun : s.runs[i]? = some run)
    (hat : run.child = some .openQueue) :
    Stepped s (.child i false)
      (s.set i { run with child := some (.exited exitFailure) } [.mqOpenFailed])
  | sendFailed {i i' : ℕ} {run : Run} {succeeds : Bool} (hrun : s.runs[i]? = some run)
    (hat : run.child = some (.send i')) :
    Stepped s (.child i succeeds)
      (s.set i { run with child := some (.exited exitFailure) } [.sndFailed])
  | reported {i : ℕ} {run : Run} {succeeds : Bool} (hrun : s.runs[i]? = some run)
    (hat : run.child = some .report) :
    Stepped s (.child i succeeds) (s.set i { run with child := some (.exited 0) } [.childLine])
  | killed {i signal : ℕ} {core : Bool} {run : Run} {child : Child}
    (hrun : s.runs[i]? = some run) (hat : run.child = some child)
    (hvalue : child.returnValue = none) (hpos : 0 < signal) :
    Stepped s (.kill i signal core)
      (s.set i { run with child := some (.killed signal core) } [])

variable {s s' : State} {event : Event}

lemma parentStepped {i : ℕ} {run : Run} {succeeds : Bool} (hrun : s.runs[i]? = some run)
    (h : parentStep s i run succeeds = some s') : Stepped s (.parent i succeeds) s' := by
  unfold parentStep at h
  cases hat : run.parent with
  | fork =>
    simp only [hat] at h
    split_ifs at h with hsucceeds
    · exact Option.some.inj h ▸ hsucceeds ▸ .forked hrun hat
    · exact Option.some.inj h ▸ Bool.eq_false_iff.mpr hsucceeds ▸ .forkFailed hrun hat
  | wait =>
    simp only [hat] at h
    cases succeeds with
    | false => simp at h
    | true =>
      simp only [if_true] at h
      cases hvalue : run.child.bind Child.returnValue with
      | none => simp [hvalue] at h
      | some returnValue =>
        obtain ⟨child, hchild, hreturn⟩ := Option.bind_eq_some_iff.mp hvalue
        simp only [hvalue, checkChild, Nat.cast_inj] at h
        split_ifs at h with hfailed
        · exact Option.some.inj h ▸ .childFailed hrun hat hchild (hfailed ▸ hreturn)
        · exact Option.some.inj h ▸ .waited hrun hat hchild hreturn hfailed
  | openQueue =>
    simp only [hat] at h
    cases succeeds with
    | false =>
      simp only [Bool.false_eq_true, if_false] at h
      exact Option.some.inj h ▸ .openFailed hrun hat (.inl rfl)
    | true =>
      cases hname : s.name with
      | none =>
        simp only [if_true, hname] at h
        exact Option.some.inj h ▸ .openFailed hrun hat (.inr hname)
      | some queue =>
        simp only [if_true, hname] at h
        exact Option.some.inj h ▸ .opened hrun hat hname
  | receive i' =>
    simp only [hat] at h
    cases succeeds with
    | false =>
      simp only [Bool.false_and, Bool.false_eq_true, if_false] at h
      exact Option.some.inj h ▸ .receiveFailed hrun hat (.inl rfl)
    | true =>
      rw [if_pos (by decide)] at h
      split at h
      · next hqueue =>
        split_ifs at h with hfits
        · exact Option.some.inj h ▸ .received hrun hat hqueue hfits
        · exact Option.some.inj h ▸ .receiveFailed hrun hat (.inr ⟨_, hqueue, by simp⟩)
      · cases h
  | print message =>
    simp only [hat] at h
    split_ifs at h with hend
    · exact Option.some.inj h ▸ .printed hrun hat hend
    · exact Option.some.inj h ▸ .overread hrun hat (Bool.eq_false_iff.mpr hend)
  | unlink =>
    simp only [hat] at h
    exact Option.some.inj h ▸ .unlinked hrun hat
  | exited status => simp [hat] at h
  | overread message => simp [hat] at h

lemma waitFailsStepped {i : ℕ} {run : Run} {memory : ℤ} (hrun : s.runs[i]? = some run)
    (h : waitFailsStep s i run memory = some s') : Stepped s (.waitFails i memory) s' := by
  simp only [waitFailsStep, checkChild] at h
  split_ifs at h with hat hfailed
  · exact Option.some.inj h ▸ hfailed ▸ .childBlamed hrun hat
  · exact Option.some.inj h ▸ .waitFailed hrun hat hfailed

lemma childStepped {i : ℕ} {run : Run} {succeeds : Bool} (hrun : s.runs[i]? = some run)
    (h : childStep s i run succeeds = some s') : Stepped s (.child i succeeds) s' := by
  unfold childStep at h
  cases hat : run.child with
  | none => simp [hat] at h
  | some child =>
    cases child with
    | openQueue =>
      simp only [hat] at h
      split_ifs at h with hsucceeds
      · subst hsucceeds
        cases hname : s.name with
        | none =>
          simp only [hname] at h
          exact Option.some.inj h ▸ .created hrun hat hname
        | some queue =>
          simp only [hname] at h
          exact Option.some.inj h ▸ .found hrun hat hname
      · exact Option.some.inj h ▸ Bool.eq_false_iff.mpr hsucceeds ▸ .createFailed hrun hat
    | send i' =>
      -- the access mode of `O_CREAT` is that of `O_RDONLY`
      have hreadonly : ¬ (succeeds && canWrite oCreat) = true := by
        simp [show canWrite oCreat = false by decide]
      simp only [hat, if_neg hreadonly] at h
      exact Option.some.inj h ▸ .sendFailed hrun hat
    | report =>
      simp only [hat] at h
      exact Option.some.inj h ▸ .reported hrun hat
    | exited status => simp [hat] at h
    | killed signal core => simp [hat] at h

lemma stepped_of_step (h : step s event = some s') : Stepped s event s' := by
  cases event with
  | parent i succeeds =>
    simp only [step] at h
    split at h
    · next run hrun => exact parentStepped hrun h
    · cases h
  | waitFails i memory =>
    simp only [step] at h
    split at h
    · next run hrun => exact waitFailsStepped hrun h
    · cases h
  | child i succeeds =>
    simp only [step] at h
    split at h
    · next run hrun => exact childStepped hrun h
    · cases h
  | kill i signal core =>
    simp only [step] at h
    split at h
    · next run hrun =>
      unfold killStep at h
      split at h
      · next child hat =>
        split_ifs at h with hkill
        exact Option.some.inj h ▸ .killed hrun hat hkill.1 hkill.2.1
      · cases h
    · cases h

end UnixProgramming.PosixMessageQueue
