import UnixProgramming.ListUpdates
import UnixProgramming.StepRuns

/-! `fifo_channel.cpp`: any number of runs at once in one directory. A FIFO is known by the run
that has made it. Every call may fail, and a run may be killed at any time. -/
namespace UnixProgramming.FifoChannel
open ListUpdates

def kBufferSize : ℕ := 512

def exitFailure : ℤ := 1

/-- The next call of a run, or how it ended. -/
inductive Place
  | makeIn
  | makeOut
  | openIn
  | openOut
  | read
  | write (chunk : List UInt8)
  | unlinkIn (status : ℤ)
  | unlinkOut (status : ℤ)
  | exited (status : ℤ)
  | killed
  deriving DecidableEq, Repr

/-- `waiting` is what the writers of the input have yet to deliver before the last of them closes
it, and `delivered` what the run has written; `input` and `output` tell whether `open` worked. -/
structure Run where
  place : Place
  input : Bool
  output : Bool
  waiting : List UInt8
  delivered : List UInt8
  deriving DecidableEq, Repr

/-- Which runs have made the FIFOs that exist under the two names. -/
structure State where
  inFifo : Option ℕ
  outFifo : Option ℕ
  runs : List Run
  deriving DecidableEq, Repr

def start (inputs : List (List UInt8)) : State :=
  ⟨none, none, inputs.map fun input => ⟨.makeIn, false, false, input, []⟩⟩

/-- A run goes on, with a call that the environment lets succeed or not and with the number of
bytes that `read` returns; or it is killed, when it has written some of its bytes. -/
inductive Event
  | go (i : ℕ) (succeeds : Bool) (bytes : ℕ)
  | kill (i : ℕ) (bytes : ℕ)
  deriving DecidableEq, Repr

def State.set (s : State) (i : ℕ) (run : Run) : State := { s with runs := s.runs.set i run }

def goStep (s : State) (i : ℕ) (run : Run) (succeeds : Bool) (bytes : ℕ) : Option State :=
  match run.place with
  | .makeIn =>
    if succeeds ∧ s.inFifo = none then
      some { s.set i { run with place := .makeOut } with inFifo := some i }
    else some (s.set i { run with place := .exited exitFailure })
  | .makeOut =>
    if succeeds ∧ s.outFifo = none then
      some { s.set i { run with place := .openIn } with outFifo := some i }
    else some (s.set i { run with place := .exited exitFailure })
  | .openIn => some (s.set i { run with place := .openOut, input := succeeds })
  | .openOut => some (s.set i { run with place := .read, output := succeeds })
  | .read =>
    if succeeds ∧ run.input then
      if run.waiting = [] then some (s.set i { run with place := .unlinkIn 0 })
      else if 0 < bytes ∧ bytes ≤ min kBufferSize run.waiting.length then
        some (s.set i { run with
          place := .write (run.waiting.take bytes)
          waiting := run.waiting.drop bytes })
      else none
    else some (s.set i { run with place := .unlinkIn exitFailure })
  | .write chunk =>
    if succeeds ∧ run.output then
      some (s.set i { run with place := .read, delivered := run.delivered ++ chunk })
    else some (s.set i { run with place := .read })
  | .unlinkIn status =>
    some { s.set i { run with place := .unlinkOut status } with
      inFifo := if succeeds then none else s.inFifo }
  | .unlinkOut status =>
    some { s.set i { run with place := .exited status } with
      outFifo := if succeeds then none else s.outFifo }
  | .exited _ => none
  | .killed => none

def killStep (s : State) (i : ℕ) (run : Run) (bytes : ℕ) : Option State :=
  match run.place with
  | .exited _ => none
  | .killed => none
  | .write chunk =>
    if run.output then
      some (s.set i { run with
        place := .killed
        delivered := run.delivered ++ chunk.take bytes })
    else some (s.set i { run with place := .killed })
  | _ => some (s.set i { run with place := .killed })

def step (s : State) : Event → Option State
  | .go i succeeds bytes =>
    match s.runs[i]? with
    | some run => goStep s i run succeeds bytes
    | none => none
  | .kill i bytes =>
    match s.runs[i]? with
    | some run => killStep s i run bytes
    | none => none

/-- The ways to take a step. -/
inductive Stepped (s : State) : Event → State → Prop
  | madeIn {i bytes : ℕ} {run : Run} (hrun : s.runs[i]? = some run) (hat : run.place = .makeIn)
    (hfree : s.inFifo = none) :
    Stepped s (.go i true bytes)
      { s.set i { run with place := .makeOut } with inFifo := some i }
  | makeInFailed {i bytes : ℕ} {run : Run} {succeeds : Bool} (hrun : s.runs[i]? = some run)
    (hat : run.place = .makeIn) (hwhy : succeeds = false ∨ s.inFifo ≠ none) :
    Stepped s (.go i succeeds bytes) (s.set i { run with place := .exited exitFailure })
  | madeOut {i bytes : ℕ} {run : Run} (hrun : s.runs[i]? = some run) (hat : run.place = .makeOut)
    (hfree : s.outFifo = none) :
    Stepped s (.go i true bytes)
      { s.set i { run with place := .openIn } with outFifo := some i }
  | makeOutFailed {i bytes : ℕ} {run : Run} {succeeds : Bool} (hrun : s.runs[i]? = some run)
    (hat : run.place = .makeOut) (hwhy : succeeds = false ∨ s.outFifo ≠ none) :
    Stepped s (.go i succeeds bytes) (s.set i { run with place := .exited exitFailure })
  | openedIn {i bytes : ℕ} {run : Run} {succeeds : Bool} (hrun : s.runs[i]? = some run)
    (hat : run.place = .openIn) :
    Stepped s (.go i succeeds bytes) (s.set i { run with place := .openOut, input := succeeds })
  | openedOut {i bytes : ℕ} {run : Run} {succeeds : Bool} (hrun : s.runs[i]? = some run)
    (hat : run.place = .openOut) :
    Stepped s (.go i succeeds bytes) (s.set i { run with place := .read, output := succeeds })
  | ended {i bytes : ℕ} {run : Run} (hrun : s.runs[i]? = some run) (hat : run.place = .read)
    (hinput : run.input = true) (hwaiting : run.waiting = []) :
    Stepped s (.go i true bytes) (s.set i { run with place := .unlinkIn 0 })
  | read {i bytes : ℕ} {run : Run} (hrun : s.runs[i]? = some run) (hat : run.place = .read)
    (hinput : run.input = true) (hpos : 0 < bytes)
    (hle : bytes ≤ min kBufferSize run.waiting.length) :
    Stepped s (.go i true bytes)
      (s.set i { run with
        place := .write (run.waiting.take bytes)
        waiting := run.waiting.drop bytes })
  | readFailed {i bytes : ℕ} {run : Run} {succeeds : Bool} (hrun : s.runs[i]? = some run)
    (hat : run.place = .read) (hwhy : succeeds = false ∨ run.input = false) :
    Stepped s (.go i succeeds bytes) (s.set i { run with place := .unlinkIn exitFailure })
  | wrote {i bytes : ℕ} {run : Run} {chunk : List UInt8} (hrun : s.runs[i]? = some run)
    (hat : run.place = .write chunk) (houtput : run.output = true) :
    Stepped s (.go i true bytes)
      (s.set i { run with place := .read, delivered := run.delivered ++ chunk })
  | writeFailed {i bytes : ℕ} {run : Run} {succeeds : Bool} {chunk : List UInt8}
    (hrun : s.runs[i]? = some run) (hat : run.place = .write chunk)
    (hwhy : succeeds = false ∨ run.output = false) :
    Stepped s (.go i succeeds bytes) (s.set i { run with place := .read })
  | unlinkedIn {i bytes : ℕ} {run : Run} {succeeds : Bool} {status : ℤ}
    (hrun : s.runs[i]? = some run) (hat : run.place = .unlinkIn status) :
    Stepped s (.go i succeeds bytes)
      { s.set i { run with place := .unlinkOut status } with
        inFifo := if succeeds then none else s.inFifo }
  | unlinkedOut {i bytes : ℕ} {run : Run} {succeeds : Bool} {status : ℤ}
    (hrun : s.runs[i]? = some run) (hat : run.place = .unlinkOut status) :
    Stepped s (.go i succeeds bytes)
      { s.set i { run with place := .exited status } with
        outFifo := if succeeds then none else s.outFifo }
  | killed {i bytes : ℕ} {run : Run} (hrun : s.runs[i]? = some run)
    (hexited : ∀ status, run.place ≠ .exited status) (hkilled : run.place ≠ .killed) :
    Stepped s (.kill i bytes) (s.set i { run with place := .killed })
  | killedWriting {i bytes : ℕ} {run : Run} {chunk : List UInt8} (hrun : s.runs[i]? = some run)
    (hat : run.place = .write chunk) (houtput : run.output = true) :
    Stepped s (.kill i bytes)
      (s.set i { run with
        place := .killed
        delivered := run.delivered ++ chunk.take bytes })

variable {s s' : State} {event : Event}

lemma not_succeeds {succeeds : Bool} {P : Prop} (h : ¬ (succeeds = true ∧ P)) :
    succeeds = false ∨ ¬ P := by
  cases succeeds with
  | false => exact Or.inl rfl
  | true => exact Or.inr fun hP => h ⟨rfl, hP⟩

lemma goStepped {i bytes : ℕ} {run : Run} {succeeds : Bool} (hrun : s.runs[i]? = some run)
    (h : goStep s i run succeeds bytes = some s') : Stepped s (.go i succeeds bytes) s' := by
  unfold goStep at h
  cases hat : run.place with
  | makeIn =>
    simp only [hat] at h
    split_ifs at h with hmade
    · obtain ⟨rfl, hfree⟩ := hmade
      exact Option.some.inj h ▸ .madeIn hrun hat hfree
    · exact Option.some.inj h ▸ .makeInFailed hrun hat (not_succeeds hmade)
  | makeOut =>
    simp only [hat] at h
    split_ifs at h with hmade
    · obtain ⟨rfl, hfree⟩ := hmade
      exact Option.some.inj h ▸ .madeOut hrun hat hfree
    · exact Option.some.inj h ▸ .makeOutFailed hrun hat (not_succeeds hmade)
  | openIn =>
    simp only [hat] at h
    exact Option.some.inj h ▸ .openedIn hrun hat
  | openOut =>
    simp only [hat] at h
    exact Option.some.inj h ▸ .openedOut hrun hat
  | read =>
    simp only [hat] at h
    split_ifs at h with hread hwaiting hbytes
    · obtain ⟨rfl, hinput⟩ := hread
      exact Option.some.inj h ▸ .ended hrun hat hinput hwaiting
    · obtain ⟨rfl, hinput⟩ := hread
      exact Option.some.inj h ▸ .read hrun hat hinput hbytes.1 hbytes.2
    · exact Option.some.inj h ▸
        .readFailed hrun hat ((not_succeeds hread).imp_right Bool.eq_false_iff.mpr)
  | write chunk =>
    simp only [hat] at h
    split_ifs at h with hwrote
    · obtain ⟨rfl, houtput⟩ := hwrote
      exact Option.some.inj h ▸ .wrote hrun hat houtput
    · exact Option.some.inj h ▸
        .writeFailed hrun hat ((not_succeeds hwrote).imp_right Bool.eq_false_iff.mpr)
  | unlinkIn status =>
    simp only [hat] at h
    exact Option.some.inj h ▸ .unlinkedIn hrun hat
  | unlinkOut status =>
    simp only [hat] at h
    exact Option.some.inj h ▸ .unlinkedOut hrun hat
  | exited status => simp [hat] at h
  | killed => simp [hat] at h

lemma killStepped {i bytes : ℕ} {run : Run} (hrun : s.runs[i]? = some run)
    (h : killStep s i run bytes = some s') : Stepped s (.kill i bytes) s' := by
  unfold killStep at h
  cases hat : run.place with
  | exited status => simp [hat] at h
  | killed => simp [hat] at h
  | write chunk =>
    simp only [hat] at h
    split_ifs at h with houtput
    · exact Option.some.inj h ▸ .killedWriting hrun hat houtput
    · exact Option.some.inj h ▸ .killed hrun (by simp [hat]) (by simp [hat])
  | _ =>
    simp only [hat] at h
    exact Option.some.inj h ▸ .killed hrun (by simp [hat]) (by simp [hat])

lemma stepped_of_step (h : step s event = some s') : Stepped s event s' := by
  cases event with
  | go i succeeds bytes =>
    simp only [step] at h
    split at h
    · next run hrun => exact goStepped hrun h
    · cases h
  | kill i bytes =>
    simp only [step] at h
    split at h
    · next run hrun => exact killStepped hrun h
    · cases h

/-- The run has made the input FIFO and is yet to remove it. -/
@[simp] def Place.holdsIn : Place → Bool
  | makeIn => false
  | unlinkOut _ => false
  | exited _ => false
  | killed => false
  | _ => true

@[simp] def Place.holdsOut : Place → Bool
  | makeIn => false
  | makeOut => false
  | exited _ => false
  | killed => false
  | _ => true

/-- What a run has made and is yet to remove is still there. -/
structure Owned (s : State) : Prop where
  inFifo : ∀ i run, s.runs[i]? = some run → run.place.holdsIn = true → s.inFifo = some i
  outFifo : ∀ i run, s.runs[i]? = some run → run.place.holdsOut = true → s.outFifo = some i

lemma start_owned (inputs : List (List UInt8)) : Owned (start inputs) := by
  have hplace : ∀ (i : ℕ) (run : Run),
      (start inputs).runs[i]? = some run → run.place = .makeIn := by
    intro i run hrun
    obtain ⟨input, -, rfl⟩ := List.mem_map.mp (List.mem_of_getElem? hrun)
    rfl
  constructor
  · intro i run hrun hholds
    simp [hplace i run hrun] at hholds
  · intro i run hrun hholds
    simp [hplace i run hrun] at hholds

/-- A run goes on without making or removing a FIFO. -/
lemma Owned.set (h : Owned s) {i : ℕ} {run run' : Run} (hrun : s.runs[i]? = some run)
    (hin : run'.place.holdsIn = true → run.place.holdsIn = true)
    (hout : run'.place.holdsOut = true → run.place.holdsOut = true) : Owned (s.set i run') where
  inFifo := forall_getElem?_set h.inFifo fun hholds => h.inFifo i run hrun (hin hholds)
  outFifo := forall_getElem?_set h.outFifo fun hholds => h.outFifo i run hrun (hout hholds)

lemma step_owned (h : Owned s) (hstep : step s event = some s') : Owned s' := by
  cases stepped_of_step hstep with
  | madeIn hrun hat hfree =>
    refine ⟨forall_getElem?_set (fun j other hj hholds => ?_) fun _ => rfl,
      forall_getElem?_set h.outFifo (by simp)⟩
    rw [h.inFifo j other hj hholds] at hfree
    cases hfree
  | makeInFailed hrun hat hwhy =>
    apply h.set hrun
    · simp
    · simp
  | madeOut hrun hat hfree =>
    refine ⟨forall_getElem?_set h.inFifo fun _ => h.inFifo _ _ hrun (by simp [hat]),
      forall_getElem?_set (fun j other hj hholds => ?_) fun _ => rfl⟩
    rw [h.outFifo j other hj hholds] at hfree
    cases hfree
  | makeOutFailed hrun hat hwhy =>
    apply h.set hrun
    · simp
    · simp
  | openedIn hrun hat =>
    apply h.set hrun
    · simp [hat]
    · simp [hat]
  | openedOut hrun hat =>
    apply h.set hrun
    · simp [hat]
    · simp [hat]
  | ended hrun hat hinput hwaiting =>
    apply h.set hrun
    · simp [hat]
    · simp [hat]
  | read hrun hat hinput hpos hle =>
    apply h.set hrun
    · simp [hat]
    · simp [hat]
  | readFailed hrun hat hwhy =>
    apply h.set hrun
    · simp [hat]
    · simp [hat]
  | wrote hrun hat houtput =>
    apply h.set hrun
    · simp [hat]
    · simp [hat]
  | writeFailed hrun hat hwhy =>
    apply h.set hrun
    · simp [hat]
    · simp [hat]
  | @unlinkedIn i bytes run succeeds status hrun hat =>
    have hown := h.inFifo i run hrun (by simp [hat])
    refine ⟨?_, forall_getElem?_set h.outFifo fun _ => h.outFifo i run hrun (by simp [hat])⟩
    intro j other hj hholds
    rcases getElem?_set_cases hj with ⟨rfl, rfl⟩ | ⟨hne, hold⟩
    · cases hholds
    · have hother := h.inFifo j other hold hholds
      rw [hown] at hother
      exact absurd (Option.some.inj hother).symm hne
  | @unlinkedOut i bytes run succeeds status hrun hat =>
    have hown := h.outFifo i run hrun (by simp [hat])
    refine ⟨forall_getElem?_set h.inFifo (by simp), ?_⟩
    intro j other hj hholds
    rcases getElem?_set_cases hj with ⟨rfl, rfl⟩ | ⟨hne, hold⟩
    · cases hholds
    · have hother := h.outFifo j other hold hholds
      rw [hown] at hother
      exact absurd (Option.some.inj hother).symm hne
  | killed hrun hexited hkilled =>
    apply h.set hrun
    · simp
    · simp
  | killedWriting hrun hat houtput =>
    apply h.set hrun
    · simp
    · simp

lemma run_owned {inputs : List (List UInt8)} {schedule : List Event}
    (h : schedule.foldlM step (start inputs) = some s) : Owned s :=
  StepRuns.invariant_of_run (fun _ _ _ hs hstep => step_owned hs hstep) (start_owned inputs) h

end UnixProgramming.FifoChannel
