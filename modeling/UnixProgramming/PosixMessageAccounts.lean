import UnixProgramming.ListUpdates
import UnixProgramming.PosixMessageQueue

/-! What the runs of `posix_msg_queue.cpp` print. -/
namespace UnixProgramming.PosixMessageQueue
open ListUpdates

variable {s s' : State} {event : Event} {initial : Option Queue}

section Accounts

/-- The parent is about to print the text, or has read on past its end. -/
def holds (text : List Char) (run : Run) : Bool :=
  match run.parent with
  | .print message => message.cString = text
  | .overread message => message.cString = text
  | _ => false

def waiting (text : List Char) (queue : Queue) : ℕ :=
  queue.messages.countP fun message => message.cString = text

def Run.hasReceived (run : Run) : Bool :=
  match run.parent with
  | .print _ => true
  | .unlink => true
  | .exited status => status = 0
  | .overread _ => true
  | _ => false

/-- The child was killed by `SIGHUP`; or else `waitpid` has failed, and the parent has found what it
takes for a failure in memory. -/
def Run.hasReportedError (run : Run) : Bool :=
  match run.waited with
  | some .stored => run.child = some (.killed 1 false)
  | some (.failed memory) => memory = exitFailure
  | none => false

/-- What holds of a run by itself. -/
structure Run.Ok (run : Run) : Prop where
  unforked : run.parent = .fork → run.child = none
  unwaited : run.parent = .fork ∨ run.parent = .wait → run.waited = none
  stored : run.waited = some .stored → run.child.bind Child.returnValue ≠ none
  failed : ∀ status, run.child = some (.exited status) → status = exitFailure
  silent : run.child ≠ some .report
  fits : ∀ message, run.parent = .print message → message.text.length ≤ kMsgSize
  overread : ∀ message, run.parent = .overread message →
    message.text.length = kMsgSize ∧ Char.ofNat 0 ∉ message.text

/-- Every message that was printed or still waits was there before the runs. -/
structure Accounted (initial : Option Queue) (s : State) : Prop where
  ok : ∀ run ∈ s.runs, run.Ok
  texts : ∀ text, s.printed.count (.message text) + s.runs.countP (holds text) +
    (s.queues.map (waiting text)).sum = initial.elim 0 (waiting text)
  total : s.runs.countP Run.hasReceived + (s.queues.map fun queue => queue.messages.length).sum =
    initial.elim 0 (fun queue => queue.messages.length) + s.printed.count .rcvFailed
  reported : s.printed.count .errorInChild = s.runs.countP Run.hasReportedError
  noChildLine : .childLine ∉ s.printed

lemma start_accounted (initial : Option Queue) (n : ℕ) :
    Accounted initial (start initial n) where
  ok run hmem := by
    obtain rfl := List.eq_of_mem_replicate hmem
    constructor <;> simp
  texts text := by cases initial <;> simp [start, List.countP_replicate, holds]
  total := by cases initial <;> simp [start, List.countP_replicate, Run.hasReceived]
  reported := by simp [start, List.countP_replicate, Run.hasReportedError]
  noChildLine := by simp [start]

/-- A run goes on, and what it prints, receives or holds stays in balance. -/
lemma Accounted.set (h : Accounted initial s) {i : ℕ} {run run' : Run}
    (hrun : s.runs[i]? = some run) {printed : List Output} {queues : List Queue}
    {name : Option ℕ} (hok : run'.Ok)
    (htexts : ∀ text, printed.count (.message text) + (holds text run').toNat +
      (queues.map (waiting text)).sum =
      (holds text run).toNat + (s.queues.map (waiting text)).sum)
    (htotal : run'.hasReceived.toNat + (queues.map fun queue => queue.messages.length).sum =
      run.hasReceived.toNat + (s.queues.map fun queue => queue.messages.length).sum +
        printed.count .rcvFailed)
    (hreported : printed.count .errorInChild + run.hasReportedError.toNat =
      run'.hasReportedError.toNat)
    (hline : .childLine ∉ printed) :
    Accounted initial { s.set i run' printed with queues := queues, name := name } where
  ok := forall_mem_set h.ok hok
  texts text := by
    have hcount := countP_set_add hrun (holds text) run'
    have hold := h.texts text
    have hnew := htexts text
    change (s.printed ++ printed).count _ + (s.runs.set i run').countP _ +
      (queues.map _).sum = _
    rw [List.count_append]
    omega
  total := by
    have hcount := countP_set_add hrun Run.hasReceived run'
    have hold := h.total
    change (s.runs.set i run').countP _ + (queues.map _).sum = _ + (s.printed ++ printed).count _
    rw [List.count_append]
    omega
  reported := by
    have hcount := countP_set_add hrun Run.hasReportedError run'
    have hold := h.reported
    change (s.printed ++ printed).count _ = (s.runs.set i run').countP _
    rw [List.count_append]
    omega
  noChildLine := by
    change .childLine ∉ s.printed ++ printed
    rw [List.mem_append]
    exact not_or.mpr ⟨h.noChildLine, hline⟩

lemma returnValue_eq_exitFailure {child : Child} (h : child.returnValue = some exitFailure) :
    child = .killed 1 false := by
  cases child with
  | exited status =>
    simp only [Child.returnValue, exitFailure, Option.some.injEq] at h
    omega
  | killed signal core =>
    cases core with
    | false =>
      simp only [Child.returnValue, exitFailure, Option.some.injEq, Bool.false_eq_true, if_false,
        add_zero] at h
      rw [h]
    | true =>
      simp only [Child.returnValue, exitFailure, Option.some.injEq, if_true] at h
      omega
  | openQueue => cases h
  | send queue => cases h
  | report => cases h

/-- The outputs that are no message and tell of no failure to receive one or in a child. -/
@[simp] def Output.plain : Output → Bool
  | forkFailed => true
  | mqOpenFailed => true
  | sndFailed => true
  | parentLine => true
  | _ => false

/-- A run goes on without receiving or printing a message. -/
lemma Accounted.pass (h : Accounted initial s) {i : ℕ} {run run' : Run}
    (hrun : s.runs[i]? = some run) {printed : List Output} {name : Option ℕ} (hok : run'.Ok)
    (hholds : ∀ text, holds text run' = holds text run)
    (hreceived : run'.hasReceived = run.hasReceived)
    (hreported : run'.hasReportedError = run.hasReportedError)
    (hplain : ∀ output ∈ printed, output.plain = true) :
    Accounted initial { s.set i run' printed with name := name } := by
  have hzero : ∀ output : Output, output.plain = false → printed.count output = 0 := by
    intro output hnot
    refine List.count_eq_zero.mpr fun hmem => ?_
    rw [hplain output hmem] at hnot
    cases hnot
  apply h.set hrun hok
  · intro text
    rw [hholds, hzero _ rfl, Nat.zero_add]
    rfl
  · rw [hreceived, hzero _ rfl]
    rfl
  · rw [hreported, hzero _ rfl]
    omega
  · exact List.count_eq_zero.mp (hzero _ rfl)

/-- `waitpid` has not returned the child while it runs. -/
lemma Run.Ok.not_stored {run : Run} (h : run.Ok) {child : Child} (hchild : run.child = some child)
    (hvalue : child.returnValue = none) : run.waited ≠ some .stored := by
  intro hstored
  have hne := h.stored hstored
  rw [hchild] at hne
  exact hne hvalue

/-- A parent goes on after `waitpid`. -/
lemma Run.Ok.parent {run : Run} (h : run.Ok) {next : Parent} (hnext : next ≠ .fork ∧ next ≠ .wait)
    (hfits : ∀ message, next = .print message → message.text.length ≤ kMsgSize)
    (hoverread : ∀ message, next = .overread message →
      message.text.length = kMsgSize ∧ Char.ofNat 0 ∉ message.text) :
    Run.Ok { run with parent := next } where
  unforked hfork := absurd hfork hnext.1
  unwaited hor := absurd hor (not_or.mpr hnext)
  stored := h.stored
  failed := h.failed
  silent := h.silent
  fits := hfits
  overread := hoverread

lemma Run.Ok.wait {run : Run} (h : run.Ok) {next : Parent} {waited : Waited}
    (hnext : next = .openQueue ∨ next = .exited exitFailure)
    (hstored : waited = .stored → run.child.bind Child.returnValue ≠ none) :
    Run.Ok { run with parent := next, waited := some waited } where
  unforked hfork := by rcases hnext with rfl | rfl <;> cases hfork
  unwaited hor := by rcases hnext with rfl | rfl <;> simp at hor
  stored hsome := hstored (Option.some.inj hsome)
  failed := h.failed
  silent := h.silent
  fits message hprint := by rcases hnext with rfl | rfl <;> cases hprint
  overread message hover := by rcases hnext with rfl | rfl <;> cases hover

lemma Run.Ok.child {run : Run} (h : run.Ok) {child next : Child} (hchild : run.child = some child)
    (hvalue : child.returnValue = none) (hfailed : ∀ status, next = .exited status →
      status = exitFailure) (hsilent : next ≠ .report) :
    Run.Ok { run with child := some next } where
  unforked hfork := by
    rw [h.unforked hfork] at hchild
    cases hchild
  unwaited := h.unwaited
  stored hstored := absurd hstored (h.not_stored hchild hvalue)
  failed status hsome := hfailed status (Option.some.inj hsome)
  silent hreport := hsilent (Option.some.inj hreport)
  fits := h.fits
  overread := h.overread

lemma hasReportedError_child {run : Run} (h : run.waited ≠ some .stored) (child : Option Child) :
    Run.hasReportedError { run with child := child } = run.hasReportedError := by
  obtain ⟨parent, before, waited⟩ := run
  cases waited with
  | none => rfl
  | some waited =>
    cases waited with
    | stored => exact absurd rfl h
    | failed memory => rfl

/-- A child goes on, and the queues stay as they are. -/
lemma Accounted.child (h : Accounted initial s) {i : ℕ} {run : Run} {child next : Child}
    (hrun : s.runs[i]? = some run) (hchild : run.child = some child)
    (hvalue : child.returnValue = none)
    (hfailed : ∀ status, next = .exited status → status = exitFailure) (hsilent : next ≠ .report)
    {printed : List Output} {name : Option ℕ} (hplain : ∀ output ∈ printed, output.plain = true) :
    Accounted initial
      { s.set i { run with child := some next } printed with name := name } := by
  have hok := h.ok _ (List.mem_of_getElem? hrun)
  apply h.pass hrun
  · exact hok.child hchild hvalue hfailed hsilent
  · exact fun text => rfl
  · rfl
  · exact hasReportedError_child (hok.not_stored hchild hvalue) _
  · exact hplain

lemma step_accounted (h : Accounted initial s) (hstep : step s event = some s') :
    Accounted initial s' := by
  have hall : ∀ {i : ℕ} {run : Run}, s.runs[i]? = some run → run.Ok :=
    fun hrun => h.ok _ (List.mem_of_getElem? hrun)
  cases stepped_of_step hstep with
  | forked hrun hat =>
    have hwaited := (hall hrun).unwaited (.inl hat)
    apply h.pass hrun
    · constructor <;> simp [hwaited]
    · simp [holds, hat]
    · simp [Run.hasReceived, hat]
    · simp [Run.hasReportedError, hwaited]
    · simp
  | forkFailed hrun hat =>
    have hok := hall hrun
    have hwaited := hok.unwaited (.inl hat)
    apply h.pass hrun
    · constructor <;> simp [hwaited, hok.unforked hat]
    · simp [holds, hat]
    · simp [Run.hasReceived, hat, exitFailure]
    · simp [Run.hasReportedError, hwaited]
    · simp
  | @waited i run child returnValue hrun hat hchild hvalue hne =>
    have hok := hall hrun
    have hwaited := hok.unwaited (.inr hat)
    apply h.pass hrun
    · exact hok.wait (.inl rfl) fun _ => by simp [hchild, hvalue]
    · simp [holds, hat]
    · simp [Run.hasReceived, hat]
    · have hnot : run.child ≠ some (.killed 1 false) := by
        rw [hchild]
        rintro ⟨⟩
        exact hne (Option.some.inj hvalue).symm
      simp [Run.hasReportedError, hwaited, hnot]
    · simp
  | childFailed hrun hat hchild hvalue =>
    have hok := hall hrun
    have hwaited := hok.unwaited (.inr hat)
    apply h.set hrun
    · exact hok.wait (.inr rfl) fun _ => by simp [hchild, hvalue]
    · simp [holds, hat]
    · simp [Run.hasReceived, hat, exitFailure]
    · simp [Run.hasReportedError, hwaited, hchild, returnValue_eq_exitFailure hvalue]
    · simp
  | waitFailed hrun hat hne =>
    have hok := hall hrun
    have hwaited := hok.unwaited (.inr hat)
    apply h.pass hrun
    · exact hok.wait (.inl rfl) fun hstored => by cases hstored
    · simp [holds, hat]
    · simp [Run.hasReceived, hat]
    · simp [Run.hasReportedError, hwaited, hne]
    · simp
  | childBlamed hrun hat =>
    have hok := hall hrun
    have hwaited := hok.unwaited (.inr hat)
    apply h.set hrun
    · exact hok.wait (.inr rfl) fun hstored => by cases hstored
    · simp [holds, hat]
    · simp [Run.hasReceived, hat, exitFailure]
    · simp [Run.hasReportedError, hwaited]
    · simp
  | opened hrun hat hname =>
    apply h.pass hrun
    · apply (hall hrun).parent <;> simp
    · simp [holds, hat]
    · simp [Run.hasReceived, hat]
    · rfl
    · simp
  | openFailed hrun hat hwhy =>
    apply h.pass hrun
    · apply (hall hrun).parent <;> simp
    · simp [holds, hat]
    · simp [Run.hasReceived, hat, exitFailure]
    · rfl
    · simp
  | @received i i' run maxMsg message messages hrun hat hqueue hfits =>
    apply h.set hrun
    · apply (hall hrun).parent <;> simp [hfits]
    · intro text
      have hsum := sum_map_set_add hqueue (waiting text) ⟨maxMsg, messages⟩
      have hbefore : holds text run = false := by simp [holds, hat]
      have hafter : holds text { run with parent := .print message } =
          decide (message.cString = text) := rfl
      have hhead : waiting text ⟨maxMsg, message :: messages⟩ =
          waiting text ⟨maxMsg, messages⟩ + (decide (message.cString = text)).toNat := by
        by_cases htext : message.cString = text <;> simp [waiting, htext]
      rw [hhead] at hsum
      rw [hbefore, hafter, Bool.toNat_false, List.count_nil]
      omega
    · have hsum := sum_map_set_add hqueue (fun queue => queue.messages.length) ⟨maxMsg, messages⟩
      have hbefore : run.hasReceived = false := by simp [Run.hasReceived, hat]
      have hafter : Run.hasReceived { run with parent := .print message } = true := rfl
      simp only [List.length_cons] at hsum
      rw [hbefore, hafter, Bool.toNat_false, Bool.toNat_true, List.count_nil]
      omega
    · exact Nat.zero_add _
    · simp
  | receiveFailed hrun hat hwhy =>
    apply h.set hrun
    · apply (hall hrun).parent <;> simp
    · simp [holds, hat]
    · simp [Run.hasReceived, hat, add_comm]
    · exact Nat.zero_add _
    · simp
  | @printed i run succeeds message hrun hat hend =>
    apply h.set hrun
    · apply (hall hrun).parent <;> simp
    · intro text
      by_cases htext : message.cString = text <;> simp [holds, hat, htext]
    · simp [Run.hasReceived, hat]
    · exact Nat.zero_add _
    · simp
  | @overread i run succeeds message hrun hat hend =>
    have hok := hall hrun
    have hfits := hok.fits message hat
    simp only [Message.terminated, Bool.or_eq_false_iff, decide_eq_false_iff_not, not_lt] at hend
    apply h.pass hrun
    · refine hok.parent ⟨by simp, by simp⟩ (by simp) fun other hother => ?_
      rw [← Parent.overread.inj hother]
      exact ⟨le_antisymm hfits hend.1, hend.2⟩
    · simp [holds, hat]
    · simp [Run.hasReceived, hat]
    · rfl
    · simp
  | unlinked hrun hat =>
    apply h.pass hrun
    · apply (hall hrun).parent <;> simp
    · simp [holds, hat]
    · simp [Run.hasReceived, hat]
    · rfl
    · simp
  | found hrun hat hname => exact h.child hrun hat rfl (by simp) (by simp) (by simp)
  | created hrun hat hname =>
    have hok := hall hrun
    apply h.set hrun
    · exact hok.child hat rfl (by simp) (by simp)
    · simp [holds, waiting]
    · simp [Run.hasReceived]
    · rw [hasReportedError_child (hok.not_stored hat rfl) (some (.send _))]
      exact Nat.zero_add _
    · simp
  | createFailed hrun hat => exact h.child hrun hat rfl (by simp) (by simp) (by simp)
  | sendFailed hrun hat => exact h.child hrun hat rfl (by simp) (by simp) (by simp)
  | reported hrun hat => exact absurd hat (hall hrun).silent
  | killed hrun hat hvalue hpos => exact h.child hrun hat hvalue (by simp) (by simp) (by simp)

lemma run_accounted {n : ℕ} {schedule : List Event}
    (h : schedule.foldlM step (start initial n) = some s) : Accounted initial s :=
  StepRuns.invariant_of_run (fun _ _ _ hs hstep => step_accounted hs hstep)
    (start_accounted initial n) h

end Accounts

/-- The child never gets a message into the queue, and it never ends well: what is printed, or
held by a parent that prints it, was in the queue before. The parent takes the failure of its
child for success; if `waitpid` does not fail it reports an error exactly if `SIGHUP` killed the
child. -/
theorem nothing_sent (n : ℕ) (schedule : List Event)
    (h : schedule.foldlM step (start initial n) = some s) :
    (∀ text, s.printed.count (.message text) + s.runs.countP (holds text) ≤
      initial.elim 0 (waiting text)) ∧
    .childLine ∉ s.printed ∧
    (∀ run ∈ s.runs, ∀ status, run.child = some (.exited status) → status = exitFailure) ∧
    s.printed.count .errorInChild = s.runs.countP Run.hasReportedError ∧
    (∀ run ∈ s.runs, ∀ message, run.parent = .overread message →
      message.text.length = kMsgSize ∧ Char.ofNat 0 ∉ message.text) ∧
    s.runs.countP (fun run => run.parent = .exited 0) ≤
      initial.elim 0 (fun queue => queue.messages.length) + s.printed.count .rcvFailed := by
  have hrun := run_accounted h
  refine ⟨fun text => ?_, hrun.noChildLine, fun run hmem => (hrun.ok run hmem).failed,
    hrun.reported, fun run hmem => (hrun.ok run hmem).overread, ?_⟩
  · have htexts := hrun.texts text
    omega
  · have hle : s.runs.countP (fun run => run.parent = .exited 0) ≤
        s.runs.countP Run.hasReceived := by
      refine List.countP_mono_left fun run _ hat => ?_
      simp_all [Run.hasReceived]
    have htotal := hrun.total
    omega

/-- A run in the default set-up, one whose child is hung up, and one that gets an old message. -/
def threeRuns : List Event :=
  [.parent 0 true, .child 0 true, .child 0 true, .parent 0 true, .parent 1 true, .kill 1 1 false,
    .parent 1 true, .parent 0 true, .parent 0 true, .parent 0 true, .parent 0 true,
    .parent 2 true, .child 2 true, .child 2 true, .parent 2 true, .parent 2 true]

theorem nothing_sent_three : ∃ s,
    threeRuns.foldlM step (start (some ⟨10, [⟨0, ['o', 'l', 'd']⟩]⟩) 3) = some s ∧
    s.printed.count .errorInChild = 1 ∧ 1 = s.runs.countP Run.hasReportedError := by
  obtain ⟨s, hs, hcount⟩ : ∃ s,
      threeRuns.foldlM step (start (some ⟨10, [⟨0, ['o', 'l', 'd']⟩]⟩) 3) = some s ∧
      s.printed.count .errorInChild = 1 := ⟨_, rfl, by decide⟩
  exact ⟨s, hs, hcount, hcount ▸ (nothing_sent 3 threeRuns hs).2.2.2.1⟩

end UnixProgramming.PosixMessageQueue
