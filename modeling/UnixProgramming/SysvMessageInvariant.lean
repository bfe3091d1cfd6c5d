import UnixProgramming.ListUpdates
import UnixProgramming.SysvMessageQueue

/-! Which messages wait in the queue of `sysv_msg_queue.cpp`, and who still keeps it. -/
namespace UnixProgramming.SysvMessageQueue
open ListUpdates

variable {capacity : ℕ} {s s' : State} {event : Event}

@[simp] def Parent.hasReceived : Parent → Bool
  | print _ => true
  | wait => true
  | remove status => status = 0
  | exited status => status = 0
  | _ => false

@[simp] def Parent.hasPrinted : Parent → Bool
  | print _ => false
  | parent => parent.hasReceived

@[simp] def Child.hasSent : Child → Bool
  | raise => true
  | killed => true
  | _ => false

def Run.hasReceived (run : Run) : Bool := run.parent.hasReceived

def Run.hasPrinted (run : Run) : Bool := run.parent.hasPrinted

def Run.hasSent (run : Run) : Bool := run.child.any Child.hasSent

/-- What holds of a run by itself. -/
structure Run.Ok (run : Run) : Prop where
  unforked : run.parent = .get ∨ run.parent = .fork → run.child = none
  unnamed : run.parent = .get → run.msgId = none
  forked : run.child = none → run.parent = .get ∨ run.parent = .fork ∨
    run.parent = .exited exitFailure
  message : ∀ message, run.parent = .print message → message = helloFromChild

/-- The run has not tried to remove its queue. -/
structure Run.Keeps (run : Run) : Prop where
  parent : ∀ status, run.parent = .exited status → run.child = none
  child : ∀ status, run.child ≠ some (.exited status)

def receivedFrom (id : ℕ) (run : Run) : Bool := run.msgId = some id && run.hasReceived

def sentTo (id : ℕ) (run : Run) : Bool := run.msgId = some id && run.hasSent

/-- The messages of an existing queue were sent by the runs that have its id, and those which
are missing were received by them. -/
structure Live (runs : List Run) (id : ℕ) (messages : List Message) : Prop where
  hello : ∀ message ∈ messages, message = helloFromChild
  balance : runs.countP (receivedFrom id) + messages.length = runs.countP (sentTo id)

/-- As long as the queue exists, nobody has tried to remove it, or failed to do so. -/
structure Inv (s : State) : Prop where
  ok : ∀ run ∈ s.runs, run.Ok
  old : ∀ run ∈ s.runs, ∀ id, run.msgId = some id → id < s.nextId
  live : ∀ id messages, s.current = some (id, messages) →
    id < s.nextId ∧ Live s.runs id messages
  kept : ∀ id messages, s.current = some (id, messages) → id ∉ s.unremoved →
    ∀ run ∈ s.runs, run.msgId = some id → run.Keeps

lemma start_inv (n : ℕ) : Inv (start n) where
  ok run hrun := by
    obtain rfl := List.eq_of_mem_replicate hrun
    constructor <;> simp
  old run hrun id hid := by
    obtain rfl := List.eq_of_mem_replicate hrun
    cases hid
  live := by simp [start]
  kept := by simp [start]

/-- A run of an existing queue goes on. -/
lemma Live.set {runs : List Run} {id : ℕ} {messages messages' : List Message}
    (h : Live runs id messages) {i : ℕ} {run run' : Run} (hrun : runs[i]? = some run)
    (hhello : ∀ message ∈ messages', message = helloFromChild)
    (hbalance : (receivedFrom id run').toNat + messages'.length +
      (sentTo id run).toNat =
      (receivedFrom id run).toNat + messages.length +
      (sentTo id run').toNat) : Live (runs.set i run') id messages' where
  hello := hhello
  balance := by
    have hreceived := countP_set_add hrun (receivedFrom id) run'
    have hsent := countP_set_add hrun (sentTo id) run'
    have hold := h.balance
    omega

/-- A run goes on that does not change the queue. -/
lemma Inv.set (h : Inv s) {i : ℕ} {run run' : Run} (hrun : s.runs[i]? = some run)
    (hok : run'.Ok) (hid : ∀ id, run'.msgId = some id → id < s.nextId)
    (hkeeps : ∀ id messages, s.current = some (id, messages) → id ∉ s.unremoved →
      run'.msgId = some id → run'.Keeps)
    (hreceived : ∀ id, receivedFrom id run' = receivedFrom id run)
    (hsent : ∀ id, sentTo id run' = sentTo id run) : Inv (s.set i run') where
  ok := forall_mem_set h.ok hok
  old := forall_mem_set h.old hid
  live id messages hcurrent := by
    obtain ⟨hlt, hlive⟩ := h.live id messages hcurrent
    refine ⟨hlt, hlive.set hrun hlive.hello ?_⟩
    rw [hreceived, hsent]
  kept id messages hcurrent hremoved :=
    forall_mem_set (P := fun run : Run => run.msgId = some id → run.Keeps)
      (h.kept id messages hcurrent hremoved) (hkeeps id messages hcurrent hremoved)

lemma Inv.keeps (h : Inv s) {i : ℕ} {run : Run} (hrun : s.runs[i]? = some run) {id : ℕ}
    {messages : List Message} (hcurrent : s.current = some (id, messages))
    (hremoved : id ∉ s.unremoved) (hid : run.msgId = some id) : run.Keeps :=
  h.kept id messages hcurrent hremoved run (List.mem_of_getElem? hrun) hid

lemma afterRemoval_eq_some {msgId : Option ℕ} {q : ℕ × List Message}
    (h : s.afterRemoval msgId = some q) : s.current = some q ∧ msgId ≠ some q.1 := by
  unfold State.afterRemoval State.queue at h
  cases hcurrent : s.current with
  | none => simp [hcurrent] at h
  | some q' =>
    by_cases hid : msgId = some q'.1
    · simp [hcurrent, hid] at h
    · obtain rfl : q' = q := by simpa [hcurrent, hid] using h
      exact ⟨rfl, hid⟩

/-- A queue that is still there after a removal is another one, or the removal has failed. -/
lemma remove_current {msgId : Option ℕ} {succeeds : Bool} {q : ℕ × List Message}
    (h : (s.remove msgId succeeds).current = some q) : s.current = some q ∧
      (q.1 ∉ (s.remove msgId succeeds).unremoved → q.1 ∉ s.unremoved ∧ msgId ≠ some q.1) := by
  cases succeeds with
  | true =>
    obtain ⟨hcurrent, hne⟩ := afterRemoval_eq_some h
    exact ⟨hcurrent, fun hremoved => ⟨by simpa [State.remove] using hremoved, hne⟩⟩
  | false =>
    refine ⟨h, fun hremoved => ?_⟩
    obtain ⟨hold, hnew⟩ := not_or.mp (fun hmem => hremoved (List.mem_append.mpr hmem))
    exact ⟨hold, fun hid => hnew (by simp [hid])⟩

/-- A run goes on that has tried to remove the queue. -/
lemma Inv.remove (h : Inv s) {i : ℕ} {run run' : Run} (hrun : s.runs[i]? = some run)
    (succeeds : Bool) (hok : run'.Ok) (hid : run'.msgId = run.msgId)
    (hreceived : ∀ id, receivedFrom id run' = receivedFrom id run)
    (hsent : ∀ id, sentTo id run' = sentTo id run) :
    Inv ((s.remove run.msgId succeeds).set i run') where
  ok := forall_mem_set h.ok hok
  old := forall_mem_set h.old fun id hsome => h.old run (List.mem_of_getElem? hrun) id (hid ▸ hsome)
  live id messages hcurrent := by
    obtain ⟨hlt, hlive⟩ := h.live id messages (remove_current hcurrent).1
    refine ⟨hlt, hlive.set hrun hlive.hello ?_⟩
    rw [hreceived, hsent]
  kept id messages hcurrent hremoved := by
    obtain ⟨hbefore, hothers⟩ := remove_current hcurrent
    obtain ⟨hold, hne⟩ := hothers hremoved
    exact forall_mem_set (P := fun run : Run => run.msgId = some id → run.Keeps)
      (h.kept id messages hbefore hold) fun hsome => absurd (hid ▸ hsome) hne

/-- A run takes a message out of its queue or puts one there. -/
lemma Inv.exchange (h : Inv s) {i : ℕ} {run run' : Run} (hrun : s.runs[i]? = some run)
    {id : ℕ} {messages messages' : List Message} (hcurrent : s.current = some (id, messages))
    (hrunId : run.msgId = some id) (hok : run'.Ok) (hid : run'.msgId = run.msgId)
    (hkeeps : run.Keeps → run'.Keeps)
    (hhello : ∀ message ∈ messages', message ∈ messages ∨ message = helloFromChild)
    (hbalance : (receivedFrom id run').toNat + messages'.length + (sentTo id run).toNat =
      (receivedFrom id run).toNat + messages.length + (sentTo id run').toNat) :
    Inv { s.set i run' with current := some (id, messages') } where
  ok := forall_mem_set h.ok hok
  old := forall_mem_set h.old fun id hsome => h.old run (List.mem_of_getElem? hrun) id (hid ▸ hsome)
  live id' other hsome := by
    obtain ⟨rfl, rfl⟩ := Prod.mk.inj (Option.some.inj hsome)
    obtain ⟨hlt, hlive⟩ := h.live id messages hcurrent
    refine ⟨hlt, hlive.set hrun (fun message hmem => ?_) hbalance⟩
    exact (hhello message hmem).elim (hlive.hello message) fun he => he
  kept id' other hsome hremoved := by
    obtain ⟨rfl, rfl⟩ := Prod.mk.inj (Option.some.inj hsome)
    exact forall_mem_set (P := fun run : Run => run.msgId = some id → run.Keeps)
      (h.kept id messages hcurrent hremoved)
      fun _ => hkeeps (h.keeps hrun hcurrent hremoved hrunId)

/-- A run makes a queue, which no other run has. -/
lemma Inv.create (h : Inv s) {i : ℕ} {run : Run} (hok : run.Ok) (hid : run.msgId = some s.nextId)
    (hkeeps : run.Keeps) (hreceived : run.hasReceived = false) (hsent : run.hasSent = false) :
    Inv { s.set i run with current := some (s.nextId, []), nextId := s.nextId + 1 } where
  ok := forall_mem_set h.ok hok
  old := by
    refine forall_mem_set (P := fun run : Run => ∀ id, run.msgId = some id → id < s.nextId + 1)
      (fun old hold id hsome => Nat.lt_succ_of_lt (h.old old hold id hsome)) fun id hsome => ?_
    obtain rfl := Option.some.inj (hid ▸ hsome)
    exact Nat.lt_succ_self _
  live id messages hcurrent := by
    obtain ⟨rfl, rfl⟩ := Prod.mk.inj (Option.some.inj hcurrent)
    have hnone : ∀ p : Run → Bool, (∀ run, p run = true → run.msgId = some s.nextId) →
        p run = false → (s.set i run).runs.countP p = 0 := by
      intro p hp hnew
      refine List.countP_eq_zero.mpr (forall_mem_set (fun old hold htrue => ?_) (by simp [hnew]))
      exact lt_irrefl _ (h.old old hold _ (hp old htrue))
    refine ⟨Nat.lt_succ_self _, by simp, ?_⟩
    change (s.set i run).runs.countP _ + 0 = (s.set i run).runs.countP _
    rw [hnone (receivedFrom s.nextId) (by simp +contextual [receivedFrom])
      (by simp [receivedFrom, hreceived]),
      hnone (sentTo s.nextId) (by simp +contextual [sentTo]) (by simp [sentTo, hsent])]
  kept id messages hcurrent _ := by
    obtain ⟨rfl, rfl⟩ := Prod.mk.inj (Option.some.inj hcurrent)
    exact forall_mem_set (P := fun run : Run => run.msgId = some s.nextId → run.Keeps)
      (fun old hold hsome => absurd (h.old old hold _ hsome) (lt_irrefl _)) fun _ => hkeeps

lemma Run.Ok.parent {run : Run} {next : Parent} (hforked : run.child ≠ none)
    (hnext : next ≠ .get ∧ next ≠ .fork)
    (hmessage : ∀ message, next = .print message → message = helloFromChild) :
    Run.Ok { run with parent := next } where
  unforked hor := absurd hor (not_or.mpr hnext)
  unnamed hget := absurd hget hnext.1
  forked hnone := absurd hnone hforked
  message := hmessage

lemma Run.Ok.child {run : Run} (h : run.Ok) {child : Child} (hat : run.child = some child)
    (next : Child) : Run.Ok { run with child := some next } where
  unforked hor := by
    rw [h.unforked hor] at hat
    cases hat
  unnamed := h.unnamed
  forked hnone := by cases hnone
  message := h.message

lemma Run.Keeps.parent_next {run : Run} (h : run.Keeps) {next : Parent}
    (hnext : ∀ status, next ≠ .exited status) : Run.Keeps { run with parent := next } where
  parent status hexited := absurd hexited (hnext status)
  child := h.child

lemma Run.Keeps.child_next {run : Run} (h : run.Keeps) {child next : Child}
    (hat : run.child = some child) (hnext : ∀ status, next ≠ .exited status) :
    Run.Keeps { run with child := some next } where
  parent status hexited := by
    rw [h.parent status hexited] at hat
    cases hat
  child status hexited := hnext status (Option.some.inj hexited)

/-- A parent that has forked goes on, and has received a message if it had before. -/
lemma Inv.parent (h : Inv s) {i : ℕ} {run : Run} (hrun : s.runs[i]? = some run) {next : Parent}
    (hok : Run.Ok { run with parent := next }) (hnext : ∀ status, next ≠ .exited status)
    (hreceived : next.hasReceived = run.parent.hasReceived) :
    Inv (s.set i { run with parent := next }) := by
  refine h.set hrun hok (h.old run (List.mem_of_getElem? hrun))
    (fun id messages hcurrent hremoved hid => ?_) (fun id => ?_) (fun id => rfl)
  · exact (h.keeps hrun hcurrent hremoved hid).parent_next hnext
  · simp only [receivedFrom, Run.hasReceived, hreceived]

/-- A child goes on, and has sent its message if it had before. -/
lemma Inv.child (h : Inv s) {i : ℕ} {run : Run} (hrun : s.runs[i]? = some run)
    {child next : Child} (hat : run.child = some child) (hnext : ∀ status, next ≠ .exited status)
    (hsent : next.hasSent = child.hasSent) : Inv (s.set i { run with child := some next }) := by
  have hmem := List.mem_of_getElem? hrun
  refine h.set hrun ((h.ok run hmem).child hat next) (h.old run hmem)
    (fun id messages hcurrent hremoved hid => ?_) (fun id => rfl) (fun id => ?_)
  · exact (h.keeps hrun hcurrent hremoved hid).child_next hat hnext
  · simp only [sentTo, Run.hasSent, hat, Option.any_some, hsent]

lemma Inv.forked (h : Inv s) {i : ℕ} {run : Run} (hrun : s.runs[i]? = some run)
    (hat : ¬ (run.parent = .get ∨ run.parent = .fork ∨ run.parent = .exited exitFailure)) :
    run.child ≠ none :=
  fun hnone => hat ((h.ok run (List.mem_of_getElem? hrun)).forked hnone)

lemma step_inv (h : Inv s) (hstep : step capacity s event = some s') : Inv s' := by
  have hall : ∀ {i : ℕ} {run : Run}, s.runs[i]? = some run → run.Ok :=
    fun hrun => h.ok _ (List.mem_of_getElem? hrun)
  cases stepped_of_step hstep with
  | @found i run id messages hrun hat hcurrent =>
    have hchild := (hall hrun).unforked (.inl hat)
    refine h.set hrun ⟨fun _ => hchild, by simp, by simp, by simp⟩ (fun id' hid => ?_)
      (fun _ _ _ _ _ => ⟨by simp, by simp [hchild]⟩) (fun id' => ?_) (fun id' => ?_)
    · obtain rfl := Option.some.inj hid
      exact (h.live _ _ hcurrent).1
    · simp [receivedFrom, Run.hasReceived, hat]
    · simp [sentTo, Run.hasSent, hchild]
  | created hrun hat hcurrent =>
    have hchild := (hall hrun).unforked (.inl hat)
    refine h.create ⟨fun _ => hchild, by simp, by simp, by simp⟩ rfl ⟨by simp, by simp [hchild]⟩
      rfl ?_
    simp [Run.hasSent, hchild]
  | @getFailed i run hrun hat =>
    have hchild := (hall hrun).unforked (.inl hat)
    have hid := (hall hrun).unnamed hat
    refine h.set hrun ⟨fun _ => hchild, by simp, by simp, by simp⟩ (by simp [hid])
      (fun _ _ _ _ _ => ⟨by simp, by simp [hchild]⟩) (fun id => ?_) (fun id => rfl)
    simp [receivedFrom, Run.hasReceived, hat]
  | @forked i run hrun hat =>
    have hchild := (hall hrun).unforked (.inr hat)
    have hold := h.old run (List.mem_of_getElem? hrun)
    refine h.set hrun ⟨by simp, by simp, by simp, by simp⟩ hold
      (fun _ _ _ _ _ => ⟨by simp, by simp⟩) (fun id => ?_) (fun id => ?_)
    · simp [receivedFrom, Run.hasReceived, hat]
    · simp [sentTo, Run.hasSent, hchild]
  | @forkFailed i run hrun hat =>
    have hchild := (hall hrun).unforked (.inr hat)
    have hold := h.old run (List.mem_of_getElem? hrun)
    refine h.set hrun ⟨by simp, by simp, by simp, by simp⟩ hold
      (fun _ _ _ _ _ => ⟨fun _ _ => hchild, by simp [hchild]⟩) (fun id => ?_) (fun id => rfl)
    simp [receivedFrom, Run.hasReceived, hat, exitFailure]
  | @received i run id messages message hrun hat hcurrent hid hfind =>
    have hforked := h.forked hrun (by simp [hat])
    have hin := List.mem_of_find?_eq_some hfind
    have hlength := List.length_eraseP_of_mem hin (List.find?_some hfind)
    have hpos := List.length_pos_of_mem hin
    have hhello := (h.live id messages hcurrent).2.hello
    refine h.exchange hrun hcurrent hid (.parent hforked (by simp) ?_) rfl
      (fun hkeeps => hkeeps.parent_next (by simp))
      (fun other hmem => .inl (List.mem_of_mem_eraseP hmem)) ?_
    · exact fun other hprint => Parent.print.inj hprint ▸ hhello message hin
    · have hbefore : receivedFrom id run = false := by simp [receivedFrom, Run.hasReceived, hat]
      have hafter : receivedFrom id { run with parent := .print message } = true := by
        simp [receivedFrom, Run.hasReceived, hid]
      have hsent : sentTo id { run with parent := .print message } = sentTo id run := rfl
      rw [hsent, hbefore, hafter, hlength, Bool.toNat_true, Bool.toNat_false]
      omega
  | receiveFailed hrun hat hwhy =>
    have hforked := h.forked hrun (by simp [hat])
    exact h.parent hrun (.parent hforked (by simp) (by simp)) (by simp)
      (by simp [hat, exitFailure])
  | @printed i run succeeds message hrun hat =>
    have hforked := h.forked hrun (by simp [hat])
    have hset : Inv (s.set i { run with parent := .wait }) :=
      h.parent hrun (.parent hforked (by simp) (by simp)) (by simp) (by simp [hat])
    exact ⟨hset.ok, hset.old, hset.live, hset.kept⟩
  | waited hrun hat =>
    have hforked := h.forked hrun (by simp [hat])
    exact h.parent hrun (.parent hforked (by simp) (by simp)) (by simp) (by simp [hat])
  | @removed i run succeeds status hrun hat =>
    have hforked := h.forked hrun (by simp [hat])
    refine h.remove hrun succeeds (.parent hforked (by simp) (by simp)) rfl (fun id => ?_)
      (fun id => rfl)
    simp [receivedFrom, Run.hasReceived, hat]
  | @sent i run id messages hrun hat hcurrent hid hroom =>
    refine h.exchange hrun hcurrent hid ((hall hrun).child hat .raise) rfl
      (fun hkeeps => hkeeps.child_next hat (by simp))
      (fun message hmem => (List.mem_append.mp hmem).imp_right List.mem_singleton.mp) ?_
    have hbefore : sentTo id run = false := by simp [sentTo, Run.hasSent, hat]
    have hafter : sentTo id { run with child := some .raise } = true := by
      simp [sentTo, Run.hasSent, hid]
    have hreceived : receivedFrom id { run with child := some .raise } = receivedFrom id run := rfl
    rw [hreceived, hbefore, hafter, List.length_append, List.length_singleton, Bool.toNat_true,
      Bool.toNat_false]
    omega
  | sendFailed hrun hat hwhy => exact h.child hrun hat (by simp) rfl
  | @childRemoved i run succeeds hrun hat =>
    refine h.remove hrun succeeds ((hall hrun).child hat _) rfl (fun id => rfl) (fun id => ?_)
    simp [sentTo, Run.hasSent, hat]
  | raised hrun hat => exact h.child hrun hat (by simp) rfl

lemma run_inv {n : ℕ} {schedule : List Event}
    (h : schedule.foldlM (step capacity) (start n) = some s) : Inv s :=
  StepRuns.invariant_of_run (fun _ _ _ hs hstep => step_inv hs hstep) (start_inv n) h

end UnixProgramming.SysvMessageQueue
