import UnixProgramming.SysvMessageProgress

/-! What the runs of `sysv_msg_queue.cpp` print, and what becomes of their queue. -/
namespace UnixProgramming.SysvMessageQueue
open ListUpdates

variable {capacity : ℕ} {s s' : State} {event : Event}

section Accounts

def State.waiting (s : State) : ℕ :=
  match s.current with
  | some (_, messages) => messages.length
  | none => 0

/-- Every message that was printed or still waits was sent, and the queue belongs to a run. -/
structure Accounted (s : State) : Prop where
  printed : s.printed = List.replicate (s.runs.countP Run.hasPrinted) helloFromChild.line
  total : s.runs.countP Run.hasReceived + s.waiting ≤ s.runs.countP Run.hasSent
  owned : ∀ id messages, s.current = some (id, messages) → ∃ run ∈ s.runs, run.msgId = some id

lemma start_accounted (n : ℕ) : Accounted (start n) := by
  constructor <;>
    simp [start, List.countP_replicate, Run.hasPrinted, Run.hasReceived, State.waiting]

/-- A run goes on without printing. -/
lemma Accounted.set (h : Accounted s) {i : ℕ} {run run' : Run} (hrun : s.runs[i]? = some run)
    (current : Option (ℕ × List Message)) (nextId : ℕ)
    (hprinted : run'.hasPrinted = run.hasPrinted)
    (htotal : run'.hasReceived.toNat + State.waiting { s with current := current } +
      run.hasSent.toNat ≤
      run.hasReceived.toNat + s.waiting + run'.hasSent.toNat)
    (hsame : ∀ id, run.msgId = some id → run'.msgId = some id)
    (howned : ∀ id messages, current = some (id, messages) →
      run'.msgId = some id ∨ ∃ before, s.current = some (id, before)) :
    Accounted { s.set i run' with current := current, nextId := nextId } where
  printed := by
    have hcount := countP_set_add hrun Run.hasPrinted run'
    rw [hprinted, Nat.add_right_cancel_iff] at hcount
    exact hcount ▸ h.printed
  total := by
    have hreceived := countP_set_add hrun Run.hasReceived run'
    have hsent := countP_set_add hrun Run.hasSent run'
    have hold := h.total
    change (s.runs.set i run').countP _ + State.waiting { s with current := current } ≤
      (s.runs.set i run').countP _
    omega
  owned id messages hcurrent := by
    rcases howned id messages hcurrent with hid | ⟨before, hbefore⟩
    · obtain ⟨hlt, -⟩ := List.getElem?_eq_some_iff.mp hrun
      exact ⟨run', List.mem_of_getElem? (List.getElem?_set_self hlt), hid⟩
    · exact exists_mem_set hrun (h.owned id before hbefore) (hsame id)

lemma waiting_remove (s : State) (msgId : Option ℕ) (succeeds : Bool) :
    State.waiting { s with current := (s.remove msgId succeeds).current } ≤ s.waiting := by
  cases hcurrent : (s.remove msgId succeeds).current with
  | none => simp [State.waiting]
  | some q => simp [State.waiting, (remove_current hcurrent).1]

/-- A run goes on without receiving, printing or sending a message. -/
lemma Accounted.pass (h : Accounted s) {i : ℕ} {run run' : Run} (hrun : s.runs[i]? = some run)
    (current : Option (ℕ × List Message)) (nextId : ℕ)
    (hprinted : run'.hasPrinted = run.hasPrinted) (hreceived : run'.hasReceived = run.hasReceived)
    (hsent : run'.hasSent = run.hasSent)
    (hwaiting : State.waiting { s with current := current } ≤ s.waiting)
    (hsame : ∀ id, run.msgId = some id → run'.msgId = some id)
    (howned : ∀ id messages, current = some (id, messages) →
      run'.msgId = some id ∨ ∃ before, s.current = some (id, before)) :
    Accounted { s.set i run' with current := current, nextId := nextId } := by
  refine h.set hrun current nextId hprinted ?_ hsame howned
  rw [hreceived, hsent]
  omega

/-- A run goes on that has tried to remove the queue. -/
lemma Accounted.remove (h : Accounted s) {i : ℕ} {run run' : Run} (hrun : s.runs[i]? = some run)
    (succeeds : Bool) (hprinted : run'.hasPrinted = run.hasPrinted)
    (hreceived : run'.hasReceived = run.hasReceived) (hsent : run'.hasSent = run.hasSent)
    (hid : run'.msgId = run.msgId) : Accounted ((s.remove run.msgId succeeds).set i run') := by
  have hpass := h.pass hrun (s.remove run.msgId succeeds).current s.nextId hprinted hreceived hsent
    (waiting_remove s _ succeeds) (fun _ hsome => hid ▸ hsome)
    fun _ messages hsome => Or.inr ⟨messages, (remove_current hsome).1⟩
  exact ⟨hpass.printed, hpass.total, hpass.owned⟩

lemma step_accounted (hinv : Inv s) (h : Accounted s) (hstep : step capacity s event = some s') :
    Accounted s' := by
  have hkept : ∀ {msgId : Option ℕ} id messages, s.current = some (id, messages) →
      msgId = some id ∨ ∃ before, s.current = some (id, before) :=
    fun _ messages hsome => Or.inr ⟨messages, hsome⟩
  cases stepped_of_step hstep with
  | found hrun hat hcurrent =>
    have hid := (hinv.ok _ (List.mem_of_getElem? hrun)).unnamed hat
    exact h.pass hrun s.current s.nextId (by simp [Run.hasPrinted, hat])
      (by simp [Run.hasReceived, hat]) rfl le_rfl (by simp [hid]) hkept
  | created hrun hat hcurrent =>
    have hid := (hinv.ok _ (List.mem_of_getElem? hrun)).unnamed hat
    exact h.pass hrun _ _ (by simp [Run.hasPrinted, hat])
      (by simp [Run.hasReceived, hat]) rfl (by simp [State.waiting]) (by simp [hid])
      fun id messages hsome => Or.inl (by simp_all)
  | getFailed hrun hat =>
    exact h.pass hrun s.current s.nextId (by simp [Run.hasPrinted, hat])
      (by simp [Run.hasReceived, hat]) rfl le_rfl (by simp) hkept
  | forked hrun hat =>
    have hchild := (hinv.ok _ (List.mem_of_getElem? hrun)).unforked (.inr hat)
    exact h.pass hrun s.current s.nextId (by simp [Run.hasPrinted, hat])
      (by simp [Run.hasReceived, hat]) (by simp [Run.hasSent, hchild]) le_rfl
      (by simp) hkept
  | forkFailed hrun hat =>
    exact h.pass hrun s.current s.nextId (by simp [Run.hasPrinted, hat])
      (by simp [Run.hasReceived, hat, exitFailure]) rfl le_rfl (by simp) hkept
  | @received i run id messages message hrun hat hcurrent hid hfind =>
    have hin := List.mem_of_find?_eq_some hfind
    have hlength := List.length_eraseP_of_mem hin (List.find?_some hfind)
    have hpos := List.length_pos_of_mem hin
    have hsent : Run.hasSent { run with parent := .print message } = run.hasSent := rfl
    have hbefore : run.hasReceived = false := by simp [Run.hasReceived, hat]
    have hafter : Run.hasReceived { run with parent := .print message } = true := rfl
    refine h.set hrun _ s.nextId (by simp [Run.hasPrinted, hat]) ?_ (by simp)
      fun id' _ hsome => Or.inl (by simp_all)
    simp only [State.waiting, hsent, hbefore, hafter, hcurrent, hlength, Bool.toNat_true,
      Bool.toNat_false]
    omega
  | receiveFailed hrun hat hwhy =>
    exact h.pass hrun s.current s.nextId (by simp [Run.hasPrinted, hat])
      (by simp [Run.hasReceived, hat]) rfl le_rfl (by simp) hkept
  | @printed i run succeeds message hrun hat =>
    have hmessage := (hinv.ok run (List.mem_of_getElem? hrun)).message message hat
    have hprinted := countP_set_add hrun Run.hasPrinted { run with parent := .wait }
    have hreceived := countP_set_add hrun Run.hasReceived { run with parent := .wait }
    have hsent := countP_set_add hrun Run.hasSent { run with parent := .wait }
    rw [show Run.hasSent { run with parent := .wait } = run.hasSent from rfl] at hsent
    simp only [Run.hasPrinted, Run.hasReceived, hat, Parent.hasPrinted, Parent.hasReceived,
      Bool.toNat_true, Bool.toNat_false] at hprinted hreceived
    refine ⟨?_, ?_, fun id messages hcurrent =>
      exists_mem_set hrun (h.owned id messages hcurrent) fun hid => hid⟩
    · change s.printed ++ [message.line] = List.replicate ((s.runs.set i _).countP _) _
      rw [← Nat.add_zero ((s.runs.set i _).countP _), hprinted, List.replicate_succ', ← h.printed,
        hmessage]
    · change (s.runs.set i _).countP _ + s.waiting ≤ (s.runs.set i _).countP _
      have hold := h.total
      omega
  | waited hrun hat =>
    exact h.pass hrun s.current s.nextId (by simp [Run.hasPrinted, hat])
      (by simp [Run.hasReceived, hat]) rfl le_rfl (by simp) hkept
  | removed hrun hat =>
    exact h.remove hrun _ (by simp [Run.hasPrinted, hat]) (by simp [Run.hasReceived, hat]) rfl rfl
  | @sent i run id messages hrun hat hcurrent hid hroom =>
    have hreceived : Run.hasReceived { run with child := some .raise } = run.hasReceived := rfl
    have hbefore : run.hasSent = false := by simp [Run.hasSent, hat]
    have hafter : Run.hasSent { run with child := some .raise } = true := rfl
    refine h.set hrun _ s.nextId rfl ?_ (by simp) fun id' _ hsome => Or.inl (by simp_all)
    simp only [State.waiting, hreceived, hbefore, hafter, hcurrent, List.length_append,
      List.length_singleton, Bool.toNat_true, Bool.toNat_false]
    omega
  | sendFailed hrun hat hwhy =>
    exact h.pass hrun s.current s.nextId rfl rfl (by simp [Run.hasSent, hat]) le_rfl (by simp)
      hkept
  | childRemoved hrun hat => exact h.remove hrun _ rfl rfl (by simp [Run.hasSent, hat]) rfl
  | raised hrun hat =>
    exact h.pass hrun s.current s.nextId rfl rfl (by simp [Run.hasSent, hat]) le_rfl (by simp)
      hkept

lemma run_accounted {n : ℕ} {schedule : List Event}
    (h : schedule.foldlM (step capacity) (start n) = some s) : Inv s ∧ Accounted s :=
  StepRuns.invariant_of_run (P := fun s => Inv s ∧ Accounted s)
    (fun _ _ _ hs hstep => ⟨step_inv hs.1 hstep, step_accounted hs.1 hs.2 hstep⟩)
    ⟨start_inv n, start_accounted n⟩ h

/-- Before the first message is printed nobody has removed the queue. -/
structure Undisturbed (s : State) : Prop where
  parent : ∀ run ∈ s.runs, run.parent = .get ∨ run.parent = .fork ∨ run.parent = .receive ∨
    ∃ message, run.parent = .print message
  child : ∀ run ∈ s.runs, run.child ≠ some .remove
  named : ∀ run ∈ s.runs, run.parent ≠ .get →
    ∃ id messages, run.msgId = some id ∧ s.current = some (id, messages)

/-- A run goes on, and the queue stays. -/
lemma Undisturbed.set (h : Undisturbed s) {i : ℕ} {run' : Run}
    {current : Option (ℕ × List Message)} {nextId : ℕ}
    (hparent : run'.parent = .get ∨ run'.parent = .fork ∨ run'.parent = .receive ∨
      ∃ message, run'.parent = .print message) (hchild : run'.child ≠ some .remove)
    (hnamed : run'.parent ≠ .get →
      ∃ id messages, run'.msgId = some id ∧ current = some (id, messages))
    (hcurrent : ∀ id messages, s.current = some (id, messages) →
      ∃ after, current = some (id, after)) :
    Undisturbed { s.set i run' with current := current, nextId := nextId } where
  parent := forall_mem_set h.parent hparent
  child := forall_mem_set h.child hchild
  named := by
    refine forall_mem_set (P := fun run : Run => run.parent ≠ .get →
      ∃ id messages, run.msgId = some id ∧ current = some (id, messages)) (fun run hmem hne => ?_)
      hnamed
    obtain ⟨id, messages, hid, hbefore⟩ := h.named run hmem hne
    obtain ⟨after, hafter⟩ := hcurrent id messages hbefore
    exact ⟨id, after, hid, hafter⟩

lemma step_replaced (hstep : step capacity s event = some s') : Replaced s.runs s'.runs := by
  cases stepped_of_step hstep with
  | _ => exact ⟨_, _, rfl⟩

end Accounts

end UnixProgramming.SysvMessageQueue
