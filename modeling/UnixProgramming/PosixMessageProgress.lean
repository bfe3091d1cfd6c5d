import UnixProgramming.PosixMessageAccounts

/-! Where the runs of `posix_msg_queue.cpp` stop. -/
namespace UnixProgramming.PosixMessageQueue
open ListUpdates
open StepRuns (Blocked)

variable {s s' : State} {event : Event} {initial : Option Queue}

section Progress

def Parent.rank : Parent → ℕ
  | fork => 9
  | wait => 5
  | openQueue => 4
  | receive _ => 3
  | print _ => 2
  | unlink => 1
  | exited _ => 0
  | overread _ => 0

def Child.rank : Child → ℕ
  | openQueue => 3
  | send _ => 2
  | report => 1
  | exited _ => 0
  | killed _ _ => 0

/-- The steps that a run may still take. -/
def Run.rank (run : Run) : ℕ := run.parent.rank + (run.child.map Child.rank).getD 0

def State.rank (s : State) : ℕ := (s.runs.map Run.rank).sum

lemma step_rank (h : Accounted initial s) (hstep : step s event = some s') : s'.rank < s.rank := by
  have hset : ∀ {i : ℕ} {run run' : Run}, s.runs[i]? = some run → run'.rank < run.rank →
      ((s.runs.set i run').map Run.rank).sum < s.rank := fun hrun hlt => sum_map_set_lt hrun hlt
  cases stepped_of_step hstep with
  | forked hrun hat =>
    have hchild := (h.ok _ (List.mem_of_getElem? hrun)).unforked hat
    exact hset hrun (by simp [Run.rank, hat, Parent.rank, hchild, Child.rank])
  | forkFailed hrun hat => exact hset hrun (by simp [Run.rank, hat, Parent.rank])
  | waited hrun hat => exact hset hrun (by simp [Run.rank, hat, Parent.rank])
  | childFailed hrun hat => exact hset hrun (by simp [Run.rank, hat, Parent.rank])
  | waitFailed hrun hat => exact hset hrun (by simp [Run.rank, hat, Parent.rank])
  | childBlamed hrun hat => exact hset hrun (by simp [Run.rank, hat, Parent.rank])
  | opened hrun hat => exact hset hrun (by simp [Run.rank, hat, Parent.rank])
  | openFailed hrun hat => exact hset hrun (by simp [Run.rank, hat, Parent.rank])
  | received hrun hat => exact hset hrun (by simp [Run.rank, hat, Parent.rank])
  | receiveFailed hrun hat => exact hset hrun (by simp [Run.rank, hat, Parent.rank])
  | printed hrun hat => exact hset hrun (by simp [Run.rank, hat, Parent.rank])
  | overread hrun hat => exact hset hrun (by simp [Run.rank, hat, Parent.rank])
  | unlinked hrun hat => exact hset hrun (by simp [Run.rank, hat, Parent.rank])
  | found hrun hat => exact hset hrun (by simp [Run.rank, hat, Child.rank])
  | created hrun hat => exact hset hrun (by simp [Run.rank, hat, Child.rank])
  | createFailed hrun hat => exact hset hrun (by simp [Run.rank, hat, Child.rank])
  | sendFailed hrun hat => exact hset hrun (by simp [Run.rank, hat, Child.rank])
  | reported hrun hat => exact hset hrun (by simp [Run.rank, hat, Child.rank])
  | @killed i signal core run child hrun hat hvalue hpos =>
    have hrank : 0 < child.rank := by
      cases child with
      | openQueue => decide
      | send queue => exact Nat.succ_pos _
      | report => decide
      | exited status => cases hvalue
      | killed signal core => cases hvalue
    exact hset hrun (by simpa [Run.rank, hat, Child.rank] using hrank)

def Event.succeeds : Event → Bool
  | parent _ succeeds => succeeds
  | waitFails _ _ => false
  | child _ succeeds => succeeds
  | kill _ _ _ => false

/-- Nobody has received anything, and the queue that every child has opened stays empty. -/
structure Starved (s : State) : Prop where
  parent : ∀ run ∈ s.runs, run.parent = .fork ∨ run.parent = .wait ∧ run.child ≠ none ∨
    (run.parent = .openQueue ∨ ∃ queue, run.parent = .receive queue) ∧
      run.child = some (.exited exitFailure)
  child : ∀ run ∈ s.runs, run.child = none ∨ run.child = some .openQueue ∨
    s.name ≠ none ∧ ((∃ queue, run.child = some (.send queue)) ∨
      run.child = some (.exited exitFailure))
  empty : ∀ queue ∈ s.queues, queue.messages = []

lemma start_starved (n : ℕ) (hinitial : ∀ queue ∈ initial, queue.messages = []) :
    Starved (start initial n) where
  parent run hmem := Or.inl (by rw [List.eq_of_mem_replicate hmem])
  child run hmem := Or.inl (by rw [List.eq_of_mem_replicate hmem])
  empty queue hmem := hinitial queue (Option.mem_toList.mp hmem)

/-- A run goes on, and the name of the queue stays. -/
lemma Starved.set (h : Starved s) {i : ℕ} {run' : Run} {printed : List Output}
    {queues : List Queue} {name : Option ℕ}
    (hparent : run'.parent = .fork ∨ run'.parent = .wait ∧ run'.child ≠ none ∨
      (run'.parent = .openQueue ∨ ∃ queue, run'.parent = .receive queue) ∧
        run'.child = some (.exited exitFailure))
    (hchild : run'.child = none ∨ run'.child = some .openQueue ∨
      name ≠ none ∧ ((∃ queue, run'.child = some (.send queue)) ∨
        run'.child = some (.exited exitFailure)))
    (hname : s.name ≠ none → name ≠ none) (hempty : ∀ queue ∈ queues, queue.messages = []) :
    Starved { s.set i run' printed with queues := queues, name := name } where
  parent := forall_mem_set h.parent hparent
  child := by
    refine forall_mem_set (P := fun run : Run => run.child = none ∨ run.child = some .openQueue ∨
      name ≠ none ∧ ((∃ queue, run.child = some (.send queue)) ∨
        run.child = some (.exited exitFailure))) (fun run hmem => ?_) hchild
    rcases h.child run hmem with hnone | hopen | ⟨hold, hlater⟩
    · exact Or.inl hnone
    · exact Or.inr (Or.inl hopen)
    · exact Or.inr (Or.inr ⟨hname hold, hlater⟩)
  empty := hempty

lemma Starved.child_exited (h : Starved s) {run : Run} (hmem : run ∈ s.runs) {child : Child}
    {returnValue : ℕ} (hchild : run.child = some child)
    (hvalue : child.returnValue = some returnValue) :
    child = .exited exitFailure ∧ s.name ≠ none := by
  rcases h.child run hmem with hnone | hopen | ⟨hname, ⟨queue, hsend⟩ | hexited⟩
  · rw [hchild] at hnone
    cases hnone
  · obtain rfl := Option.some.inj (hchild.symm.trans hopen)
    cases hvalue
  · obtain rfl := Option.some.inj (hchild.symm.trans hsend)
    cases hvalue
  · exact ⟨Option.some.inj (hchild.symm.trans hexited), hname⟩

/-- While the child runs, the parent waits for it. -/
lemma Starved.waits (h : Starved s) (hinv : Accounted initial s) {run : Run} (hmem : run ∈ s.runs)
    {child : Child} (hchild : run.child = some child) (hvalue : child.returnValue = none) :
    run.parent = .wait := by
  rcases h.parent run hmem with hat | ⟨hat, -⟩ | ⟨-, hexited⟩
  · rw [(hinv.ok run hmem).unforked hat] at hchild
    cases hchild
  · exact hat
  · obtain rfl := Option.some.inj (hchild.symm.trans hexited)
    cases hvalue

lemma step_starved (hinv : Accounted initial s) (h : Starved s)
    (hsucceeds : event.succeeds = true) (hstep : step s event = some s') : Starved s' := by
  have hparent : ∀ {i : ℕ} {run : Run}, s.runs[i]? = some run → _ :=
    fun hrun => h.parent _ (List.mem_of_getElem? hrun)
  have hwaits : ∀ {i : ℕ} {run : Run} {child : Child}, s.runs[i]? = some run →
      run.child = some child → child.returnValue = none → run.parent = .wait :=
    fun hrun => h.waits hinv (List.mem_of_getElem? hrun)
  cases stepped_of_step hstep with
  | forked hrun hat =>
    apply h.set
    · exact Or.inr (Or.inl ⟨rfl, by simp⟩)
    · exact Or.inr (Or.inl rfl)
    · exact id
    · exact h.empty
  | forkFailed hrun hat => cases hsucceeds
  | waited hrun hat hchild hvalue hne =>
    obtain ⟨rfl, hname⟩ := h.child_exited (List.mem_of_getElem? hrun) hchild hvalue
    apply h.set
    · exact Or.inr (Or.inr ⟨Or.inl rfl, hchild⟩)
    · exact Or.inr (Or.inr ⟨hname, Or.inr hchild⟩)
    · exact id
    · exact h.empty
  | childFailed hrun hat hchild hvalue =>
    obtain ⟨rfl, -⟩ := h.child_exited (List.mem_of_getElem? hrun) hchild hvalue
    cases hvalue
  | waitFailed hrun hat hne => cases hsucceeds
  | childBlamed hrun hat => cases hsucceeds
  | opened hrun hat hname =>
    have hexited := hparent hrun
    simp only [hat, reduceCtorEq, false_and, false_or, true_or, true_and] at hexited
    apply h.set
    · exact Or.inr (Or.inr ⟨Or.inr ⟨_, rfl⟩, hexited⟩)
    · exact Or.inr (Or.inr ⟨by simp [hname], Or.inr hexited⟩)
    · exact id
    · exact h.empty
  | openFailed hrun hat hwhy =>
    have hexited := hparent hrun
    simp only [hat, reduceCtorEq, false_and, false_or, true_or, true_and] at hexited
    have hname := (h.child_exited (List.mem_of_getElem? hrun) hexited rfl).2
    rcases hwhy with rfl | hnone
    · cases hsucceeds
    · exact absurd hnone hname
  | received hrun hat hqueue hfits => cases h.empty _ (List.mem_of_getElem? hqueue)
  | receiveFailed hrun hat hwhy =>
    rcases hwhy with rfl | ⟨queue, hqueue, hfull⟩
    · cases hsucceeds
    · exact absurd (h.empty queue (List.mem_of_getElem? hqueue)) hfull
  | printed hrun hat hend => simpa [hat] using hparent hrun
  | overread hrun hat hend => simpa [hat] using hparent hrun
  | unlinked hrun hat => simpa [hat] using hparent hrun
  | found hrun hat hname =>
    have hwait := hwaits hrun hat rfl
    apply h.set
    · exact Or.inr (Or.inl ⟨hwait, by simp⟩)
    · exact Or.inr (Or.inr ⟨by simp [hname], Or.inl ⟨_, rfl⟩⟩)
    · exact id
    · exact h.empty
  | created hrun hat hname =>
    have hwait := hwaits hrun hat rfl
    apply h.set
    · exact Or.inr (Or.inl ⟨hwait, by simp⟩)
    · exact Or.inr (Or.inr ⟨by simp, Or.inl ⟨_, rfl⟩⟩)
    · simp
    · intro queue hmem
      rcases List.mem_append.mp hmem with hold | hnew
      · exact h.empty queue hold
      · rw [List.mem_singleton.mp hnew]
  | createFailed hrun hat => cases hsucceeds
  | sendFailed hrun hat =>
    have hwait := hwaits hrun hat rfl
    have hname : s.name ≠ none := by
      simpa [hat] using h.child _ (List.mem_of_getElem? hrun)
    apply h.set
    · exact Or.inr (Or.inl ⟨hwait, by simp⟩)
    · exact Or.inr (Or.inr ⟨hname, Or.inr rfl⟩)
    · exact id
    · exact h.empty
  | reported hrun hat =>
    exact absurd hat (hinv.ok _ (List.mem_of_getElem? hrun)).silent
  | killed hrun hat => cases hsucceeds

lemma receives_of_blocked (h : Blocked step Event.succeeds s) (hstarved : Starved s) :
    ∀ run ∈ s.runs, (∃ queue, run.parent = .receive queue) ∧
      run.child = some (.exited exitFailure) := by
  intro run hmem
  obtain ⟨i, hrun⟩ := List.mem_iff_getElem?.mp hmem
  have hparent := h (.parent i true) rfl
  have hchild := h (.child i true) rfl
  simp only [step, hrun] at hparent hchild
  rcases hstarved.parent run hmem with hat | ⟨hat, hforked⟩ | ⟨hat | ⟨queue, hat⟩, hexited⟩
  · simp [parentStep, hat] at hparent
  · rcases hstarved.child run hmem with hnone | hopen | ⟨hname, ⟨queue, hsend⟩ | hexited⟩
    · exact absurd hnone hforked
    · cases hname : s.name <;> simp [childStep, hopen, hname] at hchild
    · simp [childStep, hsend, show canWrite oCreat = false by decide] at hchild
    · simp [parentStep, hat, hexited, Child.returnValue, exitFailure] at hparent
  · have hname := (hstarved.child_exited hmem hexited rfl).2
    obtain ⟨queue, hsome⟩ := Option.ne_none_iff_exists'.mp hname
    simp [parentStep, hat, hsome] at hparent
  · exact ⟨⟨queue, hat⟩, hexited⟩

end Progress

lemma step_replaced (hstep : step s event = some s') : Replaced s.runs s'.runs := by
  cases stepped_of_step hstep with
  | _ => exact ⟨_, _, rfl⟩

/-- When no call fails and no child is killed, the runs on an empty queue all stop in
`mq_receive`, where they wait for ever: none of them returns. -/
theorem parents_hang (n : ℕ) (hinitial : ∀ queue ∈ initial, queue.messages = [])
    (schedule : List Event) (hsucceed : ∀ event ∈ schedule, event.succeeds = true)
    (h : schedule.foldlM step (start initial n) = some s) :
    schedule.length ≤ 9 * n ∧ s.runs.length = n ∧
    (∀ run ∈ s.runs, ∀ status, run.parent ≠ .exited status) ∧
    (Blocked step Event.succeeds s → ∀ run ∈ s.runs, (∃ queue, run.parent = .receive queue) ∧
      run.child = some (.exited exitFailure)) := by
  let P : State → Prop := fun s => Accounted initial s ∧ Starved s
  have hstep : ∀ s event s', P s → event.succeeds = true → step s event = some s' → P s' :=
    fun s event s' hs hsucceeds hstep =>
      ⟨step_accounted hs.1 hstep, step_starved hs.1 hs.2 hsucceeds hstep⟩
  have hstart : P (start initial n) := ⟨start_accounted initial n, start_starved n hinitial⟩
  have hstarved := (StepRuns.invariant_of_good_run hstep hstart hsucceed h).2
  have hlength : s.runs.length = n :=
    (length_eq_of_run (fun _ _ _ => step_replaced) h).trans List.length_replicate
  have hrank := StepRuns.length_le_of_decreasing State.rank
    (fun _ _ _ hs hstep => ⟨step_accounted hs hstep, step_rank hs hstep⟩)
    (start_accounted initial n) h
  have hfull : (start initial n).rank = 9 * n := by
    simp [start, State.rank, Run.rank, Parent.rank, mul_comm]
  refine ⟨by omega, hlength, fun run hmem status hat => ?_, fun hblocked =>
    receives_of_blocked hblocked hstarved⟩
  simpa [hat] using hstarved.parent run hmem

def twoRuns : List Event :=
  [.parent 0 true, .parent 1 true, .child 1 true, .child 0 true, .child 0 true, .parent 0 true,
    .parent 0 true, .child 1 true, .parent 1 true, .parent 1 true]

theorem parents_hang_two : ∃ s, twoRuns.foldlM step (start none 2) = some s ∧
    twoRuns.length ≤ 9 * 2 ∧ Blocked step Event.succeeds s ∧
    ∀ run ∈ s.runs, ∃ queue, run.parent = .receive queue := by
  obtain ⟨s, hs, hqueues, hruns⟩ : ∃ s, twoRuns.foldlM step (start none 2) = some s ∧
      s.queues = [⟨10, []⟩] ∧ s.runs = [⟨.receive 0, some (.exited 1), some .stored⟩,
        ⟨.receive 0, some (.exited 1), some .stored⟩] := ⟨_, rfl, by decide⟩
  have hblocked : Blocked step Event.succeeds s := by
    intro event hsucceeds
    cases event with
    | parent i succeeds =>
      cases hsucceeds
      rcases i with - | - | i <;> simp [step, parentStep, hruns, hqueues, canRead, oRdonly]
    | waitFails i memory => cases hsucceeds
    | child i succeeds => rcases i with - | - | i <;> simp [step, childStep, hruns]
    | kill i signal core => cases hsucceeds
  have hhang := parents_hang 2 (by simp) twoRuns (by decide) hs
  exact ⟨s, hs, hhang.1, hblocked, fun run hmem => (hhang.2.2.2 hblocked run hmem).1⟩

end UnixProgramming.PosixMessageQueue
