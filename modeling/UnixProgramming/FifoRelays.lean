import UnixProgramming.FifoChannel

/-! What the runs of `fifo_channel.cpp` relay, and which FIFOs they leave behind. -/
namespace UnixProgramming.FifoChannel
open ListUpdates

variable {s s' : State} {event : Event} {inputs : List (List UInt8)}

section Relayed

/-- Every run has the property for the input that belongs to it. -/
def ForAll (inputs : List (List UInt8)) (P : List UInt8 → Run → Prop) (runs : List Run) : Prop :=
  ∀ (i : ℕ) (run : Run), runs[i]? = some run → ∃ input, inputs[i]? = some input ∧ P input run

lemma ForAll.set {P : List UInt8 → Run → Prop} {runs : List Run} (h : ForAll inputs P runs)
    {i : ℕ} {run run' : Run} (hrun : runs[i]? = some run)
    (hP : ∀ input, P input run → P input run') : ForAll inputs P (runs.set i run') := by
  refine forall_getElem?_set h ?_
  obtain ⟨input, hinput, hold⟩ := h i run hrun
  exact ⟨input, hinput, hP input hold⟩

lemma start_forAll {P : List UInt8 → Run → Prop}
    (hP : ∀ input, P input ⟨.makeIn, false, false, input, []⟩) :
    ForAll inputs P (start inputs).runs := by
  intro i run hrun
  rw [start, List.getElem?_map] at hrun
  obtain ⟨input, hinput, rfl⟩ := Option.map_eq_some_iff.mp hrun
  exact ⟨input, hinput, hP input⟩

/-- The bytes that a run has read and not yet written. -/
@[simp] def Place.chunk : Place → List UInt8
  | write chunk => chunk
  | _ => []

/-- What a run delivers are bytes of its input, in their order. -/
def Relayed (input : List UInt8) (run : Run) : Prop :=
  ∃ consumed, (run.delivered ++ run.place.chunk).Sublist consumed ∧
    input = consumed ++ run.waiting

lemma Relayed.pass {input : List UInt8} {run run' : Run} (h : Relayed input run)
    (hdelivered : run'.delivered = run.delivered) (hwaiting : run'.waiting = run.waiting)
    (hchunk : run'.place.chunk = []) : Relayed input run' := by
  obtain ⟨consumed, hsublist, hinput⟩ := h
  refine ⟨consumed, ?_, hwaiting ▸ hinput⟩
  rw [hdelivered, hchunk, List.append_nil]
  exact (List.sublist_append_left _ _).trans hsublist

lemma step_relayed (h : ForAll inputs Relayed s.runs) (hstep : step s event = some s') :
    ForAll inputs Relayed s'.runs := by
  cases stepped_of_step hstep with
  | @read i bytes run hrun hat hinput hpos hle =>
    refine h.set hrun fun input ⟨consumed, hsublist, hall⟩ => ?_
    refine ⟨consumed ++ run.waiting.take bytes, ?_, ?_⟩
    · exact ((List.sublist_append_left _ _).trans hsublist).append (List.Sublist.refl _)
    · rw [List.append_assoc, List.take_append_drop, hall]
  | @wrote i bytes run chunk hrun hat houtput =>
    refine h.set hrun fun input ⟨consumed, hsublist, hall⟩ => ⟨consumed, ?_, hall⟩
    simpa [hat] using hsublist
  | @killedWriting i bytes run chunk hrun hat houtput =>
    refine h.set hrun fun input ⟨consumed, hsublist, hall⟩ => ⟨consumed, ?_, hall⟩
    have htake : (run.delivered ++ chunk.take bytes).Sublist (run.delivered ++ chunk) :=
      (List.Sublist.refl _).append (List.take_sublist bytes chunk)
    rw [hat] at hsublist
    simpa using htake.trans hsublist
  | madeIn hrun | makeInFailed hrun | madeOut hrun | makeOutFailed hrun | openedIn hrun
  | openedOut hrun | ended hrun | readFailed hrun | writeFailed hrun | unlinkedIn hrun
  | unlinkedOut hrun | killed hrun =>
    exact h.set hrun fun input hrelayed => hrelayed.pass rfl rfl rfl

def Event.succeeds : Event → Bool
  | go _ succeeds _ => succeeds
  | kill _ _ => true

@[simp] def Place.reading : Place → Bool
  | read => true
  | write _ => true
  | _ => false

/-- The run has come to the end of its input. -/
@[simp] def Place.done : Place → Bool
  | unlinkIn status => status = 0
  | unlinkOut status => status = 0
  | exited status => status = 0
  | _ => false

/-- No byte is lost, unless the run is killed. -/
structure Complete (input : List UInt8) (run : Run) : Prop where
  opened : run.place = .openOut → run.input = true
  ready : run.place.reading = true → run.input = true ∧ run.output = true
  done : run.place.done = true → run.waiting = []
  all : run.place ≠ .killed → input = run.delivered ++ run.place.chunk ++ run.waiting
  killed : run.delivered <+: input

lemma Complete.pass {input : List UInt8} {run run' : Run} (h : Complete input run)
    (halive : run.place ≠ .killed) (hdelivered : run'.delivered = run.delivered)
    (hwaiting : run'.waiting = run.waiting) (hchunk : run'.place.chunk = run.place.chunk)
    (hopened : run'.place = .openOut → run'.input = true)
    (hready : run'.place.reading = true → run'.input = true ∧ run'.output = true)
    (hdone : run'.place.done = true → run.waiting = []) : Complete input run' where
  opened := hopened
  ready := hready
  done hat := hwaiting ▸ hdone hat
  all _ := by rw [hdelivered, hchunk, hwaiting, ← h.all halive]
  killed := hdelivered ▸ h.killed

lemma step_complete (h : ForAll inputs Complete s.runs) (hsucceeds : event.succeeds = true)
    (hstep : step s event = some s') : ForAll inputs Complete s'.runs := by
  cases stepped_of_step hstep with
  | madeIn hrun hat hfree =>
    refine h.set hrun fun input hcomplete => ?_
    apply hcomplete.pass <;> simp [hat]
  | makeInFailed hrun hat hwhy =>
    refine h.set hrun fun input hcomplete => ?_
    apply hcomplete.pass <;> simp [hat, exitFailure]
  | madeOut hrun hat hfree =>
    refine h.set hrun fun input hcomplete => ?_
    apply hcomplete.pass <;> simp [hat]
  | makeOutFailed hrun hat hwhy =>
    refine h.set hrun fun input hcomplete => ?_
    apply hcomplete.pass <;> simp [hat, exitFailure]
  | @openedIn i bytes run succeeds hrun hat =>
    obtain rfl : succeeds = true := hsucceeds
    refine h.set hrun fun input hcomplete => ?_
    apply hcomplete.pass <;> simp [hat]
  | @openedOut i bytes run succeeds hrun hat =>
    obtain rfl : succeeds = true := hsucceeds
    refine h.set hrun fun input hcomplete => ?_
    have hinput := hcomplete.opened hat
    apply hcomplete.pass <;> simp [hat, hinput]
  | ended hrun hat hinput hwaiting =>
    refine h.set hrun fun input hcomplete => ?_
    apply hcomplete.pass <;> simp [hat, hwaiting]
  | @read i bytes run hrun hat hinput hpos hle =>
    refine h.set hrun fun input hcomplete => ?_
    have hready := hcomplete.ready (by simp [hat])
    have hall := hcomplete.all (by simp [hat])
    refine ⟨by simp, fun _ => hready, by simp, fun _ => ?_, hcomplete.killed⟩
    simpa [hat] using hall
  | readFailed hrun hat hwhy =>
    refine h.set hrun fun input hcomplete => ?_
    apply hcomplete.pass <;> simp [hat, exitFailure]
  | @wrote i bytes run chunk hrun hat houtput =>
    refine h.set hrun fun input hcomplete => ?_
    have hready := hcomplete.ready (by simp [hat])
    have hall := hcomplete.all (by simp [hat])
    rw [hat] at hall
    refine ⟨by simp, fun _ => hready, by simp, fun _ => by simpa using hall, ?_⟩
    exact ⟨run.waiting, hall.symm⟩
  | @writeFailed i bytes run succeeds chunk hrun hat hwhy =>
    obtain ⟨input, -, hcomplete⟩ := h i run hrun
    have hready := hcomplete.ready (by simp [hat])
    rcases hwhy with rfl | houtput
    · cases hsucceeds
    · rw [houtput] at hready
      cases hready.2
  | @unlinkedIn i bytes run succeeds status hrun hat =>
    refine h.set hrun fun input hcomplete => ?_
    have hdone := hcomplete.done
    apply hcomplete.pass <;> simp_all
  | @unlinkedOut i bytes run succeeds status hrun hat =>
    refine h.set hrun fun input hcomplete => ?_
    have hdone := hcomplete.done
    apply hcomplete.pass <;> simp_all
  | killed hrun hexited hkilled =>
    refine h.set hrun fun input hcomplete => ?_
    exact ⟨by simp, by simp, by simp, by simp, hcomplete.killed⟩
  | @killedWriting i bytes run chunk hrun hat houtput =>
    refine h.set hrun fun input hcomplete => ?_
    have hall := hcomplete.all (by simp [hat])
    refine ⟨by simp, by simp, by simp, by simp, chunk.drop bytes ++ run.waiting, ?_⟩
    rw [hall, hat, Place.chunk]
    simp only [List.append_assoc]
    rw [← List.append_assoc (chunk.take bytes), List.take_append_drop]

end Relayed

lemma Owned.eq_of_holdsIn (h : Owned s) {i j : ℕ} {run other : Run}
    (hrun : s.runs[i]? = some run) (hin : run.place.holdsIn = true)
    (hother : s.runs[j]? = some other) (hholds : other.place.holdsIn = true) : j = i := by
  have hj := h.inFifo j other hother hholds
  rw [h.inFifo i run hrun hin] at hj
  exact (Option.some.inj hj).symm

lemma Owned.eq_of_holdsOut (h : Owned s) {i j : ℕ} {run other : Run}
    (hrun : s.runs[i]? = some run) (hout : run.place.holdsOut = true)
    (hother : s.runs[j]? = some other) (hholds : other.place.holdsOut = true) : j = i := by
  have hj := h.outFifo j other hother hholds
  rw [h.outFifo i run hrun hout] at hj
  exact (Option.some.inj hj).symm

/-- A run that is between its second `mkfifo` and its first `unlink` has both names to itself, so
that it opens and removes only what it has made; up to its second `unlink` the output FIFO is its
own. What it delivers is a subsequence of its input; unless a call fails it is a prefix, and all of
the input when the run returns 0. -/
theorem relays (schedule : List Event) (h : schedule.foldlM step (start inputs) = some s) {i : ℕ}
    {run : Run} (hrun : s.runs[i]? = some run) :
    (run.place.holdsIn = true → run.place.holdsOut = true →
      s.inFifo = some i ∧ s.outFifo = some i ∧ ∀ j other, s.runs[j]? = some other →
        other.place.holdsIn = true ∨ other.place.holdsOut = true → j = i) ∧
    (run.place.holdsOut = true → s.outFifo = some i ∧ ∀ j other, s.runs[j]? = some other →
      other.place.holdsOut = true → j = i) ∧
    ∃ input, inputs[i]? = some input ∧ run.delivered.Sublist input ∧
      ((∀ event ∈ schedule, event.succeeds = true) →
        run.delivered <+: input ∧ (run.place = .exited 0 → run.delivered = input)) := by
  have howned := run_owned h
  refine ⟨fun hin hout => ?_, fun hout => ?_, ?_⟩
  · refine ⟨howned.inFifo i run hrun hin, howned.outFifo i run hrun hout,
      fun j other hother hholds => ?_⟩
    rcases hholds with hholds | hholds
    · exact howned.eq_of_holdsIn hrun hin hother hholds
    · exact howned.eq_of_holdsOut hrun hout hother hholds
  · exact ⟨howned.outFifo i run hrun hout, fun j other => howned.eq_of_holdsOut hrun hout⟩
  · have hrelayed : ForAll inputs Relayed s.runs :=
      StepRuns.invariant_of_run (P := fun s => ForAll inputs Relayed s.runs)
        (fun _ _ _ hs hstep => step_relayed hs hstep)
        (start_forAll fun input => ⟨[], List.Sublist.refl [], rfl⟩) h
    obtain ⟨input, hinput, consumed, hsublist, hall⟩ := hrelayed i run hrun
    refine ⟨input, hinput, ?_, fun hsucceed => ?_⟩
    · have hbefore := (List.sublist_append_left run.delivered run.place.chunk).trans hsublist
      rw [hall]
      exact hbefore.trans (List.sublist_append_left consumed run.waiting)
    · have hcomplete : ForAll inputs Complete s.runs :=
        StepRuns.invariant_of_good_run (P := fun s => ForAll inputs Complete s.runs)
          (fun _ _ _ hs hgood hstep => step_complete hs hgood hstep)
          (start_forAll fun input => by constructor <;> simp) hsucceed h
      obtain ⟨input', hinput', hrest⟩ := hcomplete i run hrun
      obtain rfl := Option.some.inj (hinput.symm.trans hinput')
      refine ⟨hrest.killed, fun hat => ?_⟩
      have hbytes := hrest.all (by simp [hat])
      rw [hrest.done (by simp [hat]), hat] at hbytes
      simpa using hbytes.symm

section LeftBehind

def Event.works : Event → Bool
  | go _ succeeds _ => succeeds
  | kill _ _ => false

/-- The run has made the first FIFO and goes on to the end. -/
@[simp] def Place.busy : Place → Bool
  | makeIn => false
  | unlinkIn status => status = 0
  | unlinkOut status => status = 0
  | exited status => status = 0
  | killed => false
  | _ => true

def Place.Ended (place : Place) : Prop := (∃ status, place = .exited status) ∨ place = .killed

structure Run.Tidy (run : Run) : Prop where
  place : run.place = .makeIn ∨ run.place = .exited exitFailure ∨ run.place.busy = true
  untouched : run.place = .makeIn ∨ run.place = .makeOut ∨ run.place = .exited exitFailure →
    run.delivered = []

/-- Who has made the FIFOs that exist, and that a run only gives up when another goes on. -/
structure Tidy (s : State) : Prop where
  run : ∀ run ∈ s.runs, run.Tidy
  inFifo : ∀ i, s.inFifo = some i → ∃ run : Run, s.runs[i]? = some run ∧
    (run.place.holdsIn = true ∧ run.place.busy = true ∨ run.place = .exited exitFailure)
  outFifo : ∀ i, s.outFifo = some i → ∃ run : Run, s.runs[i]? = some run ∧
    run.place.holdsOut = true ∧ run.place.busy = true
  served : (∃ run ∈ s.runs, run.place = .exited exitFailure) →
    ∃ (i : ℕ) (run : Run), s.runs[i]? = some run ∧ run.place.busy = true

lemma start_tidy (inputs : List (List UInt8)) : Tidy (start inputs) where
  run run hmem := by
    obtain ⟨input, -, rfl⟩ := List.mem_map.mp hmem
    constructor <;> simp
  inFifo i hi := by cases hi
  outFifo i hi := by cases hi
  served hexited := by
    obtain ⟨run, hmem, hat⟩ := hexited
    obtain ⟨input, -, rfl⟩ := List.mem_map.mp hmem
    cases hat

/-- A run goes on and keeps what it has made. -/
lemma Tidy.set (h : Tidy s) {i : ℕ} {run run' : Run} (hrun : s.runs[i]? = some run)
    (htidy : run'.Tidy) (hbusy : run'.place.busy = true)
    (hin : run.place.holdsIn = true → run'.place.holdsIn = true)
    (hout : run.place.holdsOut = true → run'.place.holdsOut = true)
    (hold : run.place.busy = true) : Tidy (s.set i run') where
  run := forall_mem_set h.run htidy
  inFifo j hj := by
    refine exists_getElem?_set (h.inFifo j hj) fun other hother hholds => ?_
    obtain rfl := Option.some.inj (hrun.symm.trans hother)
    rcases hholds with hholds | hexited
    · exact Or.inl ⟨hin hholds.1, hbusy⟩
    · rw [hexited] at hold
      cases hold
  outFifo j hj := by
    refine exists_getElem?_set (h.outFifo j hj) fun other hother hholds => ?_
    obtain rfl := Option.some.inj (hrun.symm.trans hother)
    exact ⟨hout hholds.1, hbusy⟩
  served _ := by
    obtain ⟨hlt, -⟩ := List.getElem?_eq_some_iff.mp hrun
    exact ⟨i, run', List.getElem?_set_self hlt, hbusy⟩

/-- A run gives up because of a FIFO of another that goes on. -/
lemma Tidy.fail (h : Tidy s) {i : ℕ} {run : Run} (hrun : s.runs[i]? = some run)
    (hat : run.place = .makeIn ∨ run.place = .makeOut) {j : ℕ} {other : Run} (hne : j ≠ i)
    (hother : s.runs[j]? = some other) (hbusy : other.place.busy = true) :
    Tidy (s.set i { run with place := .exited exitFailure }) where
  run := by
    have huntouched := (h.run run (List.mem_of_getElem? hrun)).untouched
    exact forall_mem_set h.run ⟨by simp, fun _ => huntouched (hat.imp_right Or.inl)⟩
  inFifo k hk := exists_getElem?_set (h.inFifo k hk) fun _ _ _ => Or.inr rfl
  outFifo k hk := by
    refine exists_getElem?_set (h.outFifo k hk) fun run' hrun' hholds => ?_
    obtain rfl := Option.some.inj (hrun.symm.trans hrun')
    rcases hat with hat | hat <;> simp [hat] at hholds
  served _ := ⟨j, other, (List.getElem?_set_ne hne.symm).trans hother, hbusy⟩

lemma step_tidy (hcomplete : ForAll inputs Complete s.runs) (h : Tidy s)
    (hworks : event.works = true) (hstep : step s event = some s') : Tidy s' := by
  have htidy : ∀ {i : ℕ} {run : Run}, s.runs[i]? = some run → run.Tidy :=
    fun hrun => h.run _ (List.mem_of_getElem? hrun)
  cases stepped_of_step hstep with
  | @madeIn i bytes run hrun hat hfree =>
    obtain ⟨hlt, -⟩ := List.getElem?_eq_some_iff.mp hrun
    refine ⟨forall_mem_set h.run ⟨by simp, fun _ => (htidy hrun).untouched (.inl hat)⟩, ?_, ?_, ?_⟩
    · rintro j hj
      obtain rfl := Option.some.inj hj
      exact ⟨_, List.getElem?_set_self hlt, by simp⟩
    · intro j hj
      refine exists_getElem?_set (h.outFifo j hj) fun other hother hholds => ?_
      obtain rfl := Option.some.inj (hrun.symm.trans hother)
      simp [hat] at hholds
    · exact fun _ => ⟨i, _, List.getElem?_set_self hlt, rfl⟩
  | @makeInFailed i bytes run succeeds hrun hat hwhy =>
    obtain ⟨j, other, hother, hbusy⟩ : ∃ (j : ℕ) (other : Run), s.runs[j]? = some other ∧
        other.place.busy = true := by
      rcases hwhy with rfl | hmade
      · cases hworks
      · obtain ⟨j, hj⟩ := Option.ne_none_iff_exists'.mp hmade
        obtain ⟨other, hother, ⟨-, hbusy⟩ | hexited⟩ := h.inFifo j hj
        · exact ⟨j, other, hother, hbusy⟩
        · exact h.served ⟨other, List.mem_of_getElem? hother, hexited⟩
    refine h.fail hrun (.inl hat) (fun heq => ?_) hother hbusy
    subst heq
    obtain rfl := Option.some.inj (hrun.symm.trans hother)
    rw [hat] at hbusy
    cases hbusy
  | @madeOut i bytes run hrun hat hfree =>
    obtain ⟨hlt, -⟩ := List.getElem?_eq_some_iff.mp hrun
    refine ⟨forall_mem_set h.run ⟨by simp, by simp⟩, ?_, ?_, ?_⟩
    · exact fun j hj => exists_getElem?_set (h.inFifo j hj) fun _ _ _ => Or.inl ⟨rfl, rfl⟩
    · rintro j hj
      obtain rfl := Option.some.inj hj
      exact ⟨_, List.getElem?_set_self hlt, rfl, rfl⟩
    · exact fun _ => ⟨i, _, List.getElem?_set_self hlt, rfl⟩
  | @makeOutFailed i bytes run succeeds hrun hat hwhy =>
    rcases hwhy with rfl | hmade
    · cases hworks
    · obtain ⟨j, hj⟩ := Option.ne_none_iff_exists'.mp hmade
      obtain ⟨other, hother, hholds, hbusy⟩ := h.outFifo j hj
      refine h.fail hrun (.inr hat) (fun heq => ?_) hother hbusy
      subst heq
      obtain rfl := Option.some.inj (hrun.symm.trans hother)
      rw [hat] at hholds
      cases hholds
  | openedIn hrun hat =>
    apply h.set hrun ⟨by simp, by simp⟩ <;> simp [hat]
  | openedOut hrun hat =>
    apply h.set hrun ⟨by simp, by simp⟩ <;> simp [hat]
  | ended hrun hat hinput hwaiting =>
    apply h.set hrun ⟨by simp, by simp⟩ <;> simp [hat]
  | read hrun hat hinput hpos hle =>
    apply h.set hrun ⟨by simp, by simp⟩ <;> simp [hat]
  | @readFailed i bytes run succeeds hrun hat hwhy =>
    obtain ⟨input, -, hrest⟩ := hcomplete i run hrun
    have hready := hrest.ready (by simp [hat])
    rcases hwhy with rfl | hinput
    · cases hworks
    · rw [hinput] at hready
      cases hready.1
  | wrote hrun hat houtput =>
    apply h.set hrun ⟨by simp, by simp⟩ <;> simp [hat]
  | writeFailed hrun hat hwhy =>
    apply h.set hrun ⟨by simp, by simp⟩ <;> simp [hat]
  | @unlinkedIn i bytes run succeeds status hrun hat =>
    obtain rfl : succeeds = true := hworks
    obtain rfl : status = 0 := by simpa [hat] using (htidy hrun).place
    obtain ⟨hlt, -⟩ := List.getElem?_eq_some_iff.mp hrun
    refine ⟨forall_mem_set h.run ⟨by simp, by simp⟩, by simp, ?_, ?_⟩
    · exact fun j hj => exists_getElem?_set (h.outFifo j hj) fun _ _ _ => ⟨rfl, rfl⟩
    · exact fun _ => ⟨i, _, List.getElem?_set_self hlt, rfl⟩
  | @unlinkedOut i bytes run succeeds status hrun hat =>
    obtain rfl : succeeds = true := hworks
    obtain rfl : status = 0 := by simpa [hat] using (htidy hrun).place
    obtain ⟨hlt, -⟩ := List.getElem?_eq_some_iff.mp hrun
    refine ⟨forall_mem_set h.run ⟨by simp, by simp [exitFailure]⟩, ?_, by simp, ?_⟩
    · intro j hj
      refine exists_getElem?_set (h.inFifo j hj) fun other hother hholds => ?_
      obtain rfl := Option.some.inj (hrun.symm.trans hother)
      simp [hat] at hholds
    · exact fun _ => ⟨i, _, List.getElem?_set_self hlt, rfl⟩
  | killed hrun hexited hkilled => cases hworks
  | killedWriting hrun hat houtput => cases hworks

lemma busy_ended {place : Place} (hbusy : place.busy = true) (hended : place.Ended) :
    place = .exited 0 := by
  rcases hended with ⟨status, rfl⟩ | rfl
  · obtain rfl : status = 0 := by simpa using hbusy
    rfl
  · cases hbusy

end LeftBehind

/-- When no call fails and no run is killed, the output FIFO is removed in the end, one run at
least returns 0, and an input FIFO that is left over belongs to a run that gave up at its second
`mkfifo`, before it had relayed anything. -/
theorem leaves (schedule : List Event) (hworks : ∀ event ∈ schedule, event.works = true)
    (h : schedule.foldlM step (start inputs) = some s) (hended : ∀ run ∈ s.runs, run.place.Ended) :
    s.outFifo = none ∧
    (∀ i, s.inFifo = some i → ∃ run, s.runs[i]? = some run ∧ run.place = .exited exitFailure ∧
      run.delivered = []) ∧
    (s.runs ≠ [] → ∃ run ∈ s.runs, run.place = .exited 0) := by
  have hsucceeds : ∀ {event : Event}, event.works = true → event.succeeds = true := by
    intro event hevent
    cases event with
    | go i succeeds bytes => exact hevent
    | kill i bytes => cases hevent
  have hstep : ∀ s event s', (ForAll inputs Complete s.runs ∧ Tidy s) → event.works = true →
      step s event = some s' → ForAll inputs Complete s'.runs ∧ Tidy s' :=
    fun s event s' hs hevent hstep => ⟨step_complete hs.1 (hsucceeds hevent) hstep,
      step_tidy hs.1 hs.2 hevent hstep⟩
  obtain ⟨-, htidy⟩ := StepRuns.invariant_of_good_run hstep
    ⟨start_forAll fun input => by constructor <;> simp, start_tidy inputs⟩ hworks h
  refine ⟨?_, fun i hi => ?_, fun hne => ?_⟩
  · rw [Option.eq_none_iff_forall_ne_some]
    intro i hi
    obtain ⟨run, hrun, hholds, hbusy⟩ := htidy.outFifo i hi
    rw [busy_ended hbusy (hended run (List.mem_of_getElem? hrun))] at hholds
    cases hholds
  · obtain ⟨run, hrun, ⟨hholds, hbusy⟩ | hexited⟩ := htidy.inFifo i hi
    · rw [busy_ended hbusy (hended run (List.mem_of_getElem? hrun))] at hholds
      cases hholds
    · have huntouched := (htidy.run run (List.mem_of_getElem? hrun)).untouched
      exact ⟨run, hrun, hexited, huntouched (.inr (.inr hexited))⟩
  · obtain ⟨run, hmem⟩ := List.exists_mem_of_ne_nil _ hne
    have hdone : ∃ run ∈ s.runs, run.place.busy = true := by
      rcases (htidy.run run hmem).place with hat | hat | hbusy
      · rcases hended run hmem with ⟨status, hexited⟩ | hkilled
        · rw [hat] at hexited
          cases hexited
        · rw [hat] at hkilled
          cases hkilled
      · obtain ⟨j, other, hother, hbusy⟩ := htidy.served ⟨run, hmem, hat⟩
        exact ⟨other, List.mem_of_getElem? hother, hbusy⟩
      · exact ⟨run, hmem, hbusy⟩
    obtain ⟨other, hother, hbusy⟩ := hdone
    exact ⟨other, hother, busy_ended hbusy (hended other hother)⟩

/-- The second run starts between the two `unlink`s of the first. -/
def overlap : List Event :=
  [.go 0 true 0, .go 0 true 0, .go 0 true 0, .go 0 true 0, .go 0 true 2, .go 0 true 0,
    .go 0 true 0, .go 0 true 0, .go 1 true 0, .go 1 true 0, .go 0 true 0]

theorem leaves_overlap : ∃ s, overlap.foldlM step (start [[7, 8], [9]]) = some s ∧
    s.inFifo = some 1 ∧ s.outFifo = none ∧ ∃ run ∈ s.runs, run.place = .exited 0 := by
  obtain ⟨s, hs, hfifo, hruns⟩ : ∃ s, overlap.foldlM step (start [[7, 8], [9]]) = some s ∧
      s.inFifo = some 1 ∧ s.runs = [⟨.exited 0, true, true, [], [7, 8]⟩,
        ⟨.exited 1, false, false, [9], []⟩] := ⟨_, rfl, by decide⟩
  have hended : ∀ run ∈ s.runs, run.place.Ended := by
    rw [hruns]
    simp [Place.Ended]
  have hleaves := leaves overlap (by decide) hs hended
  exact ⟨s, hs, hfifo, hleaves.1, hleaves.2.2 (by simp [hruns])⟩

theorem relays_overlap : ∃ s run, overlap.foldlM step (start [[7, 8], [9]]) = some s ∧
    s.runs[0]? = some run ∧ run.place = .exited 0 ∧ run.delivered = [7, 8] := by
  obtain ⟨s, hs, hrun⟩ : ∃ s, overlap.foldlM step (start [[7, 8], [9]]) = some s ∧
      s.runs[0]? = some ⟨.exited 0, true, true, [], [7, 8]⟩ := ⟨_, rfl, by decide⟩
  obtain ⟨input, hinput, -, hall⟩ := (relays overlap hs hrun).2.2
  obtain rfl := Option.some.inj hinput
  exact ⟨s, _, hs, hrun, rfl, (hall (by decide)).2 rfl⟩

section Stale

/-- The input FIFO was left by a run that has ended. -/
def Stale (i : ℕ) (s : State) : Prop :=
  s.inFifo = some i ∧ ∃ run, s.runs[i]? = some run ∧ run.place.Ended

/-- Of a run that was to begin nothing has changed, or it has ended without doing anything. -/
def Shut (run run' : Run) : Prop :=
  run' = { run with place := run'.place } ∧
    (run'.place = .makeIn ∨ run'.place = .exited exitFailure ∨ run'.place = .killed)

/-- One run goes on; only those which hold the input FIFO touch an existing one. -/
lemma step_changes (hstep : step s event = some s') : ∃ i run run', s.runs[i]? = some run ∧
    s'.runs = s.runs.set i run' ∧ ¬ run.place.Ended ∧
    (s.inFifo ≠ none → run.place.holdsIn = false → s'.inFifo = s.inFifo) ∧
    (s.inFifo ≠ none → ∀ first, Shut first run → Shut first run') := by
  cases stepped_of_step hstep with
  | madeIn hrun hat hfree =>
    exact ⟨_, _, _, hrun, rfl, by simp [Place.Ended, hat], by simp [hfree], by simp [hfree]⟩
  | makeInFailed hrun hat hwhy =>
    refine ⟨_, _, _, hrun, rfl, by simp [Place.Ended, hat], fun _ _ => rfl,
      fun _ first hshut => ?_⟩
    exact ⟨by rw [hshut.1], Or.inr (Or.inl rfl)⟩
  | madeOut hrun hat | makeOutFailed hrun hat | openedIn hrun hat | openedOut hrun hat
  | ended hrun hat | read hrun hat | readFailed hrun hat | wrote hrun hat | writeFailed hrun hat
  | unlinkedOut hrun hat | killedWriting hrun hat =>
    exact ⟨_, _, _, hrun, rfl, by simp [Place.Ended, hat], fun _ _ => rfl,
      fun _ _ hshut => by simp [Shut, hat] at hshut⟩
  | unlinkedIn hrun hat =>
    exact ⟨_, _, _, hrun, rfl, by simp [Place.Ended, hat], by simp [hat],
      fun _ _ hshut => by simp [Shut, hat] at hshut⟩
  | killed hrun hexited hkilled =>
    refine ⟨_, _, _, hrun, rfl, ?_, fun _ _ => rfl, fun _ first hshut => ?_⟩
    · rintro (⟨status, hat⟩ | hat)
      · exact hexited status hat
      · exact hkilled hat
    · exact ⟨by rw [hshut.1], Or.inr (Or.inr rfl)⟩

lemma step_stale (howned : Owned s) {i j : ℕ} {first : Run} (hstale : Stale i s)
    (hshut : ∃ run, s.runs[j]? = some run ∧ Shut first run) (hstep : step s event = some s') :
    Stale i s' ∧ ∃ run, s'.runs[j]? = some run ∧ Shut first run := by
  obtain ⟨hfifo, left, hleft, hended⟩ := hstale
  have hmade : s.inFifo ≠ none := by simp [hfifo]
  obtain ⟨k, run, run', hrun, hruns, hgoing, hkeeps, hshuts⟩ := step_changes hstep
  have hne : i ≠ k := by
    rintro rfl
    obtain rfl := Option.some.inj (hrun.symm.trans hleft)
    exact hgoing hended
  have hfree : run.place.holdsIn = false := by
    by_contra hholds
    have hown := howned.inFifo k run hrun (Bool.of_not_eq_false hholds)
    rw [hfifo] at hown
    exact hne (Option.some.inj hown)
  rw [hruns]
  refine ⟨⟨(hkeeps hmade hfree).trans hfifo, left, ?_, hended⟩, ?_⟩
  · rw [hruns]
    exact (List.getElem?_set_ne hne.symm).trans hleft
  · refine exists_getElem?_set hshut fun other hother hshut => ?_
    obtain rfl := Option.some.inj (hrun.symm.trans hother)
    exact hshuts hmade first hshut

end Stale

/-- Once a FIFO is left over, no later run gets beyond its first `mkfifo`, and the FIFO stays. -/
theorem stale_shuts (schedule : List Event) (h : schedule.foldlM step (start inputs) = some s)
    {i : ℕ} (hstale : Stale i s) (later : List Event) (hlater : later.foldlM step s = some s')
    {j : ℕ} {run : Run} (hrun : s.runs[j]? = some run) (hat : run.place = .makeIn) :
    Stale i s' ∧ ∃ run', s'.runs[j]? = some run' ∧ Shut run run' := by
  have hbefore : ∃ run', s.runs[j]? = some run' ∧ Shut run run' := ⟨run, hrun, rfl, Or.inl hat⟩
  exact (StepRuns.invariant_of_run
    (P := fun s => Owned s ∧ Stale i s ∧ ∃ run', s.runs[j]? = some run' ∧ Shut run run')
    (fun _ _ _ hs hstep => ⟨step_owned hs.1 hstep, step_stale hs.1 hs.2.1 hs.2.2 hstep⟩)
    ⟨run_owned h, hstale, hbefore⟩ hlater).2

theorem stale_shuts_later : ∃ s s', overlap.foldlM step (start [[7, 8], [9], [10]]) = some s ∧
    [.go 2 true 0].foldlM step s = some s' ∧ Stale 1 s' := by
  obtain ⟨s, hs, hfifo, hruns⟩ : ∃ s, overlap.foldlM step (start [[7, 8], [9], [10]]) = some s ∧
      s.inFifo = some 1 ∧ s.runs = [⟨.exited 0, true, true, [], [7, 8]⟩,
        ⟨.exited 1, false, false, [9], []⟩, ⟨.makeIn, false, false, [10], []⟩] :=
    ⟨_, rfl, by decide⟩
  obtain ⟨s', hs'⟩ : ∃ s', [Event.go 2 true 0].foldlM step s = some s' := by
    simp [step, goStep, hruns, hfifo]
  have hstale : Stale 1 s := ⟨hfifo, _, by rw [hruns]; rfl, Or.inl ⟨_, rfl⟩⟩
  have hbegin : s.runs[2]? = some ⟨.makeIn, false, false, [10], []⟩ := by rw [hruns]; rfl
  exact ⟨s, s', hs, hs', (stale_shuts overlap hs hstale _ hs' hbegin rfl).1⟩

end UnixProgramming.FifoChannel
