import UnixProgramming.StepRuns

/-! The producer and the consumer of `pthread_mutex.cpp`, with an arbitrary bound. Each
thread takes its next statement when it is scheduled; a call that acquires the lock fails
or, while the other thread holds it, blocks. -/
namespace UnixProgramming.ProducerConsumer
open scoped List

def kInvalidElement : ℤ := -2^31

inductive Thread
  | producer
  | consumer
  deriving DecidableEq, Repr

/-- The next statement of `Producer`. -/
inductive Producer
  | test (i : ℤ)
  | lock (i : ℤ)
  | push (i : ℤ)
  | unlock (i : ℤ)
  | returned
  deriving DecidableEq, Repr

/-- The next statement of `Consumer`; `n` is `read_elements_number`. -/
inductive Consumer
  | test (n : ℤ)
  | lock (n : ℤ)
  | back (n : ℤ)
  | pop (n readElement : ℤ)
  | unlock (n readElement : ℤ)
  | report (n readElement : ℤ)
  | returned
  deriving DecidableEq, Repr

/-- `pushed` and `reported` record what was pushed and printed. -/
structure State where
  a : List ℤ
  lock : Option Thread
  producer : Producer
  consumer : Consumer
  pushed : List ℤ
  reported : List ℤ
  deriving DecidableEq, Repr

def start : State := ⟨[], none, .test 0, .test 0, [], []⟩

/-- A failed acquisition decrements `i` and goes on with the next iteration. -/
def producerStep (bound : ℤ) (s : State) (acquired : Bool) : Option State :=
  match s.producer with
  | .test i => some { s with producer := if i < bound then .lock i else .returned }
  | .lock i =>
    if acquired then
      if s.lock = none then some { s with lock := some .producer, producer := .push i } else none
    else some { s with producer := .test (i - 1 + 1) }
  | .push i => some { s with a := s.a ++ [i], pushed := s.pushed ++ [i], producer := .unlock i }
  | .unlock i => some { s with lock := none, producer := .test (i + 1) }
  | .returned => none

def consumerStep (bound : ℤ) (s : State) (acquired : Bool) : Option State :=
  match s.consumer with
  | .test n => some { s with consumer := if n < bound then .lock n else .returned }
  | .lock n =>
    if acquired then
      if s.lock = none then some { s with lock := some .consumer, consumer := .back n } else none
    else some { s with consumer := .test n }
  | .back n =>
    match s.a.getLast? with
    | some element => some { s with consumer := .pop n element }
    | none => some { s with consumer := .unlock n kInvalidElement }
  | .pop n readElement => some { s with a := s.a.dropLast, consumer := .unlock n readElement }
  | .unlock n readElement => some { s with lock := none, consumer := .report n readElement }
  | .report n readElement =>
    if readElement ≠ kInvalidElement then
      some { s with reported := s.reported ++ [readElement], consumer := .test (n + 1) }
    else some { s with consumer := .test n }
  | .returned => none

/-- A scheduled thread, and the outcome if its next statement acquires the lock. -/
def step (bound : ℤ) (s : State) : Thread × Bool → Option State
  | (.producer, acquired) => producerStep bound s acquired
  | (.consumer, acquired) => consumerStep bound s acquired

def valid (readElement : ℤ) : List ℤ :=
  if readElement ≠ kInvalidElement then [readElement] else []

/-- What was popped and is not reported yet. -/
def Consumer.inHand : Consumer → List ℤ
  | unlock _ readElement => valid readElement
  | report _ readElement => valid readElement
  | _ => []

lemma Consumer.length_inHand (consumer : Consumer) : consumer.inHand.length ≤ 1 := by
  have hvalid : ∀ readElement, (valid readElement).length ≤ 1 := by
    intro readElement
    unfold valid
    split_ifs <;> simp
  cases consumer with
  | unlock n readElement => exact hvalid readElement
  | report n readElement => exact hvalid readElement
  | _ => exact Nat.zero_le 1

def ints (bound : ℤ) : List ℤ := (List.range bound.toNat).map fun k : ℕ => (k : ℤ)

section Invariant

def Producer.holds : Producer → Bool
  | push _ => true
  | unlock _ => true
  | _ => false

def Consumer.holds : Consumer → Bool
  | back _ => true
  | pop _ _ => true
  | unlock _ _ => true
  | _ => false

/-- The numbers were pushed in order up to the position of the producer. -/
def Producer.Pushed (bound : ℤ) (pushed : List ℤ) : Producer → Prop
  | test i => 0 ≤ i ∧ i ≤ max bound 0 ∧ pushed = ints i
  | lock i => 0 ≤ i ∧ i < bound ∧ pushed = ints i
  | push i => 0 ≤ i ∧ i < bound ∧ pushed = ints i
  | unlock i => 0 ≤ i ∧ i < bound ∧ pushed = ints (i + 1)
  | returned => pushed = ints bound

/-- `read_elements_number` counts what was reported. -/
def Consumer.Counted (bound : ℤ) (reported : List ℤ) : Consumer → Prop
  | test n => n = reported.length
  | lock n => n = reported.length
  | back n => n = reported.length
  | pop n _ => n = reported.length
  | unlock n _ => n = reported.length
  | report n _ => n = reported.length
  | returned => bound ≤ reported.length

structure Inv (bound : ℤ) (s : State) : Prop where
  pushed : s.producer.Pushed bound s.pushed
  counted : s.consumer.Counted bound s.reported
  producer_holds : s.producer.holds = true → s.lock = some .producer
  consumer_holds : s.consumer.holds = true → s.lock = some .consumer
  last : ∀ n readElement, s.consumer = .pop n readElement → s.a.getLast? = some readElement
  balanced : s.pushed.Perm (s.reported ++ s.a ++ s.consumer.inHand)

variable {bound : ℤ} {s s' : State}

lemma ints_succ {i : ℤ} (h : 0 ≤ i) : ints (i + 1) = ints i ++ [i] := by
  have hsucc : (i + 1).toNat = i.toNat + 1 := by omega
  rw [ints, ints, hsucc, List.range_succ, List.map_append]
  simp [h]

lemma nonneg_of_mem_ints {i x : ℤ} (h : x ∈ ints i) : 0 ≤ x := by
  obtain ⟨k, -, rfl⟩ := List.mem_map.mp h
  exact Int.natCast_nonneg k

/-- A pushed number is not taken for the sentinel. -/
lemma Inv.valid_eq (h : Inv bound s) {x : ℤ} (hx : x ∈ s.a) : valid x = [x] := by
  have hpushed : x ∈ s.pushed := h.balanced.mem_iff.mpr (by simp [hx])
  have hnonneg : 0 ≤ x := by
    have hp := h.pushed
    cases hproducer : s.producer <;> rw [hproducer] at hp <;>
      simp only [Producer.Pushed] at hp
    · exact nonneg_of_mem_ints (hp.2.2 ▸ hpushed)
    · exact nonneg_of_mem_ints (hp.2.2 ▸ hpushed)
    · exact nonneg_of_mem_ints (hp.2.2 ▸ hpushed)
    · exact nonneg_of_mem_ints (hp.2.2 ▸ hpushed)
    · exact nonneg_of_mem_ints (hp ▸ hpushed)
  have hne : x ≠ kInvalidElement := by
    unfold kInvalidElement
    omega
  exact if_pos hne

lemma producerStep_inv {acquired : Bool} (h : Inv bound s)
    (hstep : producerStep bound s acquired = some s') : Inv bound s' := by
  have hp := h.pushed
  have hlock := h.producer_holds
  unfold producerStep at hstep
  cases hproducer : s.producer with
  | test i =>
    rw [hproducer] at hp hstep
    obtain ⟨hnonneg, hle, hpushed⟩ := hp
    obtain rfl := Option.some.inj hstep
    refine ⟨?_, h.counted, ?_, h.consumer_holds, h.last, h.balanced⟩
    · dsimp only
      split_ifs with hlt
      · exact ⟨hnonneg, hlt, hpushed⟩
      · have hend : i.toNat = bound.toNat := by omega
        rw [Producer.Pushed, hpushed, ints, ints, hend]
    · dsimp only
      split_ifs <;> simp [Producer.holds]
  | lock i =>
    rw [hproducer] at hp hstep
    obtain ⟨hnonneg, hlt, hpushed⟩ := hp
    dsimp only at hstep
    split_ifs at hstep with hacquired hfree
    · obtain rfl := Option.some.inj hstep
      refine ⟨⟨hnonneg, hlt, hpushed⟩, h.counted, fun _ => rfl, fun hc => ?_, h.last, h.balanced⟩
      have hheld := h.consumer_holds hc
      rw [hfree] at hheld
      cases hheld
    · obtain rfl := Option.some.inj hstep
      refine ⟨?_, h.counted, by simp [Producer.holds], h.consumer_holds, h.last, h.balanced⟩
      rw [sub_add_cancel]
      exact ⟨hnonneg, by omega, hpushed⟩
  | push i =>
    rw [hproducer] at hp hstep hlock
    obtain ⟨hnonneg, hlt, hpushed⟩ := hp
    obtain rfl := Option.some.inj hstep
    refine ⟨⟨hnonneg, hlt, ?_⟩, h.counted, hlock, h.consumer_holds, fun n x hpop => ?_, ?_⟩
    · rw [hpushed, ints_succ hnonneg]
    · -- the consumer does not hold the lock
      have hheld := h.consumer_holds (by rw [hpop]; rfl)
      rw [hlock rfl] at hheld
      cases hheld
    · calc s.pushed ++ [i]
          _ ~ s.reported ++ s.a ++ s.consumer.inHand ++ [i] := h.balanced.append_right [i]
          _ ~ s.reported ++ s.a ++ [i] ++ s.consumer.inHand := by
            rw [List.append_assoc, List.append_assoc _ [i]]
            exact List.perm_append_comm.append_left _
          _ ~ s.reported ++ (s.a ++ [i]) ++ s.consumer.inHand := by simp
  | unlock i =>
    rw [hproducer] at hp hstep hlock
    obtain ⟨hnonneg, hlt, hpushed⟩ := hp
    obtain rfl := Option.some.inj hstep
    refine ⟨⟨by omega, by omega, hpushed⟩, h.counted, by simp [Producer.holds], fun hc => ?_,
      h.last, h.balanced⟩
    have hheld := h.consumer_holds hc
    rw [hlock rfl] at hheld
    cases hheld
  | returned =>
    rw [hproducer] at hstep
    cases hstep

lemma consumerStep_inv {acquired : Bool} (h : Inv bound s)
    (hstep : consumerStep bound s acquired = some s') : Inv bound s' := by
  have hc := h.counted
  have hlock := h.consumer_holds
  have hbalanced := h.balanced
  unfold consumerStep at hstep
  cases hconsumer : s.consumer with
  | test n =>
    rw [hconsumer] at hc hstep hbalanced
    obtain rfl := Option.some.inj hstep
    refine ⟨h.pushed, ?_, h.producer_holds, ?_, ?_, ?_⟩
    · dsimp only
      split_ifs with hlt
      · exact hc
      · have hn : n = s.reported.length := hc
        rw [Consumer.Counted, ← hn]
        exact not_lt.mp hlt
    · dsimp only
      split_ifs <;> simp [Consumer.holds]
    · dsimp only
      split_ifs <;> simp
    · dsimp only
      split_ifs <;> exact hbalanced
  | lock n =>
    rw [hconsumer] at hc hstep hbalanced
    dsimp only at hstep
    split_ifs at hstep with hacquired hfree
    · obtain rfl := Option.some.inj hstep
      refine ⟨h.pushed, hc, fun hp => ?_, fun _ => rfl, by simp, hbalanced⟩
      have hheld := h.producer_holds hp
      rw [hfree] at hheld
      cases hheld
    · obtain rfl := Option.some.inj hstep
      exact ⟨h.pushed, hc, h.producer_holds, by simp [Consumer.holds], by simp, hbalanced⟩
  | back n =>
    rw [hconsumer] at hc hstep hlock hbalanced
    dsimp only at hstep
    cases hlast : s.a.getLast? with
    | some element =>
      rw [hlast] at hstep
      obtain rfl := Option.some.inj hstep
      refine ⟨h.pushed, hc, h.producer_holds, hlock, fun m x hpop => ?_, hbalanced⟩
      obtain ⟨-, rfl⟩ := Consumer.pop.inj hpop
      exact hlast
    | none =>
      rw [hlast] at hstep
      obtain rfl := Option.some.inj hstep
      refine ⟨h.pushed, hc, h.producer_holds, hlock, by simp, ?_⟩
      simpa [Consumer.inHand, valid] using hbalanced
  | pop n readElement =>
    rw [hconsumer] at hc hstep hlock hbalanced
    obtain rfl := Option.some.inj hstep
    have hlast := h.last n readElement hconsumer
    refine ⟨h.pushed, hc, h.producer_holds, hlock, by simp, ?_⟩
    have hsplit : s.a.dropLast ++ [readElement] = s.a :=
      List.dropLast_append_getLast? readElement hlast
    have hvalid : valid readElement = [readElement] :=
      h.valid_eq (List.mem_of_getLast? hlast)
    simp only [Consumer.inHand, hvalid, List.append_assoc, hsplit]
    simpa [Consumer.inHand] using hbalanced
  | unlock n readElement =>
    rw [hconsumer] at hc hstep hlock hbalanced
    obtain rfl := Option.some.inj hstep
    refine ⟨h.pushed, hc, fun hp => ?_, by simp [Consumer.holds], by simp, hbalanced⟩
    have hheld := h.producer_holds hp
    rw [hlock rfl] at hheld
    cases hheld
  | report n readElement =>
    rw [hconsumer] at hc hstep hbalanced
    dsimp only at hstep
    split_ifs at hstep with hvalid
    · obtain rfl := Option.some.inj hstep
      refine ⟨h.pushed, ?_, h.producer_holds, by simp [Consumer.holds], by simp, ?_⟩
      · have hn : n = s.reported.length := hc
        simp [Consumer.Counted, hn]
      · simp only [Consumer.inHand, valid, if_pos hvalid] at hbalanced
        calc s.pushed
            _ ~ s.reported ++ (s.a ++ [readElement]) := by simpa using hbalanced
            _ ~ s.reported ++ ([readElement] ++ s.a) := List.perm_append_comm.append_left _
            _ ~ s.reported ++ [readElement] ++ s.a ++ [] := by simp
    · obtain rfl := Option.some.inj hstep
      refine ⟨h.pushed, hc, h.producer_holds, by simp [Consumer.holds], by simp, ?_⟩
      simpa [Consumer.inHand, valid, hvalid] using hbalanced
  | returned =>
    rw [hconsumer] at hstep
    cases hstep

lemma start_inv (bound : ℤ) : Inv bound start where
  pushed := ⟨le_rfl, le_max_right _ _, rfl⟩
  counted := rfl
  producer_holds := by simp [start, Producer.holds]
  consumer_holds := by simp [start, Consumer.holds]
  last := by simp [start]
  balanced := List.Perm.refl _

lemma run_inv {schedule : List (Thread × Bool)}
    (h : schedule.foldlM (step bound) start = some s) : Inv bound s := by
  refine StepRuns.invariant_of_run (fun _ x _ hs hstep => ?_) (start_inv bound) h
  obtain ⟨thread, acquired⟩ := x
  cases thread with
  | producer => exact producerStep_inv hs hstep
  | consumer => exact consumerStep_inv hs hstep

/-- The consumer stops after as many numbers as the producer has pushed. -/
lemma Inv.all_reported (h : Inv bound s) (hproducer : s.producer = .returned)
    (hconsumer : s.consumer = .returned) : s.reported.Perm (ints bound) ∧ s.a = [] := by
  have hpushed := h.pushed
  have hcounted := h.counted
  have hbalanced := h.balanced
  rw [hproducer] at hpushed
  rw [hconsumer] at hcounted hbalanced
  simp only [Producer.Pushed] at hpushed
  simp only [Consumer.Counted] at hcounted
  simp only [Consumer.inHand, List.append_nil, hpushed] at hbalanced
  have hlength : bound.toNat = s.reported.length + s.a.length := by
    simpa [ints] using hbalanced.length_eq
  have hempty : s.a = [] := List.eq_nil_of_length_eq_zero (by omega)
  rw [hempty, List.append_nil] at hbalanced
  exact ⟨hbalanced.symm, hempty⟩

end Invariant

/-- Nothing is lost or reported twice: what was pushed is reported, in `a`, or in the
hand of the consumer, and after both threads it was all reported. -/
theorem reports_each_once (bound : ℤ) (schedule : List (Thread × Bool)) (s : State)
    (h : schedule.foldlM (step bound) start = some s) :
    s.pushed.Perm (s.reported ++ s.a ++ s.consumer.inHand) ∧ s.consumer.inHand.length ≤ 1 ∧
      (s.producer = .returned → s.consumer = .returned →
        s.reported.Perm (ints bound) ∧ s.a = []) := by
  have hinv := run_inv h
  exact ⟨hinv.balanced, s.consumer.length_inHand, hinv.all_reported⟩

/-- The consumer polls in between, and each thread once fails to get the lock. -/
def polling : List (Thread × Bool) :=
  ([(.producer, true), (.producer, false), (.producer, true), (.producer, true),
    (.producer, true), (.producer, true), (.consumer, true), (.consumer, false),
    (.producer, true), (.producer, true), (.producer, true), (.producer, true),
    (.producer, true)] : List (Thread × Bool)) ++ List.replicate 13 (.consumer, true)

theorem reports_each_once_polling : ∃ s, polling.foldlM (step 2) start = some s ∧
    s.reported = [1, 0] ∧ s.reported.Perm (ints 2) ∧ s.a = [] := by
  have hrun : ((polling.foldlM (step 2) start).any fun s =>
      decide (s.reported = [1, 0] ∧ s.producer = .returned ∧ s.consumer = .returned)) = true := by
    decide +kernel
  obtain ⟨s, hs, hends⟩ := (Option.any_eq_true _ _).mp hrun
  obtain ⟨hreported, hproducer, hconsumer⟩ := of_decide_eq_true hends
  exact ⟨s, hs, hreported, (reports_each_once 2 polling s hs).2.2 hproducer hconsumer⟩

end UnixProgramming.ProducerConsumer
