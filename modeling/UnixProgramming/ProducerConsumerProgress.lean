import UnixProgramming.ProducerConsumer

/-! From every state that they reach, the producer and the consumer can still finish. -/
namespace UnixProgramming.ProducerConsumer
open StepRuns

/-- The consumer polls for a number within the bound. -/
def Consumer.Within (bound : ℤ) : Consumer → Prop
  | test _ => True
  | lock n => n < bound
  | back n => n < bound
  | pop n _ => n < bound
  | unlock n _ => n < bound
  | report n _ => n < bound
  | returned => True

/-- The thread that holds the lock is in its critical section. -/
structure Live (bound : ℤ) (s : State) : Prop where
  inv : Inv bound s
  within : s.consumer.Within bound
  held_by_producer : s.lock = some .producer → s.producer.holds = true
  held_by_consumer : s.lock = some .consumer → s.consumer.holds = true

variable {bound : ℤ} {s s' : State}

lemma start_live (bound : ℤ) : Live bound start :=
  ⟨start_inv bound, trivial, by simp [start], by simp [start]⟩

lemma producerStep_live {acquired : Bool} (h : Live bound s)
    (hstep : producerStep bound s acquired = some s') : Live bound s' := by
  have hinv := producerStep_inv h.inv hstep
  have hproducer := h.held_by_producer
  have hconsumer := h.held_by_consumer
  have hwithin := h.within
  unfold producerStep at hstep
  cases hcase : s.producer with
  | test i =>
    rw [hcase] at hstep hproducer
    obtain rfl := Option.some.inj hstep
    exact ⟨hinv, hwithin, fun hlock => (Bool.false_ne_true (hproducer hlock)).elim, hconsumer⟩
  | lock i =>
    rw [hcase] at hstep hproducer
    dsimp only at hstep
    split_ifs at hstep with hacquired hfree
    · obtain rfl := Option.some.inj hstep
      exact ⟨hinv, hwithin, fun _ => rfl, by simp⟩
    · obtain rfl := Option.some.inj hstep
      exact ⟨hinv, hwithin, fun hlock => (Bool.false_ne_true (hproducer hlock)).elim, hconsumer⟩
  | push i =>
    rw [hcase] at hstep
    obtain rfl := Option.some.inj hstep
    exact ⟨hinv, hwithin, fun _ => rfl, hconsumer⟩
  | unlock i =>
    rw [hcase] at hstep
    obtain rfl := Option.some.inj hstep
    exact ⟨hinv, hwithin, by simp, by simp⟩
  | returned =>
    rw [hcase] at hstep
    cases hstep

lemma consumerStep_live {acquired : Bool} (h : Live bound s)
    (hstep : consumerStep bound s acquired = some s') : Live bound s' := by
  have hinv := consumerStep_inv h.inv hstep
  have hproducer := h.held_by_producer
  have hconsumer := h.held_by_consumer
  have hwithin := h.within
  unfold consumerStep at hstep
  cases hcase : s.consumer with
  | test n =>
    rw [hcase] at hstep hconsumer
    obtain rfl := Option.some.inj hstep
    refine ⟨hinv, ?_, hproducer, fun hlock => (Bool.false_ne_true (hconsumer hlock)).elim⟩
    dsimp only
    split_ifs with hlt
    · exact hlt
    · trivial
  | lock n =>
    rw [hcase] at hstep hconsumer hwithin
    dsimp only at hstep
    split_ifs at hstep with hacquired hfree
    · obtain rfl := Option.some.inj hstep
      exact ⟨hinv, hwithin, by simp, fun _ => rfl⟩
    · obtain rfl := Option.some.inj hstep
      exact ⟨hinv, trivial, hproducer, fun hlock => (Bool.false_ne_true (hconsumer hlock)).elim⟩
  | back n =>
    rw [hcase] at hstep hwithin
    dsimp only at hstep
    split at hstep
    · obtain rfl := Option.some.inj hstep
      exact ⟨hinv, hwithin, hproducer, fun _ => rfl⟩
    · obtain rfl := Option.some.inj hstep
      exact ⟨hinv, hwithin, hproducer, fun _ => rfl⟩
  | pop n readElement =>
    rw [hcase] at hstep hwithin
    obtain rfl := Option.some.inj hstep
    exact ⟨hinv, hwithin, hproducer, fun _ => rfl⟩
  | unlock n readElement =>
    rw [hcase] at hstep hwithin
    obtain rfl := Option.some.inj hstep
    exact ⟨hinv, hwithin, by simp, by simp⟩
  | report n readElement =>
    rw [hcase] at hstep hconsumer
    dsimp only at hstep
    split_ifs at hstep with hvalid
    · obtain rfl := Option.some.inj hstep
      exact ⟨hinv, trivial, hproducer, fun hlock => (Bool.false_ne_true (hconsumer hlock)).elim⟩
    · obtain rfl := Option.some.inj hstep
      exact ⟨hinv, trivial, hproducer, fun hlock => (Bool.false_ne_true (hconsumer hlock)).elim⟩
  | returned =>
    rw [hcase] at hstep
    cases hstep

lemma run_live {schedule : List (Thread × Bool)}
    (h : schedule.foldlM (step bound) start = some s) : Live bound s := by
  refine invariant_of_run (fun s x s' hs hstep => ?_) (start_live bound) h
  obtain ⟨thread, acquired⟩ := x
  cases thread with
  | producer => exact producerStep_live hs hstep
  | consumer => exact consumerStep_live hs hstep

/-- The steps up to the end of the producer. -/
def Producer.rank (bound : ℤ) : Producer → ℕ
  | test i => 4 * (bound - i).toNat + 1
  | lock i => 4 * (bound - i).toNat
  | push i => 4 * (bound - i).toNat - 1
  | unlock i => 4 * (bound - i).toNat - 2
  | returned => 0

/-- The steps up to the end of the critical section. -/
def Consumer.criticalRank : Consumer → ℕ
  | back _ => 3
  | pop _ _ => 2
  | unlock _ _ => 1
  | _ => 0

/-- The steps up to the end of the consumer, if each of its next polls gets a number. -/
def Consumer.rank (bound : ℤ) : Consumer → ℕ
  | test n => 6 * (bound - n).toNat + 1
  | lock n => 6 * (bound - n).toNat
  | back n => 6 * (bound - n).toNat - 1
  | pop n _ => 6 * (bound - n).toNat - 2
  | unlock n readElement =>
    if readElement = kInvalidElement then 6 * (bound - n).toNat + 3 else 6 * (bound - n).toNat - 3
  | report n readElement =>
    if readElement = kInvalidElement then 6 * (bound - n).toNat + 2 else 6 * (bound - n).toNat - 4
  | returned => 0

/-- The producer goes on when the consumer does not have the lock. -/
lemma producer_advances (h : Live bound s) (hproducer : s.producer ≠ .returned)
    (hlock : s.lock ≠ some .consumer) : ∃ s', producerStep bound s true = some s' ∧
      s'.producer.rank bound < s.producer.rank bound ∧ s'.consumer = s.consumer := by
  have hpushed := h.inv.pushed
  have hheld := h.held_by_producer
  unfold producerStep
  cases hcase : s.producer with
  | test i =>
    refine ⟨_, rfl, ?_, rfl⟩
    dsimp only
    split_ifs with hlt
    · simp [Producer.rank]
    · simp [Producer.rank]
  | lock i =>
    rw [hcase] at hpushed hheld
    obtain ⟨-, hlt, -⟩ := hpushed
    have hfree : s.lock = none := by
      match hcase' : s.lock with
      | none => rfl
      | some .producer => cases hheld hcase'
      | some .consumer => exact absurd hcase' hlock
    refine ⟨_, (if_pos rfl).trans (if_pos hfree), ?_, rfl⟩
    simp only [Producer.rank]
    omega
  | push i =>
    rw [hcase] at hpushed
    obtain ⟨-, hlt, -⟩ := hpushed
    refine ⟨_, rfl, ?_, rfl⟩
    simp only [Producer.rank]
    omega
  | unlock i =>
    rw [hcase] at hpushed
    obtain ⟨-, hlt, -⟩ := hpushed
    refine ⟨_, rfl, ?_, rfl⟩
    simp only [Producer.rank]
    omega
  | returned => exact absurd hcase hproducer

/-- The consumer that has the lock gives it back. -/
lemma consumer_leaves (h : Live bound s) (hlock : s.lock = some .consumer) :
    ∃ s', consumerStep bound s true = some s' ∧
      s'.consumer.criticalRank < s.consumer.criticalRank ∧ s'.producer = s.producer := by
  have hholds := h.held_by_consumer hlock
  unfold consumerStep
  cases hcase : s.consumer with
  | back n =>
    cases hlast : s.a.getLast? with
    | some element => exact ⟨_, rfl, by simp [Consumer.criticalRank], rfl⟩
    | none => exact ⟨_, rfl, by simp [Consumer.criticalRank], rfl⟩
  | pop n readElement => exact ⟨_, rfl, by simp [Consumer.criticalRank], rfl⟩
  | unlock n readElement => exact ⟨_, rfl, by simp [Consumer.criticalRank], rfl⟩
  | test n =>
    rw [hcase] at hholds
    cases hholds
  | lock n =>
    rw [hcase] at hholds
    cases hholds
  | report n readElement =>
    rw [hcase] at hholds
    cases hholds
  | returned =>
    rw [hcase] at hholds
    cases hholds

/-- After the producer there is a number left for each poll within the bound. -/
lemma a_ne_nil (h : Inv bound s) (hproducer : s.producer = .returned) {n : ℤ}
    (hconsumer : s.consumer = .back n) (hn : n < bound) : s.a ≠ [] := by
  have hpushed := h.pushed
  have hcounted := h.counted
  have hbalanced := h.balanced.length_eq
  rw [hproducer] at hpushed
  rw [hconsumer] at hcounted hbalanced
  simp only [Producer.Pushed] at hpushed
  simp only [Consumer.Counted] at hcounted
  simp only [hpushed, ints, Consumer.inHand, List.length_map, List.length_range, List.append_nil,
    List.length_append] at hbalanced
  intro hnil
  simp only [hnil, List.length_nil] at hbalanced
  omega

/-- When the producer has returned, the consumer goes on. -/
lemma consumer_advances (h : Live bound s) (hproducer : s.producer = .returned)
    (hconsumer : s.consumer ≠ .returned) : ∃ s', consumerStep bound s true = some s' ∧
      s'.consumer.rank bound < s.consumer.rank bound ∧ s'.producer = s.producer := by
  have hwithin := h.within
  have hheld := h.held_by_consumer
  unfold consumerStep
  cases hcase : s.consumer with
  | test n =>
    refine ⟨_, rfl, ?_, rfl⟩
    dsimp only
    split_ifs with hlt
    · simp [Consumer.rank]
    · simp [Consumer.rank]
  | lock n =>
    rw [hcase] at hwithin hheld
    have hlt : n < bound := hwithin
    have hfree : s.lock = none := by
      match hcase' : s.lock with
      | none => rfl
      | some .consumer => cases hheld hcase'
      | some .producer =>
        have hholds := h.held_by_producer hcase'
        rw [hproducer] at hholds
        cases hholds
    refine ⟨_, (if_pos rfl).trans (if_pos hfree), ?_, rfl⟩
    simp only [Consumer.rank]
    omega
  | back n =>
    rw [hcase] at hwithin
    have hlt : n < bound := hwithin
    have hne := a_ne_nil h.inv hproducer hcase hlt
    cases hlast : s.a.getLast? with
    | some element =>
      refine ⟨_, rfl, ?_, rfl⟩
      simp only [Consumer.rank]
      omega
    | none => exact absurd (List.getLast?_eq_none_iff.mp hlast) hne
  | pop n readElement =>
    rw [hcase] at hwithin
    have hlt : n < bound := hwithin
    have hvalid := h.inv.valid_eq (List.mem_of_getLast? (h.inv.last n readElement hcase))
    have hne : readElement ≠ kInvalidElement := by
      rintro rfl
      simp [valid] at hvalid
    refine ⟨_, rfl, ?_, rfl⟩
    simp only [Consumer.rank, hne, ↓reduceIte]
    omega
  | unlock n readElement =>
    rw [hcase] at hwithin
    have hlt : n < bound := hwithin
    refine ⟨_, rfl, ?_, rfl⟩
    simp only [Consumer.rank]
    split_ifs <;> omega
  | report n readElement =>
    rw [hcase] at hwithin
    have hlt : n < bound := hwithin
    by_cases hvalid : readElement ≠ kInvalidElement
    · refine ⟨_, if_pos hvalid, ?_, rfl⟩
      simp only [Consumer.rank, hvalid, ↓reduceIte]
      omega
    · refine ⟨_, if_neg hvalid, ?_, rfl⟩
      simp only [Consumer.rank, not_not.mp hvalid, ↓reduceIte]
      omega
  | returned => exact absurd hcase hconsumer

/-- First the producer finishes; the consumer only leaves its critical section. -/
lemma producer_finishes (h : Live bound s) : ∃ (schedule : List (Thread × Bool)) (s' : State),
    schedule.foldlM (step bound) s = some s' ∧ Live bound s' ∧ s'.producer = .returned := by
  refine exists_run_of_decreasing
    (fun s : State => s.producer.rank bound + s.consumer.criticalRank) (fun s hs hgoal => ?_) h
  by_cases hlock : s.lock = some .consumer
  · obtain ⟨s', hstep, hlt, hsame⟩ := consumer_leaves hs hlock
    exact ⟨(.consumer, true), s', hstep, consumerStep_live hs hstep, by rw [hsame]; omega⟩
  · obtain ⟨s', hstep, hlt, hsame⟩ := producer_advances hs hgoal hlock
    exact ⟨(.producer, true), s', hstep, producerStep_live hs hstep, by rw [hsame]; omega⟩

lemma consumer_finishes (h : Live bound s) (hproducer : s.producer = .returned) :
    ∃ (schedule : List (Thread × Bool)) (s' : State), schedule.foldlM (step bound) s = some s' ∧
      (Live bound s' ∧ s'.producer = .returned) ∧ s'.consumer = .returned := by
  refine exists_run_of_decreasing (P := fun s => Live bound s ∧ s.producer = .returned)
    (fun s : State => s.consumer.rank bound) (fun s hs hgoal => ?_) ⟨h, hproducer⟩
  obtain ⟨s', hstep, hlt, hsame⟩ := consumer_advances hs.1 hs.2 hgoal
  exact ⟨(.consumer, true), s', hstep, ⟨consumerStep_live hs.1 hstep, hsame.trans hs.2⟩, hlt⟩

/-- What was reported stays so. -/
lemma step_reported {x : Thread × Bool} (hstep : step bound s x = some s') :
    s.reported <+: s'.reported := by
  obtain ⟨thread, acquired⟩ := x
  cases thread with
  | producer =>
    simp only [step, producerStep] at hstep
    split at hstep
    · exact Option.some.inj hstep ▸ List.prefix_refl _
    · split_ifs at hstep <;> exact Option.some.inj hstep ▸ List.prefix_refl _
    · exact Option.some.inj hstep ▸ List.prefix_refl _
    · exact Option.some.inj hstep ▸ List.prefix_refl _
    · cases hstep
  | consumer =>
    simp only [step, consumerStep] at hstep
    split at hstep
    · exact Option.some.inj hstep ▸ List.prefix_refl _
    · split_ifs at hstep <;> exact Option.some.inj hstep ▸ List.prefix_refl _
    · split at hstep <;> exact Option.some.inj hstep ▸ List.prefix_refl _
    · exact Option.some.inj hstep ▸ List.prefix_refl _
    · exact Option.some.inj hstep ▸ List.prefix_refl _
    · split_ifs at hstep
      · exact Option.some.inj hstep ▸ List.prefix_append _ _
      · exact Option.some.inj hstep ▸ List.prefix_refl _
    · cases hstep

/-- Whatever happened so far, both threads can still return, with all numbers reported. -/
theorem can_finish (bound : ℤ) (schedule : List (Thread × Bool)) (s : State)
    (h : schedule.foldlM (step bound) start = some s) :
    ∃ (rest : List (Thread × Bool)) (last : State),
      rest.foldlM (step bound) s = some last ∧ last.producer = .returned ∧
      last.consumer = .returned ∧ last.reported.Perm (ints bound) ∧
      s.reported <+: last.reported := by
  obtain ⟨first, t, hfirst, ht, hproducer⟩ := producer_finishes (run_live h)
  obtain ⟨second, last, hsecond, ⟨hlast, hproducer⟩, hconsumer⟩ := consumer_finishes ht hproducer
  have hrest : (first ++ second).foldlM (step bound) s = some last := by
    rw [List.foldlM_append, hfirst]
    exact hsecond
  exact ⟨first ++ second, last, hrest, hproducer, hconsumer,
    (hlast.inv.all_reported hproducer hconsumer).1,
    invariant_of_run (P := fun t : State => s.reported <+: t.reported)
      (fun _ _ _ hs hstep => hs.trans (step_reported hstep)) (List.prefix_refl _) hrest⟩

/-- The consumer has the lock and found nothing; the producer waits for the lock. -/
def waiting : List (Thread × Bool) :=
  [(.consumer, true), (.consumer, true), (.producer, true), (.consumer, true)]

theorem can_finish_waiting : ∃ s, waiting.foldlM (step 2) start = some s ∧
    s.lock = some .consumer ∧ ∃ (rest : List (Thread × Bool)) (last : State),
      rest.foldlM (step 2) s = some last ∧ last.reported.Perm (ints 2) := by
  obtain ⟨s, hs, hlock⟩ : ∃ s, waiting.foldlM (step 2) start = some s ∧
      s.lock = some .consumer := ⟨_, rfl, rfl⟩
  obtain ⟨rest, last, hrest, -, -, hreported, -⟩ := can_finish 2 waiting s hs
  exact ⟨s, hs, hlock, rest, last, hrest, hreported⟩

end UnixProgramming.ProducerConsumer
