import UnixProgramming.CounterSets
import UnixProgramming.ListUpdates
import UnixProgramming.StepRuns

/-! `sysv_semaphore.cpp`: any number of runs at once on the semaphore set of one key. -/
namespace UnixProgramming.SysvSemaphore
open CounterSets ListUpdates

def semsCnt : ℕ := 16

/-- The largest value of a semaphore. -/
def semvmx : ℕ := 32767

def buffers : List Operation := raises (fun idx => idx) 0 semsCnt

/-- The next call of a run, or how it ended. -/
inductive Place
  | semget
  | semop
  | exited (status : ℤ)
  deriving DecidableEq, Repr

structure State where
  set : Option (List ℕ)
  runs : List Place
  deriving DecidableEq, Repr

def start (initial : Option (List ℕ)) (n : ℕ) : State := ⟨initial, List.replicate n .semget⟩

/-- Which run makes its next call, and whether the environment lets it succeed. -/
structure Event where
  run : ℕ
  succeeds : Bool

def State.go (s : State) (i : ℕ) (place : Place) : State := { s with runs := s.runs.set i place }

def step (s : State) (event : Event) : Option State :=
  match s.runs[event.run]? with
  | some .semget =>
    if event.succeeds then
      match s.set with
      | none => some { s.go event.run .semop with set := some (List.replicate semsCnt 0) }
      | some values =>
        if semsCnt ≤ values.length then some (s.go event.run .semop)
        else some (s.go event.run (.exited (-1)))
    else some (s.go event.run (.exited (-1)))
  | some .semop =>
    match s.set with
    | none => none
    | some values =>
      if event.succeeds then
        match perform semvmx values buffers with
        | .done values' => some { s.go event.run (.exited 0) with set := some values' }
        | .waits => none
        | .refused => some (s.go event.run (.exited (-1)))
      else some (s.go event.run (.exited (-1)))
  | some (.exited _) => none
  | none => none

/-- The values after this many runs have succeeded. -/
def after (count : ℕ) (values : List ℕ) : List ℕ :=
  values.mapIdx fun i value => if i < semsCnt then value + i * count else value

/-- How many runs can succeed. -/
def capacity (values : List ℕ) : ℕ :=
  if values.getD 0 0 = 0 then
    (List.range' 1 (semsCnt - 1)).foldr (fun i c => min ((semvmx - values.getD i 0) / i) c) semvmx
  else 0

example : capacity (List.replicate semsCnt 0) = 2184 := by decide +kernel

variable {s s' : State} {event : Event} {values : List ℕ} {count : ℕ}

lemma le_foldr_min {f : ℕ → ℕ} {bound : ℕ} {l : List ℕ} :
    count ≤ l.foldr (fun i c => min (f i) c) bound ↔ count ≤ bound ∧ ∀ i ∈ l, count ≤ f i := by
  induction l with
  | nil => simp
  | cons i l ih =>
    rw [List.foldr_cons, le_min_iff, ih, List.forall_mem_cons]
    tauto

lemma le_capacity_iff (hzero : values.getD 0 0 = 0) (hbound : ∀ i, values.getD i 0 ≤ semvmx) :
    count ≤ capacity values ↔
      ∀ i, 1 ≤ i → i < semsCnt → values.getD i 0 + i * count ≤ semvmx := by
  rw [capacity, if_pos hzero, le_foldr_min]
  have hdiv : ∀ i, 1 ≤ i → (count ≤ (semvmx - values.getD i 0) / i ↔
      values.getD i 0 + i * count ≤ semvmx) := by
    intro i hi
    have hle := hbound i
    rw [Nat.le_div_iff_mul_le hi, Nat.le_sub_iff_add_le hle, mul_comm, add_comm]
  constructor
  · rintro ⟨-, h⟩ i hle hlt
    exact (hdiv i hle).mp (h i (by rw [List.mem_range'_1]; unfold semsCnt at *; omega))
  · intro h
    refine ⟨?_, fun i hi => ?_⟩
    · have hone := h 1 le_rfl (by decide)
      omega
    · rw [List.mem_range'_1] at hi
      exact (hdiv i hi.1).mpr (h i hi.1 (by unfold semsCnt at *; omega))

lemma getD_after {i : ℕ} (hlt : i < values.length) (hi : i < semsCnt) :
    (after count values).getD i 0 = values.getD i 0 + i * count := by
  rw [List.getD, List.getD, after, List.getElem?_mapIdx, List.getElem?_eq_getElem hlt]
  simp [hi]

lemma after_zero : after 0 values = values := by
  refine List.ext_getElem? fun i => ?_
  rw [after, List.getElem?_mapIdx]
  cases values[i]? <;> simp

lemma raised_after : raised (fun idx => idx) 1 (semsCnt - 1) (after count values) =
    after (count + 1) values := by
  refine List.ext_getElem? fun i => ?_
  rw [raised, after, after, List.getElem?_mapIdx, List.getElem?_mapIdx, List.getElem?_mapIdx,
    Option.map_map]
  refine congrArg (fun f => Option.map f values[i]?) (funext fun value => ?_)
  simp only [Function.comp_apply]
  by_cases hi : i < semsCnt
  · rw [if_pos hi, if_pos hi]
    rcases Nat.eq_zero_or_pos i with rfl | hpos
    · simp
    · rw [if_pos ⟨hpos, by omega⟩, Nat.mul_succ, Nat.add_assoc]
  · rw [if_neg hi, if_neg hi, if_neg (by omega)]

/-- What a run makes of the set when some runs have succeeded. -/
lemma perform_after (hlength : semsCnt ≤ values.length) (hbound : ∀ i, values.getD i 0 ≤ semvmx) :
    perform semvmx (after count values) buffers =
      if values.getD 0 0 = 0 then
        if count < capacity values then .done (after (count + 1) values) else .refused
      else .waits := by
  have hpos : 0 < semsCnt := by decide
  have hhead : (after count values)[0]? = some (values.getD 0 0) := by
    have hzero : (after count values).getD 0 0 = values.getD 0 0 + 0 * count :=
      getD_after (hpos.trans_le hlength) hpos
    rw [Nat.zero_mul, Nat.add_zero] at hzero
    have hlt : 0 < (after count values).length := by
      rw [after, List.length_mapIdx]
      omega
    rw [List.getElem?_eq_getElem hlt, ← hzero, List.getD, List.getElem?_eq_getElem hlt]
    rfl
  have hbuffers : buffers = ⟨0, 0⟩ :: raises (fun idx => idx) 1 (semsCnt - 1) := rfl
  rw [hbuffers, perform, hhead]
  simp only [if_true]
  by_cases hzero : values.getD 0 0 = 0
  · have hlength' : 1 + (semsCnt - 1) ≤ (after count values).length := by
      rw [after, List.length_mapIdx]
      unfold semsCnt at *
      omega
    rw [if_pos hzero, if_pos hzero, perform_raises (fun i hi => hi) hlength', raised_after]
    refine if_congr ?_ rfl rfl
    rw [← Nat.succ_le_iff, le_capacity_iff hzero hbound]
    refine forall_congr' fun i => forall_congr' fun hi => ?_
    constructor
    · intro h hlt
      have hfits := h (by omega)
      rw [getD_after (by omega) hlt] at hfits
      rw [Nat.mul_succ]
      omega
    · intro h hlt
      have hi' : i < semsCnt := by omega
      have hfits := h hi'
      rw [Nat.mul_succ] at hfits
      rw [getD_after (by omega) hi']
      omega
  · rw [if_neg hzero, if_neg hzero]

def Place.succeeded (place : Place) : Bool := place = .exited 0

def State.successes (s : State) : ℕ := s.runs.countP Place.succeeded

/-- The set that the runs find, or that the first of them makes. -/
def found (initial : Option (List ℕ)) : List ℕ := initial.getD (List.replicate semsCnt 0)

structure Inv (values : List ℕ) (s : State) : Prop where
  set : ∀ current, s.set = some current → current = after s.successes values
  fresh : s.set = none → values = List.replicate semsCnt 0 ∧ s.successes = 0
  fits : s.successes ≤ capacity values

lemma start_successes (initial : Option (List ℕ)) (n : ℕ) : (start initial n).successes = 0 :=
  List.countP_eq_zero.mpr fun place hmem => by
    rw [List.eq_of_mem_replicate hmem]
    decide

lemma start_inv (initial : Option (List ℕ)) (n : ℕ) : Inv (found initial) (start initial n) where
  set current hcurrent := by
    rw [start_successes, after_zero, found, show initial = some current from hcurrent]
    rfl
  fresh hnone := ⟨by rw [found, show initial = none from hnone]; rfl, start_successes initial n⟩
  fits := by rw [start_successes]; exact Nat.zero_le _

/-- The ways to take a step. -/
inductive Stepped (s : State) : Event → State → Prop
  | created {i : ℕ} (hat : s.runs[i]? = some .semget) (hset : s.set = none) :
    Stepped s ⟨i, true⟩ { s.go i .semop with set := some (List.replicate semsCnt 0) }
  | got {i : ℕ} {current : List ℕ} (hat : s.runs[i]? = some .semget)
    (hset : s.set = some current) (hlength : semsCnt ≤ current.length) :
    Stepped s ⟨i, true⟩ (s.go i .semop)
  | getFailed {i : ℕ} {succeeds : Bool} (hat : s.runs[i]? = some .semget)
    (hwhy : succeeds = false ∨ ∃ current, s.set = some current ∧ current.length < semsCnt) :
    Stepped s ⟨i, succeeds⟩ (s.go i (.exited (-1)))
  | operated {i : ℕ} {current values' : List ℕ} (hat : s.runs[i]? = some .semop)
    (hset : s.set = some current) (hdone : perform semvmx current buffers = .done values') :
    Stepped s ⟨i, true⟩ { s.go i (.exited 0) with set := some values' }
  | opFailed {i : ℕ} {succeeds : Bool} {current : List ℕ} (hat : s.runs[i]? = some .semop)
    (hset : s.set = some current)
    (hwhy : succeeds = false ∨ perform semvmx current buffers = .refused) :
    Stepped s ⟨i, succeeds⟩ (s.go i (.exited (-1)))

lemma stepped_of_step (h : step s event = some s') : Stepped s event s' := by
  obtain ⟨i, succeeds⟩ := event
  unfold step at h
  split at h
  · next hat =>
    cases succeeds with
    | false =>
      simp only [Bool.false_eq_true, if_false] at h
      exact Option.some.inj h ▸ .getFailed hat (.inl rfl)
    | true =>
      simp only [if_true] at h
      split at h
      · next hset => exact Option.some.inj h ▸ .created hat hset
      · next current hset =>
        split_ifs at h with hlength
        · exact Option.some.inj h ▸ .got hat hset hlength
        · exact Option.some.inj h ▸ .getFailed hat (.inr ⟨current, hset, by omega⟩)
  · next hat =>
    split at h
    · cases h
    · next current hset =>
      cases succeeds with
      | false =>
        simp only [Bool.false_eq_true, if_false] at h
        exact Option.some.inj h ▸ .opFailed hat hset (.inl rfl)
      | true =>
        simp only [if_true] at h
        split at h
        · next values' hdone => exact Option.some.inj h ▸ .operated hat hset hdone
        · cases h
        · next hrefused => exact Option.some.inj h ▸ .opFailed hat hset (.inr hrefused)
  · cases h
  · cases h

lemma successes_go {i : ℕ} {place : Place} (hat : s.runs[i]? = some place)
    (hbefore : place.succeeded = false) (next : Place) :
    (s.go i next).successes = s.successes + next.succeeded.toNat := by
  have hcount := countP_set_add hat Place.succeeded next
  rw [hbefore] at hcount
  exact hcount

/-- A run goes on and leaves the set as it is. -/
lemma Inv.go (h : Inv values s) {i : ℕ} {place next : Place} (hat : s.runs[i]? = some place)
    (hbefore : place.succeeded = false) (hnext : next.succeeded = false) :
    Inv values (s.go i next) := by
  have hsame : (s.go i next).successes = s.successes := by
    rw [successes_go hat hbefore, hnext]
    rfl
  refine ⟨?_, ?_, ?_⟩
  · rw [hsame]
    exact h.set
  · rw [hsame]
    exact h.fresh
  · rw [hsame]
    exact h.fits

lemma step_inv (hlength : semsCnt ≤ values.length) (hbound : ∀ i, values.getD i 0 ≤ semvmx)
    (h : Inv values s) (hstep : step s event = some s') : Inv values s' := by
  cases stepped_of_step hstep with
  | created hat hset =>
    obtain ⟨hvalues, hnone⟩ := h.fresh hset
    have hsame := successes_go hat rfl .semop
    rw [hnone] at hsame
    refine ⟨fun current hcurrent => ?_, by simp, ?_⟩
    · rw [← Option.some.inj hcurrent, hvalues]
      change _ = after (s.go _ .semop).successes _
      rw [hsame]
      exact after_zero.symm
    · change (s.go _ .semop).successes ≤ _
      rw [hsame]
      exact Nat.zero_le _
  | got hat hset hlength => exact h.go hat rfl rfl
  | getFailed hat hwhy => exact h.go hat rfl rfl
  | @operated i current values' hat hset hdone =>
    obtain rfl := h.set current hset
    rw [perform_after hlength hbound] at hdone
    split_ifs at hdone with hzero hroom
    obtain rfl := Outcome.done.inj hdone
    have hmore : (s.go i (.exited 0)).successes = s.successes + 1 := successes_go hat rfl _
    refine ⟨fun current hcurrent => ?_, by simp, ?_⟩
    · rw [← Option.some.inj hcurrent]
      change _ = after (s.go i (.exited 0)).successes _
      rw [hmore]
    · change (s.go i (.exited 0)).successes ≤ _
      rw [hmore]
      exact hroom
  | opFailed hat hset hwhy => exact h.go hat rfl rfl

/-- Without a failing call, a run is only refused when the set is full. -/
structure Exact (values : List ℕ) (s : State) : Prop where
  statuses : ∀ place ∈ s.runs, ∀ status, place = .exited status → status = 0 ∨ status = -1
  full : .exited (-1) ∈ s.runs → s.successes = capacity values

/-- A run goes on, and none is refused. -/
lemma Exact.go (h : Exact values s) {i : ℕ} {place next : Place} {set : Option (List ℕ)}
    (hat : s.runs[i]? = some place) (hbefore : place.succeeded = false)
    (hnext : next.succeeded = false) (hstatus : ∀ status, next ≠ .exited status) :
    Exact values { s.go i next with set := set } where
  statuses := forall_mem_set h.statuses fun status hexited => absurd hexited (hstatus status)
  full hmem := by
    have hsame := successes_go hat hbefore next
    rw [hnext] at hsame
    rcases List.mem_or_eq_of_mem_set hmem with hold | hnew
    · exact hsame.trans (h.full hold)
    · exact absurd hnew.symm (hstatus _)

lemma step_exact (hlength : semsCnt ≤ values.length) (hbound : ∀ i, values.getD i 0 ≤ semvmx)
    (hinv : Inv values s) (h : Exact values s) (hsucceeds : event.succeeds = true)
    (hstep : step s event = some s') : Exact values s' := by
  cases stepped_of_step hstep with
  | created hat hset => exact h.go hat rfl rfl (by simp)
  | got hat hset hlength => exact h.go hat rfl rfl (by simp)
  | getFailed hat hwhy =>
    rcases hwhy with rfl | ⟨current, hset, hshort⟩
    · cases hsucceeds
    · rw [hinv.set current hset, after, List.length_mapIdx] at hshort
      omega
  | @operated i current values' hat hset hdone =>
    obtain rfl := hinv.set current hset
    rw [perform_after hlength hbound] at hdone
    split_ifs at hdone with hzero hroom
    refine ⟨forall_mem_set h.statuses (by simp), fun hmem => ?_⟩
    rcases List.mem_or_eq_of_mem_set hmem with hold | hnew
    · exact absurd (h.full hold) hroom.ne
    · cases hnew
  | @opFailed i succeeds current hat hset hwhy =>
    have hsame : (s.go i (.exited (-1))).successes = s.successes := successes_go hat rfl _
    refine ⟨forall_mem_set h.statuses (by simp), fun _ => hsame.trans ?_⟩
    rcases hwhy with rfl | hrefused
    · cases hsucceeds
    · obtain rfl := hinv.set current hset
      rw [perform_after hlength hbound] at hrefused
      split_ifs at hrefused with hzero hroom
      exact le_antisymm hinv.fits (not_lt.mp hroom)

lemma step_replaced (hstep : step s event = some s') : Replaced s.runs s'.runs := by
  cases stepped_of_step hstep with
  | _ => exact ⟨_, _, rfl⟩

lemma getD_le (h : ∀ value ∈ values, value ≤ semvmx) (i : ℕ) : values.getD i 0 ≤ semvmx := by
  rw [List.getD]
  cases hi : values[i]? with
  | none => exact Nat.zero_le _
  | some value => exact h value (List.mem_of_getElem? hi)

/-- Each successful run has added every semaphore's number to it, in whatever order the runs take
their steps, and a run that fails has changed nothing. If no call fails, as many runs succeed
as the set has room for. -/
theorem successes_exact (initial : Option (List ℕ)) (n : ℕ)
    (hlength : semsCnt ≤ (found initial).length)
    (hvalues : ∀ value ∈ found initial, value ≤ semvmx) (schedule : List Event)
    (h : schedule.foldlM step (start initial n) = some s) :
    (∀ current, s.set = some current → current = after s.successes (found initial)) ∧
    s.successes ≤ capacity (found initial) ∧
    ((∀ event ∈ schedule, event.succeeds = true) →
      (∀ place ∈ s.runs, ∃ status, place = .exited status) →
      s.successes = min n (capacity (found initial))) := by
  have hbound := getD_le hvalues
  have hinv : Inv (found initial) s :=
    StepRuns.invariant_of_run (fun _ _ _ hs hstep => step_inv hlength hbound hs hstep)
      (start_inv initial n) h
  refine ⟨hinv.set, hinv.fits, fun hsucceed hended => ?_⟩
  let P : State → Prop := fun s => Inv (found initial) s ∧ Exact (found initial) s
  have hstart : P (start initial n) := by
    have hplace : ∀ place ∈ (start initial n).runs, place = .semget :=
      fun place hmem => List.eq_of_mem_replicate hmem
    refine ⟨start_inv initial n, fun place hmem status hexited => ?_, fun hmem => ?_⟩
    · rw [hplace place hmem] at hexited
      cases hexited
    · cases hplace _ hmem
  have hstep : ∀ s event s', P s → event.succeeds = true → step s event = some s' → P s' :=
    fun s event s' hs hgood hstep => ⟨step_inv hlength hbound hs.1 hstep,
      step_exact hlength hbound hs.1 hs.2 hgood hstep⟩
  have hexact := (StepRuns.invariant_of_good_run hstep hstart hsucceed h).2
  have hn : s.runs.length = n :=
    (length_eq_of_run (fun _ _ _ => step_replaced) h).trans List.length_replicate
  have hle : s.successes ≤ n := hn ▸ List.countP_le_length
  by_cases hrefused : .exited (-1) ∈ s.runs
  · rw [hexact.full hrefused] at hle ⊢
    exact (min_eq_right hle).symm
  · have hall : s.successes = n := by
      rw [← hn]
      refine List.countP_eq_length.mpr fun place hmem => ?_
      obtain ⟨status, rfl⟩ := hended place hmem
      rcases hexact.statuses _ hmem status rfl with rfl | rfl
      · rfl
      · exact absurd hmem hrefused
    rw [hall, min_eq_left (hall ▸ hinv.fits)]

/-- Values that leave room for two more runs. -/
def nearlyFull : List ℕ := 0 :: List.replicate 15 32737

def threeRuns : List Event :=
  [⟨0, true⟩, ⟨1, true⟩, ⟨1, true⟩, ⟨2, true⟩, ⟨2, true⟩, ⟨0, true⟩]

theorem successes_exact_three : ∃ s, threeRuns.foldlM step (start (some nearlyFull) 3) = some s ∧
    s.runs = [.exited (-1), .exited 0, .exited 0] ∧ s.successes = min 3 (capacity nearlyFull) := by
  obtain ⟨s, hs, hruns⟩ : ∃ s, threeRuns.foldlM step (start (some nearlyFull) 3) = some s ∧
      s.runs = [.exited (-1), .exited 0, .exited 0] := ⟨_, rfl, by decide +kernel⟩
  have hexact := successes_exact (some nearlyFull) 3 (by decide) (by decide) threeRuns hs
  exact ⟨s, hs, hruns, hexact.2.2 (by decide) (by simp [hruns])⟩

end UnixProgramming.SysvSemaphore
