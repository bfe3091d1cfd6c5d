import UnixProgramming.Histories

/-! A shared counter that threads increment in two steps, a load and a store of the
successor. An increment is lost exactly when another thread stores in between. -/
namespace UnixProgramming.SharedCounter

variable {ι : Type*}

inductive Access (ι : Type*)
  | load (thread : ι)
  | store (thread : ι)
  deriving DecidableEq, Repr

/-- The counter, and what each thread loaded last. -/
structure Memory (ι : Type*) where
  value : ℤ
  register : ι → ℤ

def Memory.access [DecidableEq ι] (m : Memory ι) : Access ι → Memory ι
  | .load thread => { m with register := Function.update m.register thread m.value }
  | .store thread => { m with value := m.register thread + 1 }

def after [DecidableEq ι] (init : ℤ) (history : List (Access ι)) : Memory ι :=
  history.foldl Memory.access ⟨init, fun _ => init⟩

def Access.isStore : Access ι → Bool
  | load _ => false
  | store _ => true

def stores (history : List (Access ι)) : ℕ := history.countP Access.isStore

def Access.countSince [DecidableEq ι] (thread : ι) (n : ℕ) : Access ι → ℕ
  | load x => if x = thread then 0 else n
  | store _ => n + 1

/-- The number of stores since a thread loaded last. -/
def storesSince [DecidableEq ι] (thread : ι) (history : List (Access ι)) : ℕ :=
  history.foldl (Access.countSince thread) 0

/-- No thread stores between the load and the store of another one. -/
def Serial [DecidableEq ι] (history : List (Access ι)) : Prop :=
  EachAllowed (fun past access => ∀ thread, access = .store thread → storesSince thread past = 0)
    history

variable {init : ℤ} {history : List (Access ι)} {thread : ι}

@[simp] lemma stores_load : stores (history ++ [.load thread]) = stores history := by
  simp [stores, Access.isStore]

@[simp] lemma stores_store : stores (history ++ [.store thread]) = stores history + 1 := by
  simp [stores, Access.isStore]

variable [DecidableEq ι]

lemma after_snoc (init : ℤ) (history : List (Access ι)) (access : Access ι) :
    after init (history ++ [access]) = (after init history).access access := by
  simp [after]

@[simp] lemma storesSince_load (x : ι) : storesSince thread (history ++ [.load x]) =
    if x = thread then 0 else storesSince thread history := by
  simp [storesSince, Access.countSince]

@[simp] lemma storesSince_store (x : ι) :
    storesSince thread (history ++ [.store x]) = storesSince thread history + 1 := by
  simp [storesSince, Access.countSince]

lemma serial_nil : Serial ([] : List (Access ι)) := eachAllowed_nil

lemma serial_load : Serial (history ++ [.load thread]) ↔ Serial history := by
  simp [Serial, eachAllowed_snoc]

lemma serial_store : Serial (history ++ [.store thread]) ↔
    Serial history ∧ storesSince thread history = 0 := by
  simp [Serial, eachAllowed_snoc]

/-- What a thread loaded is behind by the stores since then at least. -/
structure Bounded (init : ℤ) (history : List (Access ι)) : Prop where
  value : (after init history).value ≤ init + stores history
  register : ∀ thread, (after init history).register thread + storesSince thread history ≤
    init + stores history
  fresh : ∀ thread, storesSince thread history = 0 →
    (after init history).register thread = (after init history).value
  grown : init ≤ (after init history).value ∧ ∀ thread, init ≤ (after init history).register thread

lemma bounded (init : ℤ) (history : List (Access ι)) : Bounded init history := by
  induction history using List.reverseRecOn with
  | nil => constructor <;> simp [after, stores, storesSince]
  | append_singleton history access ih =>
    obtain ⟨hvalue, hregister, hfresh, hgrown⟩ := ih
    cases access with
    | load x =>
      refine ⟨?_, fun thread => ?_, fun thread => ?_, ?_, fun thread => ?_⟩
      · simpa [after_snoc, Memory.access] using hvalue
      · by_cases hx : x = thread
        · subst hx
          simpa [after_snoc, Memory.access] using hvalue
        · simpa [after_snoc, Memory.access, hx, Function.update_of_ne (Ne.symm hx)]
            using hregister thread
      · by_cases hx : x = thread
        · subst hx
          simp [after_snoc, Memory.access]
        · simpa [after_snoc, Memory.access, hx, Function.update_of_ne (Ne.symm hx)]
            using hfresh thread
      · simpa [after_snoc, Memory.access] using hgrown.1
      · by_cases hx : x = thread
        · subst hx
          simpa [after_snoc, Memory.access] using hgrown.1
        · simpa [after_snoc, Memory.access, Function.update_of_ne (Ne.symm hx)]
            using hgrown.2 thread
    | store x =>
      have hx := hregister x
      refine ⟨?_, fun thread => ?_, by simp, ?_, ?_⟩
      · simp only [after_snoc, Memory.access, stores_store, Nat.cast_add, Nat.cast_one]
        omega
      · have := hregister thread
        simp only [after_snoc, Memory.access, stores_store, storesSince_store, Nat.cast_add,
          Nat.cast_one]
        omega
      · have := hgrown.2 x
        simp only [after_snoc, Memory.access]
        omega
      · simpa [after_snoc, Memory.access] using hgrown.2

/-- No increment is lost exactly when the increments do not overlap. -/
theorem value_eq_iff_serial (init : ℤ) (history : List (Access ι)) :
    (after init history).value = init + stores history ↔ Serial history := by
  induction history using List.reverseRecOn with
  | nil => simp [after, stores, serial_nil]
  | append_singleton history access ih =>
    cases access with
    | load x => simpa [after_snoc, Memory.access, serial_load] using ih
    | store x =>
      have hregister := (bounded init history).register x
      have hfresh := (bounded init history).fresh x
      simp only [after_snoc, Memory.access, stores_store, Nat.cast_add, Nat.cast_one, serial_store,
        ← ih]
      constructor
      · intro heq
        have hzero : storesSince x history = 0 := by omega
        exact ⟨by rw [← hfresh hzero]; omega, hzero⟩
      · rintro ⟨hvalue, hzero⟩
        rw [hfresh hzero, hvalue, add_assoc]

lemma value_pos (init : ℤ) (history : List (Access ι)) (h : 0 < stores history) :
    init < (after init history).value := by
  induction history using List.reverseRecOn with
  | nil => simp [stores] at h
  | append_singleton history access ih =>
    cases access with
    | load x => simpa [after_snoc, Memory.access] using ih (by simpa using h)
    | store x =>
      have hgrown := (bounded init history).grown.2 x
      simp only [after_snoc, Memory.access]
      omega

end UnixProgramming.SharedCounter
