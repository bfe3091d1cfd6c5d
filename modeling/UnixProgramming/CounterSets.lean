import Mathlib

/-! Sets of bounded counters on which a list of operations takes effect as a whole or not at all,
as the semaphore sets of System V. -/
namespace UnixProgramming.CounterSets

/-- An operation on one counter: add, wait until the counter is zero, or subtract. -/
structure Operation where
  counter : ℕ
  amount : ℤ
  deriving DecidableEq, Repr

/-- What comes of a list of operations: new values, or it has to wait, or it is refused. -/
inductive Outcome
  | done (values : List ℕ)
  | waits
  | refused
  deriving DecidableEq, Repr

def perform (bound : ℕ) (values : List ℕ) : List Operation → Outcome
  | [] => .done values
  | operation :: operations =>
    match values[operation.counter]? with
    | none => .refused
    | some value =>
      if operation.amount = 0 then
        if value = 0 then perform bound values operations else .waits
      else if value + operation.amount < 0 then .waits
      else if (bound : ℤ) < value + operation.amount then .refused
      else
        perform bound (values.set operation.counter (value + operation.amount).toNat) operations

/-- One operation for each counter of a range. -/
def raises (amount : ℕ → ℕ) (first count : ℕ) : List Operation :=
  (List.range' first count).map fun i => ⟨i, amount i⟩

def raised (amount : ℕ → ℕ) (first count : ℕ) (values : List ℕ) : List ℕ :=
  values.mapIdx fun i value => if first ≤ i ∧ i < first + count then value + amount i else value

variable {bound : ℕ} {amount : ℕ → ℕ} {values : List ℕ} {first count : ℕ}

lemma raised_zero : raised amount first 0 values = values := by
  refine List.ext_getElem? fun i => ?_
  rw [raised, List.getElem?_mapIdx]
  cases values[i]? with
  | none => rfl
  | some value => simp [show ¬ (first ≤ i ∧ i < first) by omega]

lemma raised_set {value : ℕ} (h : values[first]? = some value) :
    raised amount (first + 1) count (values.set first (value + amount first)) =
      raised amount first (count + 1) values := by
  refine List.ext_getElem? fun i => ?_
  rw [raised, raised, List.getElem?_mapIdx, List.getElem?_mapIdx]
  obtain ⟨hlt, -⟩ := List.getElem?_eq_some_iff.mp h
  rcases eq_or_ne i first with rfl | hne
  · rw [List.getElem?_set_self hlt, h]
    simp
  · rw [List.getElem?_set_ne hne.symm]
    have hiff : first + 1 ≤ i ∧ i < first + 1 + count ↔
        first ≤ i ∧ i < first + (count + 1) := by omega
    simp only [hiff]

/-- Positive amounts are added to all counters of the range, or refused if one is exceeded. -/
lemma perform_raises (hpos : ∀ i, first ≤ i → 0 < amount i)
    (hlength : first + count ≤ values.length) :
    perform bound values (raises amount first count) =
      if ∀ i, first ≤ i → i < first + count → values.getD i 0 + amount i ≤ bound then
        .done (raised amount first count values)
      else .refused := by
  induction count generalizing first values with
  | zero =>
    rw [if_pos (by intro i hle hlt; omega), raised_zero]
    rfl
  | succ count ih =>
    obtain ⟨value, hvalue⟩ : ∃ value, values[first]? = some value :=
      ⟨_, List.getElem?_eq_getElem (by omega)⟩
    have hget : values.getD first 0 = value := by simp [List.getD, hvalue]
    have hamount := hpos first le_rfl
    rw [raises, List.range'_succ, List.map_cons, perform, hvalue]
    simp only
    rw [if_neg (by omega), if_neg (by omega)]
    by_cases hfits : value + amount first ≤ bound
    · rw [if_neg (by omega), show ((value : ℤ) + amount first).toNat = value + amount first by
        omega]
      have hlength' : first + 1 + count ≤ (values.set first (value + amount first)).length := by
        rw [List.length_set]
        omega
      have hrest := ih (fun i hle => hpos i (by omega)) hlength'
      rw [raises] at hrest
      rw [hrest, raised_set hvalue]
      refine if_congr ⟨fun h i hle hlt => ?_, fun h i hle hlt => ?_⟩ rfl rfl
      · rcases eq_or_ne i first with rfl | hne
        · rw [hget]
          exact hfits
        · have hi := h i (by omega) (by omega)
          rwa [List.getD, List.getElem?_set_ne hne.symm] at hi
      · have hi := h i (by omega) (by omega)
        rwa [List.getD, List.getElem?_set_ne (by omega)]
    · rw [if_pos (by omega), if_neg]
      intro h
      have hi := h first le_rfl (by omega)
      rw [hget] at hi
      exact hfits hi

end UnixProgramming.CounterSets
