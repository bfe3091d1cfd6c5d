import UnixProgramming.PrefixSumOrder

/-! The index arithmetic of the doubling loop. It is safe as long as some power of two
that an `int` can hold reaches the length. -/
namespace UnixProgramming.PrefixSum
open MachineInt

variable {α : Type}

/-- The steps at which the condition of the loop is evaluated. -/
inductive Evaluates (n : ℤ) : ℕ → Prop
  | start : Evaluates n 0
  | next {step : ℕ} (h : Evaluates n step) (hlt : shiftOne step < n) : Evaluates n (step + 1)

/-- The loop ends without a fault, so every index is in bounds, and the shifts that it
evaluates and their differences to the length are representable. -/
structure IndexSafe (run : Except Fault (List α)) (n : ℤ) : Prop where
  returns : ∃ r, run = .ok r
  shifts : ∀ step, Evaluates n step → IsInt (2^step)
  differences : ∀ step, Evaluates n step → IsInt (n - 2^step)

lemma Evaluates.le_thirty {n step : ℕ} (hn : n ≤ 2^30) (h : Evaluates n step) : step ≤ 30 := by
  induction h with
  | start => exact Nat.zero_le 30
  | next _ hlt ih =>
    rw [shiftOne_eq ih] at hlt
    exact lt_thirty hn (by exact_mod_cast hlt)

lemma two_pow_bounds {step : ℕ} (h : step ≤ 30) : 0 < (2 : ℤ)^step ∧ (2 : ℤ)^step ≤ 2^30 :=
  ⟨by positivity, pow_le_pow_right₀ (by norm_num) h⟩

/-- Beyond the largest power of two the shift wraps to the least `int`, and the
difference to the length overflows. -/
lemma doubling_wraps (add : α → α → Except Fault α) (order : ℕ → ℕ → List ℕ) {n : ℕ}
    (prev cur : List α) (hn : 0 < n) :
    doubling add order n 31 prev cur = .error .intOverflow := by
  have hshift : shiftOne 31 = -2^31 := by decide
  have hcond : shiftOne 31 < (n : ℤ) := by rw [hshift]; omega
  have hbound : checked Fault.intOverflow ((n : ℤ) - shiftOne 31) = .error .intOverflow := by
    refine if_neg fun h => ?_
    have := h.2
    rw [hshift] at this
    omega
  rw [doubling, if_pos (by norm_num), if_pos hcond, hbound]
  rfl

lemma doubling_overflow (plus : α → α → α) (o : Order) {n step : ℕ} {prev cur : List α}
    (hn : 2^30 < n) (hn' : n < 2^31) (hstep : step ≤ 31) (hprev : prev.length = n)
    (hcur : cur.length = n) :
    doubling (fun x y => .ok (plus x y)) o.order n step prev cur = .error .intOverflow := by
  induction hd : 31 - step generalizing step prev cur with
  | zero =>
    obtain rfl : step = 31 := by omega
    exact doubling_wraps _ _ prev cur (by omega)
  | succ d ih =>
    have hle : step ≤ 30 := by omega
    have hlt : 2^step < n := (Nat.pow_le_pow_right (by norm_num) hle).trans_lt hn
    rw [doubling_step o hn' hle hlt hprev hcur addsTo_total]
    exact ih (by omega) (by simpa using hcur) (by simpa using hcur) (by omega)

lemma indexSafe_iff (plus : α → α → α) (o : Order) (a : List α) (h : a.length ≤ 2^31 - 1) :
    IndexSafe (doubling (fun x y => .ok (plus x y)) o.order (toInt a.length) 0 a a)
      (toInt a.length) ↔ a.length ≤ 2^30 := by
  rw [toInt_natCast (by omega)]
  constructor
  · rintro ⟨⟨r, hr⟩, _, _⟩
    by_contra hlt
    rw [doubling_overflow plus o (by omega) (by omega) (Nat.zero_le 31) rfl rfl] at hr
    cases hr
  · intro hle
    obtain ⟨r, hr⟩ := doubling_ok plus hle (Nat.zero_le 30) rfl rfl
    have hpow := fun step (hs : Evaluates a.length step) => two_pow_bounds (hs.le_thirty hle)
    refine ⟨⟨r, hr o⟩, fun step hs => ?_, fun step hs => ?_⟩
    · obtain ⟨hpos, hmax⟩ := hpow step hs
      constructor <;> omega
    · obtain ⟨hpos, hmax⟩ := hpow step hs
      constructor <;> omega

/-- The index arithmetic is safe exactly up to the largest power of two in an `int`. -/
theorem indexSafe_iff_length_le (a : List (BitVec 32)) (h : a.length ≤ 2^31 - 1) (o : Order)
    (threadsCnt : ℤ) :
    (IndexSafe (prefSum wrapAdd a) (toInt a.length) ↔ a.length ≤ 2^30) ∧
      (IndexSafe (prefSumParallelAlgorithm wrapAdd o a threadsCnt) (toInt a.length) ↔
        a.length ≤ 2^30) :=
  ⟨indexSafe_iff (fun x y : BitVec 32 => x + y) Order.sequential a h,
    indexSafe_iff (fun x y : BitVec 32 => x + y) o a h⟩

theorem indexSafe_iff_length_le_three :
    (IndexSafe (prefSum wrapAdd [1, 2, 3]) (toInt ([1, 2, 3] : List (BitVec 32)).length) ↔
        ([1, 2, 3] : List (BitVec 32)).length ≤ 2^30) ∧
      (IndexSafe (prefSumParallelAlgorithm wrapAdd Order.sequential [1, 2, 3] 2)
          (toInt ([1, 2, 3] : List (BitVec 32)).length) ↔
        ([1, 2, 3] : List (BitVec 32)).length ≤ 2^30) :=
  indexSafe_iff_length_le [1, 2, 3] (by decide) Order.sequential 2

theorem prefSum_overflows_of_length :
    prefSum wrapAdd (List.replicate (2^30 + 1) 0) = .error .intOverflow ∧
      prefSumParallelAlgorithm wrapAdd Order.sequential (List.replicate (2^30 + 1) 0) 2 =
        .error .intOverflow := by
  have hrun : ∀ a : List (BitVec 32), a.length = 2^30 + 1 →
      doubling wrapAdd Order.sequential.order (toInt a.length) 0 a a = .error .intOverflow := by
    intro a ha
    rw [toInt_natCast (by omega)]
    exact doubling_overflow (fun x y : BitVec 32 => x + y) Order.sequential (by omega) (by omega)
      (Nat.zero_le 31) rfl rfl
  have hlength := List.length_replicate (n := 2^30 + 1) (a := (0 : BitVec 32))
  exact ⟨hrun _ hlength, hrun _ hlength⟩

end UnixProgramming.PrefixSum
