import UnixProgramming.PrefixSumOrder

/-! What the doubling computes. Before step `s` the element at `k` is the sum of the
window of `2^s` elements that ends at `k`, cut off at the start of the array. -/
namespace UnixProgramming.PrefixSum
open MachineInt

section Windows

variable {M : Type} [AddCommMonoid M]

/-- The sum of the `width` elements ending at `k`. -/
def windowSum (a : List M) (width k : ℕ) : M :=
  ∑ j ∈ Finset.Ico (k + 1 - width) (k + 1), a.getD j 0

/-- Every element is the sum of its window. -/
def HoldsWindows (a : List M) (width : ℕ) (v : List M) : Prop :=
  v.length = a.length ∧ ∀ k < a.length, v.getD k 0 = windowSum a width k

lemma holdsWindows_start (a : List M) : HoldsWindows a 1 a := by
  refine ⟨rfl, fun k _ => ?_⟩
  simp [windowSum]

/-- Two windows next to each other make up one of twice the width. -/
lemma windowSum_double (a : List M) {width k : ℕ} (h : width ≤ k) :
    windowSum a (2 * width) k = windowSum a width k + windowSum a width (k - width) := by
  have hfirst : k + 1 - 2 * width = k - width + 1 - width := by omega
  have hmiddle : k + 1 - width = k - width + 1 := by omega
  rw [add_comm, windowSum, windowSum, windowSum, hfirst, hmiddle]
  exact (Finset.sum_Ico_consecutive _ (by omega) (by omega)).symm

/-- A window that reaches the start of the array does not grow. -/
lemma windowSum_of_lt (a : List M) {width width' k : ℕ} (h : k < width) (h' : k < width') :
    windowSum a width' k = windowSum a width k := by
  have hstart : k + 1 - width' = k + 1 - width := by omega
  rw [windowSum, windowSum, hstart]

lemma getD_shiftedSum (v : List M) {shift k : ℕ} (hk : k < v.length) :
    (shiftedSum (· + ·) v shift (List.range (v.length - shift)) v).getD k 0 =
      if shift ≤ k then v.getD k 0 + v.getD (k - shift) 0 else v.getD k 0 := by
  have hrange : shift ≤ k → k - shift < v.length - shift := by omega
  have hsource : k - shift < v.length := by omega
  by_cases hs : shift ≤ k
  · simp [shiftedSum, hk, hs, hrange hs, hsource]
  · simp [shiftedSum, hk, hs]

lemma HoldsWindows.double {a v : List M} {width : ℕ} (h : HoldsWindows a width v) :
    HoldsWindows a (2 * width)
      (shiftedSum (· + ·) v width (List.range (a.length - width)) v) := by
  obtain ⟨hlength, hsums⟩ := h
  refine ⟨by simpa using hlength, fun k hk => ?_⟩
  rw [← hlength, getD_shiftedSum v (hlength ▸ hk)]
  split_ifs with hs
  · rw [hsums k hk, hsums (k - width) (by omega), windowSum_double a hs]
  · rw [hsums k hk]
    exact windowSum_of_lt a (by omega) (by omega)

/-- From step `s` on the loop ends with windows that all reach the start. -/
lemma doubling_windows (o : Order) {a v : List M} {step : ℕ} (hn : a.length ≤ 2^30)
    (hstep : step ≤ 30) (h : HoldsWindows a (2^step) v) :
    ∃ r width, doubling (fun x y => .ok (x + y)) o.order a.length step v v = .ok r ∧
      a.length ≤ width ∧ HoldsWindows a width r := by
  induction hd : 30 - step generalizing step v with
  | zero =>
    obtain rfl : step = 30 := by omega
    exact ⟨v, 2^30, doubling_stop v v le_rfl hn, hn, h⟩
  | succ d ih =>
    by_cases hlt : 2^step < a.length
    · have hnext := h.double
      rw [← pow_succ'] at hnext
      obtain ⟨r, width, hr, hwidth, hsums⟩ := ih (lt_thirty hn hlt) hnext (by omega)
      exact ⟨r, width,
        (doubling_step o (by omega) hstep hlt h.1 h.1 addsTo_total).trans hr, hwidth, hsums⟩
    · exact ⟨v, 2^step, doubling_stop v v hstep (not_lt.mp hlt), not_lt.mp hlt, h⟩

lemma sum_range_getD (a : List M) {n : ℕ} (hn : n ≤ a.length) :
    ∑ j ∈ Finset.range n, a.getD j 0 = (a.take n).sum := by
  induction n with
  | zero => simp
  | succ n ih =>
    rw [Finset.sum_range_succ, ih (by omega), List.sum_take_succ a n hn,
      List.getD_eq_getElem a 0 hn]

lemma windowSum_eq_sum_take (a : List M) {width k : ℕ} (hk : k < a.length) (h : k < width) :
    windowSum a width k = (a.take (k + 1)).sum := by
  have hstart : k + 1 - width = 0 := by omega
  rw [windowSum, hstart, Nat.Ico_zero_eq_range, sum_range_getD a hk]

end Windows

/-- `prefSum` returns the sums of the first elements, without an index out of bounds. -/
theorem prefSum_eq_sums (a : List (BitVec 32)) (h : a.length ≤ 2^30) :
    ∃ r, prefSum wrapAdd a = .ok r ∧ r.length = a.length ∧
      ∀ k, (hk : k < r.length) → r[k] = (a.take (k + 1)).sum := by
  have hn : toInt a.length = a.length := toInt_natCast (by omega)
  obtain ⟨r, width, hr, hwidth, hlength, hsums⟩ :=
    doubling_windows Order.sequential h (Nat.zero_le 30) (holdsWindows_start a)
  rw [← hn] at hr
  refine ⟨r, hr, hlength, fun k hk => ?_⟩
  have hka : k < a.length := hlength ▸ hk
  rw [← windowSum_eq_sum_take a hka (hka.trans_le hwidth), ← hsums k hka]
  simp [hk]

theorem prefSum_eq_sums_wrapping : ∃ r, prefSum wrapAdd [1, 2, 4294967295] = .ok r ∧
    r.length = 3 ∧ ∀ k, (hk : k < r.length) →
      r[k] = (([1, 2, 4294967295] : List (BitVec 32)).take (k + 1)).sum :=
  prefSum_eq_sums [1, 2, 4294967295] (by decide)

end UnixProgramming.PrefixSum
