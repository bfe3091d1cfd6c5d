import UnixProgramming.PrefixSumWindows

/-! Which additions of elements overflow. A window that is cut off at the start of the
array adds up to a prefix sum, but the full windows of a step do not. -/
namespace UnixProgramming.PrefixSum
open MachineInt

def checkedAdd (x y : ℤ) : Except Fault ℤ := checked Fault.intOverflow (x + y)

/-- The sums that the loop forms at a step are representable. -/
def StepFits (a : List ℤ) (step : ℕ) : Prop :=
  ∀ k, 2^step ≤ k → k < a.length → IsInt (windowSum a (2^(step + 1)) k)

lemma innerLoop_add {α : Type} {add : α → α → Except Fault α} {prev cur r : List α} {shift : ℕ}
    {l : List ℕ} (hl : l.Nodup) (hlen : prev.length = cur.length) (hint : cur.length < 2^31)
    (hbound : ∀ i ∈ l, i + shift < cur.length)
    (h : l.foldlM (addShifted add prev shift) cur = .ok r) :
    ∀ i ∈ l, ∀ x ∈ cur[i + shift]?, ∀ y ∈ prev[i]?, ∃ z, add x y = .ok z := by
  induction l generalizing cur with
  | nil => simp
  | cons i l ih =>
    obtain ⟨hi, hl⟩ := List.nodup_cons.mp hl
    have hb := hbound i (by simp)
    have hprev : i < prev.length := by omega
    rw [List.foldlM_cons, addShifted_eq add hlen hint hb] at h
    cases hz : add cur[i + shift] prev[i] with
    | error f => rw [hz] at h; cases h
    | ok z =>
      rw [hz] at h
      have hrest := ih hl (by simpa using hlen) (by simpa using hint)
        (fun j hj => by simpa using hbound j (List.mem_cons_of_mem i hj)) h
      refine List.forall_mem_cons.mpr ⟨fun x hx y hy => ?_, fun j hj x hx => ?_⟩
      · rw [List.getElem?_eq_getElem hb, Option.mem_some_iff] at hx
        rw [List.getElem?_eq_getElem hprev, Option.mem_some_iff] at hy
        exact ⟨z, by rw [← hx, ← hy, hz]⟩
      · have hne : i + shift ≠ j + shift := fun he => hi (by rwa [Nat.add_right_cancel he])
        exact hrest j hj x (by rwa [List.getElem?_set_ne hne])

lemma isInt_of_checkedAdd {x y : ℤ} (h : ∃ z, checkedAdd x y = .ok z) : IsInt (x + y) := by
  obtain ⟨z, hz⟩ := h
  exact (checked_eq_ok hz).2

lemma HoldsWindows.add_eq {a v : List ℤ} {step i : ℕ} {x y : ℤ} (h : HoldsWindows a (2^step) v)
    (hx : x ∈ v[i + 2^step]?) (hy : y ∈ v[i]?) :
    x + y = windowSum a (2^(step + 1)) (i + 2^step) := by
  obtain ⟨hlength, hsums⟩ := h
  obtain ⟨hi, rfl⟩ := List.getElem?_eq_some_iff.mp hx
  obtain ⟨hi', rfl⟩ := List.getElem?_eq_some_iff.mp hy
  have hlast := hsums (i + 2^step) (hlength ▸ hi)
  have hfirst := hsums i (hlength ▸ hi')
  rw [List.getD_eq_getElem v 0 hi] at hlast
  rw [List.getD_eq_getElem v 0 hi'] at hfirst
  rw [pow_succ', windowSum_double a (Nat.le_add_left _ i), Nat.add_sub_cancel, hlast, hfirst]

lemma HoldsWindows.addsTo {a v : List ℤ} {step : ℕ} (h : HoldsWindows a (2^step) v)
    (hfits : StepFits a step) :
    AddsTo checkedAdd (· + ·) v (2^step) (List.range (a.length - 2^step)) v := by
  intro i hi x hx y hy
  have hi := List.mem_range.mp hi
  refine checked_of_isInt ?_
  rw [h.add_eq hx hy]
  exact hfits _ (Nat.le_add_left _ i) (by omega)

lemma stepFits_of_ok {o : Order} {a v r : List ℤ} {step : ℕ} (hn : a.length ≤ 2^30)
    (hlt : 2^step < a.length) (h : HoldsWindows a (2^step) v)
    (hr : doubling checkedAdd o.order a.length step v v = .ok r) : StepFits a step := by
  have hlength := h.1
  rw [doubling_of_lt (by omega) (lt_thirty hn hlt).le hlt] at hr
  cases hinner : (o.order step (a.length - 2^step)).foldlM
      (addShifted checkedAdd v ((2^step : ℕ) : ℤ)) v with
  | error f => rw [hinner] at hr; cases hr
  | ok w =>
    have hperm := o.perm step (a.length - 2^step)
    have hadd := innerLoop_add (hperm.nodup_iff.mpr List.nodup_range) rfl (by omega)
      (fun i hi => by have := List.mem_range.mp (hperm.mem_iff.mp hi); omega) hinner
    intro k hk hka
    obtain ⟨i, rfl⟩ := Nat.exists_eq_add_of_le' hk
    have hi : i + 2^step < v.length := hlength ▸ hka
    have hi' : i < v.length := (Nat.le_add_right i (2^step)).trans_lt hi
    have hx : v[i + 2^step]? = some v[i + 2^step] := List.getElem?_eq_getElem hi
    have hy : v[i]? = some v[i] := List.getElem?_eq_getElem hi'
    rw [← h.add_eq hx hy]
    exact isInt_of_checkedAdd
      (hadd i (hperm.mem_iff.mpr (List.mem_range.mpr (by omega))) _ hx _ hy)

lemma doubling_checked_stop (o : Order) {a v : List ℤ} {step : ℕ} (hstep : step ≤ 30)
    (hle : a.length ≤ 2^step) :
    (∃ r, doubling checkedAdd o.order a.length step v v = .ok r) ↔
      ∀ s, step ≤ s → StepFits a s := by
  refine ⟨fun _ s hs k hk hka => ?_, fun _ => ⟨v, doubling_stop v v hstep hle⟩⟩
  have hpow : 2^step ≤ 2^s := Nat.pow_le_pow_right (by norm_num) hs
  omega

/-- From any step on, the loop with checked additions succeeds exactly when the sums of
all steps still to come are representable. -/
lemma doubling_checked_iff (o : Order) {a v : List ℤ} {step : ℕ} (hn : a.length ≤ 2^30)
    (hstep : step ≤ 30) (h : HoldsWindows a (2^step) v) :
    (∃ r, doubling checkedAdd o.order a.length step v v = .ok r) ↔
      ∀ s, step ≤ s → StepFits a s := by
  induction hd : 30 - step generalizing step v with
  | zero =>
    obtain rfl : step = 30 := by omega
    exact doubling_checked_stop o le_rfl hn
  | succ d ih =>
    by_cases hlt : 2^step < a.length
    · have hnext := h.double
      rw [← pow_succ'] at hnext
      have ih := ih (Nat.succ_le_of_lt (lt_thirty hn hlt)) hnext (by omega)
      have hrun := fun hfits => doubling_step o (by omega) hstep hlt h.1 h.1 (h.addsTo hfits)
      constructor
      · rintro ⟨r, hr⟩ s hs
        have hfits := stepFits_of_ok hn hlt h hr
        rcases hs.eq_or_lt with rfl | hlt
        · exact hfits
        · exact ih.mp ⟨r, by rw [← hrun hfits, hr]⟩ s hlt
      · intro hall
        rw [hrun (hall step le_rfl)]
        exact ih.mpr fun s hs => hall s (by omega)
    · exact doubling_checked_stop o hstep (not_lt.mp hlt)

/-- A full window. -/
lemma windowSum_eq_sum_drop (a : List ℤ) {width j : ℕ} (h : j + width ≤ a.length)
    (hw : 0 < width) : windowSum a width (j + width - 1) = ((a.drop j).take width).sum := by
  have hfirst : j + width - 1 + 1 - width = j := by omega
  have hlast : j + width - 1 + 1 = j + width := by omega
  rw [windowSum, hfirst, hlast, Finset.sum_Ico_eq_sum_range, Nat.add_sub_cancel_left,
    ← sum_range_getD (a.drop j) (by rw [List.length_drop]; omega)]
  exact Finset.sum_congr rfl fun i _ => by simp [List.getD_eq_getElem?_getD]

/-- With representable prefix sums the additions of `prefSum` overflow only if the sum of
some consecutive elements, a power of two of them, is not representable. -/
theorem prefSum_overflow_iff (a : List ℤ) (h : a.length ≤ 2^30) (helements : ∀ x ∈ a, IsInt x)
    (hsums : ∀ k, IsInt (a.take k).sum) :
    (∃ r, prefSum checkedAdd a = .ok r) ↔
      ∀ s j, j + 2^s ≤ a.length → IsInt ((a.drop j).take (2^s)).sum := by
  have hn : toInt a.length = a.length := toInt_natCast (by omega)
  have hrun := doubling_checked_iff Order.sequential h (Nat.zero_le 30) (holdsWindows_start a)
  rw [← hn] at hrun
  refine hrun.trans ⟨fun hall s j hj => ?_, fun hall s _ k hk hka => ?_⟩
  · cases s with
    | zero =>
      have hlt : j < a.length := by omega
      have hone : 2^0 = 0 + 1 := rfl
      rw [List.drop_eq_getElem_cons hlt, hone, List.take_succ_cons, List.take_zero,
        List.sum_singleton]
      exact helements a[j] (List.getElem_mem hlt)
    | succ s =>
      have hpow : 0 < 2^s := by positivity
      rw [← windowSum_eq_sum_drop a hj (by positivity)]
      refine hall s (Nat.zero_le s) _ ?_ ?_
      · rw [pow_succ]; omega
      · rw [pow_succ] at hj ⊢; omega
  · by_cases hfull : k < 2^(s + 1)
    · rw [windowSum_eq_sum_take a hka hfull]
      exact hsums (k + 1)
    · have hk' : k = k + 1 - 2^(s + 1) + 2^(s + 1) - 1 := by omega
      rw [hk', windowSum_eq_sum_drop a (by omega) (by positivity)]
      exact hall (s + 1) _ (by omega)

theorem prefSum_overflow_iff_sample :
    (∃ r, prefSum checkedAdd [3, -1, 4] = .ok r) ↔
      ∀ s j, j + 2^s ≤ ([3, -1, 4] : List ℤ).length →
        IsInt ((([3, -1, 4] : List ℤ).drop j).take (2^s)).sum :=
  prefSum_overflow_iff [3, -1, 4] (by decide) (by decide) fun k => by
    rcases k with _ | _ | _ | k <;> simp [IsInt]

theorem prefSum_overflows_window :
    (∀ x ∈ ([-2147483648, 2147483647, 2147483647] : List ℤ), IsInt x) ∧
      (∀ k, IsInt (([-2147483648, 2147483647, 2147483647] : List ℤ).take k).sum) ∧
      prefSum checkedAdd [-2147483648, 2147483647, 2147483647] = .error .intOverflow := by
  refine ⟨by decide, fun k => ?_, ?_⟩
  · rcases k with _ | _ | _ | k <;> simp [IsInt]
  · rw [prefSum, doubling]
    decide +kernel

end UnixProgramming.PrefixSum
