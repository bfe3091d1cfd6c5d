import UnixProgramming.PrefixSumModel

/-! The iterations of a doubling step write different elements and read an array that no
iteration writes, so their order does not matter. -/
namespace UnixProgramming.PrefixSum
open MachineInt

variable {α : Type}

/-- The array after the iterations in `l`, all reading `prevPrefSum`. -/
def shiftedSum (plus : α → α → α) (prevPrefSum : List α) (shift : ℕ) (l : List ℕ)
    (curPrefSum : List α) : List α :=
  curPrefSum.mapIdx fun k x =>
    if shift ≤ k ∧ k - shift ∈ l then plus x (prevPrefSum.getD (k - shift) x) else x

@[simp] lemma length_shiftedSum (plus : α → α → α) (prev cur : List α) (shift : ℕ) (l : List ℕ) :
    (shiftedSum plus prev shift l cur).length = cur.length := by
  simp [shiftedSum]

lemma shiftedSum_perm {plus : α → α → α} {prev cur : List α} {shift : ℕ} {l l' : List ℕ}
    (h : l.Perm l') : shiftedSum plus prev shift l cur = shiftedSum plus prev shift l' cur := by
  simp only [shiftedSum, h.mem_iff]

lemma element_of_lt {v : List α} {j : ℕ} (h : j < v.length) : element v j = .ok v[j] := by
  simp [element, h]

lemma addShifted_eq (add : α → α → Except Fault α) {prev cur : List α} {shift i : ℕ}
    (hlen : prev.length = cur.length) (hint : cur.length < 2^31) (hi : i + shift < cur.length) :
    addShifted add prev shift cur i =
      (add cur[i + shift] (prev[i])).map (cur.set (i + shift)) := by
  have hsum : checked Fault.intOverflow ((i : ℤ) + shift) = .ok ((i + shift : ℕ) : ℤ) := by
    rw [checked_of_isInt (by constructor <;> omega)]
    push_cast
    rfl
  have hprev : element prev (i : ℤ) = .ok prev[i] := element_of_lt (by omega)
  simp only [addShifted, hsum, element_of_lt hi, hprev, bind, Except.bind, pure, Except.pure,
    Int.toNat_natCast]
  rfl

lemma shiftedSum_cons {plus : α → α → α} {prev cur : List α} {shift i : ℕ} {l : List ℕ}
    (hi : i ∉ l) (hprev : i < prev.length) (hcur : i + shift < cur.length) :
    shiftedSum plus prev shift l (cur.set (i + shift) (plus cur[i + shift] prev[i])) =
      shiftedSum plus prev shift (i :: l) cur := by
  refine List.ext_getElem (by simp) fun k hk _ => ?_
  simp only [length_shiftedSum, List.length_set] at hk
  simp only [shiftedSum, List.getElem_mapIdx, List.getElem_set, List.mem_cons]
  by_cases hki : i + shift = k
  · subst hki
    simp [hi, hprev]
  · have hne : shift ≤ k → k - shift ≠ i := by omega
    by_cases hs : shift ≤ k <;> simp [hki, hs, hne]

/-- The additions at the indices `l` agree with `plus`. -/
def AddsTo (add : α → α → Except Fault α) (plus : α → α → α) (prev : List α) (shift : ℕ)
    (l : List ℕ) (cur : List α) : Prop :=
  ∀ i ∈ l, ∀ x ∈ cur[i + shift]?, ∀ y ∈ prev[i]?, add x y = .ok (plus x y)

lemma AddsTo.tail {add : α → α → Except Fault α} {plus : α → α → α} {prev cur : List α}
    {shift i : ℕ} {l : List ℕ} (h : AddsTo add plus prev shift (i :: l) cur) (hi : i ∉ l) (z : α) :
    AddsTo add plus prev shift l (cur.set (i + shift) z) := by
  intro j hj x hx
  have hne : i + shift ≠ j + shift := fun he => hi (by rwa [Nat.add_right_cancel he])
  rw [List.getElem?_set_ne hne] at hx
  exact h j (List.mem_cons_of_mem i hj) x hx

lemma innerLoop_ok {add : α → α → Except Fault α} {plus : α → α → α} {prev cur : List α}
    {shift : ℕ} {l : List ℕ} (hl : l.Nodup) (hlen : prev.length = cur.length)
    (hint : cur.length < 2^31) (hbound : ∀ i ∈ l, i + shift < cur.length)
    (hadd : AddsTo add plus prev shift l cur) :
    l.foldlM (addShifted add prev shift) cur = .ok (shiftedSum plus prev shift l cur) := by
  induction l generalizing cur with
  | nil =>
    have hid : cur.mapIdx (fun _ x => x) = cur := List.ext_getElem (by simp) (by simp)
    simp [shiftedSum, hid, pure, Except.pure]
  | cons i l ih =>
    obtain ⟨hi, hl⟩ := List.nodup_cons.mp hl
    have hb := hbound i (by simp)
    have hprev : i < prev.length := by omega
    have hfirst := hadd i (by simp) _ (List.getElem?_eq_getElem hb) _
      (List.getElem?_eq_getElem hprev)
    rw [List.foldlM_cons, addShifted_eq add hlen hint hb, hfirst]
    refine (ih hl (by simpa using hlen) (by simpa using hint) ?_ (hadd.tail hi _)).trans ?_
    · intro j hj
      simpa using hbound j (List.mem_cons_of_mem i hj)
    · rw [shiftedSum_cons hi hprev hb]

lemma shiftOne_eq {step : ℕ} (h : step ≤ 30) : shiftOne step = ((2^step : ℕ) : ℤ) := by
  have hlt : 2^step < 2^31 := Nat.pow_lt_pow_right (by norm_num) (by omega)
  have := toInt_natCast hlt
  push_cast at this ⊢
  exact this

lemma lt_thirty {step n : ℕ} (hn : n ≤ 2^30) (h : 2^step < n) : step < 30 :=
  (Nat.pow_lt_pow_iff_right (by norm_num)).mp (h.trans_le hn)

lemma doubling_stop {add : α → α → Except Fault α} {order : ℕ → ℕ → List ℕ} {n step : ℕ}
    (prev cur : List α) (hstep : step ≤ 30) (hle : n ≤ 2^step) :
    doubling add order n step prev cur = .ok cur := by
  have hcond : ¬ shiftOne step < (n : ℤ) := by
    rw [shiftOne_eq hstep]
    exact_mod_cast not_lt.mpr hle
  rw [doubling, if_pos (by omega), if_neg hcond]

/-- The index arithmetic of a step whose shift is representable. -/
lemma doubling_of_lt {add : α → α → Except Fault α} {order : ℕ → ℕ → List ℕ} {n step : ℕ}
    {prev cur : List α} (hn : n < 2^31) (hstep : step ≤ 30) (hlt : 2^step < n) :
    doubling add order n step prev cur =
      (order step (n - 2^step)).foldlM (addShifted add prev ((2^step : ℕ) : ℤ)) cur >>=
        fun cur => doubling add order n (step + 1) cur cur := by
  have hshift := shiftOne_eq hstep
  have hcond : shiftOne step < (n : ℤ) := by
    rw [hshift]
    exact_mod_cast hlt
  have hbound : checked Fault.intOverflow ((n : ℤ) - shiftOne step) =
      .ok ((n - 2^step : ℕ) : ℤ) := by
    have hsub : n - 2^step ≤ n := Nat.sub_le n (2^step)
    rw [hshift, ← Nat.cast_sub hlt.le, checked_of_isInt (by constructor <;> omega)]
  rw [doubling, if_pos (by omega), if_pos hcond, hbound, hshift]
  rfl

lemma addsTo_total {plus : α → α → α} {prev cur : List α} {shift : ℕ} {l : List ℕ} :
    AddsTo (fun x y => .ok (plus x y)) plus prev shift l cur := fun _ _ _ _ _ _ => rfl

lemma doubling_step {add : α → α → Except Fault α} {plus : α → α → α} (o : Order) {n step : ℕ}
    {prev cur : List α} (hn : n < 2^31) (hstep : step ≤ 30) (hlt : 2^step < n)
    (hprev : prev.length = n) (hcur : cur.length = n)
    (hadd : AddsTo add plus prev (2^step) (List.range (n - 2^step)) cur) :
    doubling add o.order n step prev cur =
      doubling add o.order n (step + 1)
        (shiftedSum plus prev (2^step) (List.range (n - 2^step)) cur)
        (shiftedSum plus prev (2^step) (List.range (n - 2^step)) cur) := by
  have hperm := o.perm step (n - 2^step)
  have hinner : (o.order step (n - 2^step)).foldlM (addShifted add prev ((2^step : ℕ) : ℤ)) cur =
      .ok (shiftedSum plus prev (2^step) (List.range (n - 2^step)) cur) := by
    rw [innerLoop_ok (hperm.nodup_iff.mpr List.nodup_range) (by omega) (by omega) ?_
      (fun i hi => hadd i (hperm.mem_iff.mp hi)), shiftedSum_perm hperm]
    intro i hi
    have := List.mem_range.mp (hperm.mem_iff.mp hi)
    omega
  rw [doubling_of_lt hn hstep hlt, hinner]
  rfl

/-- From any step on, the loop succeeds with a result that no order changes. -/
theorem doubling_ok (plus : α → α → α) {n step : ℕ} {prev cur : List α} (hn : n ≤ 2^30)
    (hstep : step ≤ 30) (hprev : prev.length = n) (hcur : cur.length = n) :
    ∃ r, ∀ o : Order, doubling (fun x y => .ok (plus x y)) o.order n step prev cur = .ok r := by
  -- the shift reaches the length after at most 30 steps
  induction hd : 30 - step generalizing step prev cur with
  | zero =>
    obtain rfl : step = 30 := by omega
    exact ⟨cur, fun o => doubling_stop prev cur le_rfl hn⟩
  | succ d ih =>
    by_cases hlt : 2^step < n
    · have hlen : (shiftedSum plus prev (2^step) (List.range (n - 2^step)) cur).length = n := by
        simpa using hcur
      obtain ⟨r, hr⟩ := ih (Nat.succ_le_of_lt (lt_thirty hn hlt)) hlen hlen (by omega)
      exact ⟨r, fun o => (doubling_step o (by omega) hstep hlt hprev hcur addsTo_total).trans
        (hr o)⟩
    · exact ⟨cur, fun o => doubling_stop prev cur hstep (not_lt.mp hlt)⟩

def Order.sequential : Order := ⟨fun _ bound => List.range bound, fun _ _ => List.Perm.refl _⟩

/-- In every order of the iterations the parallel algorithm returns what the sequential
one returns. -/
theorem prefSumParallelAlgorithm_eq_prefSum (a : List (BitVec 32)) (h : a.length ≤ 2^30)
    (o : Order) (threadsCnt : ℤ) :
    ∃ r, prefSum wrapAdd a = .ok r ∧ prefSumParallelAlgorithm wrapAdd o a threadsCnt = .ok r := by
  have hn : toInt a.length = a.length := toInt_natCast (by omega)
  obtain ⟨r, hr⟩ := doubling_ok (fun x y : BitVec 32 => x + y) h (Nat.zero_le 30) rfl rfl
  rw [← hn] at hr
  exact ⟨r, hr Order.sequential, hr o⟩

theorem prefSumParallelAlgorithm_eq_prefSum_sample : ∃ r,
    prefSum wrapAdd [1, 2, 3] = .ok r ∧
      prefSumParallelAlgorithm wrapAdd
        ⟨fun _ bound => (List.range bound).reverse, fun _ _ => List.reverse_perm _⟩ [1, 2, 3] 2 =
        .ok r :=
  prefSumParallelAlgorithm_eq_prefSum [1, 2, 3] (by decide) _ 2

end UnixProgramming.PrefixSum
