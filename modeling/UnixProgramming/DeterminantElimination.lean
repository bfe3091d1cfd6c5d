import UnixProgramming.DeterminantModel

/-! One column of the elimination. The loops over single entries are row operations of
the whole matrix, because the columns to the left are already zero below the diagonal. -/
namespace UnixProgramming.Determinant
open ParallelFor

variable {K : Type} {n T : ℕ}

@[simp] lemma mem_after {i j : Fin n} : j ∈ after i ↔ i < j := by simp [after]

@[simp] lemma mem_startingAt {i j : Fin n} : j ∈ startingAt i ↔ i ≤ j := by simp [startingAt]

lemma after_nodup (i : Fin n) : (after i).Nodup := (List.nodup_finRange n).filter _

lemma after_sorted (i : Fin n) : (after i).Pairwise (· < ·) :=
  (List.pairwise_lt_finRange n).filter _

lemma startingAt_nodup (i : Fin n) : (startingAt i).Nodup := (List.nodup_finRange n).filter _

lemma assign_apply (a : Matrix (Fin n) (Fin n) K) (j z : Fin n) (v : K) (r c : Fin n) :
    assign a j z v r c = if r = j ∧ c = z then v else a r c := by
  rw [assign, Matrix.updateRow_apply]
  by_cases hr : r = j
  · subst hr
    simp [Function.update_apply]
  · simp [hr]

lemma swapAt_apply (i m : Fin n) (a : Matrix (Fin n) (Fin n) K) (j r c : Fin n) :
    swapAt i m a j r c = if c = j then a (Equiv.swap i m r) c else a r c := by
  simp only [swapAt, assign_apply, Equiv.swap_apply_def]
  by_cases hc : c = j
  · subst hc
    split_ifs <;> simp_all
  · simp [hc]

lemma foldl_swapAt {l : List (Fin n)} (hl : l.Nodup) (i m : Fin n)
    (a : Matrix (Fin n) (Fin n) K) (r c : Fin n) :
    l.foldl (swapAt i m) a r c = if c ∈ l then a (Equiv.swap i m r) c else a r c := by
  induction l generalizing a with
  | nil => simp
  | cons j l ih =>
    obtain ⟨hj, hl⟩ := List.nodup_cons.mp hl
    rw [List.foldl_cons, ih hl]
    by_cases hc : c = j
    · subst hc
      simp [hj, swapAt_apply]
    · simp [hc, swapAt_apply]

lemma independent_swaps (i m : Fin n) (l : List (Fin n)) :
    ∀ j ∈ l, ∀ k ∈ l, j ≠ k → ∀ x ∈ [j], ∀ y ∈ [k], ∀ a : Matrix (Fin n) (Fin n) K,
      swapAt i m (swapAt i m a x) y = swapAt i m (swapAt i m a y) x := by
  intro j _ k _ hjk x hx y hy a
  obtain rfl := List.mem_singleton.mp hx
  obtain rfl := List.mem_singleton.mp hy
  ext r c
  simp only [swapAt_apply]
  split_ifs <;> simp_all

variable [Field K]

def reduced (a : Matrix (Fin n) (Fin n) K) (i r c : Fin n) : K :=
  if c = i then 0 else if i < c then a r c - a i c * (a r i / a i i) else a r c

/-- The columns before `k` are zero below the diagonal. -/
def ZeroBelow (a : Matrix (Fin n) (Fin n) K) (k : ℕ) : Prop :=
  ∀ r c : Fin n, c.val < k → c < r → a r c = 0

def reducedMatrix (a : Matrix (Fin n) (Fin n) K) (i : Fin n) : Matrix (Fin n) (Fin n) K :=
  .of fun r c => if i < r then reduced a i r c else a r c

lemma swaps_eq {a : Matrix (Fin n) (Fin n) K} {i m : Fin n} (hzero : ZeroBelow a i) (hm : i ≤ m) :
    (startingAt i).foldl (swapAt i m) a = a.submatrix (Equiv.swap i m) id := by
  ext r c
  rw [foldl_swapAt (startingAt_nodup i), Matrix.submatrix_apply, id_eq]
  split_ifs with hc
  · rfl
  · have hlt : c < i := by simpa using hc
    rw [Equiv.swap_apply_def]
    split_ifs with hri hrm
    · rw [hri, hzero i c hlt hlt, hzero m c hlt (hlt.trans_le hm)]
    · rw [hrm, hzero i c hlt hlt, hzero m c hlt (hlt.trans_le hm)]
    · rfl

lemma det_swaps (a : Matrix (Fin n) (Fin n) K) {i m : Fin n} (hm : m ≠ i) :
    (a.submatrix (Equiv.swap i m) id).det = -a.det := by
  rw [Matrix.det_permute, Equiv.Perm.sign_swap (Ne.symm hm)]
  simp

lemma zeroBelow_swaps {a : Matrix (Fin n) (Fin n) K} {i m : Fin n} (hzero : ZeroBelow a i)
    (hm : i ≤ m) : ZeroBelow (a.submatrix (Equiv.swap i m) id) i := by
  intro r c hc hcr
  rw [Matrix.submatrix_apply, id_eq, Equiv.swap_apply_def]
  split_ifs
  · exact hzero m c hc (lt_of_lt_of_le hc hm)
  · exact hzero i c hc hc
  · exact hzero r c hc hcr

lemma det_reducedMatrix {a : Matrix (Fin n) (Fin n) K} {i : Fin n} (hzero : ZeroBelow a i)
    (hpivot : a i i ≠ 0) : (reducedMatrix a i).det = a.det := by
  refine Matrix.det_eq_of_forall_row_eq_smul_add_const
    (fun r => if i < r then -(a r i / a i i) else 0) i (by simp) fun r c => ?_
  rw [reducedMatrix, Matrix.of_apply]
  split_ifs with hr
  · unfold reduced
    split_ifs with hc hlt
    · rw [hc]
      field_simp
      ring
    · ring
    · have hci : c < i := lt_of_le_of_ne (not_lt.mp hlt) hc
      rw [hzero i c hci hci]
      ring
  · ring

lemma zeroBelow_reducedMatrix {a : Matrix (Fin n) (Fin n) K} {i : Fin n} (hzero : ZeroBelow a i) :
    ZeroBelow (reducedMatrix a i) (i + 1) := by
  intro r c hc hcr
  rw [reducedMatrix, Matrix.of_apply, reduced]
  by_cases hci : c = i
  · simp [hci, show i < r from hci ▸ hcr]
  · have hlt : c < i := lt_of_le_of_ne (Nat.lt_succ_iff.mp hc) hci
    simp [hci, not_lt.mpr hlt.le, hzero r c hlt hcr]

lemma reducedMatrix_diagonal {a : Matrix (Fin n) (Fin n) K} {i c : Fin n} (hc : c ≤ i) :
    reducedMatrix a i c c = a c c := by
  simp [reducedMatrix, not_lt.mpr hc]

variable [LinearOrder K]

lemma execute_subtract {i j : Fin n} (hj : j ≠ i) {l : List (Fin n)} (hl : l.Nodup) (hi : i ∉ l)
    (a : Matrix (Fin n) (Fin n) K) :
    (l.map (Statement.subtract j)).foldlM (execute i) a =
      some (.of fun r c => if r = j ∧ c ∈ l then a r c - a i c * a j i else a r c) := by
  induction l generalizing a with
  | nil =>
    simp only [List.map_nil, List.foldlM_nil, List.not_mem_nil, and_false, ↓reduceIte]
    rfl
  | cons z l ih =>
    obtain ⟨hz, hl⟩ := List.nodup_cons.mp hl
    obtain ⟨hiz, hil⟩ := not_or.mp (fun h => hi (List.mem_cons.mpr h))
    rw [List.map_cons, List.foldlM_cons]
    simp only [execute, Option.bind_eq_bind, Option.bind_some]
    rw [ih hl hil]
    refine congrArg some (Matrix.ext fun r c => ?_)
    simp only [assign_apply, Matrix.of_apply, List.mem_cons]
    by_cases hr : r = j
    · subst hr
      by_cases hc : c = z
      · subst hc
        simp [hz]
      · by_cases hcl : c ∈ l <;> simp [hc, hcl, hiz, Ne.symm hj]
    · simp [hr]

lemma reduceRow_eq {a : Matrix (Fin n) (Fin n) K} {i j : Fin n} (hj : j ≠ i) (hpivot : a i i ≠ 0) :
    (reduceRow i j).foldlM (execute i) a =
      some (.of fun r c => if r = j then reduced a i r c else a r c) := by
  have hdivide : execute i a (.divide j) = some (assign a j i (a j i / a i i)) := by
    simp [execute, divide, hpivot]
  rw [reduceRow, List.foldlM_cons, hdivide, Option.bind_eq_bind, Option.bind_some,
    List.foldlM_append, execute_subtract hj (after_nodup i) (by simp)]
  refine congrArg some (Matrix.ext fun r c => ?_)
  simp only [assign_apply, Matrix.of_apply, mem_after, reduced]
  by_cases hr : r = j
  · subst hr
    by_cases hc : c = i
    · simp [hc]
    · simp [hc, Ne.symm hj]
  · simp [hr]

/-- The loop over the rows, in any order without repetitions, computes the reduced rows
and never divides by zero. -/
lemma reduceRows_eq {l : List (Fin n)} {a : Matrix (Fin n) (Fin n) K} {i : Fin n} (hl : l.Nodup)
    (hi : i ∉ l) (hpivot : a i i ≠ 0) :
    (l.flatMap (reduceRow i)).foldlM (execute i) a =
      some (.of fun r c => if r ∈ l then reduced a i r c else a r c) := by
  induction l generalizing a with
  | nil =>
    simp only [List.flatMap_nil, List.foldlM_nil, List.not_mem_nil, ↓reduceIte]
    rfl
  | cons j l ih =>
    obtain ⟨hjl, hl⟩ := List.nodup_cons.mp hl
    obtain ⟨hij, hil⟩ := not_or.mp (fun h => hi (List.mem_cons.mpr h))
    rw [List.flatMap_cons, List.foldlM_append, reduceRow_eq (Ne.symm hij) hpivot,
      Option.bind_eq_bind, Option.bind_some, ih hl hil (by simpa [hij] using hpivot)]
    refine congrArg some (Matrix.ext fun r c => ?_)
    by_cases hr : r = j
    · subst hr
      simp [hjl]
    · by_cases hrl : r ∈ l <;> simp [hr, hrl, hij, reduced]

lemma reductions_eq {a : Matrix (Fin n) (Fin n) K} {i : Fin n} (hpivot : a i i ≠ 0) :
    ((after i).flatMap (reduceRow i)).foldlM (execute i) a = some (reducedMatrix a i) := by
  rw [reduceRows_eq (after_nodup i) (by simp) hpivot]
  simp only [mem_after]
  rfl

end UnixProgramming.Determinant
