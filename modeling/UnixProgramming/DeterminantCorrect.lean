import UnixProgramming.DeterminantPivot

/-! Every elimination with a largest pivot computes the determinant, whichever of several
largest entries is taken. The sequential and the parallel search both find such a pivot,
and the parallel loops do what the sequential loops do. -/
namespace UnixProgramming.Determinant
open ParallelFor

variable {K : Type} [Field K] {n T : ℕ}

/-- With zeros below the diagonal up to column `i` and below row `i` in column `i`, no
permutation avoids a zero entry. -/
lemma det_eq_zero_of_column {a : Matrix (Fin n) (Fin n) K} {i : Fin n} (hzero : ZeroBelow a i)
    (hcol : ∀ r, i ≤ r → a r i = 0) : a.det = 0 := by
  rw [Matrix.det_apply]
  refine Finset.sum_eq_zero fun σ _ => ?_
  obtain ⟨c, hc, hσ⟩ : ∃ c ≤ i, i ≤ σ c := by
    by_contra h
    push Not at h
    have hcard := Finset.card_le_card_of_injOn (s := Finset.Iic i) (t := Finset.Iio i) σ
      (fun c hc => by simpa using h c (by simpa using hc)) σ.injective.injOn
    rw [Fin.card_Iic, Fin.card_Iio] at hcard
    omega
  have hentry : a (σ c) c = 0 := by
    rcases hc.eq_or_lt with rfl | hlt
    · exact hcol _ hσ
    · exact hzero _ c hlt (hlt.trans_le hσ)
  have hprod : ∏ c, a (σ c) c = 0 := Finset.prod_eq_zero (Finset.mem_univ c) hentry
  rw [hprod, smul_zero]

def pivots (a : Matrix (Fin n) (Fin n) K) (k : ℕ) : K := ∏ c : Fin n with c.val < k, a c c

/-- The matrix and the accumulator after `k` columns: up to a common factor, which is the
sign of the row swaps, one has the determinant and the other the product of the pivots. -/
structure Progress (a₀ a : Matrix (Fin n) (Fin n) K) (det : K) (k : ℕ) : Prop where
  zero : ZeroBelow a k
  factor : ∃ s, a₀.det = s * a.det ∧ det = s * pivots a k

lemma pivots_congr {a b : Matrix (Fin n) (Fin n) K} {k : ℕ}
    (h : ∀ c : Fin n, c.val < k → a c c = b c c) : pivots a k = pivots b k :=
  Finset.prod_congr rfl fun c hc => h c (by simpa using hc)

lemma pivots_succ (a : Matrix (Fin n) (Fin n) K) (i : Fin n) :
    pivots a (i + 1) = pivots a i * a i i := by
  have hfilter : Finset.univ.filter (fun c : Fin n => c.val < i.val + 1) =
      insert i (Finset.univ.filter fun c : Fin n => c.val < i.val) := by
    ext c
    simp only [Finset.mem_filter, Finset.mem_univ, true_and, Finset.mem_insert, Fin.ext_iff]
    omega
  rw [pivots, hfilter, Finset.prod_insert (by simp), mul_comm, pivots]

lemma progress_start (a : Matrix (Fin n) (Fin n) K) : Progress a a 1 0 :=
  ⟨fun r c hc => by omega, 1, by simp, by simp [pivots]⟩

lemma Progress.swaps {a₀ a : Matrix (Fin n) (Fin n) K} {det : K} {i m : Fin n}
    (h : Progress a₀ a det i) (him : i ≤ m) (hm : m ≠ i) :
    Progress a₀ (a.submatrix (Equiv.swap i m) id) (-det) i := by
  obtain ⟨s, hdet, hacc⟩ := h.factor
  have hpivots : pivots (a.submatrix (Equiv.swap i m) id) i = pivots a i := by
    refine pivots_congr fun c hc => ?_
    have hci : c ≠ i := ne_of_lt hc
    have hcm : c ≠ m := ne_of_lt (lt_of_lt_of_le hc him)
    rw [Matrix.submatrix_apply, id_eq, Equiv.swap_apply_of_ne_of_ne hci hcm]
  refine ⟨zeroBelow_swaps h.zero him, -s, ?_, ?_⟩
  · rw [det_swaps a hm, hdet]
    ring
  · rw [hacc, hpivots]
    ring

lemma Progress.reduce {a₀ a : Matrix (Fin n) (Fin n) K} {det : K} {i : Fin n}
    (h : Progress a₀ a det i) (hpivot : a i i ≠ 0) :
    Progress a₀ (reducedMatrix a i) (det * a i i) (i + 1) := by
  obtain ⟨s, hdet, hacc⟩ := h.factor
  have hpivots : pivots (reducedMatrix a i) i = pivots a i :=
    pivots_congr fun c hc => reducedMatrix_diagonal (le_of_lt hc)
  refine ⟨zeroBelow_reducedMatrix h.zero, s, ?_, ?_⟩
  · rw [det_reducedMatrix h.zero hpivot, hdet]
  · rw [pivots_succ, reducedMatrix_diagonal le_rfl, hpivots, hacc, mul_assoc]

lemma Progress.finish {a₀ a : Matrix (Fin n) (Fin n) K} {det : K} {k : ℕ}
    (h : Progress a₀ a det k) (hk : n ≤ k) : det = a₀.det := by
  obtain ⟨s, hdet, hacc⟩ := h.factor
  have htri : a.IsUpperTriangular := fun r c hcr => h.zero r c (c.isLt.trans_le hk) hcr
  have hall : pivots a k = a.det := by
    rw [Matrix.det_of_isUpperTriangular htri, pivots]
    congr 1
    ext c
    simp [c.isLt.trans_le hk]
  rw [hacc, hdet, hall]

section Ordered

variable [LinearOrder K]

lemma eliminate_eq [IsStrictOrderedRing K] {search : Matrix (Fin n) (Fin n) K → Fin n → Fin n}
    {swaps : Fin n → List (Fin n)} {reductions : Fin n → List (Statement n)}
    (hsearch : ∀ a i, IsPivot a i (search a i))
    (hswaps : ∀ i m (a : Matrix (Fin n) (Fin n) K),
      (swaps i).foldl (swapAt i m) a = (startingAt i).foldl (swapAt i m) a)
    (hreductions : ∀ i (a : Matrix (Fin n) (Fin n) K), (reductions i).foldlM (execute i) a =
      ((after i).flatMap (reduceRow i)).foldlM (execute i) a)
    {is : List (Fin n)} {k : ℕ} (his : is = (List.finRange n).drop k)
    {a₀ a : Matrix (Fin n) (Fin n) K} {det : K} (h : Progress a₀ a det k) :
    eliminate search swaps reductions is det a = some a₀.det := by
  induction is generalizing k a det with
  | nil =>
    have hk : n ≤ k := by simpa using his.symm
    rw [eliminate, h.finish hk]
  | cons i is ih =>
    have hlt : k < (List.finRange n).length := by
      by_contra hge
      rw [List.drop_eq_nil_of_le (not_lt.mp hge)] at his
      cases his
    rw [List.drop_eq_getElem_cons hlt] at his
    obtain ⟨hi, his⟩ := List.cons.inj his
    obtain rfl : i.val = k := by simp [hi]
    have hpivot := hsearch a i
    rw [eliminate]
    split_ifs with hzero hm
    · -- all candidates are zero, and so is the determinant
      have hcol : ∀ r, i ≤ r → a r i = 0 := by
        intro r hr
        have := hpivot.largest r hr
        rw [hzero, abs_zero] at this
        exact abs_nonpos_iff.mp this
      obtain ⟨s, hdet, _⟩ := h.factor
      rw [hdet, det_eq_zero_of_column h.zero hcol, mul_zero]
    · have hswapped := h.swaps hpivot.below hm
      have hne : a.submatrix (Equiv.swap i (search a i)) id i i ≠ 0 := by simpa using hzero
      rw [hswaps, swaps_eq h.zero hpivot.below]
      dsimp only
      rw [hreductions, reductions_eq hne]
      exact ih his (hswapped.reduce hne)
    · have hself : search a i = i := not_not.mp hm
      rw [hself] at hzero
      dsimp only
      rw [hreductions, reductions_eq hzero]
      exact ih his (h.reduce hzero)

theorem detWithoutOmp_eq_det [IsStrictOrderedRing K] (a : Matrix (Fin n) (Fin n) K) :
    detWithoutOmp a = some a.det :=
  eliminate_eq isPivot_searchPivot (fun _ _ _ => rfl) (fun _ _ => rfl) (k := 0) rfl
    (progress_start a)

def Statement.row : Statement n → Fin n
  | divide j => j
  | subtract j _ => j
  | clear j => j

def rowEffect (i : Fin n) (pivotRow row : Fin n → K) : Statement n → Option (Fin n → K)
  | .divide _ => (divide (row i) (pivotRow i)).map (Function.update row i)
  | .subtract _ z => some (Function.update row z (row z - pivotRow z * row i))
  | .clear _ => some (Function.update row i 0)

lemma execute_eq_rowEffect (i : Fin n) (a : Matrix (Fin n) (Fin n) K) (x : Statement n) :
    execute i a x = (rowEffect i (a i) (a x.row) x).map (a.updateRow x.row) := by
  cases x with
  | divide j =>
    simp only [execute, rowEffect, Statement.row, Option.map_map]
    rfl
  | subtract j z => rfl
  | clear j => rfl

lemma row_of_mem_reduceRow {i j : Fin n} {x : Statement n} (h : x ∈ reduceRow i j) : x.row = j := by
  simp only [reduceRow, List.mem_cons, List.mem_append, List.mem_map, List.not_mem_nil,
    or_false] at h
  rcases h with rfl | ⟨z, _, rfl⟩ | rfl <;> rfl

lemma execute_updateRow {i j : Fin n} {y : Statement n} (hij : i ≠ j) (hy : y.row ≠ j)
    (a : Matrix (Fin n) (Fin n) K) (v : Fin n → K) :
    execute i (a.updateRow j v) y =
      (rowEffect i (a i) (a y.row) y).map ((a.updateRow j v).updateRow y.row) := by
  rw [execute_eq_rowEffect, Matrix.updateRow_ne hij, Matrix.updateRow_ne hy]

/-- Statements on different rows below the pivot commute: each reads and writes its own
row and only reads the pivot row. -/
lemma independent_reductions (i : Fin n) :
    Independent (execute (K := K) i) (after i) (reduceRow i) := by
  intro j hj k hk hjk x hx y hy a
  have hij : i ≠ j := (mem_after.mp hj).ne
  have hik : i ≠ k := (mem_after.mp hk).ne
  obtain rfl := row_of_mem_reduceRow hx
  obtain rfl := row_of_mem_reduceRow hy
  have hxy := execute_updateRow hij (Ne.symm hjk) a
  have hyx := execute_updateRow hik hjk a
  rw [execute_eq_rowEffect i a x, execute_eq_rowEffect i a y]
  cases hx' : rowEffect i (a i) (a x.row) x with
  | none =>
    cases hy' : rowEffect i (a i) (a y.row) y with
    | none => rfl
    | some w => simp [hyx, hx']
  | some v =>
    cases hy' : rowEffect i (a i) (a y.row) y with
    | none => simp [hxy, hy']
    | some w => simp [hxy, hyx, hx', hy', Matrix.updateRow_comm a hjk]

theorem detWithOmp_eq_det [IsStrictOrderedRing K] (schedule : ∀ i : Fin n, Schedule T i)
    (a : Matrix (Fin n) (Fin n) K) : detWithOmp schedule a = some a.det := by
  refine eliminate_eq (isPivot_searchPivotOmp schedule) ?_ ?_ (k := 0) rfl (progress_start a)
  · intro i m a
    rw [(schedule i).swaps.foldl_actions (independent_swaps i m (startingAt i)),
      List.flatMap_singleton']
  · intro i a
    exact (schedule i).reductions.foldlM_actions (independent_reductions i) a

end Ordered

/-- For every thread count, split and order the parallel elimination returns what the
sequential one returns. -/
theorem detWithOmp_eq_detWithoutOmp (a : Matrix (Fin n) (Fin n) ℚ)
    (schedule : ∀ i : Fin n, Schedule T i) :
    ∃ det, detWithoutOmp a = some det ∧ detWithOmp schedule a = some det :=
  ⟨a.det, detWithoutOmp_eq_det a, detWithOmp_eq_det schedule a⟩

/-- The elimination has a value, so it never divides by zero, and this value is the sum
over all permutations. -/
theorem detWithoutOmp_eq_leibniz (a : Matrix (Fin n) (Fin n) ℚ) :
    detWithoutOmp a =
      some (∑ σ : Equiv.Perm (Fin n), (Equiv.Perm.sign σ : ℚ) * ∏ i, a (σ i) i) := by
  rw [detWithoutOmp_eq_det, Matrix.det_apply']

end UnixProgramming.Determinant
