import UnixProgramming.RunningMaximum
import UnixProgramming.DeterminantElimination

/-! The row that a pivot search selects. The parallel search is a sequential one over the
rows in the order of the critical sections, so the two differ only in which of several
rows of largest absolute value comes first. -/
namespace UnixProgramming.Determinant

variable {K : Type} [Field K] [LinearOrder K] {n T : ℕ}

/-- A row that a pivot search may return. -/
structure IsPivot (a : Matrix (Fin n) (Fin n) K) (i m : Fin n) : Prop where
  below : i ≤ m
  largest : ∀ j, i ≤ j → |a j i| ≤ |a m i|

/-- A row below the diagonal of largest absolute value, larger than the diagonal entry. -/
def Largest (a : Matrix (Fin n) (Fin n) K) (i j : Fin n) : Prop :=
  i < j ∧ |a i i| < |a j i| ∧ ∀ k, i < k → |a k i| ≤ |a j i|

section Scan

variable {a : Matrix (Fin n) (Fin n) K} {i : Fin n} {l : List (Fin n)}

lemma isPivot_foldl (hl : ∀ j, j ∈ l ↔ i < j) : IsPivot a i (l.foldl (larger a i) i) := by
  have hmem : ∀ j, j ∈ i :: l ↔ i ≤ j := by
    intro j
    rw [List.mem_cons, hl, le_iff_eq_or_lt, eq_comm]
  exact ⟨(hmem _).mp (foldl_keepLarger_mem i l),
    fun j hj => le_foldl_keepLarger (f := fun j => |a j i|) ((hmem j).mpr hj)⟩

lemma foldl_larger_cases (hl : ∀ j, j ∈ l ↔ i < j) :
    (l.foldl (larger a i) i = i ∧ ∀ j, ¬ Largest a i j) ∨
      Largest a i (l.foldl (larger a i) i) := by
  have hp := isPivot_foldl (a := a) hl
  by_cases hlt : |a i i| < |a (l.foldl (larger a i) i) i|
  · have hne : i ≠ l.foldl (larger a i) i := fun h => hlt.ne (by rw [← h])
    exact Or.inr ⟨lt_of_le_of_ne hp.below hne, hlt, fun k hk => hp.largest k hk.le⟩
  · -- the diagonal comes first in the scan
    have hfresh : ∀ k ∈ l, k ≠ i := fun k hk => ((hl k).mp hk).ne'
    have hr : (i :: l).Pairwise fun _ k => k ≠ i :=
      List.pairwise_cons.mpr ⟨hfresh, List.pairwise_of_forall_mem_list fun _ _ => hfresh⟩
    have hfirst := foldl_keepLarger_first (f := fun j => |a j i|) hr (x := i) (by simp)
      (not_lt.mp hlt)
    refine Or.inl ⟨hfirst.resolve_right (fun h => h rfl), fun j hj => ?_⟩
    exact hlt (hj.2.1.trans_le (hp.largest j hj.1.le))

/-- Of several largest rows the scan keeps the one that comes first. -/
lemma foldl_larger_first {r : Fin n → Fin n → Prop} (hl : ∀ j, j ∈ l ↔ i < j) (hr : l.Pairwise r)
    {k : Fin n} (hk : Largest a i k) :
    l.foldl (larger a i) i = k ∨ r (l.foldl (larger a i) i) k := by
  have hr' : (i :: l).Pairwise fun j k => j = i ∨ r j k :=
    List.pairwise_cons.mpr ⟨fun _ _ => Or.inl rfl, hr.imp Or.inr⟩
  obtain ⟨_, hnone⟩ | hlargest := foldl_larger_cases (a := a) hl
  · exact absurd hk (hnone k)
  · have hfirst := foldl_keepLarger_first (f := fun j => |a j i|) hr'
      (List.mem_cons_of_mem i ((hl k).mpr hk.1)) (hk.2.2 _ hlargest.1)
    exact hfirst.imp_right fun h => h.resolve_left hlargest.1.ne'

end Scan

lemma isPivot_searchPivot (a : Matrix (Fin n) (Fin n) K) (i : Fin n) :
    IsPivot a i (searchPivot a i) := isPivot_foldl fun _ => mem_after

/-- The rows in the order in which the critical sections bring them in. -/
def Schedule.rows {i : Fin n} (s : Schedule T i) : List (Fin n) :=
  s.critical.flatMap fun t => (after i).filter fun j => s.searcher j = t

lemma Schedule.mem_rows {i : Fin n} (s : Schedule T i) (j : Fin n) : j ∈ s.rows ↔ i < j := by
  have hthread : s.searcher j ∈ s.critical := s.critical_perm.mem_iff.mpr (List.mem_finRange _)
  simp [rows, hthread]

/-- The position of the critical section of the thread that looks at a row. -/
def Schedule.turn {i : Fin n} (s : Schedule T i) (j : Fin n) : ℕ :=
  s.critical.idxOf (s.searcher j)

lemma Schedule.pairwise_rows {i : Fin n} (s : Schedule T i) :
    s.rows.Pairwise fun j k => s.turn j < s.turn k ∨ (s.turn j = s.turn k ∧ j < k) := by
  have hcritical : s.critical.Pairwise fun t u => s.critical.idxOf t < s.critical.idxOf u := by
    have hnodup : s.critical.Nodup := s.critical_perm.nodup_iff.mpr (List.nodup_finRange T)
    refine List.pairwise_iff_getElem.mpr fun k l hk hl hlt => ?_
    rwa [hnodup.idxOf_getElem, hnodup.idxOf_getElem]
  refine List.pairwise_flatMap.mpr ⟨fun t _ => ?_, hcritical.imp fun hlt j hj k hk => ?_⟩
  · refine ((after_sorted i).filter _).imp_of_mem fun hj hk hlt => Or.inr ⟨?_, hlt⟩
    simp only [List.mem_filter, decide_eq_true_eq] at hj hk
    rw [turn, turn, hj.2, hk.2]
  · simp only [List.mem_filter, decide_eq_true_eq] at hj hk
    rw [turn, turn, hj.2, hk.2]
    exact Or.inl hlt

lemma searchPivotOmp_eq_foldl (schedule : ∀ i : Fin n, Schedule T i)
    (a : Matrix (Fin n) (Fin n) K) (i : Fin n) :
    searchPivotOmp schedule a i = (schedule i).rows.foldl (larger a i) i :=
  foldl_keepLarger_blocks _ le_rfl _

lemma isPivot_searchPivotOmp (schedule : ∀ i : Fin n, Schedule T i)
    (a : Matrix (Fin n) (Fin n) K) (i : Fin n) : IsPivot a i (searchPivotOmp schedule a i) := by
  rw [searchPivotOmp_eq_foldl]
  exact isPivot_foldl (schedule i).mem_rows

/-- The two searches select the same row exactly when no thread that looks at another
largest row has its turn before the thread that looks at the topmost one. -/
theorem searchPivotOmp_eq_iff (schedule : ∀ i : Fin n, Schedule T i)
    (a : Matrix (Fin n) (Fin n) K) (i : Fin n) :
    searchPivotOmp schedule a i = searchPivot a i ↔
      ∀ j, IsLeast {j | Largest a i j} j →
        ∀ k, Largest a i k → (schedule i).turn j ≤ (schedule i).turn k := by
  have hseq : ∀ {k}, Largest a i k → searchPivot a i ≤ k := fun hk =>
    (foldl_larger_first (fun _ => mem_after) (after_sorted i) hk).elim le_of_eq le_of_lt
  have homp := fun {k} => foldl_larger_first (a := a) (k := k) (schedule i).mem_rows
    (schedule i).pairwise_rows
  have homp_cases := foldl_larger_cases (a := a) (schedule i).mem_rows
  rw [← searchPivotOmp_eq_foldl] at homp homp_cases
  rcases foldl_larger_cases (a := a) (l := after i) (fun _ => mem_after) with ⟨hp, hnone⟩ | hp
  · rcases homp_cases with ⟨hq, _⟩ | hq
    · exact ⟨fun _ j hj => absurd hj.1 (hnone j), fun _ => hq.trans hp.symm⟩
    · exact absurd hq (hnone _)
  · have hleast : IsLeast {j | Largest a i j} (searchPivot a i) := ⟨hp, fun _ hk => hseq hk⟩
    constructor
    · intro heq j hj k hk
      rw [hj.unique hleast, ← heq]
      rcases homp hk with rfl | hlt | ⟨he, _⟩
      · exact le_rfl
      · exact hlt.le
      · exact he.le
    · intro hturn
      rcases homp_cases with ⟨_, hnone⟩ | hq
      · exact absurd hp (hnone _)
      rcases homp hp with heq | hlt | ⟨_, hlt⟩
      · exact heq
      · exact absurd hlt (hturn _ hleast _ hq).not_gt
      · exact absurd hlt (hseq hq).not_gt

/-- Two threads, one row each in the first column, where the second thread is the first
to enter the critical section. -/
def secondThreadFirst (i : Fin 3) : Schedule 2 i where
  searcher j := Fin.ofNat 2 (j - i - 1)
  critical := [1, 0]
  critical_perm := by decide
  swaps := .serial 0 _ _
  reductions := .serial 0 _ _

theorem searchPivotOmp_second :
    searchPivot !![(0 : ℚ), 0, 0; 1, 0, 0; -1, 0, 0] 0 = 1 ∧
      searchPivotOmp secondThreadFirst !![(0 : ℚ), 0, 0; 1, 0, 0; -1, 0, 0] 0 = 2 := by
  decide +kernel

end UnixProgramming.Determinant
