import UnixProgramming.StepRuns

/-! Lists of parts of a system, one of which is replaced. -/
namespace UnixProgramming.ListUpdates

variable {α : Type*} {l : List α} {i : ℕ} {x y : α}

lemma forall_mem_set {P : α → Prop} (h : ∀ x ∈ l, P x) (hy : P y) : ∀ x ∈ l.set i y, P x := by
  intro x hx
  rcases List.mem_or_eq_of_mem_set hx with hx | rfl
  · exact h x hx
  · exact hy

lemma modify_eq_set (h : l[i]? = some x) (f : α → α) : l.modify i f = l.set i (f x) := by
  rw [List.modify_eq_set_getElem?, h]
  rfl

lemma getElem?_set_cases {j : ℕ} (h : (l.set i y)[j]? = some x) :
    j = i ∧ x = y ∨ j ≠ i ∧ l[j]? = some x := by
  rcases eq_or_ne j i with rfl | hne
  · have hlt : j < l.length := by
      simpa using (List.getElem?_eq_some_iff.mp h).1
    rw [List.getElem?_set_self hlt] at h
    exact Or.inl ⟨rfl, (Option.some.inj h).symm⟩
  · rw [List.getElem?_set_ne hne.symm] at h
    exact Or.inr ⟨hne, h⟩

lemma forall_getElem?_set {P : ℕ → α → Prop} (h : ∀ j x, l[j]? = some x → P j x) (hy : P i y) :
    ∀ j x, (l.set i y)[j]? = some x → P j x := by
  intro j x hj
  rcases getElem?_set_cases hj with ⟨rfl, rfl⟩ | ⟨-, hold⟩
  · exact hy
  · exact h j x hold

lemma exists_getElem?_set {Q : α → Prop} {j : ℕ} (h : ∃ x, l[j]? = some x ∧ Q x)
    (hy : ∀ x, l[i]? = some x → Q x → Q y) : ∃ x, (l.set i y)[j]? = some x ∧ Q x := by
  obtain ⟨x, hj, hx⟩ := h
  rcases eq_or_ne j i with rfl | hne
  · obtain ⟨hlt, -⟩ := List.getElem?_eq_some_iff.mp hj
    exact ⟨y, List.getElem?_set_self hlt, hy x hj hx⟩
  · exact ⟨x, (List.getElem?_set_ne hne.symm).trans hj, hx⟩

lemma exists_mem_set {Q : α → Prop} (h : l[i]? = some x) (hex : ∃ z ∈ l, Q z) (hy : Q x → Q y) :
    ∃ z ∈ l.set i y, Q z := by
  obtain ⟨z, hmem, hz⟩ := hex
  obtain ⟨j, hj⟩ := List.mem_iff_getElem?.mp hmem
  have hset : ∃ w, (l.set i y)[j]? = some w ∧ Q w := by
    refine exists_getElem?_set ⟨z, hj, hz⟩ fun w hw hQ => hy ?_
    rwa [Option.some.inj (h.symm.trans hw)]
  obtain ⟨w, hw, hQ⟩ := hset
  exact ⟨w, List.mem_of_getElem? hw, hQ⟩

lemma countP_set_add (h : l[i]? = some x) (p : α → Bool) (y : α) :
    (l.set i y).countP p + (p x).toNat = l.countP p + (p y).toNat := by
  induction l generalizing i with
  | nil => simp at h
  | cons z l ih =>
    cases i with
    | zero =>
      obtain rfl : z = x := by simpa using h
      cases hz : p z <;> cases hy : p y <;> simp [hz, hy]
    | succ i =>
      have hrest := ih (by simpa using h)
      simp only [List.set_cons_succ, List.countP_cons]
      omega

lemma sum_map_set_add (h : l[i]? = some x) (f : α → ℕ) (y : α) :
    ((l.set i y).map f).sum + f x = (l.map f).sum + f y := by
  induction l generalizing i with
  | nil => simp at h
  | cons z l ih =>
    cases i with
    | zero =>
      obtain rfl : z = x := by simpa using h
      simp only [List.set_cons_zero, List.map_cons, List.sum_cons]
      omega
    | succ i =>
      have hrest := ih (by simpa using h)
      simp only [List.set_cons_succ, List.map_cons, List.sum_cons]
      omega

lemma sum_map_set_lt {f : α → ℕ} (h : l[i]? = some x) (hlt : f y < f x) :
    ((l.set i y).map f).sum < (l.map f).sum := by
  have hsum := sum_map_set_add h f y
  omega

/-- One element at most is replaced. -/
def Replaced (l l' : List α) : Prop := ∃ i x, l' = l.set i x

lemma Replaced.length_eq {l' : List α} (h : Replaced l l') : l'.length = l.length := by
  obtain ⟨i, x, rfl⟩ := h
  exact List.length_set

/-- A system whose steps replace its parts keeps their number. -/
theorem length_eq_of_run {σ ο : Type*} {step : σ → ο → Option σ} {parts : σ → List α}
    (hstep : ∀ s o s', step s o = some s' → Replaced (parts s) (parts s')) {s s' : σ}
    {os : List ο} (h : os.foldlM step s = some s') : (parts s').length = (parts s).length :=
  StepRuns.invariant_of_run (P := fun t => (parts t).length = (parts s).length)
    (fun t o t' ht hto => (hstep t o t' hto).length_eq.trans ht) rfl h

end UnixProgramming.ListUpdates
