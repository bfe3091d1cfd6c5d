import Mathlib

/-! Scans that keep the element of largest value seen so far. The first of several
largest elements wins, so a scan is `List.argmax`, and scanning the winners of blocks is
scanning the blocks one after the other. -/
namespace UnixProgramming

variable {α ι β : Type*} [LinearOrder β] {f : α → β}

def keepLarger (f : α → β) (m x : α) : α := if f x > f m then x else m

lemma keepLarger_of_le {m x : α} (h : f x ≤ f m) : keepLarger f m x = m := if_neg (not_lt.mpr h)

lemma keepLarger_assoc (m x y : α) :
    keepLarger f (keepLarger f m x) y = keepLarger f m (keepLarger f x y) := by
  unfold keepLarger
  split_ifs <;> first | rfl | order

theorem argmax_cons_eq (m : α) (l : List α) :
    List.argmax f (m :: l) = some (l.foldl (keepLarger f) m) := by
  unfold List.argmax
  rw [List.foldl_cons, List.argAux]
  induction l generalizing m with
  | nil => rfl
  | cons x l ih =>
    rw [List.foldl_cons, List.foldl_cons, ← ih]
    by_cases h : f m < f x <;> simp [List.argAux, keepLarger, h]

lemma foldl_keepLarger_mem (m : α) (l : List α) : l.foldl (keepLarger f) m ∈ m :: l :=
  List.argmax_mem (argmax_cons_eq m l)

lemma le_foldl_keepLarger {m x : α} {l : List α} (hx : x ∈ m :: l) :
    f x ≤ f (l.foldl (keepLarger f) m) :=
  List.le_of_mem_argmax hx (argmax_cons_eq m l)

/-- In a scan along a relation the winner comes before every other largest element. -/
theorem foldl_keepLarger_first [DecidableEq α] {r : α → α → Prop} {m x : α} {l : List α}
    (hl : (m :: l).Pairwise r) (hx : x ∈ m :: l) (h : f (l.foldl (keepLarger f) m) ≤ f x) :
    l.foldl (keepLarger f) m = x ∨ r (l.foldl (keepLarger f) m) x := by
  have hw := foldl_keepLarger_mem (f := f) m l
  have hle := List.index_of_argmax (argmax_cons_eq m l) hx h
  rcases hle.eq_or_lt with he | hlt
  · exact Or.inl ((List.idxOf_inj hw).mp he)
  · right
    have hr := List.pairwise_iff_getElem.mp hl _ _ (List.idxOf_lt_length_of_mem hw)
      (List.idxOf_lt_length_of_mem hx) hlt
    simpa using hr

lemma keepLarger_foldl (m x : α) (l : List α) :
    keepLarger f m (l.foldl (keepLarger f) x) = l.foldl (keepLarger f) (keepLarger f m x) := by
  induction l generalizing x with
  | nil => rfl
  | cons y l ih => rw [List.foldl_cons, List.foldl_cons, ih, keepLarger_assoc]

/-- The winners of the blocks, every block scanned from `x`, are scanned. -/
theorem foldl_keepLarger_blocks (block : ι → List α) {m x : α} (h : f x ≤ f m) (ts : List ι) :
    ts.foldl (fun m t => keepLarger f m ((block t).foldl (keepLarger f) x)) m =
      (ts.flatMap block).foldl (keepLarger f) m := by
  induction ts generalizing m with
  | nil => rfl
  | cons t ts ih =>
    have hstep : keepLarger f m ((block t).foldl (keepLarger f) x) =
        (block t).foldl (keepLarger f) m := by
      rw [keepLarger_foldl, keepLarger_of_le h]
    have hle : f x ≤ f ((block t).foldl (keepLarger f) m) :=
      h.trans (le_foldl_keepLarger (by simp))
    rw [List.foldl_cons, hstep, ih hle, List.flatMap_cons, List.foldl_append]

end UnixProgramming
