import UnixProgramming.OrderedSet

/-! Ordered maps: sets of key-value pairs ordered by the key. -/
namespace UnixProgramming

abbrev OrderedMap (κ β : Type*) [LinearOrder κ] := OrderedSet (κ × β) Prod.fst

namespace OrderedMap

variable {κ β : Type*} [LinearOrder κ]

def getD (m : OrderedMap κ β) (k : κ) (default : β) : β :=
  match m.elems.find? (fun x => decide (x.1 = k)) with
  | some x => x.2
  | none => default

def set (m : OrderedMap κ β) (k : κ) (v : β) : OrderedMap κ β :=
  (OrderedSet.erase k m).insert (k, v)

lemma mem_set {m : OrderedMap κ β} {k : κ} {v : β} {x : κ × β} :
    x ∈ m.set k v ↔ x = (k, v) ∨ (x ∈ m ∧ x.1 ≠ k) := by
  rw [set, OrderedSet.mem_insert, OrderedSet.mem_erase]
  intro c hc
  exact (OrderedSet.mem_erase.mp hc).2

lemma getD_of_mem {m : OrderedMap κ β} {k : κ} {v : β} (h : (k, v) ∈ m) (default : β) :
    m.getD k default = v := by
  unfold getD
  cases hf : m.elems.find? (fun x => decide (x.1 = k)) with
  | none =>
    have := List.find?_eq_none.mp hf (k, v) h
    simp at this
  | some x =>
    have hx : x.1 = k := by simpa using List.find?_some hf
    have he := OrderedSet.eq_of_key_eq (List.mem_of_find?_eq_some hf) h hx
    simp [he]

lemma getD_of_forall_ne {m : OrderedMap κ β} {k : κ} (h : ∀ x ∈ m, x.1 ≠ k) (default : β) :
    m.getD k default = default := by
  have hf : m.elems.find? (fun x => decide (x.1 = k)) = none :=
    List.find?_eq_none.mpr fun x hx => by simpa using h x hx
  simp [getD, hf]

lemma getD_set (m : OrderedMap κ β) (k l : κ) (v default : β) :
    (m.set k v).getD l default = if l = k then v else m.getD l default := by
  split_ifs with hl
  · rw [hl]
    exact getD_of_mem (mem_set.mpr (Or.inl rfl)) default
  · by_cases h : ∃ w, (l, w) ∈ m
    · obtain ⟨w, hw⟩ := h
      rw [getD_of_mem hw, getD_of_mem (mem_set.mpr (Or.inr ⟨hw, hl⟩))]
    · have hm : ∀ x ∈ m, x.1 ≠ l := fun x hx he => h ⟨x.2, by rw [← he]; exact hx⟩
      rw [getD_of_forall_ne hm, getD_of_forall_ne]
      intro x hx
      rcases mem_set.mp hx with rfl | ⟨hx, _⟩
      · exact Ne.symm hl
      · exact hm x hx

end OrderedMap
end UnixProgramming
