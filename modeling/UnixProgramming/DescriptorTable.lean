import Mathlib

/-! The descriptor table of a process: an array whose entries are empty or refer to
something open. A new entry goes to the lowest free index. -/
namespace UnixProgramming

abbrev DescriptorTable (α : Type*) := List (Option α)

namespace DescriptorTable

variable {α : Type*} (t : DescriptorTable α)

def lookup (fd : ℕ) : Option α := (t[fd]?).join

def lowestFree : ℕ := t.findIdx Option.isNone

def assign (fd : ℕ) (x : Option α) : DescriptorTable α :=
  (t ++ List.replicate (fd + 1 - t.length) none).set fd x

def allocate (x : α) : ℕ × DescriptorTable α := (t.lowestFree, t.assign t.lowestFree (some x))

def close (fd : ℕ) : DescriptorTable α := t.assign fd none

def dup2 (old new : ℕ) : DescriptorTable α :=
  match t.lookup old with
  | some x => t.assign new (some x)
  | none => t

/-- Some descriptor refers to it. -/
def Holds (x : α) : Prop := some x ∈ t

instance [DecidableEq α] (x : α) : Decidable (t.Holds x) := inferInstanceAs (Decidable (_ ∈ _))

variable {t}

lemma holds_iff {x : α} : t.Holds x ↔ ∃ fd, t.lookup fd = some x := by
  simp [Holds, lookup, List.mem_iff_getElem?, Option.join_eq_some_iff]

@[simp] lemma lookup_assign (fd : ℕ) (x : Option α) (i : ℕ) :
    (t.assign fd x).lookup i = if i = fd then x else t.lookup i := by
  have hlength : fd < (t ++ List.replicate (fd + 1 - t.length) none).length := by
    simp
    omega
  unfold lookup assign
  rw [List.getElem?_set]
  by_cases hi : i = fd
  · subst hi
    rw [if_pos rfl, if_pos rfl, if_pos hlength]
    rfl
  · rw [if_neg (Ne.symm hi), if_neg hi, List.getElem?_append]
    split_ifs with hlt
    · rfl
    · rw [List.getElem?_eq_none (not_lt.mp hlt), List.getElem?_replicate]
      split_ifs
      · rfl
      · rfl

lemma lookup_lowestFree : t.lookup t.lowestFree = none := by
  unfold lookup lowestFree
  by_cases h : t.findIdx Option.isNone < t.length
  · have hnone := List.findIdx_getElem (w := h)
    rw [List.getElem?_eq_getElem h, Option.isNone_iff_eq_none.mp hnone]
    rfl
  · rw [List.getElem?_eq_none (not_lt.mp h)]
    rfl

lemma lowestFree_eq {fd : ℕ} (h : t.lookup fd = none) (hlt : ∀ i < fd, t.lookup i ≠ none) :
    t.lowestFree = fd := by
  refine le_antisymm ?_ (not_lt.mp fun hfree => hlt _ hfree lookup_lowestFree)
  by_contra hle
  have hfd : fd < t.findIdx Option.isNone := not_le.mp hle
  have hlength : fd < t.length := hfd.trans_le List.findIdx_le_length
  have hsome := List.not_of_lt_findIdx hfd
  have hnone : t[fd] = none := by simpa [lookup, hlength] using h
  simp [hnone] at hsome

lemma ne_lowestFree {fd : ℕ} {x : α} (h : t.lookup fd = some x) : fd ≠ t.lowestFree := by
  rintro rfl
  rw [lookup_lowestFree] at h
  cases h

lemma lookup_allocate (x : α) (i : ℕ) :
    (t.allocate x).2.lookup i = if i = t.lowestFree then some x else t.lookup i :=
  lookup_assign t.lowestFree (some x) i

lemma lookup_allocate_of_eq {fd : ℕ} {x y : α} (h : t.lookup fd = some y) :
    (t.allocate x).2.lookup fd = some y := by
  rw [lookup_allocate, if_neg (ne_lowestFree h), h]

@[simp] lemma lookup_close (fd i : ℕ) :
    (t.close fd).lookup i = if i = fd then none else t.lookup i := lookup_assign fd none i

lemma lookup_dup2 {old new : ℕ} {x : α} (h : t.lookup old = some x) (i : ℕ) :
    (t.dup2 old new).lookup i = if i = new then some x else t.lookup i := by
  rw [dup2, h]
  exact lookup_assign new (some x) i

end DescriptorTable
end UnixProgramming
