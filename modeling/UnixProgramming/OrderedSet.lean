import Mathlib

/-! Ordered sets with a key. The container is observed through its in-order
traversal, which is strictly increasing in the key; at most one element carries
any given key, so an insertion of a key already present changes nothing. -/
namespace UnixProgramming

/-- The in-order traversal of a search tree ordered by `key`. -/
structure OrderedSet (α : Type*) {κ : Type*} [LinearOrder κ] (key : α → κ) where
  elems : List α
  sorted : elems.Pairwise (fun a b => key a < key b)

namespace OrderedSet

variable {α κ : Type*} [LinearOrder κ] {key : α → κ}

instance : Membership α (OrderedSet α key) := ⟨fun s a => a ∈ s.elems⟩

instance [DecidableEq α] (s : OrderedSet α key) (a : α) : Decidable (a ∈ s) :=
  inferInstanceAs (Decidable (a ∈ s.elems))

def empty : OrderedSet α key := ⟨[], List.Pairwise.nil⟩

def lowerBound (s : OrderedSet α key) (k : κ) : Option α :=
  s.elems.find? (fun a => decide (k ≤ key a))

/-- Insertion into the traversal; an equal key keeps the element already there. -/
def insertElems (key : α → κ) (a : α) : List α → List α
  | [] => [a]
  | b :: bs =>
      if key a < key b then a :: b :: bs
      else if key a = key b then b :: bs
      else b :: insertElems key a bs

lemma mem_insertElems_of_mem {a b : α} {bs : List α} (h : b ∈ insertElems key a bs) :
    b = a ∨ b ∈ bs := by
  induction bs with
  | nil => exact Or.inl (by simpa [insertElems] using h)
  | cons c bs ih =>
    simp only [insertElems] at h
    split_ifs at h
    · simpa using h
    · exact Or.inr h
    · rcases List.mem_cons.mp h with rfl | h
      · simp
      · rcases ih h with rfl | h
        · exact Or.inl rfl
        · exact Or.inr (List.mem_cons_of_mem _ h)

lemma mem_insertElems {a b : α} {bs : List α} (hfresh : ∀ c ∈ bs, key c ≠ key a) :
    b ∈ insertElems key a bs ↔ b = a ∨ b ∈ bs := by
  induction bs with
  | nil => simp [insertElems]
  | cons c bs ih =>
    have hc : key a ≠ key c := (hfresh c (by simp)).symm
    have hi := ih fun d hd => hfresh d (List.mem_cons_of_mem c hd)
    simp only [insertElems, hc, ↓reduceIte]
    split_ifs
    · simp
    · simp only [List.mem_cons, hi]
      tauto

lemma mem_insertElems_of_injective (hkey : Function.Injective key) {a b : α} {bs : List α} :
    b ∈ insertElems key a bs ↔ b = a ∨ b ∈ bs := by
  induction bs with
  | nil => simp [insertElems]
  | cons c bs ih =>
    simp only [insertElems]
    split_ifs with hlt heq
    · simp
    · simp [hkey heq]
    · simp only [List.mem_cons, ih]
      tauto

lemma insertElems_sorted (a : α) {bs : List α} (h : bs.Pairwise (fun x y => key x < key y)) :
    (insertElems key a bs).Pairwise (fun x y => key x < key y) := by
  induction bs with
  | nil => simp [insertElems]
  | cons b bs ih =>
    obtain ⟨hb, hbs⟩ := List.pairwise_cons.mp h
    simp only [insertElems]
    split_ifs with hlt heq
    · refine List.pairwise_cons.mpr ⟨?_, h⟩
      intro c hc
      rcases List.mem_cons.mp hc with rfl | hc
      · exact hlt
      · exact hlt.trans (hb c hc)
    · exact h
    · refine List.pairwise_cons.mpr ⟨?_, ih hbs⟩
      intro c hc
      rcases mem_insertElems_of_mem hc with rfl | hc
      · exact lt_of_le_of_ne (le_of_not_gt hlt) (Ne.symm heq)
      · exact hb c hc

def insert (a : α) (s : OrderedSet α key) : OrderedSet α key :=
  ⟨insertElems key a s.elems, insertElems_sorted a s.sorted⟩

def erase (k : κ) (s : OrderedSet α key) : OrderedSet α key :=
  ⟨s.elems.filter (fun a => decide (key a ≠ k)), s.sorted.filter _⟩

lemma mem_elems {s : OrderedSet α key} {a : α} : a ∈ s.elems ↔ a ∈ s := Iff.rfl

@[simp] lemma notMem_empty (a : α) : a ∉ (empty : OrderedSet α key) := by
  simp [← mem_elems, empty]

lemma eq_of_key_eq {s : OrderedSet α key} {a b : α} (ha : a ∈ s) (hb : b ∈ s)
    (h : key a = key b) : a = b := by
  by_contra hne
  have hp : s.elems.Pairwise (fun x y => key x ≠ key y) := s.sorted.imp fun hlt => hlt.ne
  have : Std.Symm (fun x y : α => key x ≠ key y) := ⟨fun _ _ hxy => hxy.symm⟩
  exact hp.forall ha hb hne h

lemma nodup_elems (s : OrderedSet α key) : s.elems.Nodup :=
  s.sorted.imp fun hlt he => hlt.ne (congrArg key he)

lemma lowerBound_eq_none {s : OrderedSet α key} {k : κ} :
    s.lowerBound k = none ↔ ∀ a ∈ s, key a < k := by
  simp [lowerBound, List.find?_eq_none, ← mem_elems]

lemma lowerBound_eq_some {s : OrderedSet α key} {k : κ} {a : α} (h : s.lowerBound k = some a) :
    a ∈ s ∧ k ≤ key a ∧ ∀ b ∈ s, k ≤ key b → key a ≤ key b := by
  obtain ⟨hk, as, bs, he, hlt⟩ := List.find?_eq_some_iff_append.mp h
  have hs := s.sorted
  rw [he] at hs
  refine ⟨by simp [← mem_elems, he], by simpa using hk, ?_⟩
  intro b hb hkb
  rw [← mem_elems, he, List.mem_append, List.mem_cons] at hb
  rcases hb with hb | rfl | hb
  · simpa [hkb] using hlt b hb
  · exact le_rfl
  · exact ((List.pairwise_cons.mp (List.pairwise_append.mp hs).2.1).1 b hb).le

lemma lowerBound_of_mem {s : OrderedSet α key} {a : α} (ha : a ∈ s) :
    s.lowerBound (key a) = some a := by
  cases h : s.lowerBound (key a) with
  | none => exact absurd (lowerBound_eq_none.mp h a ha) (lt_irrefl _)
  | some b =>
    obtain ⟨hb, hle, hleast⟩ := lowerBound_eq_some h
    rw [eq_of_key_eq hb ha (le_antisymm (hleast a ha le_rfl) hle)]

lemma mem_insert {s : OrderedSet α key} {a b : α} (hfresh : ∀ c ∈ s, key c ≠ key a) :
    b ∈ s.insert a ↔ b = a ∨ b ∈ s := mem_insertElems hfresh

lemma mem_insert_of_injective (hkey : Function.Injective key) {s : OrderedSet α key} {a b : α} :
    b ∈ s.insert a ↔ b = a ∨ b ∈ s := mem_insertElems_of_injective hkey

lemma mem_erase {s : OrderedSet α key} {k : κ} {a : α} : a ∈ s.erase k ↔ a ∈ s ∧ key a ≠ k := by
  simp [erase, ← mem_elems]

lemma insertElems_perm {a : α} {bs : List α} (hfresh : ∀ c ∈ bs, key c ≠ key a) :
    (insertElems key a bs).Perm (a :: bs) := by
  induction bs with
  | nil => exact List.Perm.refl _
  | cons c bs ih =>
    have hc : key a ≠ key c := (hfresh c (by simp)).symm
    have hi := ih fun d hd => hfresh d (List.mem_cons_of_mem c hd)
    simp only [insertElems, hc, ↓reduceIte]
    split_ifs
    · exact List.Perm.refl _
    · exact (hi.cons c).trans (List.Perm.swap a c bs)

lemma insert_perm {s : OrderedSet α key} {a : α} (hfresh : ∀ c ∈ s, key c ≠ key a) :
    (s.insert a).elems.Perm (a :: s.elems) := insertElems_perm hfresh

lemma erase_perm [DecidableEq α] {s : OrderedSet α key} {a : α} (ha : a ∈ s) :
    s.elems.Perm (a :: (s.erase (key a)).elems) := by
  have hn := s.nodup_elems
  have he : (s.erase (key a)).elems = s.elems.erase a := by
    rw [hn.erase_eq_filter]
    apply List.filter_congr
    intro b hb
    have : key b = key a ↔ b = a := ⟨fun h => eq_of_key_eq hb ha h, fun h => congrArg key h⟩
    by_cases hba : b = a <;> simp [this, hba]
  rw [he]
  exact List.perm_cons_erase ha

lemma erase_of_forall_ne {s : OrderedSet α key} {k : κ} (h : ∀ a ∈ s, key a ≠ k) :
    (s.erase k).elems = s.elems :=
  List.filter_eq_self.mpr fun a ha => by simpa using h a ha

end OrderedSet
end UnixProgramming
