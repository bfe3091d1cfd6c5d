import Mathlib

/-! A heap of independent byte arrays. A segment owns its bytes: storing into one
segment has no effect on any other, whatever their addresses are. A cell that was
never stored to holds no known value. -/
namespace UnixProgramming.ByteHeap

structure Segment where
  base : ℕ
  size : ℕ
  bytes : ℕ → Option UInt8

abbrev Heap := List Segment

def Segment.Covers (e : Segment) (i : ℕ) : Prop := e.base ≤ i ∧ i < e.base + e.size

def Segment.Apart (e f : Segment) : Prop := e.base + e.size ≤ f.base ∨ f.base + f.size ≤ e.base

instance (e : Segment) (i : ℕ) : Decidable (e.Covers i) := inferInstanceAs (Decidable (_ ∧ _))
instance (e f : Segment) : Decidable (e.Apart f) := inferInstanceAs (Decidable (_ ∨ _))

lemma Segment.Apart.symm {e f : Segment} (h : e.Apart f) : f.Apart e := Or.symm h

def Covered (h : Heap) (i : ℕ) : Prop := ∃ e ∈ h, e.Covers i

instance (h : Heap) (i : ℕ) : Decidable (Covered h i) := inferInstanceAs (Decidable (∃ e ∈ h, _))

/-- The lowest address outside every segment. -/
def LeastFree (h : Heap) (c : ℕ) : Prop := (∀ i < c, Covered h i) ∧ ¬ Covered h c

def bases (h : Heap) : List ℕ := h.map Segment.base

def shape (h : Heap) : List (ℕ × ℕ) := h.map fun e => (e.base, e.size)

def allocate (base size : ℕ) (h : Heap) : Heap := ⟨base, size, fun _ => none⟩ :: h

def release (base : ℕ) (h : Heap) : Heap := h.eraseP (fun e => e.base = base)

def Segment.store (offset : ℕ) (value : UInt8) (e : Segment) : Segment :=
  { e with bytes := Function.update e.bytes offset (some value) }

def store (base offset : ℕ) (value : UInt8) (h : Heap) : Heap :=
  h.map fun e => if e.base = base then e.store offset value else e

def Segment.moved (base size : ℕ) (e : Segment) : Segment :=
  ⟨base, size, fun i => if i < min size e.size then e.bytes i else none⟩

def find (base : ℕ) (h : Heap) : Option Segment := h.find? (fun e => e.base = base)

/-- Move the segment at `base` to `newBase`, keeping the leading cells. -/
def resize (base newBase size : ℕ) (h : Heap) : Heap :=
  match find base h with
  | some e => e.moved newBase size :: release base h
  | none => h

lemma bases_eq_shape (h : Heap) : bases h = (shape h).map Prod.fst := by
  simp [bases, shape]

lemma forall_shape {P : ℕ → ℕ → Prop} {h : Heap} :
    (∀ e ∈ h, P e.base e.size) ↔ ∀ x ∈ shape h, P x.1 x.2 := by
  simp [shape]

lemma exists_shape {P : ℕ → ℕ → Prop} {h : Heap} :
    (∃ e ∈ h, P e.base e.size) ↔ ∃ x ∈ shape h, P x.1 x.2 := by
  simp [shape]

lemma find_eq_some {base : ℕ} {h : Heap} {e : Segment} (he : find base h = some e) :
    e ∈ h ∧ e.base = base :=
  ⟨List.mem_of_find?_eq_some he, by simpa using List.find?_some he⟩

lemma find_of_mem {base : ℕ} {h : Heap} (hb : base ∈ bases h) : ∃ e, find base h = some e := by
  obtain ⟨e, he, rfl⟩ := List.mem_map.mp hb
  exact Option.isSome_iff_exists.mp (List.find?_isSome.mpr ⟨e, he, by simp⟩)

lemma release_cons (base : ℕ) (e : Segment) (h : Heap) :
    release base (e :: h) = if e.base = base then h else e :: release base h := by
  simp only [release, List.eraseP_cons]
  by_cases hb : e.base = base <;> simp [hb]

lemma release_sublist (base : ℕ) (h : Heap) : (release base h).Sublist h := List.eraseP_sublist

lemma mem_release {base : ℕ} {h : Heap} (hd : (bases h).Nodup) {e : Segment} :
    e ∈ release base h ↔ e ∈ h ∧ e.base ≠ base := by
  induction h with
  | nil => simp [release]
  | cons f h ih =>
    obtain ⟨hf, hd'⟩ := List.nodup_cons.mp hd
    rw [release_cons]
    by_cases hb : f.base = base
    · have hne : ∀ g ∈ h, g.base ≠ base := fun g hg he =>
        hf (List.mem_map.mpr ⟨g, hg, he.trans hb.symm⟩)
      simp only [hb, ↓reduceIte, List.mem_cons]
      constructor
      · exact fun he => ⟨Or.inr he, hne e he⟩
      · rintro ⟨rfl | he, hn⟩
        · exact absurd hb hn
        · exact he
    · simp only [hb, ↓reduceIte, List.mem_cons, ih hd']
      constructor
      · rintro (rfl | ⟨he, hn⟩)
        · exact ⟨Or.inl rfl, hb⟩
        · exact ⟨Or.inr he, hn⟩
      · rintro ⟨rfl | he, hn⟩
        · exact Or.inl rfl
        · exact Or.inr ⟨he, hn⟩

lemma bases_release_nodup {base : ℕ} {h : Heap} (hd : (bases h).Nodup) :
    (bases (release base h)).Nodup := hd.sublist ((release_sublist base h).map _)

@[simp] lemma shape_store (base offset : ℕ) (value : UInt8) (h : Heap) :
    shape (store base offset value h) = shape h := by
  simp only [shape, store, List.map_map]
  apply List.map_congr_left
  intro e _
  simp only [Function.comp_apply]
  split_ifs <;> rfl

lemma exists_free (h : Heap) : ∃ c, ¬ Covered h c := by
  refine ⟨(h.map fun e => e.base + e.size).sum, ?_⟩
  rintro ⟨e, he, hcov⟩
  have hle := List.le_sum_of_mem (List.mem_map_of_mem (f := fun e : Segment => e.base + e.size) he)
  exact absurd hcov.2 (not_lt.mpr hle)

def firstFree (h : Heap) : ℕ := Nat.find (exists_free h)

lemma leastFree_iff {h : Heap} {c : ℕ} : LeastFree h c ↔ c = firstFree h := by
  rw [eq_comm, firstFree, Nat.find_eq_iff]
  simp only [not_not]
  exact and_comm

lemma mem_store {base offset : ℕ} {value : UInt8} {h : Heap} {e : Segment} :
    e ∈ store base offset value h ↔
      ∃ f ∈ h, (if f.base = base then f.store offset value else f) = e := List.mem_map

end UnixProgramming.ByteHeap
