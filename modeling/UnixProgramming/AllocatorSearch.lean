import UnixProgramming.AllocatorModel
import UnixProgramming.ByteHeap

/-! What the search loop of `alloc` finds, in terms of the segments the recorded
blocks stand for. Nothing here assumes that segments are disjoint. -/
namespace UnixProgramming.Allocator
open MachineInt ByteHeap

/-- The recorded blocks are those of the segments of the heap. -/
def Records (blocks : Blocks) (h : Heap) : Prop :=
  ∀ b, b ∈ blocks ↔ ∃ e ∈ h, MemoryBlock.make e.base e.size = b

def InBuffer (h : Heap) : Prop := ∀ e ∈ h, e.base + e.size < maxBufferSize

def Nearest (h : Heap) (c : ℕ) (e : Segment) : Prop :=
  e ∈ h ∧ e.base ≤ c ∧ ∀ f ∈ h, f.base ≤ c → f.base ≤ e.base

section Search

variable {blocks : Blocks} {h : Heap} (hrec : Records blocks h) (hin : InBuffer h)

lemma InBuffer.base_lt (hin : InBuffer h) {e : Segment} (he : e ∈ h) :
    e.base < maxBufferSize := by
  have := hin e he
  omega

lemma InBuffer.size_lt (hin : InBuffer h) {e : Segment} (he : e ∈ h) : e.size < 2^32 := by
  have := hin e he
  norm_num [maxBufferSize] at *
  omega

lemma InBuffer.getEnd_make (hin : InBuffer h) {e : Segment} (he : e ∈ h) :
    (MemoryBlock.make e.base e.size).getEnd = e.base + e.size :=
  MemoryBlock.make_getEnd (hin.base_lt he) (hin.size_lt he)

include hrec

lemma size_eq_of_base_eq {e f : Segment} (he : e ∈ h) (hf : f ∈ h) (hb : e.base = f.base) :
    e.size = f.size := by
  have he' := (hrec _).mpr ⟨e, he, rfl⟩
  have hf' := (hrec _).mpr ⟨f, hf, rfl⟩
  have hk : (MemoryBlock.make e.base e.size).start = (MemoryBlock.make f.base f.size).start := by
    rw [hb]
    rfl
  exact congrArg MemoryBlock.blockSize (OrderedSet.eq_of_key_eq he' hf' hk)

theorem findOccupiedBlock_of_mem {a : SmallAllocator} (ha : a.occupiedBlocks = blocks)
    {e : Segment} (he : e ∈ h) :
    findOccupiedBlock a e.base = some (MemoryBlock.make e.base e.size) := by
  have hb := (hrec _).mpr ⟨e, he, rfl⟩
  rw [findOccupiedBlock, ha]
  exact OrderedSet.lowerBound_of_mem hb

include hin

lemma lowerBound_eq_none_iff {c : ℕ} (n : ℕ) (hc : c < maxBufferSize) :
    blocks.lowerBound (MemoryBlock.make c n).start = none ↔ ∀ e ∈ h, c < e.base := by
  rw [OrderedSet.lowerBound_eq_none, MemoryBlock.make_start n hc]
  constructor
  · intro hlt e he
    have := hlt _ ((hrec _).mpr ⟨e, he, rfl⟩)
    rw [MemoryBlock.make_start _ (hin.base_lt he)] at this
    omega
  · intro hlt b hb
    obtain ⟨e, he, rfl⟩ := (hrec b).mp hb
    have := hlt e he
    rw [MemoryBlock.make_start _ (hin.base_lt he)]
    omega

lemma lowerBound_eq_some_nearest {c : ℕ} {n : ℕ} (hc : c < maxBufferSize) {it : MemoryBlock}
    (hit : blocks.lowerBound (MemoryBlock.make c n).start = some it) :
    ∃ e, Nearest h c e ∧ MemoryBlock.make e.base e.size = it := by
  obtain ⟨hb, hle, hleast⟩ := OrderedSet.lowerBound_eq_some hit
  obtain ⟨e, he, rfl⟩ := (hrec it).mp hb
  rw [MemoryBlock.make_start n hc, MemoryBlock.make_start _ (hin.base_lt he)] at *
  refine ⟨e, ⟨he, by omega, ?_⟩, rfl⟩
  intro f hf hfc
  have := hleast _ ((hrec _).mpr ⟨f, hf, rfl⟩)
  rw [MemoryBlock.make_start _ (hin.base_lt hf)] at this
  have := this (by omega)
  omega

/-- Where the search stops, everything from its start up to the returned index is
covered, and the nearest segment below has ended there. -/
theorem allocLoop_eq_some {size current c : ℕ} (hsize : size < 2^32)
    (hcur : current < maxBufferSize) (hs : allocLoop blocks size current = some c) :
    current ≤ c ∧ c + size < maxBufferSize ∧ (∀ i, current ≤ i → i < c → Covered h i) ∧
      ∀ e, Nearest h c e → e.base + e.size ≤ c := by
  fun_induction allocLoop blocks size current with
  | case1 => simp at hs
  | case2 current newBlock hroom hit =>
    cases hs
    rw [MemoryBlock.make_getEnd hcur hsize] at hroom
    have hnone := (lowerBound_eq_none_iff hrec hin size hcur).mp hit
    refine ⟨le_rfl, by omega, fun i h₁ h₂ => by omega, ?_⟩
    intro e he
    have := hnone e he.1
    have := he.2.1
    omega
  | case3 current newBlock hroom it hit hend =>
    cases hs
    rw [MemoryBlock.make_getEnd hcur hsize] at hroom
    obtain ⟨e, he, rfl⟩ := lowerBound_eq_some_nearest hrec hin hcur hit
    rw [hin.getEnd_make he.1] at hend
    refine ⟨le_rfl, by omega, fun i h₁ h₂ => by omega, ?_⟩
    intro f hf
    have hb : e.base = f.base := le_antisymm (hf.2.2 e he.1 he.2.1) (he.2.2 f hf.1 hf.2.1)
    have := size_eq_of_base_eq hrec he.1 hf.1 hb
    omega
  | case4 current newBlock hroom it hit hend ih =>
    obtain ⟨e, he, rfl⟩ := lowerBound_eq_some_nearest hrec hin hcur hit
    have hlt := hin e he.1
    rw [hin.getEnd_make he.1] at hend ih hs
    obtain ⟨hle, hfit, hcov, hnear⟩ := ih hlt hs
    refine ⟨by omega, hfit, ?_, hnear⟩
    intro i h₁ h₂
    by_cases hi : i < e.base + e.size
    · exact ⟨e, he.1, by have := he.2.1; omega, hi⟩
    · exact hcov i (by omega) h₂

theorem allocLoop_eq_none {size current : ℕ} (hsize : size < 2^32)
    (hcur : current < maxBufferSize) (hs : allocLoop blocks size current = none) :
    ∃ c, maxBufferSize ≤ c + size ∧ ∀ i, current ≤ i → i < c → Covered h i := by
  fun_induction allocLoop blocks size current with
  | case1 current newBlock hroom =>
    rw [MemoryBlock.make_getEnd hcur hsize] at hroom
    exact ⟨current, hroom, fun i h₁ h₂ => by omega⟩
  | case2 => simp at hs
  | case3 => simp at hs
  | case4 current newBlock hroom it hit hend ih =>
    obtain ⟨e, he, rfl⟩ := lowerBound_eq_some_nearest hrec hin hcur hit
    rw [hin.getEnd_make he.1] at hend ih hs
    obtain ⟨c, hfull, hcov⟩ := ih (hin e he.1) hs
    refine ⟨c, hfull, ?_⟩
    intro i h₁ h₂
    by_cases hi : i < e.base + e.size
    · exact ⟨e, he.1, by have := he.2.1; omega, hi⟩
    · exact hcov i (by omega) h₂

end Search

lemma base_ne_of_nearest_ended {h : Heap} {c : ℕ} (hpos : ∀ e ∈ h, 0 < e.size)
    (hnear : ∀ e, Nearest h c e → e.base + e.size ≤ c) {e : Segment} (he : e ∈ h) :
    e.base ≠ c := by
  intro hb
  have := hnear e ⟨he, hb.le, fun f _ hf => hb ▸ hf⟩
  have := hpos e he
  omega

end UnixProgramming.Allocator
