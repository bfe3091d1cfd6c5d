import UnixProgramming.AllocatorClient

/-! The allocator's bookkeeping against the client's table of live segments. -/
namespace UnixProgramming.Allocator
open MachineInt ByteHeap StepRuns

def recorded (a : SmallAllocator) : List (ℕ × ℕ) :=
  a.occupiedBlocks.elems.map fun b => (b.getStart, b.blockSize)

/-- The records are exactly the table of live allocations, one each, and no two live
allocations share an address. -/
def ExactTable (s : Client) : Prop :=
  (recorded s.allocator).Perm (shape s.live) ∧ (bases s.live).Nodup

instance (s : Client) : Decidable (ExactTable s) := inferInstanceAs (Decidable (_ ∧ _))

lemma shape_nodup {h : Heap} (hd : (bases h).Nodup) : (shape h).Nodup := by
  rw [bases_eq_shape] at hd
  exact hd.of_map

lemma Consistent.recorded_nodup {a : SmallAllocator} {h : Heap} (hc : Consistent a h) :
    (recorded a).Nodup := by
  refine (List.nodup_map_iff_inj_on a.occupiedBlocks.nodup_elems).mpr ?_
  intro b hb b' hb' he
  obtain ⟨e, hm, rfl⟩ := (hc.records b).mp hb
  obtain ⟨e', hm', rfl⟩ := (hc.records b').mp hb'
  rw [MemoryBlock.make_getStart _ (hc.inside.base_lt hm),
    MemoryBlock.make_getStart _ (hc.inside.base_lt hm')] at he
  obtain ⟨h₁, h₂⟩ := Prod.mk.inj he
  rw [h₁]
  exact congrArg _ h₂

lemma Consistent.exactTable {s : Client} (hc : Consistent s.allocator s.live) : ExactTable s := by
  refine ⟨(List.perm_ext_iff_of_nodup hc.recorded_nodup (shape_nodup hc.distinct)).mpr ?_,
    hc.distinct⟩
  intro x
  simp only [recorded, shape, List.mem_map]
  constructor
  · rintro ⟨b, hb, rfl⟩
    obtain ⟨e, he, rfl⟩ := (hc.records b).mp hb
    exact ⟨e, he, by rw [MemoryBlock.make_getStart _ (hc.inside.base_lt he)]; rfl⟩
  · rintro ⟨e, he, rfl⟩
    exact ⟨_, (hc.records _).mpr ⟨e, he, rfl⟩,
      by rw [MemoryBlock.make_getStart _ (hc.inside.base_lt he)]; rfl⟩

lemma not_exactTable_zero_zero : ¬ Throughout step ExactTable start [.alloc 0, .alloc 0] := by
  decide +kernel

theorem exactTable_fails_zero_size :
    ¬ ∀ ops, Guarded step UsesLive start ops → Throughout step ExactTable start ops :=
  fun h => not_exactTable_zero_zero (h _ (by decide +kernel))

/-- The table is exact along all runs whose requests are drawn from `sizes` just when
`sizes` does not contain zero. -/
theorem exactTable_iff_zero_not_requested (sizes : Set UInt32) :
    (∀ ops, Guarded step (fun s o => UsesLive s o ∧ o.SizeMeets (· ∈ sizes)) start ops →
      Throughout step ExactTable start ops) ↔ 0 ∉ sizes := by
  constructor
  · intro h hz
    have hops : Guarded step (fun s o => UsesLive s o ∧ o.SizeMeets (· = 0)) start
        [.alloc 0, .alloc 0] := by decide +kernel
    refine not_exactTable_zero_zero (h _ (hops.imp ?_))
    rintro s o ⟨huse, hsize⟩
    exact ⟨huse, hsize.imp fun n hn => hn ▸ hz⟩
  · intro hz ops hops
    refine (run_consistent consistent_start (hops.imp ?_)).imp fun s hs => hs.exactTable
    rintro s o ⟨huse, hsize⟩
    refine ⟨huse, hsize.imp fun n hn => ?_⟩
    exact UInt32.pos_iff_ne_zero.mpr fun he => hz (he ▸ hn)

def HintCovered (a : SmallAllocator) : Prop :=
  ∀ i < a.firstFreeIndex, ∃ b ∈ a.occupiedBlocks, b.getStart ≤ i ∧ i < b.getEnd

lemma Consistent.hintCovered {a : SmallAllocator} {h : Heap} (hc : Consistent a h) :
    HintCovered a := by
  intro i hi
  obtain ⟨e, he, hei⟩ := hc.covered i hi
  refine ⟨_, (hc.records _).mpr ⟨e, he, rfl⟩, ?_⟩
  rw [MemoryBlock.make_getStart _ (hc.inside.base_lt he), hc.inside.getEnd_make he]
  exact hei

lemma Consistent.initial {a : SmallAllocator} (hc : Consistent a []) :
    a.firstFreeIndex = 0 ∧ a.occupiedBlocks.elems = [] := by
  constructor
  · by_contra hne
    obtain ⟨e, he, _⟩ := hc.covered 0 (Nat.pos_of_ne_zero hne)
    simp at he
  · apply List.eq_nil_iff_forall_not_mem.mpr
    intro b hb
    obtain ⟨e, he, _⟩ := (hc.records b).mp hb
    simp at he

/-- Along every admissible run the hint never passes an uncovered byte, and once every
live block has been freed the bookkeeping is back in its initial state. -/
theorem hint_covered_and_no_leak (ops : List Op) (hops : Guarded step Admissible start ops) :
    Throughout step (fun s => HintCovered s.allocator ∧
      (s.live = [] → s.allocator.firstFreeIndex = 0 ∧
        s.allocator.occupiedBlocks.elems = [])) start ops := by
  refine (run_consistent consistent_start hops).imp ?_
  intro s hc
  refine ⟨hc.hintCovered, fun hl => ?_⟩
  rw [hl] at hc
  exact hc.initial

theorem hint_covered_and_no_leak_sample :
    Throughout step (fun s => HintCovered s.allocator ∧
      (s.live = [] → s.allocator.firstFreeIndex = 0 ∧
        s.allocator.occupiedBlocks.elems = [])) start
      [.alloc 1, .alloc 10, .free 0, .alloc 10, .reAlloc 1 3 (fun _ => 0), .free 0, .free 11] :=
  hint_covered_and_no_leak _ (by decide +kernel)

end UnixProgramming.Allocator
