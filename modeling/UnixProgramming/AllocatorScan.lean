import UnixProgramming.AllocatorBookkeeping
import UnixProgramming.AllocatorDisjoint

/-! The search of `alloc` against a naive scan of the buffer, and what it means that it
throws. -/
namespace UnixProgramming.Allocator
open MachineInt ByteHeap StepRuns

/-- A recorded block covers the index. -/
def Occupied (a : SmallAllocator) (i : ℕ) : Prop :=
  ∃ b ∈ a.occupiedBlocks, b.getStart ≤ i ∧ i < b.getEnd

instance (a : SmallAllocator) (i : ℕ) : Decidable (Occupied a i) :=
  inferInstanceAs (Decidable (∃ b ∈ a.occupiedBlocks.elems, _))

def RecordsApart (a : SmallAllocator) : Prop :=
  a.occupiedBlocks.elems.Pairwise fun b b' => b.getEnd ≤ b'.getStart ∨ b'.getEnd ≤ b.getStart

lemma exists_unoccupied (a : SmallAllocator) : ∃ c, ¬ Occupied a c := by
  refine ⟨(a.occupiedBlocks.elems.map MemoryBlock.getEnd).sum, ?_⟩
  rintro ⟨b, hb, -, hend⟩
  have hle : b.getEnd ≤ _ := List.le_sum_of_mem (List.mem_map_of_mem hb)
  omega

/-- The least index that no recorded block covers, found by trying one after the other. -/
def scan (a : SmallAllocator) : ℕ := Nat.find (exists_unoccupied a)

/-- The block is placed at the scanned index and nothing else is recorded, or, when it
does not end before the end of the buffer, the call throws and changes nothing. -/
def AgreesWithScan (a : SmallAllocator) (size : ℕ) : Prop :=
  if scan a + size < maxBufferSize then
    (alloc a size).1 = .ok (scan a) ∧
      (recorded (alloc a size).2).Perm ((scan a, size) :: recorded a)
  else alloc a size = (.error .badAlloc, a)

/-- A call that throws `std::bad_alloc` leaves the whole allocator as it was. -/
def ThrowsUnchanged (a : SmallAllocator) : Prop :=
  (∀ size, (alloc a size).1 = .error .badAlloc → (alloc a size).2 = a) ∧
    ∀ arbitrary pointer size, (reAlloc arbitrary a pointer size).1 = .error .badAlloc →
      (reAlloc arbitrary a pointer size).2 = a

section Scan

variable {a : SmallAllocator} {h : Heap}

lemma Consistent.occupied_iff (hc : Consistent a h) {i : ℕ} : Occupied a i ↔ Covered h i := by
  constructor
  · rintro ⟨b, hb, hi⟩
    obtain ⟨e, he, rfl⟩ := (hc.records b).mp hb
    rw [MemoryBlock.make_getStart _ (hc.inside.base_lt he), hc.inside.getEnd_make he] at hi
    exact ⟨e, he, hi⟩
  · rintro ⟨e, he, hi⟩
    refine ⟨_, (hc.records _).mpr ⟨e, he, rfl⟩, ?_⟩
    rw [MemoryBlock.make_getStart _ (hc.inside.base_lt he), hc.inside.getEnd_make he]
    exact hi

lemma Consistent.scan_eq (hc : Consistent a h) : scan a = firstFree h := by
  unfold scan firstFree
  simp only [hc.occupied_iff]

lemma Consistent.pairwise_apart (hc : Consistent a h) (hd : RecordsApart a) :
    h.Pairwise Segment.Apart := by
  have hsymm : Std.Symm fun b b' : MemoryBlock =>
      b.getEnd ≤ b'.getStart ∨ b'.getEnd ≤ b.getStart := ⟨fun _ _ => Or.symm⟩
  refine List.Nodup.pairwise_of_forall_ne hc.distinct.of_map fun e he f hf hne => ?_
  have hbase : e.base ≠ f.base := fun hb =>
    hne (List.inj_on_of_nodup_map hc.distinct he hf hb)
  have hblocks : MemoryBlock.make e.base e.size ≠ MemoryBlock.make f.base f.size := by
    intro heq
    have hstart := congrArg MemoryBlock.start heq
    rw [MemoryBlock.make_start _ (hc.inside.base_lt he),
      MemoryBlock.make_start _ (hc.inside.base_lt hf)] at hstart
    omega
  have hapart := hd.forall ((hc.records _).mpr ⟨e, he, rfl⟩) ((hc.records _).mpr ⟨f, hf, rfl⟩)
    hblocks
  rwa [hc.inside.getEnd_make he, hc.inside.getEnd_make hf,
    MemoryBlock.make_getStart _ (hc.inside.base_lt he),
    MemoryBlock.make_getStart _ (hc.inside.base_lt hf)] at hapart

lemma Full.le_firstFree {size : ℕ} (hf : Full h size) : maxBufferSize ≤ firstFree h + size := by
  obtain ⟨c, hfull, hcov⟩ := hf
  have hfree : ¬ Covered h (firstFree h) := (leastFree_iff.mpr rfl).2
  have hle : c ≤ firstFree h := not_lt.mp fun hlt => hfree (hcov _ hlt)
  omega

lemma Consistent.agreesWithScan (hc : Consistent a h) (hd : RecordsApart a) {size : ℕ}
    (hpos : 0 < size) (hsize : size < 2^32) : AgreesWithScan a size := by
  unfold AgreesWithScan
  cases hs : allocLoop a.occupiedBlocks size a.firstFreeIndex with
  | none =>
    have hfull := (hc.full hsize hs).le_firstFree
    rw [hc.scan_eq, if_neg (not_lt.mpr hfull)]
    simp only [alloc, hs]
  | some c =>
    have hp := hc.placed hsize hs
    have hleast : c = firstFree h :=
      leastFree_iff.mp (hp.leastFree (hc.pairwise_apart hd) hc.nonempty)
    rw [hc.scan_eq, ← hleast, if_pos hp.fits]
    have hnew : Consistent (alloc a size).2 (⟨c, size, fun _ => none⟩ :: h) :=
      hc.occupy hpos hsize _ hs
    have hbefore : (recorded a).Perm (shape h) := hc.exactTable (s := ⟨a, h⟩).1
    have hafter : (recorded (alloc a size).2).Perm ((c, size) :: shape h) :=
      hnew.exactTable (s := ⟨(alloc a size).2, _⟩).1
    refine ⟨?_, hafter.trans (hbefore.symm.cons _)⟩
    simp only [alloc, hs]

end Scan

lemma alloc_throwsUnchanged {a : SmallAllocator} {size : ℕ}
    (h : (alloc a size).1 = .error .badAlloc) : (alloc a size).2 = a := by
  cases hs : allocLoop a.occupiedBlocks size a.firstFreeIndex with
  | none => simp only [alloc, hs]
  | some c => simp [alloc, hs] at h

lemma free_ne_badAlloc (a : SmallAllocator) (pointer : ℕ) :
    (free a pointer).1 ≠ .error .badAlloc := by
  unfold free
  split <;> simp

lemma reAlloc_throwsUnchanged {arbitrary : ℕ → UInt8} {a : SmallAllocator} {pointer size : ℕ}
    (h : (reAlloc arbitrary a pointer size).1 = .error .badAlloc) :
    (reAlloc arbitrary a pointer size).2 = a := by
  cases hfind : findOccupiedBlock a pointer with
  | none => simp [reAlloc, hfind] at h
  | some it =>
    cases hs : allocLoop a.occupiedBlocks size a.firstFreeIndex with
    | none => simp only [reAlloc, hfind, alloc, hs]
    | some c =>
      -- after a successful `alloc` only the lookup of `free` can fail
      simp only [reAlloc, hfind, alloc, hs] at h
      split at h
      · next e _ hfree =>
        obtain rfl : e = .badAlloc := Except.error.inj h
        exact absurd (congrArg Prod.fst hfree) (free_ne_badAlloc _ _)
      · cases h

/-- In every reachable state the search agrees with the scan while the recorded blocks
are disjoint, and a call that throws changes nothing. -/
theorem alloc_agrees_with_scan (ops : List Op) (hops : Guarded step Admissible start ops) :
    Throughout step (fun s =>
      (RecordsApart s.allocator →
        ∀ size : UInt32, 1 ≤ size → AgreesWithScan s.allocator size.toNat) ∧
      ThrowsUnchanged s.allocator) start ops := by
  refine (run_consistent consistent_start hops).imp fun s hc => ⟨fun hd size hpos => ?_, ?_⟩
  · exact hc.agreesWithScan hd hpos size.toNat_lt
  · exact ⟨fun _ h => alloc_throwsUnchanged h, fun _ _ _ h => reAlloc_throwsUnchanged h⟩

theorem alloc_agrees_with_scan_hole :
    Throughout step (fun s =>
      (RecordsApart s.allocator →
        ∀ size : UInt32, 1 ≤ size → AgreesWithScan s.allocator size.toNat) ∧
      ThrowsUnchanged s.allocator) start
      [.alloc 4, .alloc 8, .free 0, .alloc 2, .alloc 262144, .reAlloc 4 262144 fun _ => 0] :=
  alloc_agrees_with_scan _ (by decide +kernel)

/-- A live block covers some byte of the window. -/
def Meets (h : Heap) (i size : ℕ) : Prop := ∃ j, i ≤ j ∧ j < i + size ∧ Covered h j

/-- `alloc` throws only if no window of the buffer is free. -/
def ThrowsOnlyIfFull (s : Client) (size : ℕ) : Prop :=
  (alloc s.allocator size).1 = .error .badAlloc →
    ∀ i, i + size ≤ maxBufferSize → Meets s.live i size

/-- The free bytes are exactly the last `size` bytes of the buffer. -/
def FreeAtEnd (h : Heap) (size : ℕ) : Prop :=
  size ≤ maxBufferSize ∧ (∀ i < maxBufferSize - size, Covered h i) ∧
    ∀ i, maxBufferSize - size ≤ i → i < maxBufferSize → ¬ Covered h i

section Throws

variable {s : Client} {size : ℕ}

lemma Consistent.throws_iff (hc : Consistent s.allocator s.live) (hd : BlocksDisjoint s)
    (hsize : size < 2^32) : (alloc s.allocator size).1 = .error .badAlloc ↔
      maxBufferSize ≤ firstFree s.live + size := by
  cases hs : allocLoop s.allocator.occupiedBlocks size s.allocator.firstFreeIndex with
  | none =>
    refine iff_of_true ?_ (hc.full hsize hs).le_firstFree
    simp only [alloc, hs]
  | some c =>
    have hp := hc.placed hsize hs
    have hleast : c = firstFree s.live := leastFree_iff.mp (hp.leastFree hd.2 hc.nonempty)
    refine iff_of_false (by simp [alloc, hs]) (not_le.mpr ?_)
    rw [← hleast]
    exact hp.fits

/-- When the search gives up, only the window at the very end can be free. -/
lemma Full.meets_or_freeAtEnd (hf : Full s.live size) (hpos : 0 < size) {i : ℕ}
    (hi : i + size ≤ maxBufferSize) : Meets s.live i size ∨ FreeAtEnd s.live size := by
  by_cases hm : Meets s.live i size
  · exact Or.inl hm
  · obtain ⟨c, hfull, hcov⟩ := hf
    have hic : c ≤ i := not_lt.mp fun hlt => hm ⟨i, le_rfl, by omega, hcov i hlt⟩
    obtain rfl : i = maxBufferSize - size := by omega
    refine Or.inr ⟨by omega, fun j hj => hcov j (by omega), fun j hj hlt hcovered => ?_⟩
    exact hm ⟨j, hj, by omega, hcovered⟩

lemma Consistent.throwsOnlyIfFull (hc : Consistent s.allocator s.live) (hpos : 0 < size)
    (hsize : size < 2^32) (hend : ¬ FreeAtEnd s.live size) : ThrowsOnlyIfFull s size := by
  intro hthrows i hi
  cases hs : allocLoop s.allocator.occupiedBlocks size s.allocator.firstFreeIndex with
  | none => exact ((hc.full hsize hs).meets_or_freeAtEnd hpos hi).resolve_right hend
  | some c => simp [alloc, hs] at hthrows

lemma Consistent.not_throwsOnlyIfFull (hc : Consistent s.allocator s.live)
    (hd : BlocksDisjoint s) (hsize : size < 2^32) (hpos : 0 < size)
    (hend : FreeAtEnd s.live size) : ¬ ThrowsOnlyIfFull s size := by
  obtain ⟨hle, hcov, hfree⟩ := hend
  have hleast : maxBufferSize - size = firstFree s.live :=
    leastFree_iff.mp ⟨hcov, hfree _ le_rfl (by omega)⟩
  have hthrows : (alloc s.allocator size).1 = .error .badAlloc :=
    (hc.throws_iff hd hsize).mpr (by omega)
  intro h
  obtain ⟨j, hj, hlt, hcovered⟩ := h hthrows (maxBufferSize - size) (by omega)
  exact hfree j hj (by omega) hcovered

end Throws

/-- In every reachable state `alloc` throws only if there is no room, unless exactly the
last bytes of the buffer are free; while the blocks are disjoint it then does throw. -/
theorem throws_only_if_full_iff (ops : List Op) (hops : Guarded step Admissible start ops) :
    Throughout step (fun s => ∀ size : UInt32, 1 ≤ size →
      (¬ FreeAtEnd s.live size.toNat → ThrowsOnlyIfFull s size.toNat) ∧
      (BlocksDisjoint s →
        (ThrowsOnlyIfFull s size.toNat ↔ ¬ FreeAtEnd s.live size.toNat))) start ops := by
  refine (run_consistent consistent_start hops).imp fun s hc size hpos => ?_
  have hpos : 0 < size.toNat := hpos
  have henough := hc.throwsOnlyIfFull hpos size.toNat_lt
  refine ⟨henough, fun hd => ⟨fun h hend => ?_, henough⟩⟩
  exact hc.not_throwsOnlyIfFull hd size.toNat_lt hpos hend h

theorem throws_only_if_full_iff_hole :
    Throughout step (fun s => ∀ size : UInt32, 1 ≤ size →
      (¬ FreeAtEnd s.live size.toNat → ThrowsOnlyIfFull s size.toNat) ∧
      (BlocksDisjoint s →
        (ThrowsOnlyIfFull s size.toNat ↔ ¬ FreeAtEnd s.live size.toNat))) start
      [.alloc 4, .alloc 8, .free 0, .alloc 262144] :=
  throws_only_if_full_iff _ (by decide +kernel)

/-- The fresh allocator throws on a request for its whole buffer, which is free. -/
theorem throws_on_exact_fit :
    (alloc start.allocator 262144).1 = .error .badAlloc ∧
      ¬ ∀ ops, Guarded step Admissible start ops → Throughout step (fun s =>
        ∀ size : UInt32, 1 ≤ size → ThrowsOnlyIfFull s size.toNat) start ops := by
  have hthrows : (alloc start.allocator 262144).1 = .error .badAlloc := by decide +kernel
  refine ⟨hthrows, fun h => ?_⟩
  have hfull : ThrowsOnlyIfFull start 262144 := h [] trivial 262144 (by decide)
  obtain ⟨j, -, -, e, he, -⟩ := hfull hthrows 0 (by decide)
  simp [start] at he

end UnixProgramming.Allocator
