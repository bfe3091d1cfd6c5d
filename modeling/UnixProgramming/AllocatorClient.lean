import UnixProgramming.AllocatorSearch
import UnixProgramming.StepRuns

/-! The allocator together with a client. The client's table of live segments is the
abstract heap: it is updated from the arguments and results of the calls only, never
from the allocator's own bookkeeping. -/
namespace UnixProgramming.Allocator
open MachineInt ByteHeap StepRuns

structure Client where
  allocator : SmallAllocator
  live : Heap

def start : Client := ⟨fresh, []⟩

/-- Calls to the allocator and stores of the client. `arbitrary` is what an
overlapping `memcpy` inside `reAlloc` leaves behind. -/
inductive Op
  | alloc (size : UInt32)
  | reAlloc (pointer : ℕ) (size : UInt32) (arbitrary : ℕ → UInt8)
  | free (pointer : ℕ)
  | write (pointer offset : ℕ) (value : UInt8)

/-- An exception leaves the client's table alone; only undefined behaviour stops. -/
def step (s : Client) : Op → Option Client
  | .alloc size =>
      match alloc s.allocator size.toNat with
      | (.ok pointer, a) => some ⟨a, allocate pointer size.toNat s.live⟩
      | (.error .badAlloc, a) => some ⟨a, s.live⟩
      | (.error .endIterator, _) => none
  | .reAlloc pointer size arbitrary =>
      match reAlloc arbitrary s.allocator pointer size.toNat with
      | (.ok newPointer, a) => some ⟨a, resize pointer newPointer size.toNat s.live⟩
      | (.error .badAlloc, a) => some ⟨a, s.live⟩
      | (.error .endIterator, _) => none
  | .free pointer =>
      match free s.allocator pointer with
      | (.ok _, a) => some ⟨a, release pointer s.live⟩
      | (.error _, _) => none
  | .write pointer offset value =>
      some ⟨{ s.allocator with
          buffer := Function.update s.allocator.buffer (pointer + offset) value },
        store pointer offset value s.live⟩

def UsesLive (s : Client) : Op → Prop
  | .alloc _ => True
  | .reAlloc pointer _ _ => pointer ∈ bases s.live
  | .free pointer => pointer ∈ bases s.live
  | .write pointer offset _ => ∃ e ∈ s.live, e.base = pointer ∧ offset < e.size

def Op.SizeMeets (P : UInt32 → Prop) : Op → Prop
  | .alloc size => P size
  | .reAlloc _ size _ => P size
  | .free _ => True
  | .write _ _ _ => True

lemma Op.SizeMeets.imp {P Q : UInt32 → Prop} (hPQ : ∀ n, P n → Q n) {o : Op}
    (h : o.SizeMeets P) : o.SizeMeets Q := by
  cases o with
  | alloc size => exact hPQ size h
  | reAlloc pointer size arbitrary => exact hPQ size h
  | free pointer => trivial
  | write pointer offset value => trivial

def Admissible (s : Client) (o : Op) : Prop := UsesLive s o ∧ o.SizeMeets (1 ≤ ·)

instance (s : Client) (o : Op) : Decidable (UsesLive s o) :=
  match o with
  | .alloc _ => inferInstanceAs (Decidable True)
  | .reAlloc pointer _ _ => inferInstanceAs (Decidable (pointer ∈ bases s.live))
  | .free pointer => inferInstanceAs (Decidable (pointer ∈ bases s.live))
  | .write _ _ _ => inferInstanceAs (Decidable (∃ e ∈ s.live, _))

instance (P : UInt32 → Prop) [DecidablePred P] (o : Op) : Decidable (o.SizeMeets P) :=
  match o with
  | .alloc size => inferInstanceAs (Decidable (P size))
  | .reAlloc _ size _ => inferInstanceAs (Decidable (P size))
  | .free _ => inferInstanceAs (Decidable True)
  | .write _ _ _ => inferInstanceAs (Decidable True)

instance (s : Client) (o : Op) : Decidable (Admissible s o) :=
  inferInstanceAs (Decidable (_ ∧ _))

/-- The records are those of the live segments, which have distinct bases, lie inside
the buffer and are not empty; everything below the hint is covered. -/
structure Consistent (a : SmallAllocator) (h : Heap) : Prop where
  records : Records a.occupiedBlocks h
  distinct : (bases h).Nodup
  inside : InBuffer h
  nonempty : ∀ e ∈ h, 0 < e.size
  hint : a.firstFreeIndex < maxBufferSize
  covered : ∀ i < a.firstFreeIndex, Covered h i

theorem consistent_start : Consistent fresh [] where
  records := by simp [Records, fresh]
  distinct := List.nodup_nil
  inside := by simp [InBuffer]
  nonempty := by simp
  hint := by norm_num [fresh, maxBufferSize]
  covered := by simp [fresh]

lemma Consistent.congr {a b : SmallAllocator} {h g : Heap} (hc : Consistent a h)
    (hf : b.firstFreeIndex = a.firstFreeIndex) (ho : b.occupiedBlocks = a.occupiedBlocks)
    (hg : shape g = shape h) : Consistent b g where
  records := by
    intro x
    rw [ho, hc.records x, exists_shape (P := fun i n => MemoryBlock.make i n = x),
      exists_shape (P := fun i n => MemoryBlock.make i n = x), hg]
  distinct := by
    rw [bases_eq_shape, hg, ← bases_eq_shape]
    exact hc.distinct
  inside := by
    have hi := hc.inside
    unfold InBuffer at hi ⊢
    rw [forall_shape (P := fun i n => i + n < maxBufferSize)] at hi ⊢
    rwa [hg]
  nonempty := by
    have hi := hc.nonempty
    rw [forall_shape (P := fun _ n => 0 < n)] at hi ⊢
    rwa [hg]
  hint := hf ▸ hc.hint
  covered := by
    intro i hi
    have hcov := hc.covered i (hf ▸ hi)
    unfold Covered Segment.Covers at hcov ⊢
    rw [exists_shape (P := fun j n => j ≤ i ∧ i < j + n)] at hcov ⊢
    rwa [hg]

lemma Consistent.occupy {a : SmallAllocator} {h : Heap} (hc : Consistent a h) {size c : ℕ}
    (hpos : 0 < size) (hsize : size < 2^32) (bytes : ℕ → Option UInt8)
    (hs : allocLoop a.occupiedBlocks size a.firstFreeIndex = some c) :
    Consistent (alloc a size).2 (⟨c, size, bytes⟩ :: h) := by
  obtain ⟨hle, hfit, hcov, hnear⟩ :=
    allocLoop_eq_some hc.records hc.inside hsize hc.hint hs
  have hfree : ∀ e ∈ h, e.base ≠ c := fun e he =>
    base_ne_of_nearest_ended hc.nonempty hnear he
  have hclt : c < maxBufferSize := by omega
  simp only [alloc, hs, MemoryBlock.make_getEnd hclt hsize]
  constructor
  · intro b
    have hfresh : ∀ x ∈ a.occupiedBlocks, x.start ≠ (MemoryBlock.make c size).start := by
      intro x hx
      obtain ⟨e, he, rfl⟩ := (hc.records x).mp hx
      rw [MemoryBlock.make_start _ (hc.inside.base_lt he), MemoryBlock.make_start _ hclt]
      have := hfree e he
      omega
    rw [OrderedSet.mem_insert hfresh, hc.records b]
    simp [eq_comm]
  · refine List.nodup_cons.mpr ⟨?_, hc.distinct⟩
    intro hm
    obtain ⟨e, he, hb⟩ := List.mem_map.mp hm
    exact hfree e he hb
  · intro e he
    rcases List.mem_cons.mp he with rfl | he
    · exact hfit
    · exact hc.inside e he
  · intro e he
    rcases List.mem_cons.mp he with rfl | he
    · exact hpos
    · exact hc.nonempty e he
  · have := hc.hint
    dsimp only
    split_ifs <;> omega
  · intro i hi
    -- below the old hint the table already covers; the hint moves only over the new block
    by_cases hold : i < a.firstFreeIndex
    · obtain ⟨e, he, hei⟩ := hc.covered i hold
      exact ⟨e, List.mem_cons_of_mem _ he, hei⟩
    · dsimp only at hi
      split_ifs at hi with heq
      · exact ⟨_, List.mem_cons_self, by dsimp only; omega, hi⟩
      · omega

lemma Consistent.free {a : SmallAllocator} {h : Heap} (hc : Consistent a h) {e : Segment}
    (he : e ∈ h) :
    ∃ a', free a e.base = (.ok (), a') ∧ a'.buffer = a.buffer ∧
      Consistent a' (release e.base h) := by
  have hlt := hc.inside.base_lt he
  simp only [Allocator.free, findOccupiedBlock_of_mem hc.records rfl he,
    MemoryBlock.make_getStart _ hlt]
  refine ⟨_, rfl, rfl, ?_⟩
  constructor
  · intro b
    rw [OrderedSet.mem_erase, hc.records b]
    constructor
    · rintro ⟨⟨f, hf, rfl⟩, hne⟩
      refine ⟨f, (mem_release hc.distinct).mpr ⟨hf, ?_⟩, rfl⟩
      intro hb
      exact hne (by rw [hb]; rfl)
    · rintro ⟨f, hf, rfl⟩
      obtain ⟨hf, hne⟩ := (mem_release hc.distinct).mp hf
      refine ⟨⟨f, hf, rfl⟩, ?_⟩
      rw [MemoryBlock.make_start _ (hc.inside.base_lt hf), MemoryBlock.make_start _ hlt]
      omega
  · exact bases_release_nodup hc.distinct
  · exact fun f hf => hc.inside f ((release_sublist _ h).subset hf)
  · exact fun f hf => hc.nonempty f ((release_sublist _ h).subset hf)
  · exact lt_of_le_of_lt (min_le_left _ _) hlt
  · intro i hi
    -- the freed segment starts at or above the new hint, so another one covers `i`
    obtain ⟨hib, hif⟩ := lt_min_iff.mp hi
    obtain ⟨f, hf, hfi⟩ := hc.covered i hif
    refine ⟨f, (mem_release hc.distinct).mpr ⟨hf, ?_⟩, hfi⟩
    have := hfi.1
    omega

/-- Where an allocation of `size` bytes lands: everything below is covered, and the
nearest segment has ended. -/
structure Placed (h : Heap) (size c : ℕ) : Prop where
  fits : c + size < maxBufferSize
  covered : ∀ i < c, Covered h i
  ended : ∀ e, Nearest h c e → e.base + e.size ≤ c

def Full (h : Heap) (size : ℕ) : Prop :=
  ∃ c, maxBufferSize ≤ c + size ∧ ∀ i < c, Covered h i

/-- Everything one operation can do to the client's table and to the buffer. -/
inductive Effect (s : Client) : Op → Client → Prop
  | allocated {size : UInt32} {c : ℕ} {s' : Client}
      (returned : (alloc s.allocator size.toNat).1 = .ok c)
      (placed : Placed s.live size.toNat c)
      (live : s'.live = allocate c size.toNat s.live)
      (buffer : s'.allocator.buffer = s.allocator.buffer) : Effect s (.alloc size) s'
  | allocFailed {size : UInt32} (thrown : (alloc s.allocator size.toNat).1 = .error .badAlloc)
      (full : Full s.live size.toNat) : Effect s (.alloc size) s
  | reAllocated {pointer c : ℕ} {size : UInt32} {arbitrary : ℕ → UInt8} {e : Segment}
      {s' : Client} (found : find pointer s.live = some e)
      (returned : (reAlloc arbitrary s.allocator pointer size.toNat).1 = .ok c)
      (placed : Placed s.live size.toNat c)
      (live : s'.live = e.moved c size.toNat :: release pointer s.live)
      (buffer : s'.allocator.buffer =
        memcpy arbitrary c pointer (min size.toNat e.size) s.allocator.buffer) :
      Effect s (.reAlloc pointer size arbitrary) s'
  | reAllocFailed {pointer : ℕ} {size : UInt32} {arbitrary : ℕ → UInt8}
      (thrown : (reAlloc arbitrary s.allocator pointer size.toNat).1 = .error .badAlloc)
      (full : Full s.live size.toNat) : Effect s (.reAlloc pointer size arbitrary) s
  | freed {pointer : ℕ} {s' : Client} (live : s'.live = release pointer s.live)
      (buffer : s'.allocator.buffer = s.allocator.buffer) : Effect s (.free pointer) s'
  | written {pointer offset : ℕ} {value : UInt8} {s' : Client}
      (live : s'.live = store pointer offset value s.live)
      (buffer : s'.allocator.buffer =
        Function.update s.allocator.buffer (pointer + offset) value) :
      Effect s (.write pointer offset value) s'

lemma Consistent.placed {a : SmallAllocator} {h : Heap} (hc : Consistent a h) {size c : ℕ}
    (hsize : size < 2^32) (hs : allocLoop a.occupiedBlocks size a.firstFreeIndex = some c) :
    Placed h size c := by
  obtain ⟨hle, hfit, hcov, hnear⟩ := allocLoop_eq_some hc.records hc.inside hsize hc.hint hs
  refine ⟨hfit, fun i hi => ?_, hnear⟩
  by_cases hold : i < a.firstFreeIndex
  · exact hc.covered i hold
  · exact hcov i (by omega) hi

lemma Consistent.full {a : SmallAllocator} {h : Heap} (hc : Consistent a h) {size : ℕ}
    (hsize : size < 2^32) (hs : allocLoop a.occupiedBlocks size a.firstFreeIndex = none) :
    Full h size := by
  obtain ⟨c, hfull, hcov⟩ := allocLoop_eq_none hc.records hc.inside hsize hc.hint hs
  refine ⟨c, hfull, fun i hi => ?_⟩
  by_cases hold : i < a.firstFreeIndex
  · exact hc.covered i hold
  · exact hcov i (by omega) hi

lemma Placed.base_ne {h : Heap} {size c : ℕ} (hp : Placed h size c)
    (hpos : ∀ e ∈ h, 0 < e.size) {e : Segment} (he : e ∈ h) : e.base ≠ c :=
  base_ne_of_nearest_ended hpos hp.ended he

lemma Consistent.reAlloc {a : SmallAllocator} {h : Heap} (hc : Consistent a h)
    (arbitrary : ℕ → UInt8) {e : Segment} (he : e ∈ h) {size : ℕ} (hpos : 0 < size)
    (hsize : size < 2^32) :
    (∃ c a', reAlloc arbitrary a e.base size = (.ok c, a') ∧ Placed h size c ∧
      Consistent a' (e.moved c size :: release e.base h) ∧
      a'.buffer = memcpy arbitrary c e.base (min size e.size) a.buffer) ∨
    (reAlloc arbitrary a e.base size = (.error .badAlloc, a) ∧ Full h size) := by
  have hfind := findOccupiedBlock_of_mem hc.records rfl he
  cases hs : allocLoop a.occupiedBlocks size a.firstFreeIndex with
  | none =>
    right
    refine ⟨?_, hc.full hsize hs⟩
    simp only [Allocator.reAlloc, hfind, alloc, hs]
  | some c =>
    left
    have hp := hc.placed hsize hs
    have hnew := hc.occupy hpos hsize (e.moved c size).bytes hs
    have hcopy : Consistent
        { (alloc a size).2 with
          buffer := memcpy arbitrary c e.base (min size e.size) (alloc a size).2.buffer }
        (e.moved c size :: h) := hnew.congr rfl rfl rfl
    obtain ⟨a', hfree, hbuf, hcons⟩ := hcopy.free (List.mem_cons_of_mem _ he)
    have hne : (e.moved c size).base ≠ e.base := (hp.base_ne hc.nonempty he).symm
    rw [release_cons, if_neg hne] at hcons
    refine ⟨c, a', ?_, hp, hcons, ?_⟩
    · simp only [Allocator.reAlloc, hfind, alloc, hs] at hfree ⊢
      simp only [MemoryBlock.make] at hfree ⊢
      rw [hfree]
    · rw [hbuf]
      simp only [alloc, hs]

/-- Every admissible operation of a consistent client is defined, keeps it consistent
and has one of the listed effects. -/
theorem step_effect {s : Client} {o : Op} (hc : Consistent s.allocator s.live)
    (ho : Admissible s o) :
    ∃ s', step s o = some s' ∧ Consistent s'.allocator s'.live ∧ Effect s o s' := by
  obtain ⟨huse, hpos⟩ := ho
  cases o with
  | alloc size =>
    have hsize : size.toNat < 2^32 := size.toNat_lt
    have hpos : 0 < size.toNat := hpos
    cases hs : allocLoop s.allocator.occupiedBlocks size.toNat s.allocator.firstFreeIndex with
    | none =>
      refine ⟨s, ?_, hc, .allocFailed ?_ (hc.full hsize hs)⟩ <;> simp only [step, alloc, hs]
    | some c =>
      refine ⟨⟨(alloc s.allocator size.toNat).2, allocate c size.toNat s.live⟩, ?_,
        hc.occupy hpos hsize _ hs, .allocated ?_ (hc.placed hsize hs) rfl ?_⟩
      all_goals simp only [step, alloc, hs]
  | reAlloc pointer size arbitrary =>
    obtain ⟨e, hfind⟩ := find_of_mem huse
    obtain ⟨he, rfl⟩ := find_eq_some hfind
    have hsize : size.toNat < 2^32 := size.toNat_lt
    have hpos : 0 < size.toNat := hpos
    rcases hc.reAlloc arbitrary he hpos hsize with ⟨c, a', hr, hp, hcons, hbuf⟩ | ⟨hr, hf⟩
    · refine ⟨⟨a', e.moved c size.toNat :: release e.base s.live⟩, ?_, hcons,
        .reAllocated hfind (by rw [hr]) hp rfl hbuf⟩
      simp only [step, hr, resize, hfind]
    · refine ⟨s, ?_, hc, .reAllocFailed (by rw [hr]) hf⟩
      simp only [step, hr]
  | free pointer =>
    obtain ⟨e, he, rfl⟩ := List.mem_map.mp huse
    obtain ⟨a', hfree, hbuf, hcons⟩ := hc.free he
    refine ⟨⟨a', release e.base s.live⟩, ?_, hcons, .freed rfl hbuf⟩
    simp only [step, hfree]
  | write pointer offset value =>
    exact ⟨_, rfl, hc.congr rfl rfl (shape_store _ _ _ _), .written rfl rfl⟩

theorem run_consistent {s : Client} {ops : List Op} (hc : Consistent s.allocator s.live)
    (hops : Guarded step Admissible s ops) :
    Throughout step (fun s => Consistent s.allocator s.live) s ops := by
  refine throughout_of_guarded ?_ hc hops
  intro s o hs ho
  obtain ⟨s', hstep, hs', _⟩ := step_effect hs ho
  exact ⟨s', hstep, hs'⟩

end UnixProgramming.Allocator
