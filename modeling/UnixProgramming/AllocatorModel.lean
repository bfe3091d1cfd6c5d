import UnixProgramming.MachineInt
import UnixProgramming.OrderedSet

/-! `SmallAllocator`: allocation inside one fixed buffer, with the occupied blocks
kept in a set ordered by the negated start index. A pointer is represented by its
offset from the buffer, which is all the code computes from it. -/
namespace UnixProgramming.Allocator
open MachineInt

def maxBufferSize : ℕ := 262144

structure MemoryBlock where
  start : ℤ
  blockSize : ℕ
  deriving DecidableEq, Repr

namespace MemoryBlock

/-- The constructor: the start index is stored negated, as a 32-bit integer. -/
def make (startIndex blockSize : ℕ) : MemoryBlock := ⟨-toInt startIndex, blockSize⟩

def getStart (b : MemoryBlock) : ℕ := toSize (-b.start)

def getEnd (b : MemoryBlock) : ℕ := toSize (b.getStart + b.blockSize)

end MemoryBlock

abbrev Blocks := OrderedSet MemoryBlock MemoryBlock.start

structure SmallAllocator where
  buffer : ℕ → UInt8
  firstFreeIndex : ℕ
  occupiedBlocks : Blocks

def fresh : SmallAllocator := ⟨fun _ => 0, 0, OrderedSet.empty⟩

/-- How a call can fail: the exception of `alloc`, or the use of an end iterator. -/
inductive Fault
  | badAlloc
  | endIterator
  deriving DecidableEq, Repr

/-- A hop lands on the end of a block that ended beyond the current index, so fewer
blocks end beyond the new one. -/
lemma hop_decreases {blocks : Blocks} {k : ℤ} {currentIndex : ℕ} {it : MemoryBlock}
    (hit : blocks.lowerBound k = some it) (h : ¬ it.getEnd ≤ currentIndex) :
    (blocks.elems.filter fun b => it.getEnd < b.getEnd).length <
      (blocks.elems.filter fun b => currentIndex < b.getEnd).length := by
  have hsub : blocks.elems.filter (fun b => it.getEnd < b.getEnd) =
      (blocks.elems.filter fun b => currentIndex < b.getEnd).filter
        fun b => it.getEnd < b.getEnd := by
    rw [List.filter_filter]
    apply List.filter_congr
    intro b _
    rw [← Bool.decide_and, decide_eq_decide]
    omega
  rw [hsub, List.length_filter_lt_length_iff_exists]
  refine ⟨it, List.mem_filter.mpr ⟨(OrderedSet.lowerBound_eq_some hit).1, ?_⟩, ?_⟩
  · simpa using h
  · simp

def allocLoop (occupiedBlocks : Blocks) (size currentIndex : ℕ) : Option ℕ :=
  let newBlock := MemoryBlock.make currentIndex size
  if maxBufferSize ≤ newBlock.getEnd then none
  else
    match _hit : occupiedBlocks.lowerBound newBlock.start with
    | none => some currentIndex
    | some it =>
        if _hend : it.getEnd ≤ currentIndex then some currentIndex
        else allocLoop occupiedBlocks size it.getEnd
  termination_by (occupiedBlocks.elems.filter fun b => currentIndex < b.getEnd).length
  decreasing_by exact hop_decreases _hit _hend

def alloc (a : SmallAllocator) (size : ℕ) : Except Fault ℕ × SmallAllocator :=
  match allocLoop a.occupiedBlocks size a.firstFreeIndex with
  | none => (.error .badAlloc, a)
  | some currentIndex =>
      let newBlock := MemoryBlock.make currentIndex size
      (.ok currentIndex,
        { a with
          firstFreeIndex :=
            if a.firstFreeIndex = currentIndex then newBlock.getEnd else a.firstFreeIndex
          occupiedBlocks := a.occupiedBlocks.insert newBlock })

def findOccupiedBlock (a : SmallAllocator) (pointer : ℕ) : Option MemoryBlock :=
  a.occupiedBlocks.lowerBound (MemoryBlock.make pointer 1).start

def free (a : SmallAllocator) (pointer : ℕ) : Except Fault Unit × SmallAllocator :=
  match findOccupiedBlock a pointer with
  | none => (.error .endIterator, a)
  | some it =>
      (.ok (),
        { a with
          firstFreeIndex := min it.getStart a.firstFreeIndex
          occupiedBlocks := a.occupiedBlocks.erase it.start })

def CopyApart (target source count : ℕ) : Prop :=
  target + count ≤ source ∨ source + count ≤ target

instance (target source count : ℕ) : Decidable (CopyApart target source count) :=
  inferInstanceAs (Decidable (_ ∨ _))

/-- `memcpy`. On overlapping ranges its result is not specified: the target then
receives arbitrary bytes. -/
def memcpy (arbitrary : ℕ → UInt8) (target source count : ℕ) (buffer : ℕ → UInt8) : ℕ → UInt8 :=
  fun i =>
    if target ≤ i ∧ i < target + count then
      if CopyApart target source count then buffer (source + (i - target)) else arbitrary i
    else buffer i

def reAlloc (arbitrary : ℕ → UInt8) (a : SmallAllocator) (pointer size : ℕ) :
    Except Fault ℕ × SmallAllocator :=
  match findOccupiedBlock a pointer with
  | none => (.error .endIterator, a)
  | some it =>
      let prevBlockSize := it.blockSize
      match alloc a size with
      | (.error e, a) => (.error e, a)
      | (.ok newPointer, a) =>
          let a := { a with
            buffer := memcpy arbitrary newPointer pointer (min size prevBlockSize) a.buffer }
          match free a pointer with
          | (.error e, a) => (.error e, a)
          | (.ok _, a) => (.ok newPointer, a)

namespace MemoryBlock

lemma make_start {i : ℕ} (n : ℕ) (hi : i < maxBufferSize) : (make i n).start = -i := by
  rw [make, toInt_natCast (hi.trans (by norm_num [maxBufferSize]))]

lemma make_getStart {i : ℕ} (n : ℕ) (hi : i < maxBufferSize) : (make i n).getStart = i := by
  rw [getStart, make_start n hi, neg_neg, toSize_natCast (hi.trans (by norm_num [maxBufferSize]))]

lemma make_getEnd {i n : ℕ} (hi : i < maxBufferSize) (hn : n < 2^32) :
    (make i n).getEnd = i + n := by
  have hlt : i + n < 2^64 := by
    norm_num [maxBufferSize] at *
    omega
  have hblock : (make i n).blockSize = n := rfl
  rw [getEnd, make_getStart n hi, hblock]
  exact_mod_cast toSize_natCast hlt

end MemoryBlock

end UnixProgramming.Allocator
