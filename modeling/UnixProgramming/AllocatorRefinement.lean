import UnixProgramming.AllocatorDisjoint

/-! The allocator as an implementation of a heap of independent byte arrays. The
client's table is the abstract heap; the buffer implements it as long as every
request fits the hole it is placed in and `reAlloc` copies between separate ranges. -/
namespace UnixProgramming.Allocator
open MachineInt ByteHeap StepRuns

/-- Every live block holds the bytes its owner last wrote. -/
def HoldsWrites (s : Client) : Prop :=
  ∀ e ∈ s.live, ∀ i < e.size, ∀ v ∈ e.bytes i, s.allocator.buffer (e.base + i) = v

instance (s : Client) : Decidable (HoldsWrites s) :=
  inferInstanceAs (Decidable (∀ e ∈ s.live, ∀ i < e.size, ∀ v ∈ e.bytes i, _))

def KeepsContents (s : Client) (o : Op) (s' : Client) : Prop :=
  match o with
  | .reAlloc pointer size arbitrary =>
      ∀ e newPointer, find pointer s.live = some e →
        (reAlloc arbitrary s.allocator pointer size.toNat).1 = .ok newPointer →
        ∀ i < min size.toNat e.size,
          s'.allocator.buffer (newPointer + i) = s.allocator.buffer (pointer + i)
  | _ => True

def Op.pointer? : Op → Option ℕ
  | .alloc _ => none
  | .reAlloc pointer _ _ => some pointer
  | .free pointer => some pointer
  | .write pointer _ _ => some pointer

/-- No byte of any other live block changes. -/
def KeepsOthers (s : Client) (o : Op) (s' : Client) : Prop :=
  ∀ e ∈ s.live, o.pointer? ≠ some e.base → ∀ i < e.size,
    s'.allocator.buffer (e.base + i) = s.allocator.buffer (e.base + i)

def CopyDefined (s : Client) : Op → Prop
  | .reAlloc pointer size _ => ∀ c, LeastFree s.live c → c + size.toNat < maxBufferSize →
      ∀ e ∈ s.live, e.base = pointer → CopyApart c pointer (min size.toNat e.size)
  | _ => True

lemma copyDefined_reAlloc_iff {s : Client} {pointer : ℕ} {size : UInt32} {arbitrary : ℕ → UInt8} :
    CopyDefined s (.reAlloc pointer size arbitrary) ↔
      (firstFree s.live + size.toNat < maxBufferSize → ∀ e ∈ s.live, e.base = pointer →
        CopyApart (firstFree s.live) pointer (min size.toNat e.size)) := by
  simp only [CopyDefined, leastFree_iff, forall_eq]

instance (s : Client) (o : Op) : Decidable (CopyDefined s o) :=
  match o with
  | .reAlloc _ _ _ => decidable_of_iff _ copyDefined_reAlloc_iff.symm
  | .alloc _ => inferInstanceAs (Decidable True)
  | .free _ => inferInstanceAs (Decidable True)
  | .write _ _ _ => inferInstanceAs (Decidable True)

lemma memcpy_outside {arbitrary buffer : ℕ → UInt8} {target source count i : ℕ}
    (hi : ¬ (target ≤ i ∧ i < target + count)) :
    memcpy arbitrary target source count buffer i = buffer i := if_neg hi

lemma memcpy_inside {arbitrary buffer : ℕ → UInt8} {target source count i : ℕ}
    (ha : CopyApart target source count) (hi : i < count) :
    memcpy arbitrary target source count buffer (target + i) = buffer (source + i) := by
  rw [memcpy, if_pos (by omega), if_pos ha, Nat.add_sub_cancel_left]

/-- What one step needs to know about the state it starts from. -/
structure Implements (s : Client) : Prop where
  consistent : Consistent s.allocator s.live
  disjoint : BlocksDisjoint s
  holds : HoldsWrites s

lemma implements_start : Implements start :=
  ⟨consistent_start, by decide, by decide⟩

lemma Implements.apart {s : Client} (hs : Implements s) {e f : Segment} (he : e ∈ s.live)
    (hf : f ∈ s.live) (hb : e.base ≠ f.base) : e.Apart f :=
  apart_of_mem hs.disjoint.2 he hf fun hef => hb (congrArg Segment.base hef)

lemma memcpy_of_apart {arbitrary buffer : ℕ → UInt8} {c source size m : ℕ} {f : Segment}
    {bytes : ℕ → Option UInt8} (ha : Segment.Apart ⟨c, size, bytes⟩ f) {i : ℕ} (hi : i < f.size) :
    memcpy arbitrary c source (min size m) buffer (f.base + i) = buffer (f.base + i) := by
  apply memcpy_outside
  unfold Segment.Apart at ha
  dsimp only at ha
  omega

lemma update_of_apart {buffer : ℕ → UInt8} {e f : Segment} (ha : e.Apart f) {offset i : ℕ}
    {value : UInt8} (ho : offset < e.size) (hi : i < f.size) :
    Function.update buffer (e.base + offset) value (f.base + i) = buffer (f.base + i) := by
  apply Function.update_of_ne
  unfold Segment.Apart at ha
  omega

lemma step_keepsContents {s s' : Client} {o : Op} (hs : Implements s) (hcopy : CopyDefined s o)
    (he : Effect s o s') : KeepsContents s o s' := by
  cases he with
  | @reAllocated pointer c size arbitrary e _ hfind hret hp hl hbuf =>
    intro f q hf hq i hi
    obtain rfl : e = f := Option.some.inj (hfind.symm.trans hf)
    obtain rfl : c = q := Except.ok.inj (hret.symm.trans hq)
    have hfree := hp.leastFree hs.disjoint.2 hs.consistent.nonempty
    obtain ⟨hm, hb⟩ := find_eq_some hfind
    rw [hbuf]
    exact memcpy_inside (hcopy c hfree hp.fits e hm hb) hi
  | @reAllocFailed pointer size arbitrary hthrown hfull =>
    intro f q _ hq
    rw [hthrown] at hq
    cases hq
  | allocated => trivial
  | allocFailed => trivial
  | freed => trivial
  | written => trivial

lemma step_keepsOthers {s s' : Client} {o : Op} (hs : Implements s) (ho : Admissible s o)
    (hd' : BlocksDisjoint s') (he : Effect s o s') : KeepsOthers s o s' := by
  intro f hf hne i hi
  cases he with
  | allocated _ _ _ hbuf => rw [hbuf]
  | allocFailed => rfl
  | @reAllocated pointer c size arbitrary e _ hfind _ hp hl hbuf =>
    have hfp : f.base ≠ pointer := fun hb => hne (congrArg some hb.symm)
    have hpair := hd'.2
    rw [hl, List.pairwise_cons] at hpair
    have ha := hpair.1 f ((mem_release hs.consistent.distinct).mpr ⟨hf, hfp⟩)
    rw [hbuf]
    exact memcpy_of_apart ha hi
  | reAllocFailed => rfl
  | freed _ hbuf => rw [hbuf]
  | @written pointer offset value _ hl hbuf =>
    obtain ⟨e, hm, rfl, hoff⟩ := ho.1
    have hfp : e.base ≠ f.base := fun hb => hne (congrArg some hb)
    rw [hbuf]
    exact update_of_apart (hs.apart hm hf hfp) hoff hi

lemma step_holdsWrites {s s' : Client} {o : Op} (hs : Implements s)
    (hcontents : KeepsContents s o s') (hothers : KeepsOthers s o s') (he : Effect s o s') :
    HoldsWrites s' := by
  intro f hf i hi v hv
  cases he with
  | allocated _ _ hl hbuf =>
    rw [hl] at hf
    rcases List.mem_cons.mp hf with rfl | hf
    · cases hv
    · rw [hbuf]
      exact hs.holds f hf i hi v hv
  | allocFailed => exact hs.holds f hf i hi v hv
  | @reAllocated pointer c size arbitrary e _ hfind hret hp hl hbuf =>
    rw [hl] at hf
    obtain ⟨hm, hb⟩ := find_eq_some hfind
    rcases List.mem_cons.mp hf with rfl | hf
    · -- the moved block: its known cells are copies of those of the old one
      have hcell : (if i < min size.toNat e.size then e.bytes i else none) = some v := hv
      split_ifs at hcell with hlt
      refine (hcontents e c hfind hret i hlt).trans ?_
      rw [← hb]
      exact hs.holds e hm i (by omega) v hcell
    · obtain ⟨hf, hfp⟩ := (mem_release hs.consistent.distinct).mp hf
      rw [hothers f hf (fun hx => hfp (Option.some.inj hx).symm) i hi]
      exact hs.holds f hf i hi v hv
  | reAllocFailed => exact hs.holds f hf i hi v hv
  | freed hl hbuf =>
    rw [hl] at hf
    rw [hbuf]
    exact hs.holds f ((release_sublist _ _).subset hf) i hi v hv
  | @written pointer offset value _ hl hbuf =>
    rw [hl] at hf
    obtain ⟨g, hg, rfl⟩ := mem_store.mp hf
    by_cases hb : g.base = pointer
    · simp only [hb, ↓reduceIte, Segment.store, Function.update_apply] at hv hi ⊢
      rw [hbuf]
      by_cases hio : i = offset
      · subst hio
        simpa using hv
      · rw [Function.update_of_ne (by omega), ← hb]
        simp only [hio, ↓reduceIte] at hv
        exact hs.holds g hg i hi v hv
    · simp only [hb, ↓reduceIte] at hv hi ⊢
      rw [hothers g hg (fun hx => hb (Option.some.inj hx).symm) i hi]
      exact hs.holds g hg i hi v hv

theorem step_implements {s : Client} {o : Op} (hs : Implements s)
    (ho : Admissible s o ∧ Roomy s o ∧ CopyDefined s o) :
    ∃ s', step s o = some s' ∧ (KeepsContents s o s' ∧ KeepsOthers s o s') ∧ Implements s' := by
  obtain ⟨hadm, hroom, hcopy⟩ := ho
  obtain ⟨s', hstep, hc', heff⟩ := step_effect hs.consistent hadm
  have hd' := (step_disjoint_iff hs.consistent hc' heff hs.disjoint).mpr hroom
  have hcontents := step_keepsContents hs hcopy heff
  have hothers := step_keepsOthers hs hadm hd' heff
  exact ⟨s', hstep, ⟨hcontents, hothers⟩, hc', hd',
    step_holdsWrites hs hcontents hothers heff⟩

/-- Along every run whose requests fit the hole at the lowest free byte and whose
`reAlloc` calls copy between separate ranges, the buffer implements the heap of
independent arrays: owners read back what they wrote, `reAlloc` keeps the leading
bytes, and no operation touches another live block. -/
theorem run_implements_heap (ops : List Op)
    (hops : Guarded step (fun s o => Admissible s o ∧ Roomy s o ∧ CopyDefined s o) start ops) :
    Throughout step HoldsWrites start ops ∧
      Transitions step (fun s o s' => KeepsContents s o s' ∧ KeepsOthers s o s') start ops := by
  constructor
  · refine (throughout_of_guarded ?_ implements_start hops).imp fun s hs => hs.holds
    intro s o hs ho
    obtain ⟨s', hstep, _, hs'⟩ := step_implements hs ho
    exact ⟨s', hstep, hs'⟩
  · exact transitions_of_guarded (fun s o hs ho => step_implements hs ho) implements_start hops

theorem run_implements_heap_sample :
    Throughout step HoldsWrites start
        [.alloc 4, .write 0 1 7, .alloc 4, .reAlloc 0 8 fun _ => 0, .write 8 5 9, .free 4] ∧
      Transitions step (fun s o s' => KeepsContents s o s' ∧ KeepsOthers s o s') start
        [.alloc 4, .write 0 1 7, .alloc 4, .reAlloc 0 8 fun _ => 0, .write 8 5 9, .free 4] :=
  run_implements_heap _ (by decide +kernel)

theorem heap_fails_small_hole :
    ¬ ∀ ops, Guarded step Admissible start ops → Throughout step HoldsWrites start ops ∧
      Transitions step (fun s o s' => KeepsContents s o s' ∧ KeepsOthers s o s') start ops := by
  intro h
  have hops : Guarded step Admissible start
      [.alloc 1, .alloc 10, .write 1 0 7, .free 0, .alloc 10, .write 0 1 9] := by decide +kernel
  have hbad : ¬ Throughout step HoldsWrites start
      [.alloc 1, .alloc 10, .write 1 0 7, .free 0, .alloc 10, .write 0 1 9] := by decide +kernel
  exact hbad (h _ hops).1

end UnixProgramming.Allocator
