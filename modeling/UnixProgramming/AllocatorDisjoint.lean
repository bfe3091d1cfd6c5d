import UnixProgramming.AllocatorClient

/-! When the live blocks of the allocator stay apart. The search compares the
candidate with the nearest block below it only, so a request larger than the hole at
the lowest free byte runs into the block above the hole. -/
namespace UnixProgramming.Allocator
open MachineInt ByteHeap StepRuns

/-- The live byte ranges lie inside the buffer and are pairwise disjoint. -/
def BlocksDisjoint (s : Client) : Prop :=
  (∀ e ∈ s.live, e.base + e.size ≤ maxBufferSize) ∧ s.live.Pairwise Segment.Apart

instance (s : Client) : Decidable (BlocksDisjoint s) := inferInstanceAs (Decidable (_ ∧ _))

/-- No live block among those considered starts inside a request placed at the lowest
free byte, unless the request does not fit the buffer anyway. -/
def HoleLargeEnough (h : Heap) (size : ℕ) (considered : Segment → Prop) : Prop :=
  ∀ c, LeastFree h c → c + size < maxBufferSize →
    ∀ e ∈ h, considered e → ¬ (c < e.base ∧ e.base < c + size)

lemma holeLargeEnough_iff {h : Heap} {size : ℕ} {considered : Segment → Prop} :
    HoleLargeEnough h size considered ↔ (firstFree h + size < maxBufferSize →
      ∀ e ∈ h, considered e → ¬ (firstFree h < e.base ∧ e.base < firstFree h + size)) := by
  simp only [HoleLargeEnough, leastFree_iff, forall_eq]

instance (h : Heap) (size : ℕ) (considered : Segment → Prop) [DecidablePred considered] :
    Decidable (HoleLargeEnough h size considered) := decidable_of_iff _ holeLargeEnough_iff.symm

/-- The hole at the lowest free byte holds the requested block; a block that is being
reallocated is given up and does not count. -/
def Roomy (s : Client) : Op → Prop
  | .alloc size => HoleLargeEnough s.live size.toNat fun _ => True
  | .reAlloc pointer size _ => HoleLargeEnough s.live size.toNat fun e => e.base ≠ pointer
  | .free _ => True
  | .write _ _ _ => True

instance (s : Client) (o : Op) : Decidable (Roomy s o) :=
  match o with
  | .alloc size => inferInstanceAs (Decidable (HoleLargeEnough s.live size.toNat fun _ => True))
  | .reAlloc pointer size _ =>
      inferInstanceAs (Decidable (HoleLargeEnough s.live size.toNat fun e => e.base ≠ pointer))
  | .free _ => inferInstanceAs (Decidable True)
  | .write _ _ _ => inferInstanceAs (Decidable True)

lemma exists_nearest {h : Heap} {c : ℕ} {e : Segment} (he : e ∈ h) (hb : e.base ≤ c) :
    ∃ f, Nearest h c f := by
  cases hm : (h.filter fun f => f.base ≤ c).argmax Segment.base with
  | none =>
    have hn := List.argmax_eq_none.mp hm
    have : e ∈ h.filter fun f => f.base ≤ c := by simp [he, hb]
    simp [hn] at this
  | some f =>
    have hf := List.argmax_mem hm
    simp only [List.mem_filter, decide_eq_true_eq] at hf
    refine ⟨f, hf.1, hf.2, fun g hg hgc => ?_⟩
    exact List.le_of_mem_argmax (by simp [hg, hgc]) hm

lemma apart_of_mem {h : Heap} (hd : h.Pairwise Segment.Apart) {e f : Segment} (he : e ∈ h)
    (hf : f ∈ h) (hne : e ≠ f) : e.Apart f := by
  have : Std.Symm Segment.Apart := ⟨fun _ _ => Segment.Apart.symm⟩
  exact hd.forall he hf hne

lemma Placed.leastFree {h : Heap} {size c : ℕ} (hp : Placed h size c)
    (hd : h.Pairwise Segment.Apart) (hpos : ∀ e ∈ h, 0 < e.size) : LeastFree h c := by
  refine ⟨hp.covered, ?_⟩
  rintro ⟨e, he, hbase, hend⟩
  obtain ⟨f, hf⟩ := exists_nearest he hbase
  have hended := hp.ended f hf
  have hle := hf.2.2 e he hbase
  have hfpos := hpos f hf.1
  by_cases hef : e = f
  · subst hef
    omega
  · rcases apart_of_mem hd he hf.1 hef with h₁ | h₁ <;> omega

lemma Full.holeLargeEnough {h : Heap} {size : ℕ} (hf : Full h size) (considered : Segment → Prop) :
    HoleLargeEnough h size considered := by
  intro c hc hfit
  obtain ⟨d, hfull, hcov⟩ := hf
  have : ¬ c < d := fun hlt => hc.2 (hcov c hlt)
  omega

lemma apart_iff_of_leastFree {h : Heap} {c : ℕ} (hc : LeastFree h c) (size : ℕ)
    (bytes : ℕ → Option UInt8) {e : Segment} (he : e ∈ h) (hpos : 0 < e.size) :
    Segment.Apart ⟨c, size, bytes⟩ e ↔ ¬ (c < e.base ∧ e.base < c + size) := by
  have hfree : ¬ e.Covers c := fun hcov => hc.2 ⟨e, he, hcov⟩
  unfold Segment.Covers at hfree
  unfold Segment.Apart
  dsimp only
  omega

lemma placed_apart_iff {h : Heap} {size c : ℕ} (hp : Placed h size c)
    (hd : h.Pairwise Segment.Apart) (hpos : ∀ e ∈ h, 0 < e.size)
    (bytes : ℕ → Option UInt8) (considered : Segment → Prop) :
    (∀ e ∈ h, considered e → Segment.Apart ⟨c, size, bytes⟩ e) ↔
      HoleLargeEnough h size considered := by
  have hc := hp.leastFree hd hpos
  constructor
  · intro ha d hd' _ e he hcons
    rw [leastFree_iff.mp hd', ← leastFree_iff.mp hc]
    exact (apart_iff_of_leastFree hc size bytes he (hpos e he)).mp (ha e he hcons)
  · intro hroom e he hcons
    exact (apart_iff_of_leastFree hc size bytes he (hpos e he)).mpr
      (hroom c hc hp.fits e he hcons)

theorem step_disjoint_iff {s s' : Client} {o : Op} (hc : Consistent s.allocator s.live)
    (hc' : Consistent s'.allocator s'.live) (he : Effect s o s') (hd : BlocksDisjoint s) :
    BlocksDisjoint s' ↔ Roomy s o := by
  have hin : ∀ e ∈ s'.live, e.base + e.size ≤ maxBufferSize := fun e hm => (hc'.inside e hm).le
  unfold BlocksDisjoint
  rw [and_iff_right hin]
  cases he with
  | @allocated size c _ _ hp hl _ =>
    rw [hl, allocate, List.pairwise_cons, and_iff_left hd.2, Roomy,
      ← placed_apart_iff hp hd.2 hc.nonempty (fun _ => none)]
    simp
  | allocFailed _ hf => exact iff_of_true hd.2 (hf.holeLargeEnough _)
  | @reAllocated pointer c size _ e _ hfind _ hp hl _ =>
    have hrest : (release pointer s.live).Pairwise Segment.Apart :=
      hd.2.sublist (release_sublist _ _)
    rw [hl, List.pairwise_cons, and_iff_left hrest, Roomy,
      ← placed_apart_iff hp hd.2 hc.nonempty (e.moved c size.toNat).bytes]
    simp only [mem_release hc.distinct, and_imp]
    rfl
  | reAllocFailed _ hf => exact iff_of_true hd.2 (hf.holeLargeEnough _)
  | @freed pointer _ hl _ =>
    rw [hl]
    exact iff_of_true (hd.2.sublist (release_sublist _ _)) trivial
  | @written pointer offset value _ hl _ =>
    refine iff_of_true ?_ trivial
    rw [hl, store, List.pairwise_map]
    refine hd.2.imp fun {e f} hef => ?_
    split_ifs <;> exact hef

/-- Along an admissible run the live blocks stay inside the buffer and disjoint exactly
when every request of the run fits the hole at the lowest free byte. -/
theorem run_disjoint_iff_roomy (ops : List Op) (hops : Guarded step Admissible start ops) :
    Throughout step BlocksDisjoint start ops ↔ Guarded step Roomy start ops := by
  have hstart : BlocksDisjoint start := by decide
  have hcons := consistent_start
  revert hops hstart hcons
  change Guarded step Admissible start ops → BlocksDisjoint start →
    Consistent start.allocator start.live → _
  generalize start = s
  induction ops generalizing s with
  | nil => exact fun _ hd _ => iff_of_true hd trivial
  | cons o ops ih =>
    rintro ⟨ho, hops⟩ hd hc
    obtain ⟨s', hstep, hc', heff⟩ := step_effect hc ho
    have hiff := step_disjoint_iff hc hc' heff hd
    constructor
    · rintro ⟨_, s'', hstep', hrun⟩
      obtain rfl : s' = s'' := Option.some.inj (hstep.symm.trans hstep')
      refine ⟨hiff.mp hrun.head, fun t ht => ?_⟩
      obtain rfl : s' = t := Option.some.inj (hstep.symm.trans ht)
      exact (ih s' (hops s' hstep) hrun.head hc').mp hrun
    · rintro ⟨hroom, hrun⟩
      have hd' := hiff.mpr hroom
      exact ⟨hd, s', hstep, (ih s' (hops s' hstep) hd' hc').mpr (hrun s' hstep)⟩

theorem run_disjoint_iff_roomy_sample :
    Guarded step Roomy start [.alloc 4, .alloc 4, .free 0, .alloc 3, .reAlloc 4 8 fun _ => 0] ∧
      Throughout step BlocksDisjoint start
        [.alloc 4, .alloc 4, .free 0, .alloc 3, .reAlloc 4 8 fun _ => 0] := by
  have hroom : Guarded step Roomy start
      [.alloc 4, .alloc 4, .free 0, .alloc 3, .reAlloc 4 8 fun _ => 0] := by decide +kernel
  exact ⟨hroom, (run_disjoint_iff_roomy _ (by decide +kernel)).mpr hroom⟩

theorem disjoint_fails_small_hole :
    ¬ ∀ ops, Guarded step Admissible start ops → Throughout step BlocksDisjoint start ops := by
  intro h
  have hops : Guarded step Admissible start [.alloc 1, .alloc 10, .free 0, .alloc 10] := by
    decide +kernel
  have hbad : ¬ Throughout step BlocksDisjoint start [.alloc 1, .alloc 10, .free 0, .alloc 10] := by
    decide +kernel
  exact hbad (h _ hops)

end UnixProgramming.Allocator
