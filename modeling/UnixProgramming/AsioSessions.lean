import UnixProgramming.AsioModel

/-! What holds of every session in every run of the Boost.Asio server: the handlers hand
the session and its buffer on to at most one outstanding operation. -/
namespace UnixProgramming.Asio

def Session.Fresh (s : Session) : Prop :=
  s.received = [] ∧ s.sent = [] ∧ s.started = false ∧ s.deletions = 0

/-- The bytes of an `async_write` that are not written yet. -/
def Session.unwritten (s : Session) (length written : ℕ) : List UInt8 :=
  (List.range' written (length - written)).map s.data

/-- The life of a session, by its outstanding operations. -/
inductive Phase (session : ℕ) (s : Session) : List Operation → Prop
  | accepting (hfresh : s.Fresh) : Phase session s [.accept session]
  | reading (hstarted : s.started = true) (hkept : s.deletions = 0) (heq : s.sent = s.received) :
    Phase session s [.read session]
  | writing {length written : ℕ} (hle : written ≤ length) (hstarted : s.started = true)
    (hkept : s.deletions = 0) (heq : s.sent ++ s.unwritten length written = s.received) :
    Phase session s [.write session length written]
  | deleted (honce : s.deletions = 1) (hinitial : s.sent <+: s.received) : Phase session s []

structure Inv (state : State) : Prop where
  phase : ∀ session < state.allocated, Phase session (state.sessions session)
    (state.operations session)
  unused : ∀ session, state.allocated ≤ session →
    state.operations session = [] ∧ (state.sessions session).Fresh

section Steps

variable {state state' : State} {operation : Operation}

/-- A step that concerns one session. -/
lemma Inv.update (h : Inv state) {session : ℕ} (hs : session < state.allocated)
    (hallocated : state'.allocated = state.allocated)
    (hother : ∀ other, other ≠ session → state'.sessions other = state.sessions other ∧
      state'.operations other = state.operations other)
    (hphase : Phase session (state'.sessions session) (state'.operations session)) :
    Inv state' where
  phase other ho := by
    by_cases heq : other = session
    · subst other
      exact hphase
    · rw [(hother other heq).1, (hother other heq).2]
      exact h.phase other (hallocated ▸ ho)
  unused other ho := by
    have hne : other ≠ session := by omega
    rw [(hother other hne).1, (hother other hne).2]
    exact h.unused other (hallocated ▸ ho)

lemma Inv.of_mem (h : Inv state) (hmem : operation ∈ state.operations operation.session) :
    operation.session < state.allocated ∧ state.operations operation.session = [operation] ∧
      Phase operation.session (state.sessions operation.session) [operation] := by
  by_cases hs : operation.session < state.allocated
  · have hphase := h.phase _ hs
    have hone : state.operations operation.session = [operation] := by
      generalize state.operations operation.session = operations at hphase hmem ⊢
      cases hphase with
      | deleted honce hinitial => simp at hmem
      | accepting hfresh => rw [List.mem_singleton.mp hmem, Operation.session]
      | reading hstarted hkept heq => rw [List.mem_singleton.mp hmem, Operation.session]
      | writing hle hstarted hkept heq => rw [List.mem_singleton.mp hmem, Operation.session]
    exact ⟨hs, hone, hone ▸ hphase⟩
  · have hnone := (h.unused _ (not_lt.mp hs)).1
    simp [hnone] at hmem

/-- A completed operation was the only one of its session. -/
lemma Inv.complete (h : Inv state) (hcomplete : state.complete operation = some state') :
    operation.session < state.allocated ∧ state'.sessions = state.sessions ∧
      state'.allocated = state.allocated ∧ state'.operations operation.session = [] ∧
      (∀ other, other ≠ operation.session → state'.operations other = state.operations other) ∧
      Phase operation.session (state.sessions operation.session) [operation] := by
  obtain ⟨hmem, hsessions, hallocated, hself, hother⟩ := complete_spec hcomplete
  obtain ⟨hs, hone, hphase⟩ := h.of_mem hmem
  refine ⟨hs, hsessions, hallocated, ?_, hother, hphase⟩
  rw [hself, hone]
  simp

lemma unwritten_zero (s : Session) (length : ℕ) : s.unwritten length length = [] := by
  simp [Session.unwritten]

lemma unwritten_deliver (s : Session) (chunk : Chunk) :
    (s.deliver chunk).unwritten chunk.bytes.length 0 = chunk.bytes := by
  refine List.ext_getElem (by simp [Session.unwritten]) fun i hi hi' => ?_
  simp [Session.unwritten, Session.deliver, hi']

lemma unwritten_split (s : Session) {length written count : ℕ} (h : written + count ≤ length) :
    (List.range' written count).map s.data ++ s.unwritten length (written + count) =
      s.unwritten length written := by
  unfold Session.unwritten
  rw [← List.map_append, List.range'_append_1]
  congr 2
  omega

/-- A completed operation may be followed by one other operation of its session. -/
lemma Inv.proceed (h : Inv state) (hcomplete : state.complete operation = some state')
    {f : Session → Session} {next : Operation} (hnext : next.session = operation.session)
    (hphase : Phase operation.session (f (state.sessions operation.session)) [next]) :
    Inv ((state'.modify operation.session f).begin next) := by
  obtain ⟨hs, hsessions, hallocated, hnone, hother, -⟩ := h.complete hcomplete
  refine h.update hs hallocated (fun other hne => ⟨?_, ?_⟩) ?_
  · rw [begin_sessions, modify_sessions_of_ne _ hne, hsessions]
  · rw [begin_operations_of_ne (hnext ▸ hne.symm), modify_operations, hother other hne]
  · rw [begin_sessions, modify_sessions_self, begin_operations_self hnext, modify_operations, hnone,
      hsessions]
    exact hphase

lemma Inv.delete (h : Inv state) (hcomplete : state.complete operation = some state')
    (hkept : (state.sessions operation.session).deletions = 0)
    (hinitial : (state.sessions operation.session).sent <+:
      (state.sessions operation.session).received) : Inv (state'.delete operation.session) := by
  obtain ⟨hs, hsessions, hallocated, hnone, hother, -⟩ := h.complete hcomplete
  refine h.update hs hallocated (fun other hne => ⟨?_, hother other hne⟩) ?_
  · rw [State.delete, modify_sessions_of_ne _ hne, hsessions]
  · rw [State.delete, modify_sessions_self, modify_operations, hnone, hsessions]
    exact .deleted (by simp [hkept]) hinitial

lemma Inv.newAsyncAccept (h : Inv state) : Inv state.newAsyncAccept := by
  obtain ⟨hnone, hfresh⟩ := h.unused _ le_rfl
  have hother : ∀ session, session ≠ state.allocated →
      state.newAsyncAccept.operations session = state.operations session := fun session hne =>
    begin_operations_of_ne hne.symm
  constructor
  · intro session hs
    by_cases heq : session = state.allocated
    · subst session
      have hself : state.newAsyncAccept.operations state.allocated = [.accept state.allocated] :=
        (begin_operations_self rfl).trans (congrArg _ hnone)
      rw [hself]
      exact .accepting hfresh
    · rw [hother session heq]
      exact h.phase session (lt_of_le_of_ne (Nat.lt_succ_iff.mp hs) heq)
  · intro session hs
    have hlt : state.allocated < session := hs
    rw [hother session hlt.ne']
    exact h.unused session hlt.le

lemma step_inv {completion : Completion} (h : Inv state)
    (hstep : step state completion = some state') : Inv state' := by
  cases stepped_of_step hstep with
  | @accepted session error next hcomplete =>
    obtain ⟨-, -, -, -, -, hphase⟩ := h.complete hcomplete
    cases hphase with
    | accepting hfresh =>
      obtain ⟨hreceived, hsent, hstarted, hkept⟩ := hfresh
      cases error with
      | true => exact h.delete hcomplete hkept (hsent ▸ List.nil_prefix)
      | false =>
        have hstart : Inv (next.sessionStart session) :=
          h.proceed hcomplete rfl (.reading rfl hkept (hsent.trans hreceived.symm))
        exact hstart.newAsyncAccept
  | @delivered session chunk next hcomplete =>
    obtain ⟨-, -, -, -, -, hphase⟩ := h.complete hcomplete
    cases hphase with
    | reading hstarted hkept heq =>
      refine h.proceed hcomplete rfl (.writing (Nat.zero_le _) hstarted hkept ?_)
      rw [unwritten_deliver]
      exact congrArg (· ++ chunk.bytes) heq
  | readFailed hcomplete =>
    obtain ⟨-, -, -, -, -, hphase⟩ := h.complete hcomplete
    cases hphase with
    | reading hstarted hkept heq => exact h.delete hcomplete hkept (heq ▸ List.prefix_refl _)
  | wroteSome hfits hcomplete =>
    obtain ⟨-, -, -, -, -, hphase⟩ := h.complete hcomplete
    cases hphase with
    | writing hle hstarted hkept heq =>
      rw [← unwritten_split _ hfits, ← List.append_assoc] at heq
      exact h.proceed hcomplete rfl (.writing hfits hstarted hkept heq)
  | @wrote session length written error next hall hcomplete =>
    obtain ⟨-, -, -, -, -, hphase⟩ := h.complete hcomplete
    cases hphase with
    | writing hle hstarted hkept heq =>
      cases error with
      | true => exact h.delete hcomplete hkept ⟨_, heq⟩
      | false =>
        obtain rfl : written = length := by simpa using hall
        rw [unwritten_zero, List.append_nil] at heq
        exact h.proceed hcomplete rfl (.reading rfl hkept heq)

end Steps

lemma initial_inv (data : ℕ → ℕ → UInt8) : Inv (initial data) :=
  Inv.newAsyncAccept ⟨fun _ hs => absurd hs (Nat.not_lt_zero _),
    fun _ _ => ⟨rfl, rfl, rfl, rfl, rfl⟩⟩

lemma run_inv {data : ℕ → ℕ → UInt8} {completions : List Completion} {state : State}
    (h : run data completions = some state) : Inv state :=
  StepRuns.invariant_of_run (fun _ _ _ hs hstep => step_inv hs hstep) (initial_inv data) h

/-- What the server may rely on for one session. -/
structure Sound (state : State) (session : ℕ) : Prop where
  one_outstanding : (state.sessions session).started = true →
    (state.sessions session).deletions = 0 → (state.operations session).length = 1
  exclusive : .read session ∈ state.pending → ∀ length written,
    .write session length written ∉ state.pending
  sent_initial : (state.sessions session).sent <+: (state.sessions session).received
  sent_all : .read session ∈ state.pending →
    (state.sessions session).sent = (state.sessions session).received
  deleted_once : (state.sessions session).deletions ≤ 1
  deleted_quiet : (state.sessions session).deletions = 1 → state.operations session = []

lemma mem_operations {state : State} {operation : Operation} :
    operation ∈ state.operations operation.session ↔ operation ∈ state.pending := by
  simp [State.operations]

section Soundness

variable {state : State} {session : ℕ}

/-- One operation is outstanding, and if it is a read then all was sent. -/
lemma sound_of_one {operation : Operation} (hone : state.operations session = [operation])
    (hkept : (state.sessions session).deletions = 0)
    (hinitial : (state.sessions session).sent <+: (state.sessions session).received)
    (hall : operation = .read session →
      (state.sessions session).sent = (state.sessions session).received) :
    Sound state session := by
  have heq : ∀ pending ∈ state.pending, pending.session = session → pending = operation := by
    intro pending hmem hs
    subst hs
    exact List.mem_singleton.mp (hone ▸ mem_operations.mpr hmem)
  exact
    { one_outstanding := fun _ _ => by rw [hone, List.length_singleton]
      exclusive := fun hr length written hw => by
        have hsame := (heq _ hr rfl).trans (heq _ hw rfl).symm
        cases hsame
      sent_initial := hinitial
      sent_all := fun hr => hall (heq _ hr rfl).symm
      deleted_once := hkept ▸ Nat.zero_le 1
      deleted_quiet := fun hd => absurd (hd.symm.trans hkept) one_ne_zero }

/-- Nothing is outstanding: the session was deleted, or it was never started. -/
lemma sound_of_none (hnone : state.operations session = [])
    (hstarted : (state.sessions session).started = true →
      (state.sessions session).deletions ≠ 0)
    (honce : (state.sessions session).deletions ≤ 1)
    (hinitial : (state.sessions session).sent <+: (state.sessions session).received) :
    Sound state session := by
  have hread : .read session ∉ state.pending := by
    intro hr
    have hmem : .read session ∈ state.operations session := mem_operations.mpr hr
    simp [hnone] at hmem
  exact
    { one_outstanding := fun hs hkept => absurd hkept (hstarted hs)
      exclusive := fun hr => absurd hr hread
      sent_initial := hinitial
      sent_all := fun hr => absurd hr hread
      deleted_once := honce
      deleted_quiet := fun _ => hnone }

lemma Phase.sound
    (h : Phase session (state.sessions session) (state.operations session)) :
    Sound state session := by
  generalize hoperations : state.operations session = operations at h
  cases h with
  | accepting hfresh =>
    obtain ⟨hreceived, hsent, hstarted, hkept⟩ := hfresh
    exact sound_of_one hoperations hkept (hsent ▸ List.nil_prefix) nofun
  | reading hstarted hkept heq =>
    exact sound_of_one hoperations hkept (heq ▸ List.prefix_refl _) fun _ => heq
  | writing hle hstarted hkept heq => exact sound_of_one hoperations hkept ⟨_, heq⟩ nofun
  | deleted honce hinitial =>
    exact sound_of_none hoperations (fun _ => honce ▸ one_ne_zero) honce.le hinitial

lemma sound_of_unused (hnone : state.operations session = [])
    (hfresh : (state.sessions session).Fresh) : Sound state session := by
  obtain ⟨hreceived, hsent, hstarted, hkept⟩ := hfresh
  refine sound_of_none hnone (fun hs => ?_) (hkept ▸ Nat.zero_le 1) (hsent ▸ List.nil_prefix)
  simp [hstarted] at hs

end Soundness

/-- In every run, whatever completes and fails in whatever order. -/
theorem sessions_sound (data : ℕ → ℕ → UInt8) (completions : List Completion) (state : State)
    (h : run data completions = some state) (session : ℕ) : Sound state session := by
  by_cases hs : session < state.allocated
  · exact ((run_inv h).phase session hs).sound
  · obtain ⟨hnone, hfresh⟩ := (run_inv h).unused session (not_lt.mp hs)
    exact sound_of_unused hnone hfresh

/-- The first session echoes two bytes in two parts while a second one is accepted. -/
def twoSessions : List Completion :=
  [.accepted 0 false, .delivered 0 ⟨[7, 8], by simp, by simp [kMaxLength]⟩,
    .wroteSome 0 2 0 1, .accepted 1 false, .wroteSome 0 2 1 1, .wrote 0 2 2 false, .readFailed 1]

theorem sessions_sound_two : ∃ state, run (fun _ _ => 0) twoSessions = some state ∧
    (state.sessions 0).sent = [7, 8] ∧ Sound state 0 ∧ Sound state 1 := by
  obtain ⟨state, hrun⟩ : ∃ state, run (fun _ _ => 0) twoSessions = some state :=
    Option.isSome_iff_exists.mp (by decide +kernel)
  have hsent : (run (fun _ _ => 0) twoSessions).map (fun state => (state.sessions 0).sent) =
    some [7, 8] := by decide +kernel
  rw [hrun] at hsent
  exact ⟨state, hrun, Option.some.inj hsent, sessions_sound _ _ state hrun 0,
    sessions_sound _ _ state hrun 1⟩

end UnixProgramming.Asio
