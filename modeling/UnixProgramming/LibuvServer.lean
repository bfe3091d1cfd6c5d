import UnixProgramming.StepRuns

/-! The libuv server, with the ownership of its stream handles, buffers and write requests.
libuv goes on calling `read_cb` on a stream, as the server neither stops nor closes it, and
may complete a `uv_write` after the call. -/
namespace UnixProgramming.Libuv
open StepRuns

inductive Memory
  | owned
  | released
  deriving DecidableEq, Repr

/-- A stream handle; `releases` counts the calls of `free` on it. -/
structure Stream where
  reading : Bool
  releases : ℕ

/-- A call of `uv_write`; the buffer is given by its number. -/
structure Write where
  stream : ℕ
  buffer : ℕ
  request : Memory
  inFlight : Bool

/-- `late` records the streams of the callbacks that were delivered after their release. -/
structure State where
  streams : List Stream
  buffers : List Memory
  writes : List Write
  late : List ℕ

def start : State := ⟨[], [], [], []⟩

/-- What libuv does next; `completes` says that a `uv_write` made in the callback has
completed when it returns. -/
inductive Event
  | connection (accepted : Bool)
  | read (stream : ℕ) (n : ℤ) (completes : Bool)
  | written (write : ℕ)

def Stream.isReleased (stream : Stream) : Bool := 0 < stream.releases

def State.released (s : State) (stream : ℕ) : Bool := s.streams[stream]?.any Stream.isReleased

def State.freeStream (s : State) (stream : ℕ) : State :=
  { s with streams := s.streams.modify stream fun x => { x with releases := x.releases + 1 } }

def State.freeBuffer (s : State) (buffer : ℕ) : State :=
  { s with buffers := s.buffers.set buffer .released }

def State.freeRequest (s : State) (write : ℕ) : State :=
  { s with writes := s.writes.modify write fun x => { x with request := .released } }

/-- `uv_write` with a new request. -/
def State.uvWrite (s : State) (stream buffer : ℕ) (completes : Bool) : State :=
  { s with writes := s.writes ++ [⟨stream, buffer, .owned, !completes⟩] }

/-- A callback on a stream. -/
def State.deliver (s : State) (stream : ℕ) : State :=
  { s with late := if s.released stream then s.late ++ [stream] else s.late }

def allocBuffer (s : State) : State := { s with buffers := s.buffers ++ [.owned] }

def readCb (s : State) (stream : ℕ) (n : ℤ) (buffer : ℕ) (completes : Bool) : State :=
  if n ≤ 0 then (s.freeStream stream).freeBuffer buffer
  else
    let req := s.writes.length
    ((s.uvWrite stream buffer completes).freeBuffer buffer).freeRequest req

/-- The new handle is read from unless `uv_accept` failed. -/
def connectionCb (s : State) (accepted : Bool) : State :=
  { s with streams := s.streams ++ [⟨accepted, 0⟩] }

def step (s : State) : Event → Option State
  | .connection accepted => some (connectionCb s accepted)
  | .read stream n completes =>
    if s.streams[stream]?.any Stream.reading then
      some (readCb (allocBuffer (s.deliver stream)) stream n s.buffers.length completes)
    else none
  | .written write =>
    if s.writes[write]?.any Write.inFlight then
      some { s with writes := s.writes.modify write fun x => { x with inFlight := false } }
    else none

/-- Nothing is released while it is in flight, a stream is released once at most, and no
callback comes after that. -/
structure Safe (s : State) : Prop where
  kept : ∀ w ∈ s.writes, w.inFlight = true →
    w.request = .owned ∧ s.buffers[w.buffer]? = some .owned
  once : ∀ stream ∈ s.streams, stream.releases ≤ 1
  none_late : s.late = []

/-- A `uv_write` made in the callback completes in it. -/
def Event.prompt : Event → Bool
  | read _ n completes => n ≤ 0 || completes
  | _ => true

def Event.reads (stream : ℕ) : Event → Bool
  | read x _ _ => x = stream
  | _ => false

/-- The end of the data, an error, or nothing to read is reported. -/
def Event.ends (stream : ℕ) : Event → Bool
  | read x n _ => x = stream && n ≤ 0
  | _ => false

/-- Every write completes in its callback, and nothing is read from a stream after a read
of at most 0 bytes. -/
def Orderly (events : List Event) : Prop :=
  (∀ event ∈ events, event.prompt = true) ∧
    events.Pairwise fun e e' => ∀ stream, e.ends stream = true → e'.reads stream = false

/-- The ways to take a step, with what the callbacks leave behind. -/
inductive Stepped (s : State) : Event → State → Prop
  | connected {accepted : Bool} : Stepped s (.connection accepted) (connectionCb s accepted)
  | ended {stream : ℕ} {n : ℤ} {completes : Bool} (hn : n ≤ 0) {handle : Stream}
    (hhandle : s.streams[stream]? = some handle) :
    Stepped s (.read stream n completes)
      ⟨(s.freeStream stream).streams, s.buffers ++ [.released], s.writes, (s.deliver stream).late⟩
  | echoed {stream : ℕ} {n : ℤ} {completes : Bool} (hn : 0 < n) :
    Stepped s (.read stream n completes)
      ⟨s.streams, s.buffers ++ [.released],
        s.writes ++ [⟨stream, s.buffers.length, .released, !completes⟩], (s.deliver stream).late⟩
  | written {write : ℕ} :
    Stepped s (.written write)
      { s with writes := s.writes.modify write fun x => { x with inFlight := false } }

section Steps

variable {s s' : State} {event : Event}

lemma modify_length_append {α : Type} (l : List α) (x : α) (f : α → α) :
    (l ++ [x]).modify l.length f = l ++ [f x] := by
  induction l with
  | nil => rfl
  | cons y l ih => simp [ih]

lemma stepped_of_step (h : step s event = some s') : Stepped s event s' := by
  cases event with
  | connection accepted => exact Option.some.inj h ▸ .connected
  | read stream n completes =>
    simp only [step] at h
    split_ifs at h with hreading
    obtain rfl := Option.some.inj h
    obtain ⟨handle, hhandle, -⟩ := (Option.any_eq_true _ _).mp hreading
    by_cases hn : n ≤ 0
    · have hended := @Stepped.ended s stream n completes hn handle hhandle
      simpa [readCb, hn, allocBuffer, State.freeBuffer, State.freeStream, State.deliver]
        using hended
    · have hechoed := @Stepped.echoed s stream n completes (not_le.mp hn)
      simpa [readCb, hn, allocBuffer, State.freeBuffer, State.freeRequest, State.uvWrite,
        State.deliver, modify_length_append] using hechoed
  | written write =>
    simp only [step] at h
    split_ifs at h
    exact Option.some.inj h ▸ .written

lemma start_safe : Safe start where
  kept := by simp [start]
  once := by simp [start]
  none_late := rfl

/-- Only a read of at most 0 bytes releases a stream. -/
lemma released_iff (h : step s event = some s') (stream : ℕ) :
    s'.released stream = true ↔ s.released stream = true ∨ event.ends stream = true := by
  cases stepped_of_step h with
  | @connected accepted =>
    have hnew : ∀ i : ℕ, ([⟨accepted, 0⟩] : List Stream)[i]?.any Stream.isReleased = false := by
      intro i
      cases i <;> simp [Stream.isReleased]
    have hnone : stream < s.streams.length ∨ s.streams[stream]? = none := by
      rcases lt_or_ge stream s.streams.length with hlt | hge
      · exact Or.inl hlt
      · exact Or.inr (List.getElem?_eq_none hge)
    simp only [State.released, connectionCb, Event.ends, Bool.false_eq_true, or_false,
      List.getElem?_append]
    split_ifs with hlt
    · rfl
    · simp [hnew, hnone.resolve_left hlt]
  | @ended x n completes hn handle hhandle =>
    by_cases hx : x = stream
    · subst hx
      simp [State.released, State.freeStream, Stream.isReleased, Event.ends, hn, hhandle]
    · simp [State.released, State.freeStream, Event.ends, hx]
  | @echoed x n completes hn => simp [State.released, Event.ends, hn]
  | written => simp [State.released, Event.ends]

lemma deliver_late_eq_nil {stream : ℕ} (h : s.late = []) :
    (s.deliver stream).late = [] ↔ s.released stream = false := by
  unfold State.deliver
  dsimp only
  split_ifs with hreleased <;> simp [h, hreleased]

/-- A buffer that is in use is not the new one, which is released in the callback. -/
lemma Safe.kept_append (h : Safe s) {w : Write} (hw : w ∈ s.writes) (hflight : w.inFlight = true) :
    w.request = .owned ∧ (s.buffers ++ [Memory.released])[w.buffer]? = some .owned := by
  obtain ⟨hrequest, hbuffer⟩ := h.kept w hw hflight
  obtain ⟨hlt, -⟩ := List.getElem?_eq_some_iff.mp hbuffer
  exact ⟨hrequest, by rwa [List.getElem?_append_left hlt]⟩

lemma Safe.once_freeStream (h : Safe s) {stream : ℕ} (hkept : s.released stream = false) :
    ∀ x ∈ (s.freeStream stream).streams, x.releases ≤ 1 := by
  intro x hx
  obtain ⟨i, hi⟩ := List.mem_iff_getElem?.mp hx
  simp only [State.freeStream, List.getElem?_modify, Option.map_eq_map, Option.map_eq_some_iff]
    at hi
  obtain ⟨y, hy, rfl⟩ := hi
  split_ifs with heq
  · subst heq
    simpa [State.released, hy, Stream.isReleased] using hkept
  · exact h.once y (List.mem_of_getElem? hy)

lemma step_safe_iff (h : Safe s) (hstep : step s event = some s') :
    Safe s' ↔ event.prompt = true ∧
      ∀ stream, event.reads stream = true → s.released stream = false := by
  cases stepped_of_step hstep with
  | @connected accepted =>
    refine iff_of_true ⟨h.kept, fun x hx => ?_, h.none_late⟩ (by simp [Event.prompt, Event.reads])
    rcases List.mem_append.mp hx with hx | hx
    · exact h.once x hx
    · rw [List.mem_singleton.mp hx]
      exact Nat.zero_le 1
  | @ended stream n completes hn handle hhandle =>
    simp only [Event.prompt, hn, decide_true, Bool.true_or, Event.reads, decide_eq_true_eq,
      forall_eq', true_and]
    constructor
    · exact fun hs => (deliver_late_eq_nil h.none_late).mp hs.none_late
    · intro hkept
      exact ⟨fun w hw => h.kept_append hw, h.once_freeStream hkept,
        (deliver_late_eq_nil h.none_late).mpr hkept⟩
  | @echoed stream n completes hn =>
    simp only [Event.prompt, not_le.mpr hn, decide_false, Bool.false_or, Event.reads,
      decide_eq_true_eq, forall_eq']
    constructor
    · intro hs
      refine ⟨?_, (deliver_late_eq_nil h.none_late).mp hs.none_late⟩
      -- the request of the write is released when the callback returns
      by_contra hlater
      have hrequest := (hs.kept _ (List.mem_append_right _ (List.mem_singleton_self _))
        (by simpa using hlater)).1
      cases hrequest
    · rintro ⟨hcompletes, hkept⟩
      refine ⟨fun w hw hflight => ?_, h.once, (deliver_late_eq_nil h.none_late).mpr hkept⟩
      rcases List.mem_append.mp hw with hw | hw
      · exact h.kept_append hw hflight
      · rw [List.mem_singleton.mp hw, hcompletes] at hflight
        cases hflight
  | @written write =>
    refine iff_of_true ⟨fun w hw hflight => ?_, h.once, h.none_late⟩
      (by simp [Event.prompt, Event.reads])
    obtain ⟨i, hi⟩ := List.mem_iff_getElem?.mp hw
    simp only [List.getElem?_modify, Option.map_eq_map, Option.map_eq_some_iff] at hi
    obtain ⟨v, hv, rfl⟩ := hi
    split_ifs at hflight ⊢
    exact h.kept v (List.mem_of_getElem? hv) hflight

lemma orderly_cons {events : List Event} : Orderly (event :: events) ↔
    event.prompt = true ∧
      (∀ e ∈ events, ∀ stream, event.ends stream = true → e.reads stream = false) ∧
      Orderly events := by
  rw [Orderly, Orderly, List.forall_mem_cons, List.pairwise_cons]
  tauto

/-- After a step a stream may be read that was not released and did not end in it. -/
lemma reads_kept_iff (h : step s event = some s') (e : Event) :
    (∀ stream, e.reads stream = true → s'.released stream = false) ↔
      (∀ stream, event.ends stream = true → e.reads stream = false) ∧
        ∀ stream, e.reads stream = true → s.released stream = false := by
  have hkept : ∀ stream, s'.released stream = false ↔
      s.released stream = false ∧ event.ends stream = false := by
    intro stream
    rw [← Bool.not_eq_true, released_iff h, not_or, Bool.not_eq_true, Bool.not_eq_true]
  simp only [hkept]
  constructor
  · intro hr
    refine ⟨fun stream hends => ?_, fun stream hreads => (hr stream hreads).1⟩
    by_contra hreads
    have hnot := (hr stream (by simpa using hreads)).2
    rw [hends] at hnot
    cases hnot
  · rintro ⟨hends, hr⟩ stream hreads
    refine ⟨hr stream hreads, ?_⟩
    by_contra hend
    have hnot := hends stream (by simpa using hend)
    rw [hreads] at hnot
    cases hnot

/-- The property along a run, from any safe state. -/
lemma throughout_safe_iff {events : List Event} (h : Safe s)
    (hrun : (events.foldlM step s).isSome = true) :
    Throughout step Safe s events ↔ Orderly events ∧
      ∀ event ∈ events, ∀ stream, event.reads stream = true → s.released stream = false := by
  induction events generalizing s with
  | nil => exact iff_of_true h ⟨⟨by simp, List.Pairwise.nil⟩, by simp⟩
  | cons event events ih =>
    obtain ⟨last, hlast⟩ := Option.isSome_iff_exists.mp hrun
    rw [List.foldlM_cons] at hlast
    obtain ⟨t, ht, hrest⟩ := Option.bind_eq_some_iff.mp hlast
    have hrest : (events.foldlM step t).isSome = true := by simp [hrest]
    rw [orderly_cons, List.forall_mem_cons]
    constructor
    · rintro ⟨-, t', ht', hthroughout⟩
      obtain rfl : t = t' := Option.some.inj (ht.symm.trans ht')
      obtain ⟨hprompt, hreads⟩ := (step_safe_iff h ht).mp hthroughout.head
      obtain ⟨horderly, hlater⟩ := (ih hthroughout.head hrest).mp hthroughout
      have hboth := fun e he => (reads_kept_iff ht e).mp (hlater e he)
      exact ⟨⟨hprompt, fun e he => (hboth e he).1, horderly⟩, hreads,
        fun e he => (hboth e he).2⟩
    · rintro ⟨⟨hprompt, hends, horderly⟩, hreads, hlater⟩
      have hsafe := (step_safe_iff h ht).mpr ⟨hprompt, hreads⟩
      refine ⟨h, t, ht, (ih hsafe hrest).mpr ⟨horderly, fun e he => ?_⟩⟩
      exact (reads_kept_iff ht e).mpr ⟨hends e he, hlater e he⟩

end Steps

/-- A run is safe throughout exactly when all writes complete in their callbacks and no
callback follows a read of at most 0 bytes on its stream. The library itself never completes a
write inside `uv_write`, so that in practice no read of a positive number of bytes is safe. -/
theorem streams_and_writes_safe_iff (events : List Event)
    (hrun : (events.foldlM step start).isSome = true) :
    Throughout step Safe start events ↔ Orderly events := by
  rw [throughout_safe_iff start_safe hrun]
  refine and_iff_left fun event _ stream _ => ?_
  simp [start, State.released]

def twoStreams : List Event :=
  [.connection true, .connection true, .read 1 4 true, .read 0 4 true, .read 1 (-4095) true,
    .read 0 4 true]

theorem streams_and_writes_safe_two : Throughout step Safe start twoStreams :=
  (streams_and_writes_safe_iff twoStreams (by decide +kernel)).mpr
    ⟨by decide, by simp [twoStreams, Event.ends, Event.reads]⟩

/-- A write that is still in flight has lost its request and buffer; after a read of no
bytes the released stream is called and released again. -/
theorem streams_and_writes_unsafe :
    (∃ s, [.connection true, .read 0 5 false].foldlM step start = some s ∧
      s.writes = [⟨0, 0, .released, true⟩] ∧ s.buffers = [.released] ∧ ¬ Safe s) ∧
    ∃ s, [.connection true, .read 0 0 true, .read 0 0 true].foldlM step start = some s ∧
      s.late = [0] ∧ s.streams = [⟨true, 2⟩] ∧ ¬ Safe s := by
  refine ⟨⟨_, rfl, rfl, rfl, fun h => ?_⟩, ⟨_, rfl, rfl, rfl, fun h => ?_⟩⟩
  · have hrequest := (h.kept _ (List.mem_singleton_self _) rfl).1
    cases hrequest
  · cases h.none_late

end UnixProgramming.Libuv
