import UnixProgramming.ListUpdates
import UnixProgramming.StepRuns

/-! The callbacks of the libevent server. What libevent itself does is assumed, as `Moves` and
`Delivers`: `evbuffer_add_buffer` moves all bytes, a read callback follows when bytes have
arrived, and no callback comes on a `bufferevent` that was freed or once the loop was left. -/
namespace UnixProgramming.Libevent
open ListUpdates StepRuns

/-- A `bufferevent`; `releases` counts the calls of `bufferevent_free` on it. -/
structure Bufferevent where
  input : List UInt8
  output : List UInt8
  releases : ℕ

inductive Loop
  | running
  | exiting
  | ended
  deriving DecidableEq, Repr

/-- `printed` holds the allocated bytes that were passed to `printf` as a string. -/
structure State where
  bufferevents : List Bufferevent
  printed : List (List UInt8)
  loop : Loop

def start : State := ⟨[], [], .running⟩

/-- What happens in the loop. A flag of `failed` stands for `BEV_EVENT_ERROR` or
`BEV_EVENT_EOF`. -/
inductive Event
  | connection
  | acceptError
  | readable (bev : ℕ) (bytes : List UInt8)
  | failed (bev : ℕ) (error eof : Bool)
  | iterationEnds
  deriving DecidableEq, Repr

/-- What `evbuffer_add_buffer` makes of an output and an input. -/
abbrev AddBuffer := List UInt8 → List UInt8 → List UInt8 × List UInt8

def Moves (evbufferAddBuffer : AddBuffer) : Prop :=
  ∀ output input, evbufferAddBuffer output input = (output ++ input, [])

def Bufferevent.fill (bytes : List UInt8) (b : Bufferevent) : Bufferevent :=
  { b with input := b.input ++ bytes }

def Bufferevent.addBuffer (evbufferAddBuffer : AddBuffer) (b : Bufferevent) : Bufferevent :=
  let (output, input) := evbufferAddBuffer b.output b.input
  { b with output := output, input := input }

def Bufferevent.free (b : Bufferevent) : Bufferevent := { b with releases := b.releases + 1 }

def State.modify (s : State) (bev : ℕ) (f : Bufferevent → Bufferevent) : State :=
  { s with bufferevents := s.bufferevents.modify bev f }

/-- The bytes of the input are copied for `printf`, and nothing is put behind them. -/
def echoReadCb (evbufferAddBuffer : AddBuffer) (s : State) (bev : ℕ) : State :=
  let data := (s.bufferevents[bev]?.map Bufferevent.input).getD []
  { s with printed := s.printed ++ [data] }.modify bev (.addBuffer evbufferAddBuffer)

def echoEventCb (s : State) (bev : ℕ) (error eof : Bool) : State :=
  let s := if error then s.modify bev .free else s
  if eof then s.modify bev .free else s

def acceptConnCb (s : State) : State := { s with bufferevents := s.bufferevents ++ [⟨[], [], 0⟩] }

def acceptErrorCb (s : State) : State := { s with loop := .exiting }

def respond (evbufferAddBuffer : AddBuffer) (s : State) : Event → State
  | .connection => acceptConnCb s
  | .acceptError => acceptErrorCb s
  | .readable bev bytes => echoReadCb evbufferAddBuffer (s.modify bev (.fill bytes)) bev
  | .failed bev error eof => echoEventCb s bev error eof
  | .iterationEnds => if s.loop = .exiting then { s with loop := .ended } else s

def step (evbufferAddBuffer : AddBuffer) (s : State) (event : Event) : Option State :=
  some (respond evbufferAddBuffer s event)

def State.live (s : State) (bev : ℕ) : Bool := s.bufferevents[bev]?.any fun b => b.releases = 0

/-- The events that libevent reports to the callbacks. -/
def Delivers (s : State) (event : Event) : Prop :=
  s.loop ≠ .ended ∧
    match event with
    | .readable bev bytes => s.live bev = true ∧ bytes ≠ []
    | .failed bev _ _ => s.live bev = true
    | _ => True

instance (s : State) : ∀ event, Decidable (Delivers s event)
  | .connection => inferInstanceAs (Decidable (_ ∧ True))
  | .acceptError => inferInstanceAs (Decidable (_ ∧ True))
  | .readable _ _ => inferInstanceAs (Decidable (_ ∧ _ ∧ _))
  | .failed _ _ _ => inferInstanceAs (Decidable (_ ∧ _))
  | .iterationEnds => inferInstanceAs (Decidable (_ ∧ True))

/-- A string that `printf` gets is terminated in its memory, and a `bufferevent` is freed once
at most. -/
structure Safe (s : State) : Prop where
  terminated : ∀ data ∈ s.printed, 0 ∈ data
  once : ∀ b ∈ s.bufferevents, b.releases ≤ 1

/-- A zero byte was read, or one flag of the two was set. -/
def Event.harmless : Event → Bool
  | readable _ bytes => bytes.contains 0
  | failed _ error eof => !(error && eof)
  | _ => true

section Steps

variable {evbufferAddBuffer : AddBuffer} {s s' : State} {event : Event}

lemma live_iff {bev : ℕ} : s.live bev = true ↔
    ∃ b, s.bufferevents[bev]? = some b ∧ b.releases = 0 := by
  simp [State.live, Option.any_eq_true]

/-- Between two events the inputs are empty. -/
def Emptied (s : State) : Prop := ∀ b ∈ s.bufferevents, b.input = []

lemma start_emptied : Emptied start := by simp [Emptied, start]

lemma start_safe : Safe start where
  terminated := by simp [start]
  once := by simp [start]

def Bufferevent.freeTimes (n : ℕ) (b : Bufferevent) : Bufferevent :=
  { b with releases := b.releases + n }

lemma echoReadCb_eq (hmoves : Moves evbufferAddBuffer) {bev : ℕ} {b : Bufferevent}
    (hb : s.bufferevents[bev]? = some b) (bytes : List UInt8) :
    echoReadCb evbufferAddBuffer (s.modify bev (.fill bytes)) bev =
      { s with
        bufferevents := s.bufferevents.set bev ⟨[], b.output ++ (b.input ++ bytes), b.releases⟩
        printed := s.printed ++ [b.input ++ bytes] } := by
  obtain ⟨hlt, -⟩ := List.getElem?_eq_some_iff.mp hb
  have hfilled : (s.bufferevents.set bev (b.fill bytes))[bev]? = some (b.fill bytes) :=
    List.getElem?_set_self hlt
  have hmoved : (b.fill bytes).addBuffer evbufferAddBuffer =
      ⟨[], b.output ++ (b.input ++ bytes), b.releases⟩ := by
    have hpair := hmoves b.output (b.input ++ bytes)
    simp [Bufferevent.addBuffer, Bufferevent.fill, hpair]
  simp only [echoReadCb, State.modify, modify_eq_set hb, modify_eq_set hfilled, hfilled, hmoved,
    List.set_set, Option.map_some, Option.getD_some]
  rfl

lemma echoEventCb_eq {bev : ℕ} {b : Bufferevent} (hb : s.bufferevents[bev]? = some b)
    (error eof : Bool) : echoEventCb s bev error eof =
      { s with
        bufferevents := s.bufferevents.set bev (b.freeTimes (error.toNat + eof.toNat)) } := by
  have htwice : Bufferevent.free ∘ Bufferevent.free = Bufferevent.freeTimes 2 := rfl
  have hnone : Bufferevent.freeTimes 0 = id := rfl
  rw [← modify_eq_set hb (Bufferevent.freeTimes (error.toNat + eof.toNat))]
  cases error with
  | true =>
    cases eof with
    | true => simp [echoEventCb, State.modify, List.modify_modify_eq, htwice]
    | false => rfl
  | false =>
    cases eof with
    | true => rfl
    | false => simp [echoEventCb, hnone]

lemma forall_mem_acceptConnCb {P : Bufferevent → Prop} (h : ∀ b ∈ s.bufferevents, P b)
    (hnew : P ⟨[], [], 0⟩) : ∀ b ∈ (acceptConnCb s).bufferevents, P b := by
  intro b hb
  rcases List.mem_append.mp hb with hb | hb
  · exact h b hb
  · exact List.mem_singleton.mp hb ▸ hnew

lemma respond_emptied (hmoves : Moves evbufferAddBuffer) (h : Emptied s)
    (hdelivers : Delivers s event) : Emptied (respond evbufferAddBuffer s event) := by
  cases event with
  | connection => exact forall_mem_acceptConnCb h rfl
  | acceptError => exact h
  | readable bev bytes =>
    obtain ⟨b, hb, -⟩ := live_iff.mp hdelivers.2.1
    rw [respond, echoReadCb_eq hmoves hb]
    exact forall_mem_set h rfl
  | failed bev error eof =>
    obtain ⟨b, hb, -⟩ := live_iff.mp hdelivers.2
    rw [respond, echoEventCb_eq hb]
    exact forall_mem_set h (h b (List.mem_of_getElem? hb))
  | iterationEnds =>
    unfold respond
    split_ifs
    · exact h
    · exact h

/-- The copy of the input ends without a zero byte of its own, and the two tests of the flags
do not exclude each other. -/
lemma respond_safe_iff (hmoves : Moves evbufferAddBuffer) (hempty : Emptied s) (h : Safe s)
    (hdelivers : Delivers s event) :
    Safe (respond evbufferAddBuffer s event) ↔ event.harmless = true := by
  cases event with
  | connection =>
    exact iff_of_true ⟨h.terminated, forall_mem_acceptConnCb h.once (Nat.zero_le 1)⟩ rfl
  | acceptError => exact iff_of_true ⟨h.terminated, h.once⟩ rfl
  | readable bev bytes =>
    obtain ⟨b, hb, hlive⟩ := live_iff.mp hdelivers.2.1
    have hinput := hempty b (List.mem_of_getElem? hb)
    rw [respond, echoReadCb_eq hmoves hb, hinput, List.nil_append, Event.harmless,
      List.contains_iff_mem]
    constructor
    · intro hs
      exact hs.terminated bytes (by simp)
    · intro hzero
      refine ⟨fun data hdata => ?_, forall_mem_set h.once (hlive.trans_le (Nat.zero_le 1))⟩
      rcases List.mem_append.mp hdata with hdata | hdata
      · exact h.terminated data hdata
      · exact List.mem_singleton.mp hdata ▸ hzero
  | failed bev error eof =>
    obtain ⟨b, hb, hlive⟩ := live_iff.mp hdelivers.2
    obtain ⟨hlt, -⟩ := List.getElem?_eq_some_iff.mp hb
    have hiff : (b.freeTimes (error.toNat + eof.toNat)).releases ≤ 1 ↔
        Event.harmless (.failed bev error eof) = true := by
      simp only [Bufferevent.freeTimes, hlive, Event.harmless]
      cases error <;> cases eof <;> decide
    rw [respond, echoEventCb_eq hb, ← hiff]
    constructor
    · intro hs
      exact hs.once _ (List.mem_of_getElem? (List.getElem?_set_self hlt))
    · intro hreleases
      exact ⟨h.terminated, forall_mem_set h.once hreleases⟩
  | iterationEnds =>
    unfold respond
    split_ifs
    · exact iff_of_true ⟨h.terminated, h.once⟩ rfl
    · exact iff_of_true h rfl

end Steps

/-- Under the contract of libevent, a run is safe throughout exactly when each read brings a
zero byte, and no callback gets both an error and the end of the data. -/
theorem safe_iff_harmless (evbufferAddBuffer : AddBuffer) (hmoves : Moves evbufferAddBuffer)
    (events : List Event)
    (hdelivers : Guarded (step evbufferAddBuffer) Delivers start events) :
    Throughout (step evbufferAddBuffer) Safe start events ↔
      ∀ event ∈ events, event.harmless = true := by
  refine throughout_iff_of_guarded (Q := Emptied) (fun s event s' hs hd hstep => ?_)
    (fun s event hempty hs hd => ?_) start_emptied start_safe hdelivers
  · exact Option.some.inj hstep ▸ respond_emptied hmoves hs hd
  · rw [← respond_safe_iff hmoves hempty hs hd]
    simp [step]

/-- Two connections; a string with its terminator is read from the second one, which is then
closed by its client. -/
def polite : List Event :=
  [.connection, .connection, .readable 1 [104, 105, 0], .failed 1 false true]

theorem safe_iff_harmless_polite :
    Throughout (step fun output input => (output ++ input, [])) Safe start polite :=
  (safe_iff_harmless _ (fun _ _ => rfl) polite (by decide +kernel)).mpr (by decide +kernel)

end UnixProgramming.Libevent
