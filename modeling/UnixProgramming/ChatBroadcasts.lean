import UnixProgramming.ChatBounds
import UnixProgramming.ChatLogs

/-! What the chat server broadcasts for an occurrence. The message is sent whatever the
branch, and it is put together by C string functions. -/
namespace UnixProgramming.Chat
open EchoServer

/-- A message for a new client, for one that left and for what a client said, and for
nothing else; what was said follows the address of the client that said it. -/
def Handling.announced (h : Handling) : Bool :=
  match h.outcome with
  | .accept (.ok _) => h.broadcasts.length = 1
  | .accept (.error _) => h.broadcasts = []
  | .recv .closed => h.broadcasts.length = 1
  | .recv (.data chunk) => h.broadcasts = [h.peer.text ++ colon ++ chunk.bytes]
  | .recv (.failed _) => h.broadcasts = []

def Lawful (h : Handling) : Prop :=
  (∀ d ∈ h.sends, d.message ∈ h.broadcasts) ∧ h.announced = true

def LawfulHistory (w : World) : Prop := ∀ h ∈ w.history, Lawful h

instance (h : Handling) : Decidable (Lawful h) := inferInstanceAs (Decidable (_ ∧ _))
instance (w : World) : Decidable (LawfulHistory w) :=
  inferInstanceAs (Decidable (∀ h ∈ w.history, Lawful h))

/-- No `accept` or `recv` fails. What was received is a C string that fits into the message,
and the address before it is that of the sender: `getpeername` succeeds, or the memory that
it leaves as it was happens to hold this address. -/
def Ordinary (masterSocket : ℕ) (o : Occurrence) : Prop :=
  if o.fd = masterSocket then o.accept.isOk = true
  else
    match o.recv with
    | .closed => True
    | .data chunk => (o.getpeername = none ∨ o.memory.text = o.peer.text) ∧
        0 ∉ chunk.bytes ∧ o.peer.text.length + colon.length + chunk.bytes.length < messageSize
    | .failed _ => False

def OrdinaryWait (masterSocket : ℕ) : Wait → Prop
  | .ready events => ∀ o ∈ events, Ordinary masterSocket o
  | .failed _ => False

/-- All broadcasts of a run, in order. -/
def broadcasts (history : List Handling) : List (List UInt8) := history.flatMap Handling.broadcasts

section Messages

lemma cString_eq_self {memory : List UInt8} : cString memory = memory ↔ 0 ∉ memory := by
  rw [cString, List.takeWhile_eq_self_iff]
  constructor
  · intro h hzero
    simpa using h 0 hzero
  · intro h b hb
    have hne : b ≠ 0 := fun he => h (he ▸ hb)
    simpa using hne

lemma zero_notMem_cString (memory : List UInt8) : 0 ∉ cString memory := by
  intro hzero
  simpa using List.mem_takeWhile_imp hzero

lemma address_eq_peer_iff {o : Occurrence} :
    o.address.text = o.peer.text ↔ o.getpeername = none ∨ o.memory.text = o.peer.text := by
  unfold Occurrence.address
  cases o.getpeername <;> simp

/-- The message is the sender's address, the colon and the bytes only if neither part of it
was changed: it has no zero byte, so that the bytes are the whole C string. -/
lemma message_eq_iff {address peer : Address} {memory : List UInt8} :
    address.text ++ colon ++ cString memory = peer.text ++ colon ++ memory ↔
      address.text = peer.text ∧ 0 ∉ memory := by
  constructor
  · intro h
    have hmessage : 0 ∉ address.text ++ colon ++ cString memory := by
      have hcolon : 0 ∉ colon := by decide
      simp only [List.mem_append, not_or]
      exact ⟨⟨address.nonzero, hcolon⟩, zero_notMem_cString memory⟩
    have hzero : 0 ∉ memory := fun hmem => hmessage (h ▸ List.mem_append_right _ hmem)
    rw [cString_eq_self.mpr hzero] at h
    exact ⟨List.append_cancel_right (List.append_cancel_right h), hzero⟩
  · rintro ⟨haddress, hzero⟩
    rw [haddress, cString_eq_self.mpr hzero]

end Messages

section Steps

variable {masterSocket : ℕ} {w w' : World} {o : Occurrence}

lemma Ordinary.fits (ho : Ordinary masterSocket o) : Fits masterSocket o := by
  intro hfd chunk hrecv
  rw [Ordinary, if_neg hfd, hrecv] at ho
  obtain ⟨hpeer, hzero, hfits⟩ := ho
  rw [cString_eq_self.mpr hzero, address_eq_peer_iff.mpr hpeer]
  refine ⟨?_, hfits⟩
  unfold bufferSize
  unfold messageSize at hfits
  omega

lemma sendToAll_lawful {v : World} {outcome : Outcome} {closed : Bool} {message : List UInt8} :
    LawfulHistory (v.sendToAll o outcome closed message) ↔
      LawfulHistory v ∧ Lawful (v.handling o outcome closed message) := by
  simp [LawfulHistory, World.sendToAll, or_imp, forall_and]

lemma handling_lawful {v : World} {outcome : Outcome} {closed : Bool} {message : List UInt8} :
    Lawful (v.handling o outcome closed message) ↔
      match outcome with
      | .accept result => result.isOk = true
      | .recv .closed => True
      | .recv (.data chunk) => message = o.peer.text ++ colon ++ chunk.bytes
      | .recv (.failed _) => False := by
  have hsends : ∀ d ∈ (v.handling o outcome closed message).sends,
      d.message ∈ (v.handling o outcome closed message).broadcasts := by
    intro d hd
    exact List.mem_singleton.mpr (mem_sendEach hd).2
  unfold Lawful Handling.announced
  rw [and_iff_right hsends]
  cases outcome with
  | accept result => cases result <;> simp [World.handling, Except.isOk, Except.toBool]
  | recv result => cases result <;> simp [World.handling]

lemma Handled.lawful_iff (h : Handled masterSocket w o w') :
    LawfulHistory w' ↔ LawfulHistory w ∧ Ordinary masterSocket o := by
  cases h with
  | accept hfd =>
    rw [sendToAll_lawful, handling_lawful]
    simp [LawfulHistory, Ordinary, hfd]
  | left hfd hrecv herrno =>
    rw [sendToAll_lawful, handling_lawful]
    simp [LawfulHistory, Ordinary, hfd, hrecv]
  | stayed hfd hrecv herrno =>
    rw [sendToAll_lawful, handling_lawful]
    simp [LawfulHistory, Ordinary, hfd, hrecv]
  | @said hfd chunk hrecv hfits =>
    rw [sendToAll_lawful, handling_lawful]
    dsimp only
    rw [message_eq_iff, address_eq_peer_iff]
    have hlength : (o.getpeername = none ∨ o.memory.text = o.peer.text) → 0 ∉ chunk.bytes →
        o.peer.text.length + colon.length + chunk.bytes.length < messageSize := by
      intro hpeer hzero
      rwa [cString_eq_self.mpr hzero, address_eq_peer_iff.mpr hpeer] at hfits
    simp only [LawfulHistory, fail_history, Ordinary, hfd, hrecv, ↓reduceIte]
    tauto
  | failed hfd hrecv =>
    rw [sendToAll_lawful, handling_lawful]
    simp [Ordinary, hfd, hrecv]

lemma handle_lawful_iff (w : World) (o : Occurrence) :
    (∃ w', handle masterSocket w o = some w' ∧ LawfulHistory w') ↔
      LawfulHistory w ∧ Ordinary masterSocket o := by
  constructor
  · rintro ⟨w', hw', hlawful⟩
    exact (handled_of_handle hw').lawful_iff.mp hlawful
  · intro h
    obtain ⟨w', hw'⟩ := (handle_isSome_iff masterSocket _ _).mpr h.2.fits
    exact ⟨w', hw', (handled_of_handle hw').lawful_iff.mpr h⟩

lemma round_lawful_iff (w : World) (wait : Wait) :
    (∃ w', round masterSocket w wait = some w' ∧ LawfulHistory w') ↔
      LawfulHistory w ∧ OrdinaryWait masterSocket wait := by
  cases wait with
  | ready events => exact StepRuns.run_iff_of_step handle_lawful_iff w events
  | failed e => simp [round, OrdinaryWait]

end Steps

/-- A run is defined and broadcasts what it should, to each open client once, exactly when no
`epoll_wait`, `accept` or `recv` fails, and all that is received fits, has no zero byte and gets
its sender's address. -/
theorem broadcasts_lawful_iff (masterSocket : ℕ) (errno : Errno) (waits : List Wait) :
    (∃ w, run masterSocket errno waits = some w ∧ LawfulHistory w ∧ SendsOnce w.history) ↔
      ∀ wait ∈ waits, OrdinaryWait masterSocket wait := by
  have hstart : LawfulHistory (.start errno) := by simp [LawfulHistory, World.start]
  have hlawful : (∃ w, run masterSocket errno waits = some w ∧ LawfulHistory w) ↔
      ∀ wait ∈ waits, OrdinaryWait masterSocket wait := by
    rw [run, StepRuns.run_iff_of_step round_lawful_iff, and_iff_right hstart]
  rw [← hlawful]
  constructor
  · rintro ⟨w, hw, h, -⟩
    exact ⟨w, hw, h⟩
  · rintro ⟨w, hw, h⟩
    exact ⟨w, hw, h, (logged_of_foldlM (run_eq_some_iff.mp hw).2).sendsOnce⟩

/-- A client sends a zero byte between two letters. -/
def zeroByte : List Wait :=
  [.ready [occurrence 3 5 .closed],
    .ready [occurrence 5 0 (.data ⟨[104, 0, 105], by simp, by simp [kBufferSize]⟩)]]

/-- `recv` fails on the socket of a client. -/
def reset : List Wait :=
  [.ready [occurrence 3 5 .closed], .ready [occurrence 5 0 (.failed (.other 104))]]

/-- A client sends two letters and resets the connection, so that `getpeername` fails. -/
def unnamed : List Wait :=
  [.ready [occurrence 3 5 .closed],
    .ready [{ occurrence 5 0 (.data twoLetters) with
      getpeername := some (.other 107)
      peer := ⟨ascii ['1', '0', '.', '0', '.', '0', '.', '8'], by decide, by decide⟩ }]]

/-- The message ends at the zero byte; the bare address is sent after a failed `recv`; the
address is not the sender's after a failed `getpeername`. -/
theorem broadcasts_not_lawful :
    (∃ w, run 3 (.other 0) zeroByte = some w ∧ ¬ LawfulHistory w ∧
      (broadcasts w.history).getLast? = some (loopback.text ++ colon ++ [104])) ∧
    (∃ w, run 3 (.other 0) reset = some w ∧ ¬ LawfulHistory w ∧
      (broadcasts w.history).getLast? = some loopback.text) ∧
    ∃ w, run 3 (.other 0) unnamed = some w ∧ ¬ LawfulHistory w ∧
      (broadcasts w.history).getLast? = some (loopback.text ++ colon ++ [104, 105]) := by
  have hends : ∀ waits last, ((run 3 (.other 0) waits).any fun w => decide (¬ LawfulHistory w ∧
      (broadcasts w.history).getLast? = some last)) = true →
      ∃ w, run 3 (.other 0) waits = some w ∧ ¬ LawfulHistory w ∧
        (broadcasts w.history).getLast? = some last := by
    intro waits last h
    obtain ⟨w, hw, hlast⟩ := (Option.any_eq_true _ _).mp h
    exact ⟨w, hw, of_decide_eq_true hlast⟩
  exact ⟨hends zeroByte _ (by decide +kernel), hends reset _ (by decide +kernel),
    hends unnamed _ (by decide +kernel)⟩

end UnixProgramming.Chat
