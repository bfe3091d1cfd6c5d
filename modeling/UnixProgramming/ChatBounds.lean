import UnixProgramming.ChatModel

/-! The bytes that the chat server writes into its two arrays. The receive buffer keeps the
bytes of earlier chunks, but the terminator after a chunk ends the C string, unless the
chunk fills the buffer. -/
namespace UnixProgramming.Chat
open EchoServer

inductive CArray
  | buffer
  | message
  deriving DecidableEq

def CArray.size : CArray → ℕ
  | buffer => bufferSize
  | message => messageSize

structure Write where
  array : CArray
  index : ℕ
  deriving DecidableEq

def Write.InBounds (x : Write) : Prop := x.index < x.array.size

/-- `strcpy` and `strcat` write the text and a terminator from `start` on. -/
def copy (array : CArray) (start : ℕ) (text : List UInt8) : List Write :=
  (List.range (text.length + 1)).map fun k => ⟨array, start + k⟩

/-- The receive buffer after a chunk and the terminator behind it. -/
def received (buffer : List UInt8) (chunk : Chunk) : List UInt8 :=
  (chunk.bytes ++ buffer.drop chunk.bytes.length).set chunk.bytes.length 0

def bufferAfter (masterSocket : ℕ) (buffer : List UInt8) (o : Occurrence) : List UInt8 :=
  if o.fd = masterSocket then buffer
  else
    match o.recv with
    | .data chunk => received buffer chunk
    | _ => buffer

/-- The writes while an occurrence is handled, in the order of the code. -/
def writes (masterSocket : ℕ) (w : World) (buffer : List UInt8) (o : Occurrence) : List Write :=
  let w := w.fail o.getpeername
  let start := o.address.text.length
  copy .message 0 o.address.text ++
    if o.fd = masterSocket then copy .message start connected
    else
      match o.recv with
      | .closed => if w.errno ≠ .eagain then copy .message start disconnected else []
      | .data chunk =>
        (List.range chunk.bytes.length).map (Write.mk .buffer) ++
          (copy .message start colon ++
            ⟨.buffer, chunk.bytes.length⟩ ::
              copy .message (start + colon.length) (cString (received buffer chunk)))
      | .failed _ => []

def step (masterSocket : ℕ) (s : World × List UInt8) (o : Occurrence) :
    Option (World × List UInt8) :=
  (handle masterSocket s.1 o).map fun w => (w, bufferAfter masterSocket s.2 o)

/-- Every write of the run is in bounds. The static buffer is zero at the start. -/
def WritesInBounds (masterSocket : ℕ) (errno : Errno) (waits : List Wait) : Prop :=
  StepRuns.Guarded (step masterSocket)
    (fun s o => ∀ x ∈ writes masterSocket s.1 s.2 o, x.InBounds)
    (.start errno, List.replicate bufferSize 0) (occurrences waits)

/-- A chunk leaves room for a terminator in the buffer, and its text in the message. -/
def Fits (masterSocket : ℕ) (o : Occurrence) : Prop :=
  o.fd ≠ masterSocket → ∀ chunk, o.recv = .data chunk → chunk.bytes.length < bufferSize ∧
    o.address.text.length + colon.length + (cString chunk.bytes).length < messageSize

lemma forall_mem_copy {array : CArray} {start : ℕ} {text : List UInt8} :
    (∀ x ∈ copy array start text, x.InBounds) ↔ start + text.length < array.size := by
  simp only [copy, List.mem_map, List.mem_range, Write.InBounds]
  constructor
  · intro h
    exact h _ ⟨text.length, by omega, rfl⟩
  · rintro h x ⟨k, hk, rfl⟩
    dsimp only
    omega

lemma length_received {buffer : List UInt8} (h : buffer.length = bufferSize) (chunk : Chunk) :
    (received buffer chunk).length = bufferSize := by
  have hfits : chunk.bytes.length ≤ bufferSize := chunk.fits
  simp [received, h, hfits]

lemma length_bufferAfter {buffer : List UInt8} (h : buffer.length = bufferSize)
    (masterSocket : ℕ) (o : Occurrence) :
    (bufferAfter masterSocket buffer o).length = bufferSize := by
  unfold bufferAfter
  split_ifs
  · exact h
  · split
    · exact length_received h _
    · exact h

lemma cString_terminated (text rest : List UInt8) : cString (text ++ 0 :: rest) = cString text := by
  unfold cString
  induction text with
  | nil => simp
  | cons b text ih => simp only [List.cons_append, List.takeWhile_cons, ih]

/-- The bytes of earlier chunks are not read. -/
lemma cString_received {buffer : List UInt8} {chunk : Chunk} (h : buffer.length = bufferSize)
    (hfits : chunk.bytes.length < bufferSize) :
    cString (received buffer chunk) = cString chunk.bytes := by
  have hdrop : buffer.drop chunk.bytes.length ≠ [] := by
    rw [Ne, List.drop_eq_nil_iff]
    omega
  obtain ⟨b, rest, hrest⟩ := List.exists_cons_of_ne_nil hdrop
  have hset : received buffer chunk = chunk.bytes ++ 0 :: rest := by
    rw [received, hrest, List.set_append_right _ _ le_rfl, Nat.sub_self, List.set_cons_zero]
  rw [hset, cString_terminated]

lemma text_fits (address : Address) (suffix : List UInt8) (h : suffix.length ≤ 15) :
    address.text.length + suffix.length < CArray.message.size := by
  have hfits := address.fits
  simp only [CArray.size, messageSize]
  omega

lemma strcat_of_fits {message suffix : List UInt8}
    (h : message.length + suffix.length < messageSize) :
    strcat message suffix = some (message ++ suffix) := if_pos h

lemma strcat_address (address : Address) (suffix : List UInt8) (h : suffix.length ≤ 15) :
    strcat address.text suffix = some (address.text ++ suffix) :=
  strcat_of_fits (text_fits address suffix h)

lemma handle_isSome_iff (masterSocket : ℕ) (w : World) (o : Occurrence) :
    (∃ w', handle masterSocket w o = some w') ↔ Fits masterSocket o := by
  unfold handle Fits
  dsimp only
  by_cases hfd : o.fd = masterSocket
  · rw [if_pos hfd, strcat_address o.address connected (by decide)]
    simp [hfd]
  · rw [if_neg hfd]
    cases hrecv : o.recv with
    | closed =>
      dsimp only
      split_ifs
      · rw [strcat_address o.address disconnected (by decide)]
        simp
      · simp
    | data chunk =>
      dsimp only
      by_cases hlt : chunk.bytes.length < bufferSize
      · rw [if_pos hlt, strcat_address o.address colon (by decide)]
        by_cases hfits : o.address.text.length + colon.length + (cString chunk.bytes).length <
            messageSize
        · have hmessage : strcat (o.address.text ++ colon) (cString chunk.bytes) = some _ :=
            strcat_of_fits (by rwa [List.length_append])
          simp [hfd, hlt, hfits, hmessage]
        · have hmessage : strcat (o.address.text ++ colon) (cString chunk.bytes) = none :=
            if_neg (by rwa [List.length_append])
          simp [hfd, hlt, hfits, hmessage]
      · rw [if_neg hlt]
        simp [hfd, hlt]
    | failed e => simp

/-- The writes of a chunk. -/
lemma forall_mem_chunk {buffer : List UInt8} (h : buffer.length = bufferSize) (address : Address)
    (chunk : Chunk) :
    (∀ x ∈ (List.range chunk.bytes.length).map (Write.mk .buffer) ++
      (copy .message address.text.length colon ++ ⟨.buffer, chunk.bytes.length⟩ ::
        copy .message (address.text.length + colon.length) (cString (received buffer chunk))),
      x.InBounds) ↔
      chunk.bytes.length < bufferSize ∧
        address.text.length + colon.length + (cString chunk.bytes).length < messageSize := by
  have hrecv : ∀ x ∈ (List.range chunk.bytes.length).map (Write.mk .buffer), x.InBounds := by
    intro x hx
    obtain ⟨k, hk, rfl⟩ := List.mem_map.mp hx
    exact (List.mem_range.mp hk).trans_le chunk.fits
  rw [List.forall_mem_append, and_iff_right hrecv, List.forall_mem_append, forall_mem_copy,
    and_iff_right (text_fits address colon (by decide)), List.forall_mem_cons, forall_mem_copy]
  refine and_congr_right fun hlt => ?_
  rw [cString_received h hlt]
  rfl

lemma writes_inBounds_iff (masterSocket : ℕ) (w : World) {buffer : List UInt8} (o : Occurrence)
    (h : buffer.length = bufferSize) :
    (∀ x ∈ writes masterSocket w buffer o, x.InBounds) ↔ Fits masterSocket o := by
  have hstart : 0 + o.address.text.length < CArray.message.size := by
    simpa using text_fits o.address [] (by simp)
  have hconnected := text_fits o.address connected (by decide)
  have hdisconnected := text_fits o.address disconnected (by decide)
  unfold writes Fits
  dsimp only
  rw [List.forall_mem_append, forall_mem_copy, and_iff_right hstart]
  by_cases hfd : o.fd = masterSocket
  · rw [if_pos hfd, forall_mem_copy]
    simp [hfd, hconnected]
  · rw [if_neg hfd]
    cases hrecv : o.recv with
    | closed =>
      dsimp only
      split_ifs
      · rw [forall_mem_copy]
        simp [hdisconnected]
      · simp
    | data chunk =>
      dsimp only
      rw [forall_mem_chunk h]
      simp [hfd]
    | failed e => simp

lemma guarded_writes_iff {masterSocket : ℕ} {w : World} {buffer : List UInt8}
    {os : List Occurrence} (h : buffer.length = bufferSize) :
    StepRuns.Guarded (step masterSocket)
      (fun s o => ∀ x ∈ writes masterSocket s.1 s.2 o, x.InBounds) (w, buffer) os ↔
      ∀ o ∈ os, Fits masterSocket o := by
  induction os generalizing w buffer with
  | nil => simp [StepRuns.Guarded]
  | cons o os ih =>
    rw [StepRuns.Guarded, writes_inBounds_iff masterSocket w o h, List.forall_mem_cons]
    refine and_congr_right fun hfits => ?_
    obtain ⟨w', hw'⟩ := (handle_isSome_iff masterSocket w o).mpr hfits
    have hstep : step masterSocket (w, buffer) o =
        some (w', bufferAfter masterSocket buffer o) := by
      rw [step, hw']
      rfl
    rw [hstep]
    simp only [Option.some.injEq, forall_eq']
    exact ih (length_bufferAfter h masterSocket o)

/-- All writes of a run are in bounds exactly when every chunk leaves room for a
terminator in the buffer and for its text in the message. -/
theorem writesInBounds_iff (masterSocket : ℕ) (errno : Errno) (waits : List Wait) :
    WritesInBounds masterSocket errno waits ↔ ∀ o ∈ occurrences waits, Fits masterSocket o :=
  guarded_writes_iff List.length_replicate

def fullChunk : Chunk where
  bytes := List.replicate kBufferSize 97
  nonempty := by
    rw [Ne, List.replicate_eq_nil_iff]
    decide
  fits := List.length_replicate.le

/-- A client that sends 1024 bytes at once. -/
def talkative : Occurrence where
  fd := 5
  peer := ⟨ascii ['1', '0', '.', '0', '.', '0', '.', '7'], by decide, by decide⟩
  memory := ⟨[], by decide, by decide⟩
  getpeername := none
  accept := .error .eagain
  fcntl := (none, none)
  epollCtl := none
  recv := .data fullChunk
  shutdown := none
  close := none
  send _ := .accepted 0

theorem writes_out_of_bounds :
    ⟨.buffer, 1024⟩ ∈ writes 4 (.start .eagain) (List.replicate bufferSize 0) talkative ∧
      ¬ WritesInBounds 4 .eagain [.ready [talkative]] := by
  have hmem : ⟨.buffer, 1024⟩ ∈
      writes 4 (.start .eagain) (List.replicate bufferSize 0) talkative := by
    have hlength : fullChunk.bytes.length = 1024 := List.length_replicate
    have hrecv : talkative.recv = .data fullChunk := rfl
    unfold writes
    dsimp only
    rw [if_neg (by decide), hrecv, ← hlength]
    simp
  refine ⟨hmem, fun h => ?_⟩
  have hlt : 1024 < bufferSize := h.1 _ hmem
  simp [bufferSize] at hlt

end UnixProgramming.Chat
