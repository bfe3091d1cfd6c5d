import UnixProgramming.ChatBounds
import UnixProgramming.ChatLogs

/-! The slave sockets of the chat server as the set of its clients. The result of `accept`
is inserted unchecked, and whether a client that left is removed depends on the `errno`
that earlier calls left behind. -/
namespace UnixProgramming.Chat
open EchoServer

/-- The slave sockets are the clients accepted and not closed since. -/
def Members (w : World) : Prop :=
  ∀ socket : ℤ, socket ∈ w.slaveSockets ↔ ∃ client ∈ openClients w.history, socket = (client : ℤ)

/-- A client whose `recv` returns 0 is closed while this is handled. -/
def ClosesFinished (history : List Handling) : Prop :=
  ∀ h ∈ history, h.outcome = .recv .closed → h.closed = true

/-- `accept` succeeds, and `recv` does not return 0 while `errno` is `EAGAIN`. -/
def regular (masterSocket : ℕ) (w : World) (o : Occurrence) : Bool :=
  if o.fd = masterSocket then o.accept.isOk
  else
    match o.recv with
    | .closed => (w.fail o.getpeername).errno ≠ .eagain
    | _ => true

section Steps

variable {masterSocket : ℕ} {w w' : World} {o : Occurrence}

lemma members_iff (h : HoldsClients w) :
    Members w ↔ ∀ socket ∈ w.slaveSockets, ∃ n : ℕ, socket = n := by
  constructor
  · intro hm socket hs
    obtain ⟨client, -, rfl⟩ := (hm socket).mp hs
    exact ⟨client, rfl⟩
  · intro hnat socket
    constructor
    · intro hs
      obtain ⟨n, rfl⟩ := hnat socket hs
      exact ⟨n, (h n).mp hs, rfl⟩
    · rintro ⟨client, hc, rfl⟩
      exact (h client).mpr hc

/-- The slave sockets are natural numbers, and the finished clients were closed. -/
def Kept (w : World) : Prop :=
  (∀ socket ∈ w.slaveSockets, ∃ n : ℕ, socket = n) ∧ ClosesFinished w.history

lemma closesFinished_snoc {history : List Handling} {h : Handling} :
    ClosesFinished (history ++ [h]) ↔
      ClosesFinished history ∧ (h.outcome = .recv .closed → h.closed = true) := by
  simp [ClosesFinished, or_imp, forall_and]

lemma sendToAll_kept {v : World} {outcome : Outcome} {closed : Bool} {message : List UInt8} :
    Kept (v.sendToAll o outcome closed message) ↔
      Kept v ∧ (outcome = .recv .closed → closed = true) := by
  rw [Kept, Kept, sendToAll_slaveSockets, World.sendToAll, closesFinished_snoc, and_assoc]
  rfl

lemma insert_natural {sockets : Sockets} {socket : ℤ} :
    (∀ s ∈ sockets.insert socket, ∃ n : ℕ, s = n) ↔
      (∃ n : ℕ, socket = n) ∧ ∀ s ∈ sockets, ∃ n : ℕ, s = n := by
  simp [OrderedSet.mem_insert_of_injective Function.injective_id]

lemma erase_natural {sockets : Sockets} {fd : ℕ} :
    (∀ s ∈ sockets.erase (fd : ℤ), ∃ n : ℕ, s = n) ↔ ∀ s ∈ sockets, ∃ n : ℕ, s = n := by
  constructor
  · intro h s hs
    by_cases he : s = fd
    · exact ⟨fd, he⟩
    · exact h s (OrderedSet.mem_erase.mpr ⟨hs, he⟩)
  · exact fun h s hs => h s (OrderedSet.mem_erase.mp hs).1

lemma acceptResult_natural {result : Except Errno ℕ} :
    (∃ n : ℕ, acceptResult result = n) ↔ result.isOk = true := by
  cases result with
  | ok socket => simp [acceptResult, Except.isOk, Except.toBool]
  | error e =>
    have hne : ∀ n : ℕ, (-1 : ℤ) ≠ n := fun n => by omega
    simp [acceptResult, Except.isOk, Except.toBool, hne]

lemma Handled.kept_iff (h : Handled masterSocket w o w') :
    Kept w' ↔ Kept w ∧ regular masterSocket w o = true := by
  cases h with
  | accept hfd =>
    rw [sendToAll_kept, Kept, acceptSlave_slaveSockets, insert_natural, acceptResult_natural]
    simp only [acceptSlave_history, fail_slaveSockets, fail_history, Kept, regular, hfd, ↓reduceIte,
      reduceCtorEq, false_imp_iff, and_true]
    tauto
  | left hfd hrecv herrno =>
    rw [sendToAll_kept, Kept, closeSlave_slaveSockets, erase_natural]
    simp [Kept, regular, hfd, hrecv, herrno]
  | stayed hfd hrecv herrno =>
    rw [sendToAll_kept]
    simp [regular, hfd, hrecv, herrno]
  | said hfd hrecv hfits =>
    rw [sendToAll_kept]
    simp [Kept, regular, hfd, hrecv]
  | failed hfd hrecv =>
    rw [sendToAll_kept]
    simp [Kept, regular, hfd, hrecv]

lemma Handled.holds (h : Handled masterSocket w o w') (hw : HoldsClients w) : HoldsClients w' := by
  obtain ⟨handling, -, -, hhistory, hslaves, -⟩ := h.sendsToAll
  intro socket
  rw [hslaves, hhistory, openClients_snoc]
  exact mem_slaveStep hw handling socket

/-- Each event keeps both parts of the property exactly if it is regular and fits. -/
lemma handle_members_iff (o : Occurrence) (hw : Members w ∧ ClosesFinished w.history) :
    (∃ w', handle masterSocket w o = some w' ∧ Members w' ∧ ClosesFinished w'.history) ↔
      regular masterSocket w o = true ∧ Fits masterSocket o := by
  have hholds : HoldsClients w := fun socket => by simpa using hw.1 socket
  have hkept : Kept w := ⟨(members_iff hholds).mp hw.1, hw.2⟩
  have hiff : ∀ {w'}, handle masterSocket w o = some w' →
      (Members w' ∧ ClosesFinished w'.history ↔ regular masterSocket w o = true) := by
    intro w' hw'
    have hhandled := handled_of_handle hw'
    rw [members_iff (hhandled.holds hholds)]
    exact hhandled.kept_iff.trans (and_iff_right hkept)
  constructor
  · rintro ⟨w', hw', hmembers⟩
    exact ⟨(hiff hw').mp hmembers, (handle_isSome_iff masterSocket w o).mp ⟨w', hw'⟩⟩
  · rintro ⟨hregular, hfits⟩
    obtain ⟨w', hw'⟩ := (handle_isSome_iff masterSocket w o).mpr hfits
    exact ⟨w', hw', (hiff hw').mpr hregular⟩

end Steps

/-- A run is defined and after each event the slave sockets are the clients, those that left
being closed at once, exactly when no `epoll_wait` fails and every occurrence fits and is
regular in the state in which it is handled. -/
theorem slaveSockets_are_clients_iff (masterSocket : ℕ) (errno : Errno) (waits : List Wait) :
    (∃ w, run masterSocket errno waits = some w) ∧
      StepRuns.Throughout (handle masterSocket) (fun w => Members w ∧ ClosesFinished w.history)
        (.start errno) (occurrences waits) ↔
    (∀ wait ∈ waits, wait.succeeds = true) ∧
      StepRuns.Guarded (handle masterSocket)
        (fun w o => regular masterSocket w o = true ∧ Fits masterSocket o)
        (.start errno) (occurrences waits) := by
  have hstart : Members (.start errno) ∧ ClosesFinished (World.start errno).history := by
    simp [Members, World.start, openClients, ClosesFinished]
  rw [← StepRuns.throughout_iff_guarded (fun _ o => handle_members_iff o) hstart]
  constructor
  · rintro ⟨⟨w, hw⟩, hevery⟩
    exact ⟨(run_eq_some_iff.mp hw).1, hevery⟩
  · rintro ⟨hwaits, hevery⟩
    obtain ⟨w, hw⟩ := hevery.run
    exact ⟨⟨w, run_eq_some_iff.mpr ⟨hwaits, hw⟩⟩, hevery⟩

/-- A connection is aborted before it is accepted. -/
def aborted : List Wait := [.ready [{ occurrence 3 0 .closed with accept := .error .eagain }]]

/-- A `recv` that would block leaves `EAGAIN` behind, and then another client leaves. -/
def leftover : List Wait :=
  [.ready [occurrence 3 5 .closed, occurrence 3 6 .closed],
    .ready [occurrence 6 0 (.failed .eagain), occurrence 5 0 .closed]]

/-- After a failed `accept` the set holds -1; a client that left is not closed. -/
theorem slaveSockets_not_clients :
    (∃ w, run 3 (.other 0) aborted = some w ∧ (-1) ∈ w.slaveSockets ∧ ¬ Members w) ∧
      ∃ w, run 3 (.other 0) leftover = some w ∧ ¬ ClosesFinished w.history := by
  have haborted : ((run 3 (.other 0) aborted).any fun w =>
      decide ((-1) ∈ w.slaveSockets)) = true := by decide +kernel
  have hleft : ((run 3 (.other 0) leftover).any fun w => w.history.any fun h =>
      h.outcome matches .recv .closed && !h.closed) = true := by decide +kernel
  obtain ⟨w, hw, helem⟩ := (Option.any_eq_true _ _).mp haborted
  obtain ⟨v, hv, hstays⟩ := (Option.any_eq_true _ _).mp hleft
  have hmem : (-1) ∈ w.slaveSockets := of_decide_eq_true helem
  refine ⟨⟨w, hw, hmem, fun hmembers => ?_⟩, v, hv, fun hcloses => ?_⟩
  · obtain ⟨client, -, hclient⟩ := (hmembers (-1)).mp hmem
    omega
  · obtain ⟨h, hh, hopen⟩ := List.any_eq_true.mp hstays
    obtain ⟨houtcome, hopen⟩ := (Bool.and_eq_true _ _).mp hopen
    have hclosed : h.outcome = .recv .closed := by
      split at houtcome
      · assumption
      · cases houtcome
    simp [hcloses h hh hclosed] at hopen

end UnixProgramming.Chat
