import UnixProgramming.ChatModel
import UnixProgramming.Histories

/-! The messages that each client of the chat server gets, against the messages that were
broadcast since it was accepted. -/
namespace UnixProgramming.Chat
open EchoServer

def openStep (clients : Finset ℕ) (h : Handling) : Finset ℕ :=
  match h.outcome with
  | .accept (.ok socket) => insert socket clients
  | .accept (.error _) => clients
  | .recv _ => if h.closed then clients.erase h.fd else clients

/-- The clients that were accepted and not closed since. -/
def openClients (history : List Handling) : Finset ℕ := history.foldl openStep ∅

def Handling.accepts (h : Handling) (socket : ℕ) : Bool :=
  match h.outcome with
  | .accept (.ok s) => s = socket
  | _ => false

/-- The part of a history that starts where the descriptor was accepted last. -/
def since (socket : ℕ) (history : List Handling) : List Handling :=
  history.foldl (fun recent h => if h.accepts socket then [h] else recent ++ [h]) []

def Handling.deliveredTo (h : Handling) (socket : ℕ) : List (List UInt8) :=
  (h.sends.filter fun d => d.socket = (socket : ℤ)).map Delivery.taken

/-- What was delivered to a descriptor. -/
def delivered (socket : ℕ) (history : List Handling) : List (List UInt8) :=
  history.flatMap fun h => h.deliveredTo socket

/-- `send` takes the whole message on an open socket. -/
def SendsWhole (history : List Handling) : Prop :=
  EachAllowed (fun past h => ∀ d ∈ h.sends, ∀ socket ∈ openClients (past ++ [h]),
    d.socket = (socket : ℤ) → d.taken = d.message) history

instance (history : List Handling) : Decidable (SendsWhole history) :=
  inferInstanceAs (Decidable (EachAllowed _ history))

/-- Nothing is sent to a descriptor that is not open. -/
def SendsOpen (history : List Handling) : Prop :=
  EachAllowed (fun past h => ∀ d ∈ h.sends, ∀ socket : ℕ, d.socket = (socket : ℤ) →
    socket ∈ openClients (past ++ [h])) history

/-- Each message is sent to each open client, once. -/
def SendsOnce (history : List Handling) : Prop :=
  EachAllowed (fun past h => ∀ socket ∈ openClients (past ++ [h]),
    (h.sends.filter fun d => d.socket = (socket : ℤ)).map Delivery.message = h.broadcasts) history

@[simp] lemma openClients_snoc (history : List Handling) (h : Handling) :
    openClients (history ++ [h]) = openStep (openClients history) h := by
  simp [openClients]

lemma since_snoc (socket : ℕ) (history : List Handling) (h : Handling) :
    since socket (history ++ [h]) =
      if h.accepts socket then [h] else since socket history ++ [h] := by
  simp [since]

lemma since_suffix (socket : ℕ) (history : List Handling) : since socket history <:+ history := by
  induction history using List.reverseRecOn with
  | nil => exact List.suffix_refl _
  | append_singleton history h ih =>
    rw [since_snoc]
    split_ifs
    · exact List.suffix_append _ _
    · obtain ⟨before, hbefore⟩ := ih
      exact ⟨before, by rw [← List.append_assoc, hbefore]⟩

section Sending

variable {send : ℕ → Sent} {message : List UInt8} {i : ℕ} {sockets : List ℤ} {errno : Errno}

lemma mem_sendEach {d : Delivery} (h : d ∈ (sendEach send message i sockets errno).1) :
    d.socket ∈ sockets ∧ d.message = message := by
  induction sockets generalizing i errno with
  | nil => simp [sendEach] at h
  | cons socket sockets ih =>
    rcases List.mem_cons.mp h with rfl | h
    · exact ⟨by simp, rfl⟩
    · obtain ⟨hs, hm⟩ := ih h
      exact ⟨List.mem_cons_of_mem _ hs, hm⟩

/-- A socket of the set is sent the message once. -/
lemma sendEach_filter (hnodup : sockets.Nodup) {socket : ℤ} (hs : socket ∈ sockets) :
    ∃ d, ((sendEach send message i sockets errno).1.filter fun d => d.socket = socket) = [d] ∧
      d.message = message := by
  induction sockets generalizing i errno with
  | nil => simp at hs
  | cons first sockets ih =>
    obtain ⟨hfirst, hnodup⟩ := List.nodup_cons.mp hnodup
    have hcons : (sendEach send message i (first :: sockets) errno).1 =
        ⟨first, message, taken message (send i)⟩ ::
          (sendEach send message (i + 1) sockets (afterSend errno (send i))).1 := rfl
    rw [hcons]
    rcases List.mem_cons.mp hs with rfl | hs
    · have hothers : ((sendEach send message (i + 1) sockets (afterSend errno (send i))).1.filter
          fun d => d.socket = socket) = [] := by
        refine List.filter_eq_nil_iff.mpr fun d hd => ?_
        simpa using fun he : d.socket = socket => hfirst (he ▸ (mem_sendEach hd).1)
      exact ⟨_, by rw [List.filter_cons_of_pos (by simp), hothers], rfl⟩
    · have hne : first ≠ socket := fun he => hfirst (he ▸ hs)
      rw [List.filter_cons_of_neg (by simpa using hne)]
      exact ih hnodup hs

end Sending

section Runs

variable {masterSocket : ℕ} {w w' : World} {o : Occurrence}

/-- The slave sockets are the open clients, apart from the result of a failed `accept`. -/
def HoldsClients (w : World) : Prop :=
  ∀ socket : ℕ, (socket : ℤ) ∈ w.slaveSockets ↔ socket ∈ openClients w.history

lemma mem_slaveStep {sockets : Sockets} {clients : Finset ℕ}
    (h : ∀ socket : ℕ, (socket : ℤ) ∈ sockets ↔ socket ∈ clients) (handling : Handling)
    (socket : ℕ) :
    (socket : ℤ) ∈ slaveStep sockets handling ↔ socket ∈ openStep clients handling := by
  unfold slaveStep openStep
  cases handling.outcome with
  | accept result =>
    cases result with
    | ok new =>
      simp only [OrderedSet.mem_insert_of_injective Function.injective_id, acceptResult, h,
        Finset.mem_insert, Nat.cast_inj]
    | error e =>
      have hne : (socket : ℤ) ≠ -1 := by omega
      simp only [OrderedSet.mem_insert_of_injective Function.injective_id, acceptResult, h, hne,
        false_or]
  | recv result =>
    split_ifs
    · simp only [OrderedSet.mem_erase, h, Finset.mem_erase, id, ne_eq, Nat.cast_inj]
      tauto
    · exact h socket

lemma mem_of_mem_openStep {clients : Finset ℕ} {h : Handling} {socket : ℕ}
    (haccepts : h.accepts socket = false) (hs : socket ∈ openStep clients h) :
    socket ∈ clients := by
  unfold openStep at hs
  unfold Handling.accepts at haccepts
  cases houtcome : h.outcome with
  | accept result =>
    rw [houtcome] at hs haccepts
    cases result with
    | ok new =>
      have hne : new ≠ socket := by simpa using haccepts
      exact (Finset.mem_insert.mp hs).resolve_left hne.symm
    | error e => exact hs
  | recv result =>
    rw [houtcome] at hs
    dsimp only at hs
    split_ifs at hs
    · exact Finset.mem_of_mem_erase hs
    · exact hs

/-- Since its accept an open client was sent the message of each handling, and got it if `send`
takes it; nothing was sent to a descriptor that is not open. -/
structure Logged (w : World) : Prop where
  holds : HoldsClients w
  sendsOpen : SendsOpen w.history
  sendsOnce : SendsOnce w.history
  begun : ∀ socket ∈ openClients w.history, ∃ own later,
    since socket w.history = own :: later ∧ own.outcome = .accept (.ok socket)
  complete : SendsWhole w.history → ∀ socket ∈ openClients w.history,
    delivered socket (since socket w.history) =
      (since socket w.history).map Handling.announcement

lemma logged_start (errno : Errno) : Logged (.start errno) where
  holds socket := by simp [World.start, openClients]
  sendsOpen := eachAllowed_nil
  sendsOnce := eachAllowed_nil
  begun socket hs := by simp [World.start, openClients] at hs
  complete _ socket hs := by simp [World.start, openClients] at hs

lemma outcome_of_accepts {h : Handling} {socket : ℕ} (haccepts : h.accepts socket = true) :
    h.outcome = .accept (.ok socket) := by
  unfold Handling.accepts at haccepts
  split at haccepts
  · next s houtcome => rw [houtcome, of_decide_eq_true haccepts]
  · cases haccepts

lemma Handled.logged (hhandled : Handled masterSocket w o w') (hw : Logged w) : Logged w' := by
  obtain ⟨h, errno, hrecords, hhistory, hslaves, hsends⟩ := hhandled.sendsToAll
  have hholds : HoldsClients w' := fun socket => by
    rw [hslaves, hhistory, openClients_snoc]
    exact mem_slaveStep hw.holds h socket
  have hopen : ∀ d ∈ h.sends, ∀ socket : ℕ, d.socket = (socket : ℤ) →
      socket ∈ openClients (w.history ++ [h]) := by
    intro d hd socket he
    rw [hsends] at hd
    rw [← hhistory, ← hholds socket, ← he]
    exact (mem_sendEach hd).1
  have honce : ∀ socket ∈ openClients w'.history, ∃ d,
      (h.sends.filter fun d => d.socket = (socket : ℤ)) = [d] ∧ d.message = h.announcement := by
    intro socket hs
    rw [hsends]
    exact sendEach_filter w'.slaveSockets.nodup_elems ((hholds socket).mpr hs)
  have hbefore : ∀ socket ∈ openClients w'.history, h.accepts socket = false →
      socket ∈ openClients w.history := by
    intro socket hs haccepts
    rw [hhistory, openClients_snoc] at hs
    exact mem_of_mem_openStep haccepts hs
  refine ⟨hholds, ?_, ?_, fun socket hs => ?_, fun hwhole socket hs => ?_⟩
  · rw [hhistory]
    exact eachAllowed_snoc.mpr ⟨hw.sendsOpen, hopen⟩
  · rw [hhistory]
    refine eachAllowed_snoc.mpr ⟨hw.sendsOnce, fun socket hs => ?_⟩
    obtain ⟨d, hfilter, hmessage⟩ := honce socket (hhistory ▸ hs)
    rw [hfilter, List.map_singleton, hmessage, hrecords.broadcasts]
  · rw [hhistory, since_snoc]
    cases haccepts : h.accepts socket with
    | true => exact ⟨h, [], rfl, outcome_of_accepts haccepts⟩
    | false =>
      obtain ⟨own, later, hsince, hown⟩ := hw.begun socket (hbefore socket hs haccepts)
      exact ⟨own, later ++ [h], by rw [hsince]; rfl, hown⟩
  · rw [hhistory] at hwhole
    obtain ⟨hwhole, hlast⟩ := eachAllowed_snoc.mp hwhole
    have hdelivered : h.deliveredTo socket = [h.announcement] := by
      obtain ⟨d, hfilter, hmessage⟩ := honce socket hs
      obtain ⟨hd, hsocket⟩ := List.mem_filter.mp (hfilter ▸ List.mem_singleton_self d)
      have htaken : d.taken = h.announcement := by
        rw [hlast d hd socket (hhistory ▸ hs) (by simpa using hsocket), hmessage]
      rw [Handling.deliveredTo, hfilter, List.map_singleton, htaken]
    rw [hhistory, since_snoc]
    cases haccepts : h.accepts socket with
    | true => simp [delivered, hdelivered]
    | false =>
      have hpast := hw.complete hwhole socket (hbefore socket hs haccepts)
      rw [delivered] at hpast
      simp [delivered, hdelivered, hpast]

lemma logged_of_foldlM {errno : Errno} {os : List Occurrence}
    (h : os.foldlM (handle masterSocket) (.start errno) = some w) : Logged w :=
  invariant_of_handled (fun _ _ _ hw h => h.logged hw) (logged_start errno) h

/-- Each occurrence gives one message. Since its accept, an open client got exactly these
messages in their order, the one about itself first; nothing was sent to a closed client, and
of two open clients one got the last messages of the other. -/
theorem clients_get_broadcasts (masterSocket : ℕ) (errno : Errno) (waits : List Wait)
    (os : List Occurrence) (w : World) (h : Reaches masterSocket errno waits os w)
    (hwhole : SendsWhole w.history) :
    List.Forall₂ (Records masterSocket) os w.history ∧
    (∀ socket ∈ openClients w.history, ∃ own later, since socket w.history = own :: later ∧
      own.outcome = .accept (.ok socket) ∧
      delivered socket (since socket w.history) =
        (own.address.text ++ connected) :: later.map Handling.announcement) ∧
    SendsOpen w.history ∧
    ∀ s ∈ openClients w.history, ∀ t ∈ openClients w.history,
      delivered s (since s w.history) <:+ delivered t (since t w.history) ∨
        delivered t (since t w.history) <:+ delivered s (since s w.history) := by
  have hlogged := logged_of_foldlM h.2
  have hcomplete := hlogged.complete hwhole
  obtain ⟨hs, hhistory, hrecords⟩ := records_of_foldlM h.2
  obtain rfl : w.history = hs := hhistory
  refine ⟨hrecords, fun socket hs => ?_, hlogged.sendsOpen, fun s hs t ht => ?_⟩
  · obtain ⟨own, later, hsince, hown⟩ := hlogged.begun socket hs
    refine ⟨own, later, hsince, hown, ?_⟩
    rw [hcomplete socket hs, hsince, List.map_cons, Handling.announcement, hown]
  · have hsuffix := List.suffix_or_suffix_of_suffix (since_suffix s w.history)
      (since_suffix t w.history)
    rw [hcomplete s hs, hcomplete t ht]
    exact hsuffix.imp (fun h => h.map _) (fun h => h.map _)

def loopback : Address :=
  ⟨ascii ['1', '2', '7', '.', '0', '.', '0', '.', '1'], by decide, by decide⟩

/-- Nothing fails and `send` takes everything. -/
def occurrence (fd : ℕ) (accept : ℕ) (recv : Received) : Occurrence :=
  ⟨fd, loopback, loopback, none, .ok accept, (none, none), none, recv, none, none,
    fun _ => .accepted 1024⟩

def twoLetters : Chunk := ⟨[104, 105], by simp, by simp [kBufferSize]⟩

/-- A client leaves in a batch in which its descriptor is issued again. -/
def reissued : List Wait :=
  [.ready [occurrence 3 5 .closed, occurrence 3 6 .closed],
    .ready [occurrence 6 0 (.data twoLetters), occurrence 5 0 .closed, occurrence 3 5 .closed]]

/-- The descriptor 5 stands for another client than before. -/
theorem clients_get_broadcasts_reissued : ∃ w,
    Reaches 3 (.other 0) reissued (occurrences reissued) w ∧
    openClients w.history = {5, 6} ∧
    ∀ socket ∈ openClients w.history, ∃ own later, since socket w.history = own :: later ∧
      own.outcome = .accept (.ok socket) ∧
      delivered socket (since socket w.history) =
        (own.address.text ++ connected) :: later.map Handling.announcement := by
  have hruns : ((run 3 (.other 0) reissued).any fun w =>
    decide (SendsWhole w.history ∧ openClients w.history = {5, 6})) = true := by decide +kernel
  obtain ⟨w, hrun, hw⟩ := (Option.any_eq_true _ _).mp hruns
  obtain ⟨hwhole, hopen⟩ := of_decide_eq_true hw
  have hreaches : Reaches 3 (.other 0) reissued (occurrences reissued) w :=
    ⟨List.prefix_refl _, (run_eq_some_iff.mp hrun).2⟩
  exact ⟨w, hreaches, hopen,
    (clients_get_broadcasts 3 (.other 0) reissued _ w hreaches hwhole).2.1⟩

end Runs
end UnixProgramming.Chat
