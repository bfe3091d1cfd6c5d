import UnixProgramming.EchoServerSelectSet

/-! The poll server with its array of descriptors, which is kept from one round to the
next, against the round over the open sockets, and the select server against both. -/
namespace UnixProgramming.EchoServer

/-- An entry of the array `set`; `events` and `revents` hold `POLLIN` only. -/
structure PollEntry where
  fd : ℤ
  events : Bool
  revents : Bool

/-- The memory from the start of the array on; the array has `kPollSize` entries. -/
abbrev PollSet := ℕ → PollEntry

structure PollState where
  set : PollSet
  openSockets : Sockets

/-- The descriptors are written to the array from `index` on. -/
def fillSet : PollSet → ℕ → List ℕ → Except Stop (PollSet × ℕ)
  | set, index, [] => .ok (set, index)
  | set, index, socket :: sockets =>
    if index < kPollSize then
      fillSet (Function.update set index { set index with fd := socket, events := true })
        (index + 1) sockets
    else .error .undefined

/-- A negative descriptor is left out. -/
def reportedBy (notices : List Notice) (entry : PollEntry) : Bool :=
  entry.events && decide (0 ≤ entry.fd) && isReadable notices entry.fd.toNat

def pollSet (notices : List Notice) (set : PollSet) (setSize : ℕ) : PollSet := fun i =>
  if i < setSize then { set i with revents := reportedBy notices (set i) } else set i

def forget (set : PollSet) (i : ℕ) : PollSet := Function.update set i { set i with fd := -1 }

/-- The loop over `count` entries from `i` on. -/
def echoSet : ℕ → ℕ → PollSet → Server (Except Stop (PollSet × List ℕ))
  | 0, _, set => return .ok (set, [])
  | count + 1, i, set => do
    if kPollSize ≤ i then return .error .undefined
    else if (set i).revents then
      let socket := (set i).fd.toNat
      if ← callEcho socket then echoSet count (i + 1) (forget set i)
      else
        callClose socket
        match ← echoSet count (i + 1) (forget set i) with
        | .ok (set, closedSockets) => return .ok (set, socket :: closedSockets)
        | .error e => return .error e
    else echoSet count (i + 1) (forget set i)

def pollSetRound (state : PollState) : Server (Except Stop PollState) := do
  match fillSet state.set 1 state.openSockets.elems with
  | .error e => return .error e
  | .ok (set, setSize) =>
    match ← callWait with
    | .failed e => return if e = .eagain then .ok ⟨set, state.openSockets⟩ else .error .leftLoop
    | .ready notices =>
      match ← echoSet (setSize - 1) 1 (pollSet notices set setSize) with
      | .error e => return .error e
      | .ok (set, closedSockets) =>
        let openSockets := eraseAll state.openSockets closedSockets
        if (set 0).revents then
          match ← acceptNewConnection openSockets with
          | .ok openSockets => return .ok ⟨set, openSockets⟩
          | .error e => return .error e
        else return .ok ⟨set, openSockets⟩

/-- Before the first round only the entry of the server socket is written. -/
def PollState.start (set : PollSet) (serverSocket : ℕ) : PollState :=
  ⟨Function.update set 0 { set 0 with fd := serverSocket, events := true }, .empty⟩

section Filling

variable {set set' : PollSet} {index size : ℕ} {sockets : List ℕ}

/-- The entries from `index` on ask for the descriptors of a list. -/
def Watches (set : PollSet) : ℕ → List ℕ → Prop
  | _, [] => True
  | index, socket :: sockets =>
    (set index).fd = socket ∧ (set index).events = true ∧ Watches set (index + 1) sockets

lemma fillSet_before (h : fillSet set index sockets = .ok (set', size)) {i : ℕ} (hi : i < index) :
    set' i = set i := by
  induction sockets generalizing set index with
  | nil =>
    obtain ⟨rfl, -⟩ : set = set' ∧ index = size := by simpa [fillSet] using h
    rfl
  | cons socket sockets ih =>
    simp only [fillSet] at h
    split_ifs at h
    rw [ih h (by omega), Function.update_of_ne (by omega)]

lemma fillSet_watches (h : fillSet set index sockets = .ok (set', size)) :
    Watches set' index sockets := by
  induction sockets generalizing set index with
  | nil => trivial
  | cons socket sockets ih =>
    simp only [fillSet] at h
    split_ifs at h
    have hentry := fillSet_before h (Nat.lt_succ_self index)
    rw [Function.update_self] at hentry
    exact ⟨by rw [hentry], by rw [hentry], ih h⟩

lemma fillSet_of_fits (h : index + sockets.length ≤ kPollSize) :
    ∃ set', fillSet set index sockets = .ok (set', index + sockets.length) := by
  induction sockets generalizing set index with
  | nil => exact ⟨set, rfl⟩
  | cons socket sockets ih =>
    simp only [List.length_cons] at h
    have hindex : index < kPollSize := by omega
    simp only [fillSet, hindex, ↓reduceIte, List.length_cons]
    obtain ⟨set', h'⟩ := @ih
      (Function.update set index { set index with fd := socket, events := true }) (index + 1)
      (by omega)
    exact ⟨set', by rw [h']; congr 2; omega⟩

lemma fillSet_of_not_fits (hindex : index ≤ kPollSize) (h : kPollSize < index + sockets.length) :
    fillSet set index sockets = .error .undefined := by
  induction sockets generalizing set index with
  | nil => simp at h; omega
  | cons socket sockets ih =>
    simp only [fillSet]
    split_ifs with hlt
    · exact ih hlt (by simp only [List.length_cons] at h; omega)
    · rfl

end Filling

section Echoing

variable {script : Script} {set : PollSet} {i : ℕ} {entries : List PollFd}

/-- The entries from `i` on hold a list of polled descriptors. -/
def Holds (set : PollSet) : ℕ → List PollFd → Prop
  | _, [] => True
  | i, entry :: entries =>
    (set i).fd = entry.fd ∧ (set i).revents = entry.revents ∧ Holds set (i + 1) entries

lemma Holds.congr {set' : PollSet} (h : Holds set i entries) (heq : ∀ j, i ≤ j → set' j = set j) :
    Holds set' i entries := by
  induction entries generalizing i with
  | nil => trivial
  | cons entry entries ih =>
    obtain ⟨hfd, hrevents, hrest⟩ := h
    rw [Holds, heq i le_rfl]
    exact ⟨hfd, hrevents, ih hrest fun j hj => heq j (by omega)⟩

lemma Holds.forget {entry : PollFd} (h : Holds set i (entry :: entries)) :
    Holds (forget set i) (i + 1) entries :=
  h.2.2.congr fun _ hj => Function.update_of_ne (by omega) _ _

lemma reportedBy_of_watched (notices : List Notice) {entry : PollEntry} {socket : ℕ}
    (hfd : entry.fd = socket) (hevents : entry.events = true) :
    reportedBy notices entry = isReadable notices socket := by
  simp [reportedBy, hfd, hevents]

lemma Watches.holds_pollSet {sockets : List ℕ} {size : ℕ} (h : Watches set i sockets)
    (hsize : i + sockets.length ≤ size) (notices : List Notice) :
    Holds (pollSet notices set size) i
      ((sockets.map fun socket => (⟨socket, false⟩ : PollFd)).map (PollFd.fill notices)) := by
  induction sockets generalizing i with
  | nil => trivial
  | cons socket sockets ih =>
    obtain ⟨hfd, hevents, hrest⟩ := h
    simp only [List.length_cons] at hsize
    have hi : i < size := by omega
    refine ⟨?_, ?_, ih hrest (by omega)⟩
    · simp [pollSet, hi, hfd, PollFd.fill]
    · simp [pollSet, hi, PollFd.fill, reportedBy_of_watched notices hfd hevents]

/-- The loop over the indices makes the calls of the loop over the entries and leaves the
entries before `i` alone. -/
lemma echoSet_run (h : Holds set i entries) (hfits : i + entries.length ≤ kPollSize) (w : World) :
    ∃ set', (echoSet entries.length i set).run (exec script) w =
        (.ok (set', ((echoEntries entries).run (exec script) w).1),
          ((echoEntries entries).run (exec script) w).2) ∧ ∀ j < i, set' j = set j := by
  induction entries generalizing set i w with
  | nil => exact ⟨set, rfl, fun _ _ => rfl⟩
  | cons entry entries ih =>
    simp only [List.length_cons] at hfits
    have hi : ¬ kPollSize ≤ i := by omega
    have hsocket : (set i).fd.toNat = entry.fd := by rw [h.1, Int.toNat_natCast]
    have hbefore : ∀ {set' : PollSet}, (∀ j < i + 1, set' j = forget set i j) →
        ∀ j < i, set' j = set j := fun hset j hj =>
      (hset j (by omega)).trans (Function.update_of_ne (by omega) _ _)
    simp only [List.length_cons, echoSet, hi, ↓reduceIte, echoEntries, h.2.1, hsocket]
    by_cases hrevents : entry.revents = true
    · simp only [hrevents, ↓reduceIte, Program.bind_eq_bind, Program.run_bind]
      cases hecho : ((callEcho entry.fd).run (exec script) w).1 with
      | true =>
        obtain ⟨set', hrun, hset⟩ :=
          ih h.forget (by omega) ((callEcho entry.fd).run (exec script) w).2
        exact ⟨set', by simpa [hecho] using hrun, hbefore hset⟩
      | false =>
        obtain ⟨set', hrun, hset⟩ := ih h.forget (by omega)
          ((callClose entry.fd).run (exec script) ((callEcho entry.fd).run (exec script) w).2).2
        exact ⟨set', by simp [hrun], hbefore hset⟩
    · simp only [hrevents, Bool.false_eq_true, ↓reduceIte]
      obtain ⟨set', hrun, hset⟩ := ih h.forget (by omega) w
      exact ⟨set', hrun, hbefore hset⟩

end Echoing

section Rounds

variable {script : Script} {serverSocket : ℕ} {openSockets : Sockets} {state : PollState}

/-- The array serves the server socket from its first entry. -/
def Polls (serverSocket : ℕ) (state : PollState) (openSockets : Sockets) : Prop :=
  state.openSockets = openSockets ∧ (state.set 0).fd = serverSocket ∧ (state.set 0).events = true

lemma start_polls (set : PollSet) (serverSocket : ℕ) :
    Polls serverSocket (.start set serverSocket) .empty := by
  simp [Polls, PollState.start]

lemma pollSetRound_agree (h : Polls serverSocket state openSockets) (w : World) :
    Program.Agree (Polls serverSocket) ((pollSetRound state).run (exec script) w)
      ((pollRound serverSocket openSockets).run (exec script) w) := by
  obtain ⟨rfl, hfd, hevents⟩ := h
  by_cases hfits : 1 + state.openSockets.elems.length ≤ kPollSize
  · obtain ⟨set, hfill⟩ := @fillSet_of_fits state.set _ _ hfits
    have hfirst : set 0 = state.set 0 := fillSet_before hfill Nat.zero_lt_one
    simp only [pollSetRound, hfill, pollRound, List.length_map, not_lt.mpr hfits, ↓reduceIte,
      Program.bind_eq_bind, Program.run_bind]
    cases ((callWait : Server Waited).run (exec script) w).1 with
    | failed e =>
      by_cases he : e = .eagain
      · simpa [he, Program.Agree, Polls, hfirst] using ⟨hfd, hevents⟩
      · simp [he, Program.Agree]
    | ready notices =>
      have hholds := (fillSet_watches hfill).holds_pollSet le_rfl notices
      obtain ⟨set', hrun, hbefore⟩ := @echoSet_run script _ _ _ hholds (by simpa using hfits)
        ((callWait : Server Waited).run (exec script) w).2
      have hzero : set' 0 = { state.set 0 with revents := isReadable notices serverSocket } := by
        rw [hbefore 0 Nat.zero_lt_one, ← reportedBy_of_watched notices hfd hevents, ← hfirst]
        simp [pollSet]
      simp only [List.length_map] at hrun
      simp only [Program.run_bind, Nat.add_sub_cancel_left, hrun, hzero, PollFd.fill]
      by_cases hserver : isReadable notices serverSocket = true
      · simp only [hserver, ↓reduceIte, Program.run_bind]
        generalize (acceptNewConnection _).run (exec script) _ = x
        obtain ⟨x, w'⟩ := x
        cases x with
        | ok openSockets => exact ⟨⟨rfl, by simpa [hzero] using hfd, by simpa [hzero]⟩, rfl⟩
        | error e => exact ⟨rfl, rfl⟩
      · simp only [hserver, Bool.false_eq_true, ↓reduceIte]
        exact ⟨⟨rfl, by simpa [hzero] using hfd, by simpa [hzero]⟩, rfl⟩
  · have hfill := @fillSet_of_not_fits state.set _ _ (by decide) (not_le.mp hfits)
    simp [pollSetRound, hfill, pollRound, not_le.mp hfits, Program.Agree]

end Rounds

section Equivalence

/-- A round of the select and of the poll server once the descriptors are set up. -/
def waitAndServe (serverSocket : ℕ) (openSockets : Sockets) : Server (Except Stop Sockets) := do
  match ← callWait with
  | .ready notices =>
    let closedSockets ← echoSockets notices openSockets.elems
    let openSockets := eraseAll openSockets closedSockets
    if isReadable notices serverSocket then acceptNewConnection openSockets
    else return .ok openSockets
  | .failed e => return if e = .eagain then .ok openSockets else .error .leftLoop

lemma echoEntries_filled (notices : List Notice) (sockets : List ℕ) :
    echoEntries ((sockets.map fun socket => (⟨socket, false⟩ : PollFd)).map (PollFd.fill notices)) =
      echoSockets notices sockets := by
  induction sockets with
  | nil => rfl
  | cons socket sockets ih =>
    simp only [List.map_cons, echoEntries, echoSockets, ih]
    rfl

lemma selectRound_eq (serverSocket : ℕ) (openSockets : Sockets) :
    selectRound serverSocket openSockets =
      if ∃ socket ∈ serverSocket :: openSockets.elems, fdSetSize ≤ socket
      then .done (.error .undefined) else waitAndServe serverSocket openSockets := rfl

lemma pollRound_eq (serverSocket : ℕ) (openSockets : Sockets) :
    pollRound serverSocket openSockets = if kPollSize < 1 + openSockets.elems.length
      then .done (.error .undefined) else waitAndServe serverSocket openSockets := by
  simp only [pollRound, echoEntries_filled, List.length_map]
  rfl

/-- The descriptors watched at the start of a round are below `FD_SETSIZE`. -/
def FitsSelect (serverSocket : ℕ) : Except Stop Sockets → Prop
  | .ok openSockets => ∀ socket ∈ serverSocket :: openSockets.elems, socket < fdSetSize
  | .error _ => True

instance (serverSocket : ℕ) (r : Except Stop Sockets) : Decidable (FitsSelect serverSocket r) :=
  match r with
  | .ok openSockets =>
    inferInstanceAs (Decidable (∀ socket ∈ serverSocket :: openSockets.elems, socket < fdSetSize))
  | .error _ => inferInstanceAs (Decidable True)

lemma length_le_of_forall_lt {openSockets : Sockets} {n : ℕ}
    (h : ∀ socket ∈ openSockets.elems, socket < n) : openSockets.elems.length ≤ n := by
  have hsub : openSockets.elems ⊆ List.range n := fun s hs => List.mem_range.mpr (h s hs)
  simpa using (openSockets.nodup_elems.subperm hsub).length_le

lemma selectRound_eq_pollRound {serverSocket : ℕ} {openSockets : Sockets}
    (h : FitsSelect serverSocket (.ok openSockets)) :
    selectRound serverSocket openSockets = pollRound serverSocket openSockets := by
  have hselect : ¬ ∃ socket ∈ serverSocket :: openSockets.elems, fdSetSize ≤ socket := by
    rintro ⟨socket, hs, hle⟩
    exact absurd (h socket hs) (not_lt.mpr hle)
  have hlength := length_le_of_forall_lt fun s hs => h s (List.mem_cons_of_mem _ hs)
  have hpoll : ¬ kPollSize < 1 + openSockets.elems.length := by
    unfold kPollSize
    unfold fdSetSize at hlength
    omega
  rw [selectRound_eq, pollRound_eq, if_neg hselect, if_neg hpoll]

lemma pollSet_loop_run (script : Script) (serverSocket rounds : ℕ) (set : PollSet) (w : World) :
    let poll := (Program.loop pollSetRound rounds (.start set serverSocket)).run (exec script) w
    let list := (Program.loop (pollRound serverSocket) rounds .empty).run (exec script) w
    poll.2 = list.2 ∧ poll.1.map PollState.openSockets = list.1 := by
  have hagree := Program.loop_agree (fun _ _ w h => @pollSetRound_agree script _ _ _ h w) rounds
    (start_polls set serverSocket) w
  exact hagree.eq_map fun state openSockets h => h.1

lemma pollSet_error {result : Except Stop PollState} {stop : Stop}
    (h : result.map PollState.openSockets = .error stop) : result = .error stop := by
  cases result with
  | ok state => simp [Except.map] at h
  | error e => simpa [Except.map] using h

/-- The two servers make the same calls with the same answers, keep the same open sockets
and stop together. -/
theorem select_poll_same_runs (script : Script) (serverSocket rounds : ℕ) (set : PollSet)
    (w : World) (hfits : ∀ k < rounds, FitsSelect serverSocket
      ((Program.loop (selectSetRound serverSocket) k .empty).run (exec script) w).1) :
    let select := (Program.loop (selectSetRound serverSocket) rounds .empty).run (exec script) w
    let poll := (Program.loop pollSetRound rounds (.start set serverSocket)).run (exec script) w
    poll.2 = select.2 ∧ poll.1.map PollState.openSockets = select.1 := by
  have hselect : (Program.loop (selectSetRound serverSocket) rounds .empty).run (exec script) w =
      (Program.loop (pollRound serverSocket) rounds .empty).run (exec script) w := by
    refine Program.loop_run_congr fun k hk S w' hS => ?_
    have hS' := hfits k hk
    rw [hS] at hS'
    rw [selectSetRound_run, selectRound_eq_pollRound hS']
  dsimp only
  rw [hselect]
  exact pollSet_loop_run script serverSocket rounds set w

/-- In the second round the client is closed and its descriptor is issued again. -/
def reissued : Script where
  wait k := .ready (if k = 0 then [⟨3, true, false⟩] else [⟨3, k = 4, false⟩, ⟨5, true, false⟩])
  recv k := if k = 5 then .closed else .data (.ofByte 1)
  send _ := .accepted 1
  accept _ := .ok 5
  fcntl _ := none
  close _ := none
  add _ := none

theorem select_poll_same_runs_reissued :
    let w := World.start (.other 0) fun _ => 0
    let select := (Program.loop (selectSetRound 3) 3 .empty).run (exec reissued) w
    let poll := (Program.loop pollSetRound 3 (.start (fun _ => ⟨0, false, true⟩) 3)).run
      (exec reissued) w
    poll.2 = select.2 ∧ poll.1.map PollState.openSockets = select.1 :=
  select_poll_same_runs reissued 3 3 (fun _ => ⟨0, false, true⟩) _ (by decide +kernel)

end Equivalence
end UnixProgramming.EchoServer
