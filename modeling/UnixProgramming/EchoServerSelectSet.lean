import UnixProgramming.EchoServerLoops

/-! The select server with its bit set, which is built anew in every round, against the
round over the open sockets. -/
namespace UnixProgramming.EchoServer

/-- The bits of an `fd_set`; it has `FD_SETSIZE` of them. -/
abbrev FdSet := ℕ → Bool

/-- `FD_SET` for each descriptor of a list. -/
def setBits : FdSet → List ℕ → Except Stop FdSet
  | set, [] => .ok set
  | set, socket :: sockets =>
    if socket < fdSetSize then setBits (Function.update set socket true) sockets
    else .error .undefined

def getMaxSocket (serverSocket : ℕ) (openSockets : Sockets) : ℕ :=
  match openSockets.elems.getLast? with
  | some socket => max serverSocket socket
  | none => serverSocket

/-- `select` looks at the first `nfds` bits and keeps those of the ready descriptors. -/
def selectSet (notices : List Notice) (nfds : ℕ) (set : FdSet) : FdSet := fun socket =>
  decide (socket < nfds) && set socket && isReadable notices socket

/-- The loop over the open sockets, with the bounds of `FD_ISSET`. -/
def echoSetBits (set : FdSet) : List ℕ → Server (Except Stop (List ℕ))
  | [] => return .ok []
  | socket :: sockets => do
    if fdSetSize ≤ socket then return .error .undefined
    else if set socket then
      if ← callEcho socket then echoSetBits set sockets
      else
        callClose socket
        match ← echoSetBits set sockets with
        | .ok closedSockets => return .ok (socket :: closedSockets)
        | .error e => return .error e
    else echoSetBits set sockets

def selectSetRound (serverSocket : ℕ) (openSockets : Sockets) : Server (Except Stop Sockets) := do
  match setBits (fun _ => false) (serverSocket :: openSockets.elems) with
  | .error e => return .error e
  | .ok set =>
    let maxSocket := getMaxSocket serverSocket openSockets
    match ← callWait with
    | .failed e => return if e = .eagain then .ok openSockets else .error .leftLoop
    | .ready notices =>
      let set := selectSet notices (maxSocket + 1) set
      match ← echoSetBits set openSockets.elems with
      | .error e => return .error e
      | .ok closedSockets =>
        let openSockets := eraseAll openSockets closedSockets
        if fdSetSize ≤ serverSocket then return .error .undefined
        else if set serverSocket then acceptNewConnection openSockets
        else return .ok openSockets

section Bits

variable {set set' : FdSet} {sockets : List ℕ}

lemma setBits_of_fits (h : ∀ socket ∈ sockets, socket < fdSetSize) :
    ∃ set', setBits set sockets = .ok set' := by
  induction sockets generalizing set with
  | nil => exact ⟨set, rfl⟩
  | cons socket sockets ih =>
    have hsocket : socket < fdSetSize := h socket (by simp)
    simp only [setBits, hsocket, ↓reduceIte]
    exact ih fun s hs => h s (List.mem_cons_of_mem socket hs)

lemma setBits_of_not_fits (h : ∃ socket ∈ sockets, fdSetSize ≤ socket) :
    setBits set sockets = .error .undefined := by
  induction sockets generalizing set with
  | nil => simp at h
  | cons socket sockets ih =>
    simp only [setBits]
    split_ifs with hlt
    · obtain ⟨s, hs, hle⟩ := h
      rcases List.mem_cons.mp hs with rfl | hs
      · omega
      · exact ih ⟨s, hs, hle⟩
    · rfl

lemma setBits_keeps (h : setBits set sockets = .ok set') {socket : ℕ} (hs : set socket = true) :
    set' socket = true := by
  induction sockets generalizing set with
  | nil =>
    obtain rfl : set = set' := by simpa [setBits] using h
    exact hs
  | cons s sockets ih =>
    simp only [setBits] at h
    split_ifs at h
    exact ih h (by by_cases he : socket = s <;> simp [he, hs])

lemma setBits_sets (h : setBits set sockets = .ok set') :
    ∀ socket ∈ sockets, set' socket = true := by
  induction sockets generalizing set with
  | nil => simp
  | cons s sockets ih =>
    simp only [setBits] at h
    split_ifs at h
    intro socket hs
    rcases List.mem_cons.mp hs with rfl | hs
    · exact setBits_keeps h (Function.update_self _ _ _)
    · exact ih h socket hs

end Bits

lemma le_getMaxSocket (serverSocket : ℕ) (openSockets : Sockets) :
    ∀ socket ∈ serverSocket :: openSockets.elems,
      socket ≤ getMaxSocket serverSocket openSockets := by
  unfold getMaxSocket
  intro socket hs
  cases hlast : openSockets.elems.getLast? with
  | none =>
    rw [List.getLast?_eq_none_iff] at hlast
    simp only [hlast, List.mem_singleton] at hs
    exact hs.le
  | some last =>
    obtain ⟨others, helems⟩ := List.getLast?_eq_some_iff.mp hlast
    have hsorted := openSockets.sorted
    simp only [helems, List.mem_cons, List.mem_append, List.not_mem_nil, or_false] at hs
    rw [helems] at hsorted
    rcases hs with rfl | hs | rfl
    · exact le_max_left _ _
    · have hlt : socket < last := (List.pairwise_append.mp hsorted).2.2 socket hs last (by simp)
      exact hlt.le.trans (le_max_right _ _)
    · exact le_max_right _ _

variable {script : Script}

lemma echoSetBits_run {notices : List Notice} {set : FdSet} {sockets : List ℕ}
    (hset : ∀ socket ∈ sockets, set socket = isReadable notices socket)
    (hfits : ∀ socket ∈ sockets, socket < fdSetSize) (w : World) :
    (echoSetBits set sockets).run (exec script) w =
      (.ok ((echoSockets notices sockets).run (exec script) w).1,
        ((echoSockets notices sockets).run (exec script) w).2) := by
  induction sockets generalizing w with
  | nil => rfl
  | cons socket sockets ih =>
    have hlt : ¬ fdSetSize ≤ socket := not_le.mpr (hfits socket (by simp))
    have hrest := ih (fun s hs => hset s (List.mem_cons_of_mem socket hs))
      fun s hs => hfits s (List.mem_cons_of_mem socket hs)
    simp only [echoSetBits, hlt, ↓reduceIte, hset socket (by simp), echoSockets]
    by_cases hready : isReadable notices socket = true
    · simp only [hready, ↓reduceIte, Program.bind_eq_bind, Program.run_bind]
      cases hecho : ((callEcho socket).run (exec script) w).1 with
      | true => simp [hrest]
      | false => simp [hrest]
    · simp only [hready, Bool.false_eq_true, ↓reduceIte]
      exact hrest w

/-- The bit set makes no difference to a round. -/
lemma selectSetRound_run (serverSocket : ℕ) (openSockets : Sockets) (w : World) :
    (selectSetRound serverSocket openSockets).run (exec script) w =
      (selectRound serverSocket openSockets).run (exec script) w := by
  by_cases hfits : ∃ socket ∈ serverSocket :: openSockets.elems, fdSetSize ≤ socket
  · simp only [selectSetRound, setBits_of_not_fits hfits, selectRound, hfits, ↓reduceIte]
  · have hbelow : ∀ socket ∈ serverSocket :: openSockets.elems, socket < fdSetSize :=
      fun s hs => not_le.mp fun hle => hfits ⟨s, hs, hle⟩
    have hserver : ¬ fdSetSize ≤ serverSocket := not_le.mpr (hbelow serverSocket (by simp))
    obtain ⟨set, hset⟩ := @setBits_of_fits (fun _ => false) _ hbelow
    simp only [selectSetRound, hset, selectRound, hfits, ↓reduceIte, Program.bind_eq_bind,
      Program.run_bind]
    cases ((callWait : Server Waited).run (exec script) w).1 with
    | failed e => rfl
    | ready notices =>
      have hready : ∀ socket ∈ serverSocket :: openSockets.elems,
          selectSet notices (getMaxSocket serverSocket openSockets + 1) set socket =
            isReadable notices socket := by
        intro socket hs
        have hmax := le_getMaxSocket serverSocket openSockets socket hs
        simp [selectSet, setBits_sets hset socket hs, Nat.lt_succ_of_le hmax]
      have hrun := fun w => @echoSetBits_run script notices _ openSockets.elems
        (fun s hs => hready s (List.mem_cons_of_mem _ hs))
        (fun s hs => hbelow s (List.mem_cons_of_mem _ hs)) w
      simp only [Program.run_bind, hrun, hserver, ↓reduceIte, hready serverSocket (by simp)]

lemma selectSet_loop_run (serverSocket rounds : ℕ) (openSockets : Sockets) (w : World) :
    (Program.loop (selectSetRound serverSocket) rounds openSockets).run (exec script) w =
      (Program.loop (selectRound serverSocket) rounds openSockets).run (exec script) w :=
  Program.loop_run_congr fun _ _ openSockets w _ => selectSetRound_run serverSocket openSockets w

end UnixProgramming.EchoServer
