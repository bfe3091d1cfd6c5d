import Mathlib

/-! `get_socket_fd` of the echo servers and of the TCP server and client: the candidate
addresses are tried until a socket is bound (connected). The versions differ in whether
`setsockopt` is called and in how a failure is reported. -/
namespace UnixProgramming.SocketInit

def ERROR : ℤ := -1

/-- The outcomes of the calls on one candidate address; `attach` is `bind` in the servers
and `connect` in the client. -/
structure Candidate where
  socket : Option ℕ
  setsockopt : Bool
  attach : Bool

def Candidate.socketResult (c : Candidate) : ℤ := (c.socket.map fun fd => (fd : ℤ)).getD ERROR

inductive Outcome
  | returned (socketFd : ℤ)
  | exited
  deriving DecidableEq

/-- How the function ends, with the descriptors that it has opened and not closed and
those that are bound (connected). -/
structure Result where
  outcome : Outcome
  opened : Finset ℤ
  attached : Finset ℤ
  deriving DecidableEq

inductive OnFailure
  | returnError
  | exit
  deriving DecidableEq

/-- The exit of the process closes its descriptors. -/
def OnFailure.result (opened : Finset ℤ) : OnFailure → Result
  | returnError => ⟨.returned ERROR, opened, ∅⟩
  | exit => ⟨.exited, ∅, ∅⟩

/-- What differs between the versions; the client does not call `setsockopt`. -/
structure Version where
  setsockopt : Option OnFailure
  notFound : OnFailure

def Version.reuseFails (v : Version) (c : Candidate) : Bool :=
  v.setsockopt.isSome && !c.setsockopt

/-- The code after the loop. -/
def Version.finish (v : Version) (socketFd : ℤ) (opened attached : Finset ℤ) : Result :=
  if socketFd = ERROR then v.notFound.result opened else ⟨.returned socketFd, opened, attached⟩

def Version.tryCandidates (v : Version) : List Candidate → ℤ → Finset ℤ → Result
  | [], socketFd, opened => v.finish socketFd opened ∅
  | current :: rest, _, opened =>
    let socketFd := current.socketResult
    if socketFd = ERROR then v.tryCandidates rest socketFd opened
    else
      let opened := insert socketFd opened
      match v.setsockopt, current.setsockopt with
      | some onFailure, false => onFailure.result opened
      | _, _ =>
        if current.attach then v.finish socketFd opened {socketFd}
        else v.tryCandidates rest socketFd (opened.erase socketFd)

inductive Program
  | echoServerSelect
  | echoServerPoll
  | echoServerEpoll
  | echoServerKqueue
  | echoServerKqueueSingleSocket
  | tcpServer
  | tcpClient

/-- The echo servers share one text of the function. -/
def Program.version : Program → Version
  | tcpServer => ⟨some .exit, .exit⟩
  | tcpClient => ⟨none, .exit⟩
  | _ => ⟨some .returnError, .returnError⟩

def getSocketFd (p : Program) (addrInfo : List Candidate) : Result :=
  p.version.tryCandidates addrInfo ERROR ∅

/-- The function exits, reports an error and leaves nothing open, or returns an open and
bound descriptor and leaves nothing else open. -/
def Result.Lawful (r : Result) : Prop :=
  match r.outcome with
  | .returned socketFd => (socketFd = ERROR ∧ r.opened = ∅) ∨
      (socketFd ≠ ERROR ∧ socketFd ∈ r.attached ∧ r.opened = {socketFd})
  | .exited => True

instance (r : Result) : Decidable r.Lawful :=
  match r with
  | ⟨.returned socketFd, opened, attached⟩ => inferInstanceAs (Decidable
      ((socketFd = ERROR ∧ opened = ∅) ∨
        (socketFd ≠ ERROR ∧ socketFd ∈ attached ∧ opened = {socketFd})))
  | ⟨.exited, _, _⟩ => inferInstanceAs (Decidable True)

/-- The loop ends at this candidate. -/
def Version.settles (v : Version) (c : Candidate) : Bool :=
  c.socket.isSome && (v.reuseFails c || c.attach)

/-- The loop ends at a candidate whose `setsockopt` succeeds or whose failure exits, or it
runs to its end and the last call of `socket` has failed. -/
def Version.EndsWell (v : Version) (socketFd : ℤ) (addrInfo : List Candidate) : Prop :=
  match addrInfo.find? v.settles with
  | some c => v.reuseFails c = true → v.setsockopt = some .exit
  | none => (addrInfo.map Candidate.socketResult).getLastD socketFd = ERROR

lemma Candidate.socketResult_some {c : Candidate} {fd : ℕ} (h : c.socket = some fd) :
    c.socketResult = fd := by simp [socketResult, h]

lemma Candidate.socketResult_none {c : Candidate} (h : c.socket = none) :
    c.socketResult = ERROR := by simp [socketResult, h]

lemma natCast_ne_error (fd : ℕ) : (fd : ℤ) ≠ ERROR := by
  unfold ERROR
  omega

lemma OnFailure.lawful_result_iff (f : OnFailure) (opened : Finset ℤ) :
    (f.result opened).Lawful ↔ (f = .exit ∨ opened = ∅) := by
  cases f with
  | returnError => simp [result, Result.Lawful]
  | exit => simp [result, Result.Lawful]

lemma Version.lawful_finish_iff (v : Version) (socketFd : ℤ) :
    (v.finish socketFd ∅ ∅).Lawful ↔ socketFd = ERROR := by
  unfold finish
  split_ifs with h
  · simp [OnFailure.lawful_result_iff, h]
  · simp [Result.Lawful, h]

lemma Version.endsWell_cons_of_not (v : Version) {c : Candidate} (h : v.settles c = false)
    (socketFd : ℤ) (rest : List Candidate) :
    v.EndsWell socketFd (c :: rest) ↔ v.EndsWell c.socketResult rest := by
  rw [EndsWell, EndsWell, List.find?_cons_of_neg (by simp [h]), List.map_cons,
    List.getLastD_cons]

lemma Version.tryCandidates_of_reuseFails (v : Version) {c : Candidate} {f : OnFailure} {fd : ℕ}
    (hsocket : c.socket = some fd) (hv : v.setsockopt = some f) (hc : c.setsockopt = false)
    (socketFd : ℤ) (opened : Finset ℤ) (rest : List Candidate) :
    v.tryCandidates (c :: rest) socketFd opened = f.result (insert (fd : ℤ) opened) := by
  simp [tryCandidates, Candidate.socketResult_some hsocket, natCast_ne_error, hv, hc]

lemma Version.tryCandidates_of_reuses (v : Version) {c : Candidate} {fd : ℕ}
    (hsocket : c.socket = some fd) (h : v.reuseFails c = false) (socketFd : ℤ)
    (opened : Finset ℤ) (rest : List Candidate) :
    v.tryCandidates (c :: rest) socketFd opened =
      if c.attach then v.finish fd (insert (fd : ℤ) opened) {(fd : ℤ)}
      else v.tryCandidates rest fd ((insert (fd : ℤ) opened).erase fd) := by
  cases hv : v.setsockopt with
  | none => simp [tryCandidates, Candidate.socketResult_some hsocket, natCast_ne_error, hv]
  | some f =>
    have hc : c.setsockopt = true := by simpa [reuseFails, hv] using h
    simp [tryCandidates, Candidate.socketResult_some hsocket, natCast_ne_error, hv, hc]

lemma Version.lawful_tryCandidates_iff (v : Version) (addrInfo : List Candidate) (socketFd : ℤ) :
    (v.tryCandidates addrInfo socketFd ∅).Lawful ↔ v.EndsWell socketFd addrInfo := by
  induction addrInfo generalizing socketFd with
  | nil => exact v.lawful_finish_iff socketFd
  | cons c rest ih =>
    cases hsocket : c.socket with
    | none =>
      have hsettles : v.settles c = false := by simp [settles, hsocket]
      have hresult := Candidate.socketResult_none hsocket
      rw [v.endsWell_cons_of_not hsettles, tryCandidates, if_pos hresult]
      exact ih c.socketResult
    | some fd =>
      by_cases hreuse : v.reuseFails c = true
      · -- the call returns or exits with the descriptor open
        have hsettles : v.settles c = true := by simp [settles, hsocket, hreuse]
        obtain ⟨hsome, hc⟩ : v.setsockopt.isSome ∧ c.setsockopt = false := by
          simpa [reuseFails] using hreuse
        obtain ⟨f, hv⟩ := Option.isSome_iff_exists.mp hsome
        rw [v.tryCandidates_of_reuseFails hsocket hv hc, f.lawful_result_iff]
        simp [EndsWell, hsettles, hreuse, hv]
      · have hreuse : v.reuseFails c = false := by simpa using hreuse
        rw [v.tryCandidates_of_reuses hsocket hreuse]
        cases hattach : c.attach with
        | true =>
          have hsettles : v.settles c = true := by simp [settles, hsocket, hattach]
          simp [EndsWell, hsettles, hreuse, finish, natCast_ne_error, Result.Lawful]
        | false =>
          have hsettles : v.settles c = false := by simp [settles, hreuse, hattach]
          rw [v.endsWell_cons_of_not hsettles, Candidate.socketResult_some hsocket]
          simpa using ih fd

/-- Every version meets its contract exactly when the loop ends well. -/
theorem lawful_getSocketFd_iff (p : Program) (addrInfo : List Candidate) :
    (getSocketFd p addrInfo).Lawful ↔ p.version.EndsWell ERROR addrInfo :=
  p.version.lawful_tryCandidates_iff addrInfo ERROR

/-- After a failed `bind` or `connect` at the last candidate the closed descriptor is
returned; after a failed `setsockopt` the echo servers leave the descriptor open. -/
theorem not_lawful_getSocketFd :
    (∀ p, getSocketFd p [⟨some 3, true, false⟩] = ⟨.returned 3, ∅, ∅⟩ ∧
      ¬ (getSocketFd p [⟨some 3, true, false⟩]).Lawful) ∧
      getSocketFd .echoServerSelect [⟨some 3, false, true⟩] = ⟨.returned ERROR, {3}, ∅⟩ ∧
      ¬ (getSocketFd .echoServerSelect [⟨some 3, false, true⟩]).Lawful := by
  refine ⟨fun p => ?_, by decide, by decide⟩
  cases p <;> decide

end UnixProgramming.SocketInit
