import UnixProgramming.PipelineModel
import UnixProgramming.Simulation

/-! The shell as a machine that runs one command at a time on the whole output of the one
before it, and when that machine is never stuck. -/
namespace UnixProgramming.Pipeline

/-- A command that runs alone: the rest of its input and its output so far. -/
structure Config (σ : Type*) where
  process : σ
  input : List UInt8
  output : List UInt8

/-- The output at the end is `none` when the last command has not run. -/
inductive Stage (σ : Type*)
  | start
  | pipe (idx : ℕ) (input : List UInt8)
  | fork (idx : ℕ) (input : List UInt8)
  | starting (idx : ℕ) (input : List UInt8)
  | running (idx : ℕ) (config : Config σ)
  | exited (idx : ℕ) (output : List UInt8)
  | closing (idx : ℕ) (output : List UInt8)
  | ended (output : Option (List UInt8))

variable {σ : Type*} (host : Host σ)

def soloStep (c : Config σ) : Option (Config σ) :=
  match host.action c.process with
  | .read next => some ⟨next c.input.head?, c.input.tail, c.output⟩
  | .write byte next => some ⟨next, c.input, c.output ++ [byte]⟩
  | .compute next => some ⟨next, c.input, c.output⟩
  | .exit => none

/-- Only the last command is free to write more than a pipe holds. -/
def Room (commands idx : ℕ) (c : Config σ) : Prop :=
  idx + 1 ≠ commands → c.output.length ≤ host.capacity

instance (commands idx : ℕ) : DecidablePred (Room host commands idx) :=
  fun _ => inferInstanceAs (Decidable (_ → _))

def Stage.next (cmds : List Command) : Stage σ → Option (Stage σ)
  | .start => some (.pipe 0 [])
  | .pipe idx input =>
    some (if idx < cmds.length then .fork idx input
      else .ended (if cmds = [] then none else some input))
  | .fork idx input => some (if host.forks idx then .starting idx input else .ended none)
  | .starting idx input =>
    match host.execvp (cmds.getD idx []) with
    | some process => some (.running idx ⟨process, input, []⟩)
    | none => some (.exited idx [])
  | .running idx c =>
    match soloStep host c with
    | none => some (.exited idx c.output)
    | some d => if Room host cmds.length idx d then some (.running idx d) else none
  | .exited idx output => some (.closing idx output)
  | .closing idx output => some (.pipe (idx + 1) output)
  | .ended _ => none

inductive Stage.IsEnded : Stage σ → Prop
  | ended (output : Option (List UInt8)) : Stage.IsEnded (.ended output)

/-- The command writes no more than a pipe holds. -/
def Bounded (cmd : Command) (input : List UInt8) : Prop :=
  ∀ process, host.execvp cmd = some process →
    ∀ c, Runs (soloStep host) ⟨process, input, []⟩ c → c.output.length ≤ host.capacity

/-- The command ends and has then written this; one that is not found writes nothing. -/
def Outputs (cmd : Command) (input output : List UInt8) : Prop :=
  match host.execvp cmd with
  | some process =>
    ∃ c, Runs (soloStep host) ⟨process, input, []⟩ c ∧ soloStep host c = none ∧ c.output = output
  | none => output = []

/-- Every command but the last writes no more than a pipe holds when it reads what the
commands before it write. -/
def Fits : ℕ → List UInt8 → List Command → Prop
  | _, _, [] => True
  | idx, input, cmd :: rest =>
    host.forks idx = true → rest ≠ [] →
      Bounded host cmd input ∧ ∀ output, Outputs host cmd input output → Fits (idx + 1) output rest

variable {host} {cmds : List Command}

lemma running_embeds (idx : ℕ) :
    Embeds (Stage.next host cmds) (.running idx) (fun c => .exited idx c.output) (soloStep host)
      (Room host cmds.length idx) := by
  intro c
  simp only [Stage.next]
  cases soloStep host c with
  | none => rfl
  | some d => rfl

lemma not_isEnded_running (idx : ℕ) (c : Config σ) : ¬ (Stage.running idx c).IsEnded := nofun

lemma room_nil (idx : ℕ) (process : σ) (input : List UInt8) :
    Room host cmds.length idx ⟨process, input, []⟩ :=
  fun _ => Nat.zero_le _

lemma neverStuck_exited_iff (idx : ℕ) (output : List UInt8) :
    NeverStuck (Stage.next host cmds) Stage.IsEnded (.exited idx output) ↔
      NeverStuck (Stage.next host cmds) Stage.IsEnded (.pipe (idx + 1) output) := by
  have hclosing : Stage.next host cmds (.exited idx output) = some (.closing idx output) := rfl
  rw [neverStuck_iff_of_next hclosing]
  exact neverStuck_iff_of_next rfl

lemma neverStuck_ended (output : Option (List UInt8)) :
    NeverStuck (Stage.next host cmds) Stage.IsEnded (.ended output) :=
  neverStuck_of_final (.ended output) rfl

/-- A command is stuck on its own account only if the pipe behind it is too small. -/
lemma neverStuck_starting_iff {idx : ℕ} {cmd : Command} (hcmd : cmds.getD idx [] = cmd)
    (input : List UInt8) :
    NeverStuck (Stage.next host cmds) Stage.IsEnded (.starting idx input) ↔
      (idx + 1 ≠ cmds.length → Bounded host cmd input) ∧
        ∀ output, Outputs host cmd input output →
          NeverStuck (Stage.next host cmds) Stage.IsEnded (.pipe (idx + 1) output) := by
  cases hexec : host.execvp cmd with
  | none =>
    have hnext : Stage.next host cmds (.starting idx input) = some (.exited idx []) := by
      simp only [Stage.next, hcmd, hexec]
    rw [neverStuck_iff_of_next hnext, neverStuck_exited_iff]
    simp [Bounded, Outputs, hexec]
  | some process =>
    have hnext : Stage.next host cmds (.starting idx input) =
        some (.running idx ⟨process, input, []⟩) := by
      simp only [Stage.next, hcmd, hexec]
    rw [neverStuck_iff_of_next hnext,
      (running_embeds idx).neverStuck_iff (not_isEnded_running idx) (room_nil idx process input)]
    refine and_congr ?_ ?_
    · simp only [Room, Bounded, hexec, Option.some.injEq, forall_eq']
      exact ⟨fun h hlast c hc => h c hc hlast, fun h c hc hlast => h hlast c hc⟩
    · simp only [neverStuck_exited_iff, Outputs, hexec]
      constructor
      · rintro h output ⟨c, hrun, hlast, rfl⟩
        exact h c hrun hlast
      · intro h c hrun hlast
        exact h c.output ⟨c, hrun, hlast, rfl⟩

lemma of_drop_eq_cons {idx : ℕ} {cmd : Command} {rest : List Command}
    (hrest : cmds.drop idx = cmd :: rest) :
    idx < cmds.length ∧ cmds.getD idx [] = cmd ∧ cmds.drop (idx + 1) = rest := by
  have hidx : idx < cmds.length := by
    by_contra hnot
    rw [List.drop_eq_nil_of_le (not_lt.mp hnot)] at hrest
    cases hrest
  rw [List.drop_eq_getElem_cons hidx] at hrest
  obtain ⟨hhead, htail⟩ := List.cons.inj hrest
  exact ⟨hidx, by rw [List.getD_eq_getElem _ _ hidx, hhead], htail⟩

lemma neverStuck_pipe_iff (rest : List Command) (idx : ℕ) (input : List UInt8)
    (hrest : cmds.drop idx = rest) :
    NeverStuck (Stage.next host cmds) Stage.IsEnded (.pipe idx input) ↔
      Fits host idx input rest := by
  induction rest generalizing idx input with
  | nil =>
    have hidx : ¬ idx < cmds.length := by
      rw [not_lt]
      exact List.drop_eq_nil_iff.mp hrest
    have hnext : Stage.next host cmds (.pipe idx input) =
        some (.ended (if cmds = [] then none else some input)) := by
      simp [Stage.next, hidx]
    rw [neverStuck_iff_of_next hnext]
    exact iff_of_true (neverStuck_ended _) trivial
  | cons cmd rest ih =>
    obtain ⟨hidx, hcmd, htail⟩ := of_drop_eq_cons hrest
    have hlast : idx + 1 ≠ cmds.length ↔ rest ≠ [] := by
      rw [← htail, ne_eq, ne_eq, List.drop_eq_nil_iff]
      omega
    have hnext : Stage.next host cmds (.pipe idx input) = some (.fork idx input) := by
      simp [Stage.next, hidx]
    rw [neverStuck_iff_of_next hnext, Fits]
    by_cases hfork : host.forks idx = true
    · have hstarting : Stage.next host cmds (.fork idx input) = some (.starting idx input) := by
        simp [Stage.next, hfork]
      rw [neverStuck_iff_of_next hstarting, neverStuck_starting_iff hcmd, hlast]
      simp only [hfork, forall_const, ih _ _ htail]
      by_cases hempty : rest = []
      · simp [hempty, Fits]
      · simp [hempty]
    · have hended : Stage.next host cmds (.fork idx input) = some (.ended none) := by
        simp [Stage.next, hfork]
      rw [neverStuck_iff_of_next hended]
      exact iff_of_true (neverStuck_ended none) fun h => absurd h hfork

theorem neverStuck_start_iff :
    NeverStuck (Stage.next host cmds) Stage.IsEnded .start ↔ Fits host 0 [] cmds := by
  have hnext : Stage.next host cmds .start = some (.pipe 0 []) := rfl
  rw [neverStuck_iff_of_next hnext]
  exact neverStuck_pipe_iff cmds 0 [] rfl

end UnixProgramming.Pipeline
