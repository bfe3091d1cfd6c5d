import UnixProgramming.PipelineDescriptors
import UnixProgramming.PipelineStages

/-! The processes of the shell take the steps of the machine of its stages, and no others. -/
namespace UnixProgramming.Pipeline
open DescriptorTable

variable {σ : Type*} {host : Host σ} {cmds : List Command}

/-- What the last command leaves in `result.out`, which it does not truncate. -/
def overwritten (old : Option (List UInt8)) (output : List UInt8) : List UInt8 :=
  output ++ (old.getD []).drop output.length

def contents (commands : ℕ) (old : Option (List UInt8)) : Stage σ → Option (List UInt8)
  | .pipe idx input => if idx = commands ∧ commands ≠ 0 then some (overwritten old input) else old
  | .running idx c => if idx + 1 = commands then some (overwritten old c.output) else old
  | .exited idx output => if idx + 1 = commands then some (overwritten old output) else old
  | .closing idx output => if idx + 1 = commands then some (overwritten old output) else old
  | .ended (some output) => some (overwritten old output)
  | .start | .fork _ _ | .starting _ _ | .ended none => old

structure Running (host : Host σ) (cmds : List Command) (s : Sys σ) (idx pipe : ℕ)
    (table : Table) (c : Config σ) : Prop where
  point : s.point = .wait idx
  children : s.children = [.running table c.process]
  lt : idx < cmds.length
  piped : Piped s pipe
  reads : Reads s table c.input
  writes : Writes cmds.length idx s table pipe c.output
  room : Room host cmds.length idx c

inductive Placed (host : Host σ) (cmds : List Command) (old : Option (List UInt8)) :
    Stage σ → Sys σ → Prop
  | start : Placed host cmds old .start (Sys.initial old)
  | pipe {s : Sys σ} {idx : ℕ} {input : List UInt8} (hpoint : s.point = .pipe idx)
      (hchildren : s.children = []) (hidx : idx ≤ cmds.length) (htables : Tables s)
      (hsupplied : idx < cmds.length → Supplied s idx input) :
      Placed host cmds old (.pipe idx input) s
  | fork {s : Sys σ} {idx pipe : ℕ} {input : List UInt8} (hpoint : s.point = .fork idx)
      (hchildren : s.children = []) (hidx : idx < cmds.length) (hpiped : Piped s pipe)
      (hempty : s.pipes[pipe]? = some []) (hsupplied : Supplied s idx input) :
      Placed host cmds old (.fork idx input) s
  | starting {s : Sys σ} {idx pipe : ℕ} {input : List UInt8} (hpoint : s.point = .wait idx)
      (hchildren : s.children = [.starting idx s.locals]) (hidx : idx < cmds.length)
      (hpiped : Piped s pipe) (hempty : s.pipes[pipe]? = some [])
      (hsupplied : Supplied s idx input) :
      Placed host cmds old (.starting idx input) s
  | running {s : Sys σ} {idx pipe : ℕ} {table : Table} {c : Config σ}
      (h : Running host cmds s idx pipe table c) : Placed host cmds old (.running idx c) s
  | exited {s : Sys σ} {idx pipe : ℕ} {output : List UInt8} (hpoint : s.point = .wait idx)
      (hchildren : s.children = [.exited]) (hidx : idx < cmds.length) (hpiped : Piped s pipe)
      (houtput : idx + 1 ≠ cmds.length → s.pipes[pipe]? = some output) :
      Placed host cmds old (.exited idx output) s
  | closing {s : Sys σ} {idx pipe : ℕ} {output : List UInt8} (hpoint : s.point = .close idx)
      (hchildren : s.children = []) (hidx : idx < cmds.length) (hpiped : Piped s pipe)
      (houtput : idx + 1 ≠ cmds.length → s.pipes[pipe]? = some output) :
      Placed host cmds old (.closing idx output) s
  | ended {s : Sys σ} {output : Option (List UInt8)} (hpoint : s.point = .ended)
      (hchildren : s.children = []) : Placed host cmds old (.ended output) s

structure Sim (host : Host σ) (cmds : List Command) (old : Option (List UInt8))
    (a : Stage σ) (s : Sys σ) : Prop where
  placed : Placed host cmds old a s
  resultOut : s.resultOut = contents cmds.length old a

lemma sim_initial (old : Option (List UInt8)) :
    Sim host cmds old .start (Sys.initial old) := ⟨.start, rfl⟩

lemma step_iff_parentStep {s : Sys σ} (hchildren : ∀ child ∈ s.children, child = .exited)
    (t : Sys σ) : Step host cmds s t ↔ parentStep host cmds s = some t := by
  have hnone : ∀ i, childStep host cmds s i = none := by
    intro i
    unfold childStep
    cases hchild : s.children[i]? with
    | none => rfl
    | some child =>
      rw [hchildren child (List.mem_of_getElem? hchild)]
  simp [Step, hnone]

lemma step_iff_childStep {s : Sys σ} {idx : ℕ} {child : Child σ} (hpoint : s.point = .wait idx)
    (hchildren : s.children = [child]) (hlive : child.isExited = false) (t : Sys σ) :
    Step host cmds s t ↔ childStep host cmds s 0 = some t := by
  have hparent : parentStep host cmds s = none := by
    simp [parentStep, hpoint, Sys.wait, hchildren, hlive]
  unfold Step
  rw [hparent]
  constructor
  · rintro (h | ⟨i, hi⟩)
    · cases h
    · cases i with
      | zero => exact hi
      | succ i => simp [childStep, hchildren] at hi
  · intro h
    exact .inr ⟨0, h⟩

lemma writeAt_overwritten (old : Option (List UInt8)) (output : List UInt8) (byte : UInt8) :
    writeAt (overwritten old output) output.length byte = overwritten old (output ++ [byte]) := by
  simp [writeAt, overwritten, List.drop_append]

/-- The only step of the processes, if there is one, is the step of the machine. -/
def Follows (host : Host σ) (cmds : List Command) (old : Option (List UInt8)) (a : Stage σ)
    (s : Sys σ) : Prop :=
  ∃ o, (∀ t, Step host cmds s t ↔ o = some t) ∧
    Option.Rel (Sim host cmds old) (a.next host cmds) o

variable {old : Option (List UInt8)}

lemma follows_of_parentStep {a b : Stage σ} {s t : Sys σ}
    (hchildren : ∀ child ∈ s.children, child = .exited)
    (hstep : parentStep host cmds s = some t) (hnext : a.next host cmds = some b)
    (hsim : Sim host cmds old b t) : Follows host cmds old a s := by
  refine ⟨some t, fun u => ?_, ?_⟩
  · rw [step_iff_parentStep hchildren, hstep]
  · rw [hnext]
    exact .some hsim

section

variable {s : Sys σ} {idx pipe : ℕ} {input : List UInt8} {c : Config σ} {table : Table}

lemma follows_of_childStep {a b : Stage σ} {t : Sys σ} {child : Child σ}
    (hpoint : s.point = .wait idx) (hchildren : s.children = [child])
    (hlive : child.isExited = false) (hstep : childStep host cmds s 0 = some t)
    (hnext : a.next host cmds = some b) (hsim : Sim host cmds old b t) :
    Follows host cmds old a s := by
  refine ⟨some t, fun u => ?_, ?_⟩
  · rw [step_iff_childStep hpoint hchildren hlive, hstep]
  · rw [hnext]
    exact .some hsim

lemma follows_start : Follows host cmds old .start (Sys.initial old) := by
  refine follows_of_parentStep (b := .pipe 0 []) (by simp [Sys.initial]) rfl rfl ⟨?_, ?_⟩
  · have htables : Tables (Sys.initial old : Sys σ) := by
      refine ⟨rfl, rfl, ?_⟩
      rintro (_ | _ | _ | fd) pipe hfd
      · cases hfd
      · cases hfd
      · cases hfd
      · cases hfd
    refine .pipe rfl rfl (Nat.zero_le _) (htables.makePipe _).toTables fun _ => ?_
    rw [Supplied, if_pos rfl]
  · simp only [contents]
    rw [if_neg fun h => h.2 h.1.symm]
    rfl

lemma follows_pipe (hpoint : s.point = .pipe idx) (hchildren : s.children = [])
    (hidx : idx ≤ cmds.length) (htables : Tables s)
    (hsupplied : idx < cmds.length → Supplied s idx input)
    (hresult : s.resultOut = contents cmds.length old (.pipe idx input : Stage σ)) :
    Follows host cmds old (.pipe idx input) s := by
  by_cases hlt : idx < cmds.length
  · have hstep : parentStep host cmds s = some (s.makePipe (.fork idx)) := by
      simp [parentStep, hpoint, hlt]
    have hnext : Stage.next host cmds (.pipe idx input) = some (.fork idx input) := by
      simp [Stage.next, hlt]
    refine follows_of_parentStep (by simp [hchildren]) hstep hnext ⟨?_, ?_⟩
    · refine .fork rfl hchildren hlt (htables.makePipe _) ?_ ((hsupplied hlt).makePipe _)
      simp [Sys.makePipe]
    · refine hresult.trans ?_
      simp [contents, hlt.ne]
  · obtain rfl : idx = cmds.length := by omega
    have hstep : parentStep host cmds s = some s.finish := by
      simp [parentStep, hpoint]
    have hnext : Stage.next host cmds (.pipe cmds.length input) =
        some (.ended (if cmds = [] then none else some input)) := by
      simp [Stage.next]
    refine follows_of_parentStep (by simp [hchildren]) hstep hnext ⟨.ended rfl hchildren, ?_⟩
    refine hresult.trans ?_
    by_cases hcmds : cmds = []
    · simp [contents, hcmds]
    · simp [contents, hcmds]

lemma follows_fork (hpoint : s.point = .fork idx) (hchildren : s.children = [])
    (hidx : idx < cmds.length) (hpiped : Piped s pipe) (hempty : s.pipes[pipe]? = some [])
    (hsupplied : Supplied s idx input)
    (hresult : s.resultOut = contents cmds.length old (.fork idx input : Stage σ)) :
    Follows host cmds old (.fork idx input) s := by
  by_cases hfork : host.forks idx = true
  · have hstep : parentStep host cmds s = some (s.fork idx) := by
      simp [parentStep, hpoint, hfork]
    have hnext : Stage.next host cmds (.fork idx input) = some (.starting idx input) := by
      simp [Stage.next, hfork]
    refine follows_of_parentStep (by simp [hchildren]) hstep hnext ⟨?_, hresult⟩
    refine .starting rfl ?_ hidx (hpiped.congr rfl rfl) hempty hsupplied
    simp [Sys.fork, hchildren]
  · have hstep : parentStep host cmds s = some s.finish := by
      simp [parentStep, hpoint, hfork]
    have hnext : Stage.next host cmds (.fork idx input) = some (.ended none) := by
      simp [Stage.next, hfork]
    exact follows_of_parentStep (by simp [hchildren]) hstep hnext ⟨.ended rfl hchildren, hresult⟩

lemma follows_exited (hpoint : s.point = .wait idx) (hchildren : s.children = [.exited])
    (hidx : idx < cmds.length) (hpiped : Piped s pipe)
    (houtput : idx + 1 ≠ cmds.length → s.pipes[pipe]? = some input)
    (hresult : s.resultOut = contents cmds.length old (.exited idx input : Stage σ)) :
    Follows host cmds old (.exited idx input) s := by
  have hstep : parentStep host cmds s = some (s.reap idx 0) := by
    simp [parentStep, hpoint, Sys.wait, hchildren, Child.isExited]
  have hnext : Stage.next host cmds (.exited idx input) = some (.closing idx input) := rfl
  refine follows_of_parentStep (by simp [hchildren]) hstep hnext ⟨?_, hresult⟩
  refine .closing rfl ?_ hidx (hpiped.congr rfl rfl) houtput
  simp [Sys.reap, hchildren]

lemma follows_closing (hpoint : s.point = .close idx) (hchildren : s.children = [])
    (hidx : idx < cmds.length) (hpiped : Piped s pipe)
    (houtput : idx + 1 ≠ cmds.length → s.pipes[pipe]? = some input)
    (hresult : s.resultOut = contents cmds.length old (.closing idx input : Stage σ)) :
    Follows host cmds old (.closing idx input) s := by
  have hstep : parentStep host cmds s = some (s.closeWriting idx) := by
    simp [parentStep, hpoint]
  have hnext : Stage.next host cmds (.closing idx input) = some (.pipe (idx + 1) input) := rfl
  refine follows_of_parentStep (by simp [hchildren]) hstep hnext ⟨?_, ?_⟩
  · exact .pipe rfl hchildren hidx (hpiped.closeWriting idx) fun hlt =>
      hpiped.supplied idx (houtput hlt.ne)
  · refine hresult.trans ?_
    have hcmds : cmds.length ≠ 0 := by omega
    simp [contents, hcmds]

lemma follows_ended {output : Option (List UInt8)} (hpoint : s.point = .ended)
    (hchildren : s.children = []) : Follows host cmds old (.ended output) s := by
  refine ⟨none, fun t => ?_, .none⟩
  rw [step_iff_parentStep (by simp [hchildren])]
  simp [parentStep, hpoint]

lemma openResult_resultOut (hidx : idx < cmds.length)
    (hresult : s.resultOut = contents cmds.length old (.starting idx input : Stage σ)) :
    (s.openResult cmds.length idx).resultOut =
      if idx + 1 = cmds.length then some (overwritten old []) else old := by
  unfold Sys.openResult
  split_ifs with hother hlast hlast
  · omega
  · exact hresult
  · rw [hresult]
    simp [overwritten, contents]
  · omega

lemma follows_starting (hpoint : s.point = .wait idx)
    (hchildren : s.children = [.starting idx s.locals]) (hidx : idx < cmds.length)
    (hpiped : Piped s pipe) (hempty : s.pipes[pipe]? = some [])
    (hsupplied : Supplied s idx input)
    (hresult : s.resultOut = contents cmds.length old (.starting idx input : Stage σ)) :
    Follows host cmds old (.starting idx input) s := by
  have hopened := openResult_resultOut hidx hresult
  have hwrites := writes_childTable hidx hpiped hempty hsupplied
  have hreads := reads_childTable cmds.length hpiped hsupplied
  have hstep : childStep host cmds s 0 = some (s.startChild host cmds 0 idx s.locals) := by
    simp [childStep, hchildren]
  cases hexec : host.execvp (cmds.getD idx []) with
  | none =>
    have hnext : Stage.next host cmds (.starting idx input) = some (.exited idx []) := by
      simp only [Stage.next, hexec]
    refine follows_of_childStep hpoint hchildren rfl hstep hnext ?_
    simp only [Sys.startChild, hexec]
    rw [openResult_eq]
    refine ⟨.exited hpoint ?_ hidx (hpiped.congr rfl rfl) fun _ => hempty, hopened⟩
    simp [Sys.setChild, hchildren]
  | some process =>
    have hnext : Stage.next host cmds (.starting idx input) =
        some (.running idx ⟨process, input, []⟩) := by
      simp only [Stage.next, hexec]
    refine follows_of_childStep hpoint hchildren rfl hstep hnext ?_
    simp only [Sys.startChild, hexec]
    rw [openResult_eq] at hwrites ⊢
    refine ⟨.running ⟨hpoint, ?_, hidx, hpiped.congr rfl rfl, hreads, hwrites,
      room_nil idx process input⟩, hopened⟩
    simp [Sys.setChild, hchildren]

lemma Running.childStep (h : Running host cmds s idx pipe table c) :
    childStep host cmds s 0 = s.runChild host 0 table c.process := by
  simp [Pipeline.childStep, h.children]

/-- The child goes on running with the table it has. -/
lemma Running.follows {d : Config σ} {t : Sys σ} (h : Running host cmds s idx pipe table c)
    (hsolo : soloStep host c = some d)
    (hrun : s.runChild host 0 table c.process = some (t.setChild 0 (.running table d.process)))
    (hpoint : t.point = s.point) (hchildren : t.children = s.children)
    (hpiped : Piped t pipe) (hreads : Reads t table d.input)
    (hwrites : Writes cmds.length idx t table pipe d.output) (hroom : Room host cmds.length idx d)
    (hresult : t.resultOut = contents cmds.length old (.running idx d)) :
    Follows host cmds old (.running idx c) s := by
  have hnext : Stage.next host cmds (.running idx c) = some (.running idx d) := by
    rw [running_embeds idx c, hsolo]
    exact if_pos hroom
  refine follows_of_childStep h.point h.children rfl (h.childStep.trans hrun) hnext
    ⟨.running ⟨hpoint.trans h.point, ?_, h.lt, hpiped.congr rfl rfl, hreads, hwrites, hroom⟩,
      hresult⟩
  simp [Sys.setChild, hchildren, h.children]

lemma Running.follows_read {next : Option UInt8 → σ} (h : Running host cmds s idx pipe table c)
    (hresult : s.resultOut = contents cmds.length old (.running idx c))
    (haction : host.action c.process = .read next) :
    Follows host cmds old (.running idx c) s := by
  obtain ⟨pipes, hread, hlength, hothers, hrest⟩ := h.reads.read h.children
  have hsolo : soloStep host c = some ⟨next c.input.head?, c.input.tail, c.output⟩ := by
    simp only [soloStep, haction]
  have hrun : s.runChild host 0 table c.process = some (Sys.setChild { s with pipes := pipes } 0
      (.running table (next c.input.head?))) := by
    simp only [Sys.runChild, haction, hread]
    rfl
  have hwrites : Writes cmds.length idx { s with pipes := pipes } table pipe c.output := by
    have hwrites := h.writes
    unfold Writes at hwrites ⊢
    rw [hothers pipe h.piped.holds]
    exact hwrites
  exact h.follows hsolo hrun rfl rfl (h.piped.congr rfl hlength) (hrest _ rfl rfl) hwrites h.room
    hresult

lemma Running.follows_compute {next : σ} (h : Running host cmds s idx pipe table c)
    (hresult : s.resultOut = contents cmds.length old (.running idx c))
    (haction : host.action c.process = .compute next) :
    Follows host cmds old (.running idx c) s := by
  have hsolo : soloStep host c = some ⟨next, c.input, c.output⟩ := by
    simp only [soloStep, haction]
  have hrun : s.runChild host 0 table c.process = some (s.setChild 0 (.running table next)) := by
    simp only [Sys.runChild, haction]
  exact h.follows hsolo hrun rfl rfl h.piped h.reads h.writes h.room hresult

lemma Running.follows_exit (h : Running host cmds s idx pipe table c)
    (hresult : s.resultOut = contents cmds.length old (.running idx c))
    (haction : host.action c.process = .exit) : Follows host cmds old (.running idx c) s := by
  have hrun : s.runChild host 0 table c.process = some (s.setChild 0 .exited) := by
    simp only [Sys.runChild, haction]
  have hnext : Stage.next host cmds (.running idx c) = some (.exited idx c.output) := by
    rw [running_embeds idx c]
    simp only [soloStep, haction]
  refine follows_of_childStep h.point h.children rfl (h.childStep.trans hrun) hnext
    ⟨.exited h.point ?_ h.lt (h.piped.congr rfl rfl) fun hlast => ?_, hresult⟩
  · simp [Sys.setChild, h.children]
  · have hwrites := h.writes
    rw [Writes, if_neg hlast] at hwrites
    exact hwrites.2

lemma Running.follows_write_last {byte : UInt8} {next : σ}
    (h : Running host cmds s idx pipe table c) (hlast : idx + 1 = cmds.length)
    (hresult : s.resultOut = contents cmds.length old (.running idx c))
    (haction : host.action c.process = .write byte next) :
    Follows host cmds old (.running idx c) s := by
  have hwrites := h.writes
  rw [Writes, if_pos hlast] at hwrites
  obtain ⟨hone, hoffset⟩ := hwrites
  have hsolo : soloStep host c = some ⟨next, c.input, c.output ++ [byte]⟩ := by
    simp only [soloStep, haction]
  have hrun : s.runChild host 0 table c.process = some (Sys.setChild { s with
      resultOut := s.resultOut.map fun content => writeAt content s.offset byte
      offset := s.offset + 1 } 0 (.running table next)) := by
    simp only [Sys.runChild, haction, hone, Sys.write]
  refine h.follows hsolo hrun rfl rfl (h.piped.congr rfl rfl) h.reads ?_
    (fun hother => absurd hlast hother) ?_
  · rw [Writes, if_pos hlast]
    exact ⟨hone, by simp [hoffset]⟩
  · simp only [contents, if_pos hlast] at hresult ⊢
    rw [hresult, hoffset, Option.map_some, writeAt_overwritten]

/-- The pipe is full when the child has no room, and the parent waits for the child. -/
lemma Running.follows_write_pipe {byte : UInt8} {next : σ}
    (h : Running host cmds s idx pipe table c) (hother : idx + 1 ≠ cmds.length)
    (hresult : s.resultOut = contents cmds.length old (.running idx c))
    (haction : host.action c.process = .write byte next) :
    Follows host cmds old (.running idx c) s := by
  have hwrites := h.writes
  rw [Writes, if_neg hother] at hwrites
  obtain ⟨hone, hpipe⟩ := hwrites
  have hopen : s.isOpen (.readEnd pipe) = true := by
    rw [isOpen_iff h.children]
    exact .inl (holds_iff.mpr ⟨_, h.piped.reading⟩)
  have hget : s.pipes.getD pipe [] = c.output := by
    simp [hpipe]
  have hsolo : soloStep host c = some ⟨next, c.input, c.output ++ [byte]⟩ := by
    simp only [soloStep, haction]
  by_cases hfits : c.output.length < host.capacity
  · have hrun : s.runChild host 0 table c.process = some (Sys.setChild { s with
        pipes := s.pipes.modify pipe (· ++ [byte]) } 0 (.running table next)) := by
      simp only [Sys.runChild, haction, hone, Sys.write, hopen, hget, hfits, if_true]
    refine h.follows hsolo hrun rfl rfl (h.piped.congr rfl (by simp)) ?_ ?_ (fun _ => ?_) ?_
    · rcases h.reads with hstdin | ⟨source, hlookup, hsource, hclosed, hparent⟩
      · exact .inl hstdin
      · have hne : pipe ≠ source := by
          rintro rfl
          exact hparent h.piped.holds
        refine .inr ⟨source, hlookup, ?_, hclosed, hparent⟩
        simp [hne, hsource]
    · rw [Writes, if_neg hother]
      refine ⟨hone, ?_⟩
      simp [hpipe]
    · rw [List.length_append]
      exact hfits
    · simp only [contents, if_neg hother] at hresult ⊢
      exact hresult
  · have hnoroom : ¬ Room host cmds.length idx ⟨next, c.input, c.output ++ [byte]⟩ := by
      intro hroom
      have hle := hroom hother
      rw [List.length_append] at hle
      exact hfits hle
    have hnext : Stage.next host cmds (.running idx c) = none := by
      rw [running_embeds idx c, hsolo]
      exact if_neg hnoroom
    have hblocked : s.runChild host 0 table c.process = none := by
      simp only [Sys.runChild, haction, hone, Sys.write, hopen, hget, hfits, if_true, if_false]
    refine ⟨none, fun t => ?_, ?_⟩
    · rw [step_iff_childStep h.point h.children rfl, h.childStep, hblocked]
    · rw [hnext]
      exact .none

lemma Running.follows_action (h : Running host cmds s idx pipe table c)
    (hresult : s.resultOut = contents cmds.length old (.running idx c)) :
    Follows host cmds old (.running idx c) s := by
  cases haction : host.action c.process with
  | read next => exact h.follows_read hresult haction
  | write byte next =>
    by_cases hlast : idx + 1 = cmds.length
    · exact h.follows_write_last hlast hresult haction
    · exact h.follows_write_pipe hlast hresult haction
  | compute next => exact h.follows_compute hresult haction
  | exit => exact h.follows_exit hresult haction

end

/-- The processes do what the machine of the stages does. -/
theorem stages_describe (host : Host σ) (cmds : List Command) (old : Option (List UInt8)) :
    Describes (Stage.next host cmds) (Step host cmds) (Sim host cmds old) := by
  refine .of_unique fun {a s} hsim => ?_
  obtain ⟨hplaced, hresult⟩ := hsim
  cases hplaced with
  | start => exact follows_start
  | pipe hpoint hchildren hidx htables hsupplied =>
    exact follows_pipe hpoint hchildren hidx htables hsupplied hresult
  | fork hpoint hchildren hidx hpiped hempty hsupplied =>
    exact follows_fork hpoint hchildren hidx hpiped hempty hsupplied hresult
  | starting hpoint hchildren hidx hpiped hempty hsupplied =>
    exact follows_starting hpoint hchildren hidx hpiped hempty hsupplied hresult
  | running h => exact h.follows_action hresult
  | exited hpoint hchildren hidx hpiped houtput =>
    exact follows_exited hpoint hchildren hidx hpiped houtput hresult
  | closing hpoint hchildren hidx hpiped houtput =>
    exact follows_closing hpoint hchildren hidx hpiped houtput hresult
  | ended hpoint hchildren => exact follows_ended hpoint hchildren

end UnixProgramming.Pipeline
