import UnixProgramming.PipelineCommands
import UnixProgramming.PipelineRefinement

/-! What the shell does as a whole: when its processes never block each other, and what it
leaves in `result.out`. -/
namespace UnixProgramming.Pipeline

variable {σ : Type*} {host : Host σ} {cmds : List Command} {old : Option (List UInt8)}

lemma Sim.ended_iff {a : Stage σ} {s : Sys σ} (h : Sim host cmds old a s) :
    s.point = .ended ↔ a.IsEnded := by
  obtain ⟨hplaced, -⟩ := h
  cases hplaced with
  | start => exact iff_of_false nofun nofun
  | pipe hpoint => exact iff_of_false (by simp [hpoint]) nofun
  | fork hpoint => exact iff_of_false (by simp [hpoint]) nofun
  | starting hpoint => exact iff_of_false (by simp [hpoint]) nofun
  | running h => exact iff_of_false (by simp [h.point]) nofun
  | exited hpoint => exact iff_of_false (by simp [hpoint]) nofun
  | closing hpoint => exact iff_of_false (by simp [hpoint]) nofun
  | ended hpoint => exact iff_of_true hpoint (.ended _)

lemma exists_stage {s : Sys σ} (h : Reachable host cmds old s) :
    ∃ a, Runs (Stage.next host cmds) .start a ∧ Sim host cmds old a s :=
  (stages_describe host cmds old).runs_backward (sim_initial old) h

/-- Some process can always take a step before the end exactly when every command but the last
writes no more than a pipe holds. -/
theorem never_blocks_iff (host : Host σ) (cmds : List Command) (old : Option (List UInt8)) :
    (∀ s, Reachable host cmds old s → s.point ≠ .ended → ∃ t, Step host cmds s t) ↔
      Fits host 0 [] cmds := by
  have hdescribes := stages_describe host cmds old
  rw [← neverStuck_start_iff]
  constructor
  · intro h a hrun ha
    obtain ⟨s, hs, hsim⟩ := hdescribes.runs_forward (sim_initial old) hrun
    rw [← hdescribes.steps_iff hsim]
    exact h s hs (mt hsim.ended_iff.mp ha)
  · intro h s hs hended
    obtain ⟨a, hrun, hsim⟩ := exists_stage hs
    rw [hdescribes.steps_iff hsim]
    exact h a hrun (mt hsim.ended_iff.mpr hended)

/-- Every command writes two bytes, and a pipe holds one. -/
def twoBytes : Host (List UInt8) where
  execvp _ := some [1, 2]
  action
    | [] => .exit
    | byte :: rest => .write byte rest
  forks _ := true
  capacity := 1

theorem blocks_on_two_bytes :
    ∃ s, Reachable twoBytes [["yes"], ["head"]] none s ∧ s.point ≠ .ended ∧
      ¬ ∃ t, Step twoBytes [["yes"], ["head"]] s t := by
  have hrun : Runs (Stage.next twoBytes [["yes"], ["head"]]) .start
      (.running 0 ⟨[2], [], [1]⟩) := by
    refine .head (b := .pipe 0 []) rfl ?_
    refine .head (b := .fork 0 []) rfl ?_
    refine .head (b := .starting 0 []) rfl ?_
    refine .head (b := .running 0 ⟨[1, 2], [], []⟩) rfl ?_
    exact .single rfl
  have hdescribes := stages_describe twoBytes [["yes"], ["head"]] none
  obtain ⟨s, hs, hsim⟩ := hdescribes.runs_forward (sim_initial none) hrun
  refine ⟨s, hs, mt hsim.ended_iff.mp nofun, ?_⟩
  rw [hdescribes.steps_iff hsim]
  decide

/-- The commands as functions of their input, each one applied to what the one before it
writes. -/
def composition (f : Command → List UInt8 → List UInt8) (commands : List Command)
    (input : List UInt8) : List UInt8 :=
  commands.foldl (fun input cmd => f cmd input) input

/-- The shell always comes to its end, and then `result.out` holds this. -/
def EndsWith (host : Host σ) (cmds : List Command) (old : Option (List UInt8))
    (result : List UInt8) : Prop :=
  (∀ s, Reachable host cmds old s →
    ∃ t, Relation.ReflTransGen (Step host cmds) s t ∧ t.point = .ended) ∧
  ∀ s, Reachable host cmds old s → s.point = .ended → s.resultOut = some result

lemma output_mono {c d : Config σ} (hrun : Runs (soloStep host) c d) :
    c.output.length ≤ d.output.length := by
  induction hrun with
  | refl => rfl
  | @tail d e _ hnext ih =>
    refine ih.trans ?_
    unfold soloStep at hnext
    split at hnext
    · cases hnext
      rfl
    · cases hnext
      simp
    · cases hnext
      rfl
    · cases hnext

lemma runs_starting {idx : ℕ} {cmd : Command} {input output : List UInt8}
    (hcmd : cmds.getD idx [] = cmd) (houtput : Outputs host cmd input output)
    (hfits : idx + 1 ≠ cmds.length → output.length ≤ host.capacity) :
    Runs (Stage.next host cmds) (.starting idx input) (.pipe (idx + 1) output) := by
  have hclose : Runs (Stage.next host cmds) (.exited idx output) (.pipe (idx + 1) output) :=
    .head (b := .closing idx output) rfl (.single rfl)
  cases hexec : host.execvp cmd with
  | none =>
    simp only [Outputs, hexec] at houtput
    subst houtput
    have hnext : Stage.next host cmds (.starting idx input) = some (.exited idx []) := by
      simp only [Stage.next, hcmd, hexec]
    exact hclose.head hnext
  | some process =>
    simp only [Outputs, hexec] at houtput
    obtain ⟨c, hrun, hlast, rfl⟩ := houtput
    have hnext : Stage.next host cmds (.starting idx input) =
        some (.running idx ⟨process, input, []⟩) := by
      simp only [Stage.next, hcmd, hexec]
    have hleave : Runs (Stage.next host cmds) (.running idx ⟨process, input, []⟩)
        (.exited idx c.output) :=
      (running_embeds idx).runs_leave hrun hlast fun d hd hother =>
        (output_mono (hrun.to_last hlast hd)).trans (hfits hother)
    exact (hleave.trans hclose).head hnext

lemma runs_pipe (f : Command → List UInt8 → List UInt8) (rest : List Command) (idx : ℕ)
    (input : List UInt8) (hrest : cmds.drop idx = rest) (hne : cmds ≠ [])
    (hforks : ∀ i, host.forks i = true)
    (hcompute : ∀ cmd ∈ rest, ∀ input, Outputs host cmd input (f cmd input))
    (hfits : ∀ k < rest.length, (composition f (rest.take k) input).length ≤ host.capacity) :
    Runs (Stage.next host cmds) (.pipe idx input)
      (.ended (some (composition f rest input))) := by
  induction rest generalizing idx input with
  | nil =>
    have hidx : ¬ idx < cmds.length := by
      rw [not_lt]
      exact List.drop_eq_nil_iff.mp hrest
    refine .single ?_
    simp [Stage.next, hidx, hne, composition]
  | cons cmd rest ih =>
    obtain ⟨hidx, hcmd, htail⟩ := of_drop_eq_cons hrest
    have hlast : idx + 1 ≠ cmds.length → rest ≠ [] := by
      intro hother
      rw [← htail, ne_eq, List.drop_eq_nil_iff]
      omega
    have hfork : Stage.next host cmds (.pipe idx input) = some (.fork idx input) := by
      simp [Stage.next, hidx]
    have hstarting : Stage.next host cmds (.fork idx input) = some (.starting idx input) := by
      simp [Stage.next, hforks]
    have hone : idx + 1 ≠ cmds.length → (f cmd input).length ≤ host.capacity := by
      intro hother
      have hpos := List.length_pos_iff.mpr (hlast hother)
      exact hfits 1 (by simpa using hpos)
    have hrun := runs_starting hcmd (hcompute cmd (by simp) input) hone
    have hnext := ih (idx + 1) (f cmd input) htail
      (fun cmd' hmem => hcompute cmd' (List.mem_cons_of_mem _ hmem))
      fun k hk => hfits (k + 1) (by simpa using hk)
    exact .head hfork (.head hstarting (hrun.trans hnext))

lemma endsWith_of_runs {output : List UInt8} (old : Option (List UInt8))
    (hrun : Runs (Stage.next host cmds) .start (.ended (some output))) :
    EndsWith host cmds old (overwritten old output) := by
  constructor
  · intro s hs
    obtain ⟨a, ha, hsim⟩ := exists_stage hs
    have hrest := hrun.to_last rfl ha
    obtain ⟨t, ht, hended⟩ := (stages_describe host cmds old).runs_forward hsim hrest
    exact ⟨t, ht, hended.ended_iff.mpr (.ended _)⟩
  · intro s hs hpoint
    obtain ⟨a, ha, hsim⟩ := exists_stage hs
    obtain ⟨output'⟩ := hsim.ended_iff.mp hpoint
    have heq := hrun.eq_last rfl ha rfl
    rw [heq] at hsim
    exact hsim.resultOut

lemma EndsWith.unique {result result' : List UInt8} (h : EndsWith host cmds old result)
    (h' : EndsWith host cmds old result') : result = result' := by
  obtain ⟨s, hs, hpoint⟩ := h.1 (Sys.initial old) .refl
  exact Option.some.inj ((h.2 s hs hpoint).symm.trans (h'.2 s hs hpoint))

lemma overwritten_eq_iff (old : Option (List UInt8)) (output : List UInt8) :
    overwritten old output = output ↔ (old.getD []).length ≤ output.length := by
  simp [overwritten]

lemma endsWith_overwritten (f : Command → List UInt8 → List UInt8) (commands : List Command)
    (old : Option (List UInt8)) (hne : commands ≠ [])
    (hcommands : ∀ cmd ∈ commands, cmd ≠ [] ∧ "|" ∉ cmd)
    (hforks : ∀ idx, host.forks idx = true)
    (hcompute : ∀ cmd ∈ commands, ∀ input, Outputs host cmd input (f cmd input))
    (hfits : ∀ k < commands.length,
      (composition f (commands.take k) []).length ≤ host.capacity) :
    EndsWith host (splitCommands (["|"].intercalate commands)) old
      (overwritten old (composition f commands [])) := by
  rw [splitCommands_intercalate hne hcommands]
  have hrun := runs_pipe f commands 0 [] rfl hne hforks hcompute hfits
  exact endsWith_of_runs old (.head (b := .pipe 0 []) rfl hrun)

/-- When no output but the last is larger than a pipe, `result.out` holds the output of the
composition exactly when it held no more bytes before. -/
theorem result_eq_composition_iff (host : Host σ) (f : Command → List UInt8 → List UInt8)
    (commands : List Command) (old : Option (List UInt8)) (hne : commands ≠ [])
    (hcommands : ∀ cmd ∈ commands, cmd ≠ [] ∧ "|" ∉ cmd)
    (hforks : ∀ idx, host.forks idx = true)
    (hcompute : ∀ cmd ∈ commands, ∀ input, Outputs host cmd input (f cmd input))
    (hfits : ∀ k < commands.length,
      (composition f (commands.take k) []).length ≤ host.capacity) :
    EndsWith host (splitCommands (["|"].intercalate commands)) old (composition f commands []) ↔
      (old.getD []).length ≤ (composition f commands []).length := by
  have hends := endsWith_overwritten f commands old hne hcommands hforks hcompute hfits
  rw [← overwritten_eq_iff]
  constructor
  · intro h
    exact hends.unique h
  · intro h
    rwa [h] at hends

/-- A command that reads its whole input before it writes. -/
inductive Filter
  | reading (cmd : Command) (seen : List UInt8)
  | writing (rest : List UInt8)

def filters (f : Command → List UInt8 → List UInt8) (capacity : ℕ) : Host Filter where
  execvp cmd := some (.reading cmd [])
  action
    | .reading cmd seen => .read fun
      | some byte => .reading cmd (seen ++ [byte])
      | none => .writing (f cmd seen)
    | .writing [] => .exit
    | .writing (byte :: rest) => .write byte (.writing rest)
  forks _ := true
  capacity := capacity

lemma runs_reading (f : Command → List UInt8 → List UInt8) (capacity : ℕ) (cmd : Command)
    (seen input : List UInt8) :
    Runs (soloStep (filters f capacity)) ⟨.reading cmd seen, input, []⟩
      ⟨.writing (f cmd (seen ++ input)), [], []⟩ := by
  induction input generalizing seen with
  | nil =>
    rw [List.append_nil]
    exact .single rfl
  | cons byte rest ih =>
    have hrest := ih (seen ++ [byte])
    rw [List.append_assoc, List.singleton_append] at hrest
    exact .head (b := ⟨.reading cmd (seen ++ [byte]), rest, []⟩) rfl hrest

lemma runs_writing (f : Command → List UInt8 → List UInt8) (capacity : ℕ)
    (output rest : List UInt8) :
    Runs (soloStep (filters f capacity)) ⟨.writing rest, [], output⟩
      ⟨.writing [], [], output ++ rest⟩ := by
  induction rest generalizing output with
  | nil =>
    rw [List.append_nil]
    exact .refl
  | cons byte rest ih =>
    have hrest := ih (output ++ [byte])
    rw [List.append_assoc, List.singleton_append] at hrest
    exact .head (b := ⟨.writing rest, [], output ++ [byte]⟩) rfl hrest

lemma outputs_filters (f : Command → List UInt8 → List UInt8) (capacity : ℕ) (cmd : Command)
    (input : List UInt8) : Outputs (filters f capacity) cmd input (f cmd input) :=
  ⟨⟨.writing [], [], f cmd input⟩,
    (runs_reading f capacity cmd [] input).trans (runs_writing f capacity [] (f cmd input)),
    rfl, rfl⟩

def whoCat (cmd : Command) (input : List UInt8) : List UInt8 :=
  if cmd = ["who"] then [98, 111, 120, 10] else input

theorem result_eq_composition_short :
    EndsWith (filters whoCat 4) (splitCommands ["who", "|", "cat", "-"]) (some [49, 10])
      [98, 111, 120, 10] :=
  (result_eq_composition_iff (filters whoCat 4) whoCat [["who"], ["cat", "-"]] (some [49, 10])
    (by decide) (by decide) (fun _ => rfl) (fun cmd _ => outputs_filters whoCat 4 cmd)
    (by decide)).mpr (by decide)

theorem result_keeps_longer_tail :
    ¬ EndsWith (filters whoCat 4) (splitCommands ["who", "|", "cat", "-"])
      (some [49, 50, 51, 52, 53, 10]) [98, 111, 120, 10] := by
  have hends : EndsWith (filters whoCat 4) (splitCommands ["who", "|", "cat", "-"])
      (some [49, 50, 51, 52, 53, 10]) [98, 111, 120, 10, 53, 10] :=
    endsWith_overwritten whoCat [["who"], ["cat", "-"]] (some [49, 50, 51, 52, 53, 10])
      (by decide) (by decide) (fun _ => rfl)
      (fun cmd _ => outputs_filters whoCat 4 cmd) (by decide)
  intro h
  exact absurd (hends.unique h) (by decide)

end UnixProgramming.Pipeline
