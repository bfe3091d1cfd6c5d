import UnixProgramming.PipelineModel

/-! The loops before the pipeline: the tokens are split at the bars, and each command becomes
an argument vector for `execvp`. -/
namespace UnixProgramming.Pipeline

/-- `args` of one command; `none` stands for the null pointer. -/
def argumentVector (command : Command) : List (Option String) :=
  command.foldl (fun args str => args ++ [some str]) [] ++ [none]

def argumentVectors (commands : List Command) : List (List (Option String)) :=
  commands.foldl (fun cmds v => cmds ++ [argumentVector v]) []

/-- The commands found and the range after them are the parts between the bars. -/
lemma foldl_splitToken (tokens : List String) (found : List Command) (range : Command) :
    (tokens.foldl splitToken (found, range)).1 ++ [(tokens.foldl splitToken (found, range)).2] =
      found ++ (tokens.splitOn "|").modifyHead (range ++ ·) := by
  induction tokens generalizing found range with
  | nil => simp
  | cons token tokens ih =>
    rw [List.foldl_cons, List.splitOn_cons_eq_if_modifyHead]
    by_cases hbar : token = "|"
    · have hstep : splitToken (found, range) token = (found ++ [range], []) := if_pos hbar
      have hid : (fun x : Command => [] ++ x) = id := rfl
      rw [hstep, ih, hid, List.modifyHead_id]
      simp [hbar]
    · have hstep : splitToken (found, range) token = (found, range ++ [token]) := if_neg hbar
      rw [hstep, ih]
      simp [hbar, List.modifyHead_modifyHead, Function.comp_def]

lemma splitOn_eq (tokens : List String) : tokens.splitOn "|" =
    (tokens.foldl splitToken ([], [])).1 ++ [(tokens.foldl splitToken ([], [])).2] := by
  have hid : (fun x : Command => [] ++ x) = id := rfl
  rw [foldl_splitToken, hid, List.modifyHead_id]
  rfl

lemma notMem_foldl_splitToken (tokens : List String) {found : List Command} {range : Command}
    (hfound : ∀ cmd ∈ found, "|" ∉ cmd) (hrange : "|" ∉ range) :
    (∀ cmd ∈ (tokens.foldl splitToken (found, range)).1, "|" ∉ cmd) ∧
      "|" ∉ (tokens.foldl splitToken (found, range)).2 := by
  induction tokens generalizing found range with
  | nil => exact ⟨hfound, hrange⟩
  | cons token tokens ih =>
    rw [List.foldl_cons]
    by_cases hbar : token = "|"
    · have hstep : splitToken (found, range) token = (found ++ [range], []) := if_pos hbar
      rw [hstep]
      refine ih ?_ List.not_mem_nil
      intro cmd hcmd
      rcases List.mem_append.mp hcmd with hold | hnew
      · exact hfound cmd hold
      · rwa [List.mem_singleton.mp hnew]
    · have hstep : splitToken (found, range) token = (found, range ++ [token]) := if_neg hbar
      rw [hstep]
      refine ih hfound ?_
      simp [hrange, Ne.symm hbar]

lemma intercalate_append_singleton (sep : List String) (cmds : List Command) (last : Command) :
    sep.intercalate (cmds ++ [last]) = cmds.flatMap (· ++ sep) ++ last := by
  induction cmds with
  | nil => simp
  | cons cmd cmds ih =>
    rw [List.cons_append, List.intercalate_cons_of_ne_nil (by simp), ih]
    simp

lemma flatMap_append_sep (sep : List String) {cmds : List Command} (hne : cmds ≠ []) :
    cmds.flatMap (· ++ sep) = sep.intercalate cmds ++ sep := by
  rw [← List.dropLast_append_getLast hne, intercalate_append_singleton]
  simp

lemma splitCommands_of_ne_nil {tokens : List String}
    (h : (tokens.foldl splitToken ([], [])).2 ≠ []) :
    splitCommands tokens = tokens.splitOn "|" := (if_pos h).trans (splitOn_eq tokens).symm

lemma splitCommands_of_eq_nil {tokens : List String}
    (h : (tokens.foldl splitToken ([], [])).2 = []) :
    splitCommands tokens = (tokens.foldl splitToken ([], [])).1 := if_neg (not_not.mpr h)

/-- The loop over the tokens finds the commands between the bars again. -/
lemma splitCommands_intercalate {commands : List Command} (hne : commands ≠ [])
    (hcommands : ∀ cmd ∈ commands, cmd ≠ [] ∧ "|" ∉ cmd) :
    splitCommands (["|"].intercalate commands) = commands := by
  have hsplit : (["|"].intercalate commands).splitOn "|" = commands :=
    List.splitOn_intercalate "|" (fun cmd hmem => (hcommands cmd hmem).2) hne
  have hlast : ((["|"].intercalate commands).foldl splitToken ([], [])).2 ∈
      (["|"].intercalate commands).splitOn "|" := by
    rw [splitOn_eq]
    simp
  rw [hsplit] at hlast
  rw [splitCommands_of_ne_nil (hcommands _ hlast).1, hsplit]

lemma tokens_eq (tokens : List String) :
    tokens = (tokens.foldl splitToken ([], [])).1.flatMap (· ++ ["|"]) ++
      (tokens.foldl splitToken ([], [])).2 := by
  rw [← intercalate_append_singleton, ← splitOn_eq, List.intercalate_splitOn]

lemma notMem_splitCommands (tokens : List String) : ∀ cmd ∈ splitCommands tokens, "|" ∉ cmd := by
  obtain ⟨hfound, hrange⟩ := notMem_foldl_splitToken tokens (List.forall_mem_nil _)
    List.not_mem_nil
  by_cases hlast : (tokens.foldl splitToken ([], [])).2 = []
  · rw [splitCommands_of_eq_nil hlast]
    exact hfound
  · rw [splitCommands_of_ne_nil hlast, splitOn_eq]
    simpa [or_imp, forall_and] using And.intro hfound hrange

/-- The range after the last bar is dropped when it is empty, and the bar with it. -/
lemma intercalate_splitCommands (tokens : List String) :
    tokens = ["|"].intercalate (splitCommands tokens) ++
      (if tokens.getLast? = some "|" then ["|"] else []) := by
  have htokens := tokens_eq tokens
  by_cases hlast : (tokens.foldl splitToken ([], [])).2 = []
  · rw [splitCommands_of_eq_nil hlast]
    rw [hlast, List.append_nil] at htokens
    by_cases hempty : (tokens.foldl splitToken ([], [])).1 = []
    · rw [hempty] at htokens ⊢
      have hnil : tokens = [] := htokens
      simp [hnil]
    · rw [flatMap_append_sep ["|"] hempty] at htokens
      have hbar : tokens.getLast? = some "|" := by
        rw [htokens]
        simp
      rw [if_pos hbar]
      exact htokens
  · have hbar : tokens.getLast? ≠ some "|" := by
      rw [htokens, List.getLast?_append_of_ne_nil _ hlast]
      intro h
      exact (notMem_foldl_splitToken tokens (List.forall_mem_nil _) List.not_mem_nil).2
        (List.mem_of_getLast? h)
    rw [if_neg hbar, List.append_nil, splitCommands_of_ne_nil hlast, List.intercalate_splitOn]

lemma argumentVector_eq (command : Command) :
    argumentVector command = command.map some ++ [none] := by
  have hfold : ∀ args : List (Option String),
      command.foldl (fun args str => args ++ [some str]) args = args ++ command.map some := by
    induction command with
    | nil => simp
    | cons str command ih =>
      intro args
      rw [List.foldl_cons, ih]
      simp
  rw [argumentVector, hfold, List.nil_append]

lemma argumentVectors_eq (commands : List Command) :
    argumentVectors commands = commands.map argumentVector := by
  have hfold : ∀ cmds : List (List (Option String)),
      commands.foldl (fun cmds v => cmds ++ [argumentVector v]) cmds =
        cmds ++ commands.map argumentVector := by
    induction commands with
    | nil => simp
    | cons v commands ih =>
      intro cmds
      rw [List.foldl_cons, ih]
      simp
  rw [argumentVectors, hfold, List.nil_append]

/-- Nothing is lost or invented but one bar at the end of the tokens. -/
theorem splitCommands_lossless (tokens : List String) :
    (∀ cmd ∈ splitCommands tokens, "|" ∉ cmd) ∧
      tokens = ["|"].intercalate (splitCommands tokens) ++
        (if tokens.getLast? = some "|" then ["|"] else []) ∧
      argumentVectors (splitCommands tokens) =
        (splitCommands tokens).map fun cmd => cmd.map some ++ [none] := by
  refine ⟨notMem_splitCommands tokens, intercalate_splitCommands tokens, ?_⟩
  rw [argumentVectors_eq]
  exact List.map_congr_left fun cmd _ => argumentVector_eq cmd

end UnixProgramming.Pipeline
