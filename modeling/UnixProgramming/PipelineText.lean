import UnixProgramming.PipelineCommands
import UnixProgramming.StreamExtraction

/-! The text that `bash_commands.cpp` reads, up to the commands that it runs. -/
namespace UnixProgramming.Pipeline
open StreamExtraction

/-- `std::copy` from `std::cin` to the tokens. -/
def readTokens (input : List Char) : List String := (words input).map String.ofList

def readCommands (input : List Char) : List Command := splitCommands (readTokens input)

/-- The text is made of these tokens. -/
def Lists (input : List Char) (tokens : List String) : Prop :=
  Spaced input (tokens.map String.toList)

lemma readTokens_eq_iff {input : List Char} {tokens : List String} :
    readTokens input = tokens ↔ Lists input tokens := by
  rw [Lists, ← words_eq_iff, readTokens]
  constructor
  · rintro rfl
    simp [Function.comp_def]
  · intro h
    simp [h, Function.comp_def]

/-- A bar at the end of the tokens changes nothing when it follows a command. -/
lemma splitCommands_bar (tokens : List String) :
    splitCommands (tokens ++ ["|"]) = tokens.splitOn "|" := by
  rw [splitOn_eq, splitCommands]
  simp [splitToken]

lemma splitOn_ne_nil (tokens : List String) : tokens.splitOn "|" ≠ [] := by
  rw [splitOn_eq]
  simp

/-- Without a bar at the end the last command is not empty. -/
lemma getLast?_splitCommands {tokens : List String} (h : tokens.getLast? ≠ some "|") :
    (splitCommands tokens).getLast? ≠ some [] := by
  intro hlast
  obtain ⟨init, hinit⟩ := List.getLast?_eq_some_iff.mp hlast
  have htokens := intercalate_splitCommands tokens
  rw [if_neg h, List.append_nil, hinit, intercalate_append_singleton, List.append_nil] at htokens
  by_cases hempty : init = []
  · rw [hempty, List.flatMap_nil] at htokens
    rw [htokens] at hinit
    cases init with
    | nil => cases hinit
    | cons cmd init => cases hempty
  · rw [flatMap_append_sep ["|"] hempty] at htokens
    rw [htokens] at h
    simp at h

lemma splitCommands_intercalate_of_last {commands : List Command}
    (hcommands : ∀ cmd ∈ commands, "|" ∉ cmd) (hlast : commands.getLast? ≠ some []) :
    splitCommands (["|"].intercalate commands) = commands := by
  by_cases hne : commands = []
  · rw [hne]
    rfl
  · have hsplit := List.splitOn_intercalate "|" hcommands hne
    have hfound := splitOn_eq (["|"].intercalate commands)
    rw [hsplit] at hfound
    rw [splitCommands_of_ne_nil, hsplit]
    intro hrange
    rw [hrange] at hfound
    rw [hfound] at hlast
    simp at hlast

/-- The program gets these commands exactly from the texts that are made of their tokens with
bars in between, and perhaps one more after the last command, which may be empty only then. -/
theorem readCommands_iff {input : List Char} {commands : List Command} :
    readCommands input = commands ↔ (∀ cmd ∈ commands, "|" ∉ cmd) ∧
      (Lists input (["|"].intercalate commands) ∧ commands.getLast? ≠ some [] ∨
        Lists input (["|"].intercalate commands ++ ["|"]) ∧ commands ≠ []) := by
  constructor
  · rintro rfl
    refine ⟨notMem_splitCommands _, ?_⟩
    have htokens := intercalate_splitCommands (readTokens input)
    by_cases hbar : (readTokens input).getLast? = some "|"
    · right
      rw [if_pos hbar] at htokens
      refine ⟨readTokens_eq_iff.mp htokens, ?_⟩
      obtain ⟨tokens, hinput⟩ := List.getLast?_eq_some_iff.mp hbar
      rw [readCommands, hinput, splitCommands_bar]
      exact splitOn_ne_nil tokens
    · left
      rw [if_neg hbar, List.append_nil] at htokens
      exact ⟨readTokens_eq_iff.mp htokens, getLast?_splitCommands hbar⟩
  · rintro ⟨hcommands, ⟨hlists, hlast⟩ | ⟨hlists, hne⟩⟩
    · rw [readCommands, readTokens_eq_iff.mpr hlists]
      exact splitCommands_intercalate_of_last hcommands hlast
    · rw [readCommands, readTokens_eq_iff.mpr hlists, splitCommands_bar]
      exact List.splitOn_intercalate "|" hcommands hne

end UnixProgramming.Pipeline
