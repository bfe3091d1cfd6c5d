import UnixProgramming.DerivativePrint
import UnixProgramming.PrefixSumBounds
import UnixProgramming.PrefixSumOverflow
import UnixProgramming.PrefixSumText

/-! `main` of `prefix_sum.cpp` with the files that it reads and writes. What a run writes is
an input of the next one. -/
namespace UnixProgramming.PrefixSum
open MachineInt StreamExtraction
open UnixProgramming.Derivative (Literal intText)

/-- How `main` ends without returning. -/
inductive Abort
  | lengthError
  | undefined (fault : Fault)
  deriving DecidableEq, Repr

/-- The messages that `main` prints before it returns early. -/
inductive Message
  | notEnoughArguments
  | firstArgumentNotInteger
  | inputFileNotFound
  | sizeNotInteger
  | elementNotInteger (i : ℕ)
  | outputFileFails
  deriving DecidableEq, Repr

def Message.text : Message → List Char
  | notEnoughArguments => "Error: Not enough arguments".toList
  | firstArgumentNotInteger => "Error: First argument isn't integer".toList
  | inputFileNotFound => "Error: Input file not found".toList
  | sizeNotInteger => "Error: N isn't integer".toList
  | elementNotInteger i =>
    "Error: Element ".toList ++ intText i ++ " isn't integer".toList
  | outputFileFails => "Error: Fail with output file".toList

abbrev Files := List Char → Option (List Char)

/-- What a run depends on besides its arguments and the files. -/
structure Run where
  order : Order
  writable : List Char → Bool
  sequentialMs : ℤ
  parallelMs : ℤ

def resultText (n : ℤ) (v : List ℤ) : List Char :=
  intText n ++ '\n' :: ((v.flatMap fun x => intText x ++ [' ']) ++ ['\n'])

def timeText (run : Run) (threadsCnt : ℤ) : List Char :=
  "Time: ".toList ++ intText run.sequentialMs ++ "ms\nTime (".toList ++ intText threadsCnt ++
    " thread".toList ++ (if threadsCnt > 1 then ['s'] else []) ++ "): ".toList ++
    intText run.parallelMs ++ "ms\n".toList

/-- What `main` prints once it has the elements, and the files after it. -/
def report (run : Run) (threadsCnt : ℤ) (a : List ℤ) (outputs : List (List Char))
    (files : Files) : Except Abort (List Char × Files) := do
  let _ ← (prefSum checkedAdd a).mapError Abort.undefined
  let prefParallelAlgorithm ←
    (prefSumParallelAlgorithm checkedAdd run.order a threadsCnt).mapError Abort.undefined
  let result := resultText a.length prefParallelAlgorithm
  match outputs with
  | [] => return (result ++ timeText run threadsCnt, files)
  | output :: _ =>
    if run.writable output then
      return (timeText run threadsCnt, Function.update files output (some result))
    else return (Message.outputFileFails.text, files)

def main (run : Run) (arguments : List (List Char)) (files : Files) :
    Except Abort (List Char × Files) :=
  match arguments with
  | convert :: input :: outputs =>
    match extractInt convert with
    | none => .ok (Message.firstArgumentNotInteger.text, files)
    | some (threadsCnt, _) =>
      match files input with
      | none => .ok (Message.inputFileNotFound.text, files)
      | some fin =>
        match readInput fin with
        | .error .sizeNotInteger => .ok (Message.sizeNotInteger.text, files)
        | .error .lengthError => .error .lengthError
        | .error (.elementNotInteger i) => .ok ((Message.elementNotInteger i).text, files)
        | .ok a => report run threadsCnt a outputs files
  | _ => .ok (Message.notEnoughArguments.text, files)

/-- Neither the indices nor the sums that are formed overflow. -/
def Fits (a : List ℤ) : Prop := a.length ≤ 2^30 ∧ ∀ s, StepFits a s

instance (a : List ℤ) (step : ℕ) : Decidable (StepFits a step) :=
  decidable_of_iff (∀ k < a.length, 2^step ≤ k → IsInt (windowSum a (2^(step + 1)) k))
    ⟨fun h k hle hlt => h k hlt hle, fun h k hlt hle => h k hle hlt⟩

/-- Only the steps before the length of the array matter. -/
instance (a : List ℤ) : Decidable (Fits a) :=
  decidable_of_iff (a.length ≤ 2^30 ∧ ∀ s < a.length, StepFits a s)
    ⟨fun ⟨hle, hfits⟩ => ⟨hle, fun s k hs hk =>
      hfits s ((Nat.lt_two_pow_self.trans_le hs).trans hk) k hs hk⟩,
      fun ⟨hle, hfits⟩ => ⟨hle, fun s _ => hfits s⟩⟩

end UnixProgramming.PrefixSum
