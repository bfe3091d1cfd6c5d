import UnixProgramming.ParallelFor

/-! `matrix_det.cpp` with exact arithmetic in place of `float`. The sequential and the
parallel elimination differ in how the pivot is searched and in the order in which the
entries are swapped and the rows are reduced. -/
namespace UnixProgramming.Determinant
open ParallelFor

variable {K : Type} [Field K] [LinearOrder K] {n T : ℕ}

/-- `for (int j = i + 1; j < n; j++)` -/
def after (i : Fin n) : List (Fin n) := (List.finRange n).filter (i < ·)

/-- `for (int j = i; j < n; j++)` -/
def startingAt (i : Fin n) : List (Fin n) := (List.finRange n).filter (i ≤ ·)

def larger (a : Matrix (Fin n) (Fin n) K) (i maxValueIndex j : Fin n) : Fin n :=
  if |a j i| > |a maxValueIndex i| then j else maxValueIndex

def assign (a : Matrix (Fin n) (Fin n) K) (j z : Fin n) (v : K) : Matrix (Fin n) (Fin n) K :=
  a.updateRow j (Function.update (a j) z v)

def swapAt (i maxValueIndex : Fin n) (a : Matrix (Fin n) (Fin n) K) (j : Fin n) :
    Matrix (Fin n) (Fin n) K :=
  assign (assign a i j (a maxValueIndex j)) maxValueIndex j (a i j)

/-- Exact division, which has no value at zero. -/
def divide (x y : K) : Option K := if y = 0 then none else some (x / y)

inductive Statement (n : ℕ)
  | divide (j : Fin n)
  | subtract (j z : Fin n)
  | clear (j : Fin n)

def execute (i : Fin n) (a : Matrix (Fin n) (Fin n) K) :
    Statement n → Option (Matrix (Fin n) (Fin n) K)
  | .divide j => (divide (a j i) (a i i)).map (assign a j i)
  | .subtract j z => some (assign a j z (a j z - a i z * a j i))
  | .clear j => some (assign a j i 0)

def reduceRow (i j : Fin n) : List (Statement n) :=
  .divide j :: ((after i).map (.subtract j) ++ [.clear j])

/-- The loop over the columns: the pivot is searched, a zero pivot ends the loop, the
pivot row is swapped up and the rows below are reduced. -/
def eliminate (search : Matrix (Fin n) (Fin n) K → Fin n → Fin n)
    (swaps : Fin n → List (Fin n)) (reductions : Fin n → List (Statement n)) :
    List (Fin n) → K → Matrix (Fin n) (Fin n) K → Option K
  | [], det, _ => some det
  | i :: is, det, a =>
    let maxValueIndex := search a i
    if a maxValueIndex i = 0 then some 0
    else
      let det := if maxValueIndex ≠ i then -det else det
      let a := if maxValueIndex ≠ i then (swaps i).foldl (swapAt i maxValueIndex) a else a
      (reductions i).foldlM (execute i) a >>=
        eliminate search swaps reductions is (det * a i i)

def searchPivot (a : Matrix (Fin n) (Fin n) K) (i : Fin n) : Fin n :=
  (after i).foldl (larger a i) i

def detWithoutOmp (a : Matrix (Fin n) (Fin n) K) : Option K :=
  eliminate searchPivot startingAt (fun i => (after i).flatMap (reduceRow i)) (List.finRange n) 1 a

/-- The freedom of `T` threads in one column: which thread looks at which row, the order
in which the threads enter the critical section, and the executions of the two parallel
loops. -/
structure Schedule (T : ℕ) (i : Fin n) where
  searcher : Fin n → Fin T
  critical : List (Fin T)
  critical_perm : critical.Perm (List.finRange T)
  swaps : Execution T (startingAt i) (fun j => [j])
  reductions : Execution T (after i) (reduceRow i)

def searchLocal (a : Matrix (Fin n) (Fin n) K) (i : Fin n) (searcher : Fin n → Fin T) (t : Fin T) :
    Fin n :=
  ((after i).filter (fun j => searcher j = t)).foldl (larger a i) i

/-- The critical sections, in the order of the schedule. -/
def searchPivotOmp (schedule : ∀ i : Fin n, Schedule T i) (a : Matrix (Fin n) (Fin n) K)
    (i : Fin n) : Fin n :=
  (schedule i).critical.foldl
    (fun maxValueIndex t => larger a i maxValueIndex (searchLocal a i (schedule i).searcher t)) i

def detWithOmp (schedule : ∀ i : Fin n, Schedule T i) (a : Matrix (Fin n) (Fin n) K) : Option K :=
  eliminate (searchPivotOmp schedule) (fun i => (schedule i).swaps.actions)
    (fun i => (schedule i).reductions.actions) (List.finRange n) 1 a

end UnixProgramming.Determinant
