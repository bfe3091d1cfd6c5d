import UnixProgramming.MachineInt

/-! `prefix_sum.cpp`: prefix sums by doubling. The addition of the elements is a
parameter, so that it can wrap around or fail on overflow; the index arithmetic is that
of `int`. -/
namespace UnixProgramming.PrefixSum
open MachineInt

/-- What is undefined behaviour in the source. -/
inductive Fault
  | intOverflow
  | shiftTooFar
  | outOfBounds
  deriving DecidableEq, Repr

variable {α : Type}

def element (v : List α) (j : ℤ) : Except Fault α :=
  if 0 ≤ j then
    match v[j.toNat]? with
    | some x => .ok x
    | none => .error .outOfBounds
  else .error .outOfBounds

/-- `1 << step`, which wraps to the least `int` at 31 and is undefined from 32 on. -/
def shiftOne (step : ℕ) : ℤ := toInt (2^step)

def addShifted (add : α → α → Except Fault α) (prevPrefSum : List α) (shift : ℤ)
    (curPrefSum : List α) (i : ℕ) : Except Fault (List α) := do
  let j ← checked Fault.intOverflow (i + shift)
  let x ← element curPrefSum j
  let y ← element prevPrefSum i
  let z ← add x y
  return curPrefSum.set j.toNat z

/-- The loop over the steps. The iterations of the inner loop are run in the given
order. -/
def doubling (add : α → α → Except Fault α) (order : ℕ → ℕ → List ℕ) (n : ℤ) (step : ℕ)
    (prevPrefSum curPrefSum : List α) : Except Fault (List α) :=
  if step < 32 then
    if shiftOne step < n then do
      let bound ← checked Fault.intOverflow (n - shiftOne step)
      let curPrefSum ←
        (order step bound.toNat).foldlM (addShifted add prevPrefSum (shiftOne step)) curPrefSum
      doubling add order n (step + 1) curPrefSum curPrefSum
    else .ok curPrefSum
  else .error .shiftTooFar
termination_by 32 - step

def prefSum (add : α → α → Except Fault α) (a : List α) : Except Fault (List α) :=
  doubling add (fun _ bound => List.range bound) (toInt a.length) 0 a a

/-- The orders in which the iterations of the inner loop may be executed, one for each
step. -/
structure Order where
  order : ℕ → ℕ → List ℕ
  perm : ∀ step bound, (order step bound).Perm (List.range bound)

def prefSumParallelAlgorithm (add : α → α → Except Fault α) (o : Order) (a : List α)
    (_threadsCnt : ℤ) : Except Fault (List α) :=
  doubling add o.order (toInt a.length) 0 a a

def wrapAdd (x y : BitVec 32) : Except Fault (BitVec 32) := .ok (x + y)

end UnixProgramming.PrefixSum
