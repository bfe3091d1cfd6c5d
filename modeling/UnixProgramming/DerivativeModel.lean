import UnixProgramming.MachineInt
import UnixProgramming.OrderedMap
import UnixProgramming.RegexSearch

/-! `derivative` of `containers.cpp`: a polynomial is read with a regular expression,
like terms are collected in a map from exponents to coefficients, and the derivative
is printed from the highest exponent down. Strings are lists of characters. -/
namespace UnixProgramming.Derivative
open MachineInt RegexSearch

/-- How a call can fail. The first three are exceptions of the standard library;
signed overflow is undefined behaviour. -/
inductive Fault
  | emptyString
  | stoiInvalid
  | stoiRange
  | intOverflow
  deriving DecidableEq, Repr

/-- `std::stoi` on a text without sign or white space. -/
def stoi (str : List Char) : Except Fault ℤ :=
  let digits := str.takeWhile Char.isDigit
  if digits = [] then .error .stoiInvalid
  else if IsInt (Nat.ofDigitChars 10 digits 0) then .ok (Nat.ofDigitChars 10 digits 0)
  else .error .stoiRange

def intText (z : ℤ) : List Char :=
  if z < 0 then '-' :: Nat.toDigits 10 z.natAbs else Nat.toDigits 10 z.natAbs

def stringToInt (str : List Char) (defaultValue : ℤ) : Except Fault ℤ :=
  if str ≠ [] then stoi str else .ok defaultValue

def appendIf (str : List Char) (condition : Bool) (suffix : List Char) : List Char :=
  if condition then str ++ suffix else str

/-- The pattern `(\+|-)(\d*)\*?(x?)\^?(\d*)`. -/
def reg : Pattern :=
  .seq (.group (.alt (.char (· = '+')) (.char (· = '-'))))
    (.seq (.group (.star Char.isDigit))
      (.seq (.opt (.char (· = '*')))
        (.seq (.group (.opt (.char (· = 'x'))))
          (.seq (.opt (.char (· = '^'))) (.group (.star Char.isDigit))))))

def str (m : List (List Char)) (group : ℕ) : List Char := m.getD (group - 1) []

def applySign (sign : List Char) (constant : ℤ) : Except Fault ℤ :=
  if sign = ['-'] then checked Fault.intOverflow (constant * -1) else .ok constant

def collect (constantByPow : OrderedMap ℤ ℤ) (m : List (List Char)) :
    Except Fault (OrderedMap ℤ ℤ) := do
  let constant ← stringToInt (str m 2) 1
  let constant ← applySign (str m 1) constant
  let minPow := if str m 3 ≠ [] then 1 else 0
  let pow ← stringToInt (str m 4) minPow
  let sum ← checked Fault.intOverflow (constantByPow.getD pow 0 + constant)
  return constantByPow.set pow sum

/-- `add_x && std::abs(constant) == 1`, evaluated from the left. -/
def isUnit (addX : Bool) (constant : ℤ) : Except Fault Bool :=
  if addX then (checked Fault.intOverflow |constant|).map (fun a => decide (a = 1)) else .ok false

def print (result : List Char) (entry : ℤ × ℤ) : Except Fault (List Char) :=
  if entry.1 = 0 then pure result
  else do
    let pow ← checked Fault.intOverflow (entry.1 - 1)
    let constant ← checked Fault.intOverflow (entry.1 * entry.2)
    let addX := decide (pow > 0)
    let unit ← isUnit addX constant
    let addConstant := !unit
    let result := appendIf result (decide (constant ≥ 0) && decide (result ≠ [])) ['+']
    let result := appendIf result addConstant (intText constant)
    if addX then
      let result := appendIf result addConstant ['*'] ++ ['x']
      pure (appendIf result (decide (pow > 1)) ('^' :: intText pow))
    else pure result

/-- The sign that the pattern expects in front of the first term. -/
def withSign (polynomial : List Char) : Except Fault (List Char) :=
  match polynomial with
  | [] => .error .emptyString
  | c :: cs => if c ≠ '-' ∧ c ≠ '+' then .ok ('+' :: c :: cs) else .ok (c :: cs)

def derivative (polynomial : List Char) : Except Fault (List Char) := do
  let polynomial ← withSign polynomial
  let constantByPow ← (findAll reg polynomial).foldlM collect OrderedSet.empty
  constantByPow.elems.reverse.foldlM print []

end UnixProgramming.Derivative
