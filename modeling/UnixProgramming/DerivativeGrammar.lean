import Mathlib

/-! The language of polynomials: terms `D`, `x`, `x^D`, `D*x` and `D*x^D`, joined by
signs, the first sign optional. The meaning of a text is a polynomial over the
integers. -/
namespace UnixProgramming.Derivative
open Polynomial

/-- A non-empty decimal number, leading zeros allowed. -/
structure Literal where
  digits : List Char
  nonempty : digits ≠ []
  decimal : ∀ c ∈ digits, c.isDigit = true

def Literal.value (d : Literal) : ℕ := Nat.ofDigitChars 10 d.digits 0

def Literal.ofNat (n : ℕ) : Literal :=
  ⟨Nat.toDigits 10 n, Nat.toDigits_ne_nil,
    fun _ hc => Nat.isDigit_of_mem_toDigits (by norm_num) le_rfl hc⟩

@[simp] lemma Literal.ofNat_value (n : ℕ) : (Literal.ofNat n).value = n :=
  Nat.ofDigitChars_ten_toDigits

inductive Body
  | constant (d : Literal)
  | x
  | power (e : Literal)
  | scaled (d : Literal)
  | scaledPower (d e : Literal)

structure Term where
  negative : Bool
  body : Body

def Body.text : Body → List Char
  | constant d => d.digits
  | x => ['x']
  | power e => 'x' :: '^' :: e.digits
  | scaled d => d.digits ++ ['*', 'x']
  | scaledPower d e => d.digits ++ '*' :: 'x' :: '^' :: e.digits

def Term.sign (t : Term) : Char := if t.negative then '-' else '+'

def Term.text (t : Term) : List Char := t.sign :: t.body.text

def signedText (ts : List Term) : List Char := ts.flatMap Term.text

/-- The text is a polynomial with these terms; a leading plus may be left out. -/
def Spells (s : List Char) (ts : List Term) : Prop :=
  ts ≠ [] ∧ (s = signedText ts ∨ '+' :: s = signedText ts)

def Body.coefficient? : Body → Option Literal
  | constant d => some d
  | x => none
  | power _ => none
  | scaled d => some d
  | scaledPower d _ => some d

def Body.hasX : Body → Bool
  | constant _ => false
  | _ => true

def Body.exponent? : Body → Option Literal
  | constant _ => none
  | x => none
  | power e => some e
  | scaled _ => none
  | scaledPower _ e => some e

def Body.literals (b : Body) : List Literal := b.coefficient?.toList ++ b.exponent?.toList

def Body.scale (b : Body) : ℕ := (b.coefficient?.map Literal.value).getD 1

/-- A missing exponent is one with an `x` and zero without. -/
def Body.exponent (b : Body) : ℕ :=
  (b.exponent?.map Literal.value).getD (if b.hasX then 1 else 0)

def Term.exponent (t : Term) : ℕ := t.body.exponent

def Term.coefficient (t : Term) : ℤ := if t.negative then -t.body.scale else t.body.scale

noncomputable def denote (ts : List Term) : ℤ[X] :=
  (ts.map fun t => monomial t.exponent t.coefficient).sum

def sumAt (ts : List Term) (e : ℕ) : ℤ :=
  ((ts.filter fun t => t.exponent = e).map Term.coefficient).sum

@[simp] lemma signedText_nil : signedText [] = [] := rfl

@[simp] lemma signedText_cons (t : Term) (ts : List Term) :
    signedText (t :: ts) = t.text ++ signedText ts := rfl

lemma signedText_append (ts us : List Term) :
    signedText (ts ++ us) = signedText ts ++ signedText us := List.flatMap_append

@[simp] lemma denote_nil : denote [] = 0 := rfl

@[simp] lemma denote_cons (t : Term) (ts : List Term) :
    denote (t :: ts) = monomial t.exponent t.coefficient + denote ts := rfl

@[simp] lemma sumAt_nil (e : ℕ) : sumAt [] e = 0 := rfl

lemma sumAt_cons (t : Term) (ts : List Term) (e : ℕ) :
    sumAt (t :: ts) e = (if t.exponent = e then t.coefficient else 0) + sumAt ts e := by
  by_cases h : t.exponent = e <;> simp [sumAt, h]

lemma written_or_sumAt_eq_zero (ts : List Term) (e : ℕ) :
    (∃ t ∈ ts, t.exponent = e) ∨ sumAt ts e = 0 := by
  by_cases h : ∃ t ∈ ts, t.exponent = e
  · exact Or.inl h
  · have hf : ts.filter (fun t => t.exponent = e) = [] :=
      List.filter_eq_nil_iff.mpr fun t ht => by simpa using fun he => h ⟨t, ht, he⟩
    exact Or.inr (by simp [sumAt, hf])

theorem coeff_denote (ts : List Term) (e : ℕ) : (denote ts).coeff e = sumAt ts e := by
  induction ts with
  | nil => simp
  | cons t ts ih => rw [denote_cons, coeff_add, coeff_monomial, ih, sumAt_cons]

lemma Body.text_ne_nil (b : Body) : b.text ≠ [] := by
  cases b with
  | constant d => exact d.nonempty
  | x => simp [text]
  | power e => simp [text]
  | scaled d => simp [text]
  | scaledPower d e => simp [text]

lemma Body.head_text {b : Body} {c : Char} (h : c ∈ b.text.head?) : c.isDigit = true ∨ c = 'x' := by
  have hdigits : ∀ (d : Literal) (s : List Char), c ∈ (d.digits ++ s).head? → c.isDigit = true := by
    intro d s hc
    rw [List.head?_append_of_ne_nil _ d.nonempty] at hc
    exact d.decimal c (List.mem_of_mem_head? hc)
  cases b with
  | constant d => exact Or.inl (hdigits d [] (by simpa [text] using h))
  | x =>
    have hx : 'x' = c := by simpa [text] using h
    exact Or.inr hx.symm
  | power e =>
    have hx : 'x' = c := by simpa [text] using h
    exact Or.inr hx.symm
  | scaled d => exact Or.inl (hdigits d _ h)
  | scaledPower d e => exact Or.inl (hdigits d _ h)

end UnixProgramming.Derivative
