import Mathlib

/-! Fixed-width integers. A signed 32-bit value is kept as an integer together with the range
test, an unsigned 64-bit value as a natural number below its modulus. Conversions reduce
modulo the width, as C++20 defines them; a signed operation whose result leaves the range
ends a computation with a fault. -/
namespace UnixProgramming.MachineInt

def IsInt (z : ℤ) : Prop := -2^31 ≤ z ∧ z ≤ 2^31 - 1

instance (z : ℤ) : Decidable (IsInt z) := inferInstanceAs (Decidable (_ ∧ _))

def toInt (z : ℤ) : ℤ := z.bmod (2^32)

def toSize (z : ℤ) : ℕ := (z % 2^64).toNat

lemma toInt_of_isInt {z : ℤ} (h : IsInt z) : toInt z = z := by
  obtain ⟨hl, hr⟩ := h
  apply Int.bmod_eq_of_le <;> norm_num at * <;> omega

lemma toInt_natCast {n : ℕ} (h : n < 2^31) : toInt n = n := by
  apply toInt_of_isInt
  norm_num at h
  constructor <;> omega

lemma toSize_natCast {n : ℕ} (h : n < 2^64) : toSize n = n := by
  unfold toSize
  norm_num at *
  omega

lemma isInt_of_abs_le {z : ℤ} (h : |z| ≤ 2^31 - 1) : IsInt z := by
  obtain ⟨hl, hr⟩ := abs_le.mp h
  constructor <;> omega

section Faults

variable {ε α β : Type} {overflow : ε}

def checked (overflow : ε) (z : ℤ) : Except ε ℤ := if IsInt z then .ok z else .error overflow

lemma checked_of_isInt {z : ℤ} (h : IsInt z) : checked overflow z = .ok z := if_pos h

lemma checked_eq_ok {z w : ℤ} (h : checked overflow z = .ok w) : w = z ∧ IsInt z := by
  unfold checked at h
  split_ifs at h with hz
  exact ⟨(Except.ok.inj h).symm, hz⟩

lemma checked_eq_error {z : ℤ} {f : ε} (h : checked overflow z = .error f) : f = overflow := by
  unfold checked at h
  split_ifs at h
  exact (Except.error.inj h).symm

lemma bind_eq_ok {x : Except ε α} {f : α → Except ε β} {r : β} (h : (x >>= f) = .ok r) :
    ∃ a, x = .ok a ∧ f a = .ok r := by
  cases x with
  | error g => cases h
  | ok a => exact ⟨a, rfl, h⟩

lemma bind_eq_error {x : Except ε α} {f : α → Except ε β} {g : ε} (h : (x >>= f) = .error g) :
    x = .error g ∨ ∃ a, x = .ok a ∧ f a = .error g := by
  cases x with
  | error g' => exact Or.inl (congrArg Except.error (Except.error.inj h))
  | ok a => exact Or.inr ⟨a, rfl, h⟩

end Faults

end UnixProgramming.MachineInt
