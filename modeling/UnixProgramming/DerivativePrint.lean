import UnixProgramming.DerivativeCollect

/-! The printing loop: each entry of the map becomes one term of the derivative, and the
text printed so far is that of the terms so far without the leading plus. -/
namespace UnixProgramming.Derivative
open MachineInt Polynomial

def dropPlus : List Char → List Char
  | '+' :: s => s
  | s => s

def plainText (us : List Term) : List Char := dropPlus (signedText us)

def printedBody (scale pow : ℕ) : Body :=
  if pow = 0 then .constant (.ofNat scale)
  else if pow = 1 then .scaled (.ofNat scale)
  else .scaledPower (.ofNat scale) (.ofNat pow)

/-- The term printed for an entry; a constant of the polynomial leaves nothing. -/
def printedTerm (entry : ℤ × ℤ) : Option Term :=
  if entry.1 = 0 then none
  else some ⟨decide (entry.1 * entry.2 < 0),
    printedBody (entry.1 * entry.2).natAbs (entry.1 - 1).toNat⟩

@[simp] lemma plainText_nil : plainText [] = [] := rfl

lemma dropPlus_append {s t : List Char} (hs : s ≠ []) : dropPlus (s ++ t) = dropPlus s ++ t := by
  cases s with
  | nil => exact absurd rfl hs
  | cons c cs =>
    by_cases hc : c = '+'
    · subst hc
      rfl
    · simp [dropPlus, hc]

lemma signedText_ne_nil {us : List Term} (h : us ≠ []) : signedText us ≠ [] := by
  obtain ⟨t, ts, rfl⟩ := List.exists_cons_of_ne_nil h
  simp [Term.text]

lemma plainText_singleton (t : Term) :
    plainText [t] = if t.negative then t.text else t.body.text := by
  cases hn : t.negative <;> simp [plainText, Term.text, Term.sign, hn, dropPlus]

lemma plainText_snoc {us : List Term} (h : us ≠ []) (t : Term) :
    plainText (us ++ [t]) = plainText us ++ t.text := by
  rw [plainText, signedText_append, dropPlus_append (signedText_ne_nil h)]
  simp [plainText]

lemma plainText_ne_nil {us : List Term} (h : us ≠ []) : plainText us ≠ [] := by
  obtain ⟨t, ts, rfl⟩ := List.exists_cons_of_ne_nil h
  rw [plainText, signedText_cons, dropPlus_append (by simp [Term.text])]
  have hs := plainText_singleton t
  simp only [plainText, signedText_cons, signedText_nil, List.append_nil] at hs
  rw [hs]
  have := t.body.text_ne_nil
  split_ifs <;> simp [Term.text, this]

lemma spells_plainText {us : List Term} (h : us ≠ []) : Spells (plainText us) us := by
  refine ⟨h, ?_⟩
  unfold plainText
  cases hs : signedText us with
  | nil => exact Or.inl rfl
  | cons c cs =>
    by_cases hc : c = '+'
    · subst hc
      exact Or.inr rfl
    · exact Or.inl (by simp [dropPlus, hc])

lemma printedTerm_exponent {entry : ℤ × ℤ} {u : Term} (h : printedTerm entry = some u) :
    u.exponent = (entry.1 - 1).toNat := by
  unfold printedTerm at h
  split_ifs at h
  cases h
  unfold Term.exponent printedBody
  dsimp only
  split_ifs <;> simp_all [Body.exponent, Body.exponent?, Body.hasX]

lemma printedTerm_coefficient {entry : ℤ × ℤ} {u : Term} (h : printedTerm entry = some u) :
    u.coefficient = entry.1 * entry.2 := by
  unfold printedTerm at h
  split_ifs at h
  cases h
  have hscale : (printedBody (entry.1 * entry.2).natAbs (entry.1 - 1).toNat).scale =
      (entry.1 * entry.2).natAbs := by
    unfold printedBody
    split_ifs <;> simp [Body.scale, Body.coefficient?]
  unfold Term.coefficient
  dsimp only
  rw [hscale]
  simp only [decide_eq_true_eq]
  split_ifs <;> omega

lemma appendIf_eq (str suffix : List Char) (condition : Bool) :
    appendIf str condition suffix = str ++ if condition then suffix else [] := by
  cases condition <;> simp [appendIf]

lemma intText_natCast (n : ℕ) : intText n = Nat.toDigits 10 n := by
  simp [intText]

lemma intText_eq (z : ℤ) :
    intText z = (if z < 0 then ['-'] else []) ++ Nat.toDigits 10 z.natAbs := by
  unfold intText
  split_ifs <;> rfl

/-- A term with an `x` has a coefficient that is a multiple of its old exponent, which is
at least two: the unit coefficient is never left out. -/
lemma isUnit_eq_ok {e c : ℤ} {b : Bool} (h : isUnit (decide (e - 1 > 0)) (e * c) = .ok b) :
    b = false := by
  unfold isUnit at h
  split_ifs at h with hx
  · cases hc : checked Fault.intOverflow |e * c| with
    | error f => rw [hc] at h; cases h
    | ok a =>
      rw [hc] at h
      obtain ⟨rfl, _⟩ := checked_eq_ok hc
      have hb : decide (|e * c| = 1) = b := Except.ok.inj h
      rw [← hb, decide_eq_false_iff_not]
      intro h1
      have he : |e| = 1 := Int.eq_one_of_mul_eq_one_right (abs_nonneg e) (by rw [← abs_mul, h1])
      have hx' : e - 1 > 0 := by simpa using hx
      rw [abs_of_pos (by omega)] at he
      omega
  · exact (Except.ok.inj h).symm

lemma text_printedBody (scale pow : ℕ) : (printedBody scale pow).text =
    Nat.toDigits 10 scale ++
      (if pow > 0 then ['*', 'x'] ++ (if pow > 1 then '^' :: Nat.toDigits 10 pow else [])
      else []) := by
  unfold printedBody
  split_ifs <;> first | omega | simp [Body.text, Literal.ofNat]

lemma plainText_append_printedTerm (us : List Term) {e c : ℤ} (he : 0 < e) :
    plainText (us ++ (printedTerm (e, c)).toList) =
      plainText us ++ ((if e * c ≥ 0 ∧ plainText us ≠ [] then ['+'] else []) ++
        (intText (e * c) ++ (if e - 1 > 0 then
          ['*', 'x'] ++ (if e - 1 > 1 then '^' :: intText (e - 1) else []) else []))) := by
  obtain ⟨n, rfl⟩ : ∃ n : ℕ, e = n + 1 := ⟨(e - 1).toNat, by omega⟩
  have hne : ¬ (n : ℤ) + 1 = 0 := by omega
  simp only [printedTerm, hne, ↓reduceIte, Option.toList_some, add_sub_cancel_right,
    Int.toNat_natCast, intText_natCast, intText_eq (((n : ℤ) + 1) * c)]
  generalize ((n : ℤ) + 1) * c = z
  by_cases hu : us = []
  · subst hu
    rw [List.nil_append, plainText_singleton]
    by_cases hz : z < 0 <;> simp [Term.text, Term.sign, text_printedBody, hz]
  · rw [plainText_snoc hu]
    by_cases hz : z < 0
    · have hz' : ¬ 0 ≤ z := not_le.mpr hz
      simp [Term.text, Term.sign, text_printedBody, hz, hz']
    · have hz' : 0 ≤ z := not_lt.mp hz
      simp [Term.text, Term.sign, text_printedBody, hz, hz', plainText_ne_nil hu]

lemma print_ok {us : List Term} {e c : ℤ} {r : List Char} (he : 0 ≤ e)
    (h : print (plainText us) (e, c) = .ok r) :
    r = plainText (us ++ (printedTerm (e, c)).toList) := by
  unfold print at h
  split_ifs at h with h0
  · simp only at h0
    simpa [printedTerm, h0] using (Except.ok.inj h).symm
  · obtain ⟨pow, hpow, h⟩ := bind_eq_ok h
    obtain ⟨rfl, _⟩ := checked_eq_ok hpow
    obtain ⟨constant, hconstant, h⟩ := bind_eq_ok h
    obtain ⟨rfl, _⟩ := checked_eq_ok hconstant
    obtain ⟨unit, hunit, h⟩ := bind_eq_ok h
    obtain rfl := isUnit_eq_ok hunit
    simp only at h0 h
    rw [plainText_append_printedTerm us (by omega)]
    by_cases hx : e - 1 > 0
    · simp only [hx, decide_true, ↓reduceIte] at h ⊢
      rw [← Except.ok.inj h]
      simp [appendIf_eq]
    · simp only [hx, decide_false, ↓reduceIte] at h ⊢
      rw [← Except.ok.inj h]
      simp [appendIf_eq]

lemma isUnit_total {e c : ℤ} (h : 2 ≤ e → |e * c| ≤ 2^31 - 1) :
    isUnit (decide (e - 1 > 0)) (e * c) = .ok false := by
  have hok : ∃ b, isUnit (decide (e - 1 > 0)) (e * c) = .ok b := by
    unfold isUnit
    split_ifs with hx
    · have he : e - 1 > 0 := by simpa using hx
      rw [checked_of_isInt (isInt_of_abs_le (by rw [abs_abs]; exact h (by omega)))]
      exact ⟨_, rfl⟩
    · exact ⟨false, rfl⟩
  obtain ⟨b, hb⟩ := hok
  rw [hb, isUnit_eq_ok hb]

lemma abs_le_of_isUnit {e c : ℤ} {b : Bool} (h : isUnit (decide (e - 1 > 0)) (e * c) = .ok b)
    (he : 2 ≤ e) : |e * c| ≤ 2^31 - 1 := by
  have hx : e - 1 > 0 := by omega
  rw [isUnit, if_pos (by simpa using hx)] at h
  cases hc : checked Fault.intOverflow |e * c| with
  | error f => rw [hc] at h; cases h
  | ok a =>
    have hint := (checked_eq_ok hc).2.2
    omega

/-- What an entry must satisfy for its term to be printed. -/
def Printable (x : ℤ × ℤ) : Prop :=
  x.1 = 0 ∨ (IsInt (x.1 * x.2) ∧ (2 ≤ x.1 → |x.1 * x.2| ≤ 2^31 - 1))

lemma print_isOk_iff (r : List Char) {x : ℤ × ℤ} (hx : 0 ≤ x.1 ∧ IsInt x.1) :
    (∃ r', print r x = .ok r') ↔ Printable x := by
  obtain ⟨he, hint⟩ := hx
  by_cases h0 : x.1 = 0
  · exact ⟨fun _ => Or.inl h0, fun _ => ⟨r, by rw [print, if_pos h0]; rfl⟩⟩
  constructor
  · rintro ⟨r', h⟩
    rw [print, if_neg h0] at h
    obtain ⟨pow, hpow, h⟩ := bind_eq_ok h
    obtain ⟨rfl, _⟩ := checked_eq_ok hpow
    obtain ⟨constant, hconstant, h⟩ := bind_eq_ok h
    obtain ⟨rfl, hprod⟩ := checked_eq_ok hconstant
    obtain ⟨unit, hunit, h⟩ := bind_eq_ok h
    exact Or.inr ⟨hprod, abs_le_of_isUnit hunit⟩
  · rintro (h | ⟨hprod, habs⟩)
    · exact absurd h h0
    have hpow : IsInt (x.1 - 1) := ⟨by have := hint.1; omega, by have := hint.2; omega⟩
    simp only [print, h0, ↓reduceIte, checked_of_isInt hpow, checked_of_isInt hprod,
      isUnit_total habs, Except.bind, bind]
    split_ifs <;> exact ⟨_, rfl⟩

lemma isUnit_eq_error {addX : Bool} {z : ℤ} {f : Fault} (h : isUnit addX z = .error f) :
    f = .intOverflow := by
  unfold isUnit at h
  split_ifs at h
  cases hc : checked Fault.intOverflow |z| with
  | ok a => rw [hc] at h; cases h
  | error g =>
    rw [hc] at h
    cases h
    exact checked_eq_error hc

lemma print_error {r : List Char} {entry : ℤ × ℤ} {f : Fault} (h : print r entry = .error f) :
    f = .intOverflow := by
  unfold print at h
  split_ifs at h with h0
  · cases h
  · rcases bind_eq_error h with hf | ⟨pow, _, h⟩
    · exact checked_eq_error hf
    rcases bind_eq_error h with hf | ⟨constant, _, h⟩
    · exact checked_eq_error hf
    rcases bind_eq_error h with hf | ⟨unit, _, h⟩
    · exact isUnit_eq_error hf
    dsimp only at h
    split_ifs at h <;> cases h

theorem printAll_ok {us : List Term} {entries : List (ℤ × ℤ)} {r : List Char}
    (hkeys : ∀ x ∈ entries, 0 ≤ x.1) (h : entries.foldlM print (plainText us) = .ok r) :
    r = plainText (us ++ entries.filterMap printedTerm) := by
  induction entries generalizing us with
  | nil => simpa using (Except.ok.inj h).symm
  | cons x entries ih =>
    rw [List.foldlM_cons] at h
    obtain ⟨r', hr', h⟩ := bind_eq_ok h
    rw [print_ok (hkeys x (by simp)) hr'] at h
    rw [ih (fun y hy => hkeys y (List.mem_cons_of_mem x hy)) h, List.append_assoc]
    cases hx : printedTerm (x.1, x.2) <;> simp [hx]

theorem printAll_isOk_iff {entries : List (ℤ × ℤ)} (r : List Char)
    (hkeys : ∀ x ∈ entries, 0 ≤ x.1 ∧ IsInt x.1) :
    (∃ r', entries.foldlM print r = .ok r') ↔ ∀ x ∈ entries, Printable x := by
  induction entries generalizing r with
  | nil => exact ⟨fun _ => by simp, fun _ => ⟨r, rfl⟩⟩
  | cons x entries ih =>
    obtain ⟨hx, hentries⟩ := List.forall_mem_cons.mp hkeys
    rw [List.forall_mem_cons, List.foldlM_cons]
    constructor
    · rintro ⟨r'', h⟩
      obtain ⟨r', hr', h⟩ := bind_eq_ok h
      exact ⟨(print_isOk_iff r hx).mp ⟨r', hr'⟩, (ih r' hentries).mp ⟨r'', h⟩⟩
    · rintro ⟨hfirst, hrest⟩
      obtain ⟨r', hr'⟩ := (print_isOk_iff r hx).mpr hfirst
      rw [hr']
      exact (ih r' hentries).mpr hrest

theorem printAll_error {entries : List (ℤ × ℤ)} {r : List Char} {f : Fault}
    (h : entries.foldlM print r = .error f) : f = .intOverflow := by
  induction entries generalizing r with
  | nil => cases h
  | cons x entries ih =>
    rw [List.foldlM_cons] at h
    rcases bind_eq_error h with hf | ⟨r', _, h⟩
    · exact print_error hf
    · exact ih h

end UnixProgramming.Derivative
