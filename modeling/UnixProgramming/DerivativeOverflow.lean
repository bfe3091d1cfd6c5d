import UnixProgramming.DerivativePrint

/-! When `derivative` succeeds on a polynomial whose literals fit: exactly when the sums
of like terms and the products with the exponents are representable. -/
namespace UnixProgramming.Derivative
open MachineInt

lemma derivative_of_spells {s : List Char} {ts : List Term} (h : Spells s ts) :
    derivative s = (ts.map Term.captures).foldlM collect OrderedSet.empty >>=
      fun m => m.elems.reverse.foldlM print [] := by
  rw [derivative, withSign_of_spells h, ← findAll_signedText]
  rfl

/-- The numbers that can leave the range of an `int`: the sums of like terms while the
terms are read, and the products with an exponent of at least two, whose absolute value
is taken. -/
structure Representable (ts : List Term) : Prop where
  sums : ∀ k e, IsInt (sumAt (ts.take k) e)
  products : ∀ e : ℕ, 2 ≤ e → |e * sumAt ts e| ≤ 2^31 - 1

lemma getD_empty (e : ℕ) : OrderedMap.getD (OrderedSet.empty : OrderedMap ℤ ℤ) e 0 = 0 := rfl

lemma collectAll_isOk_iff {ts : List Term} (hlit : ∀ t ∈ ts, t.LiteralsFit) :
    (∃ m, (ts.map Term.captures).foldlM collect OrderedSet.empty = .ok m) ↔
      ∀ k e, IsInt (sumAt (ts.take k) e) := by
  have h := collect_isOk_iff (m := OrderedSet.empty) hlit fun e => by
    rw [getD_empty]
    exact isInt_of_abs_le (by norm_num)
  simpa only [getD_empty, zero_add] using h

lemma Collected.printable_iff {m : OrderedMap ℤ ℤ} {ts : List Term}
    (h : Collected OrderedSet.empty m ts) (hsum : ∀ e, IsInt (sumAt ts e)) :
    (∀ x ∈ m, Printable x) ↔ ∀ e : ℕ, 2 ≤ e → |e * sumAt ts e| ≤ 2^31 - 1 := by
  constructor
  · intro hall e he
    rcases written_or_sumAt_eq_zero ts e with ⟨t, ht, rfl⟩ | hzero
    · rcases hall _ (h.mem_iff.mpr ⟨t, ht, rfl, rfl⟩) with h0 | ⟨_, habs⟩
      · simp only at h0
        omega
      · exact habs (by simpa using he)
    · rw [hzero]
      norm_num
  · rintro hall ⟨k, v⟩ hx
    obtain ⟨t, _, rfl, rfl⟩ := h.mem_iff.mp hx
    by_cases h2 : 2 ≤ t.exponent
    · have habs := hall t.exponent h2
      exact Or.inr ⟨isInt_of_abs_le habs, fun _ => habs⟩
    · by_cases h0 : t.exponent = 0
      · exact Or.inl (by simp [h0])
      · have h1 : t.exponent = 1 := by omega
        refine Or.inr ⟨by simpa [h1] using hsum 1, fun hle => ?_⟩
        simp only [h1] at hle
        norm_num at hle

theorem derivative_isOk_iff {s : List Char} {ts : List Term} (hs : Spells s ts)
    (hlit : ∀ t ∈ ts, t.LiteralsFit) : (∃ r, derivative s = .ok r) ↔ Representable ts := by
  rw [derivative_of_spells hs]
  have hkeys : ∀ {m}, Collected OrderedSet.empty m ts →
      ∀ x ∈ m.elems.reverse, 0 ≤ x.1 ∧ IsInt x.1 := by
    intro m hc x hx
    obtain ⟨t, ht, hte⟩ := hc.mem_key.mp ⟨x.2, List.mem_reverse.mp hx⟩
    have hle := t.exponent_le (hlit t ht)
    exact ⟨by omega, by omega, by omega⟩
  have hprint : ∀ {m}, Collected OrderedSet.empty m ts → (∀ e, IsInt (sumAt ts e)) →
      ((∃ r, m.elems.reverse.foldlM print [] = .ok r) ↔
        ∀ e : ℕ, 2 ≤ e → |e * sumAt ts e| ≤ 2^31 - 1) := by
    intro m hc hsum
    rw [printAll_isOk_iff [] (hkeys hc), ← hc.printable_iff hsum]
    exact forall_congr' fun x => by rw [List.mem_reverse]; rfl
  have htotal : (∀ k e, IsInt (sumAt (ts.take k) e)) → ∀ e, IsInt (sumAt ts e) := by
    intro hall e
    simpa using hall ts.length e
  constructor
  · rintro ⟨r, h⟩
    obtain ⟨m, hm, h⟩ := bind_eq_ok h
    have hsums := (collectAll_isOk_iff hlit).mp ⟨m, hm⟩
    exact ⟨hsums, (hprint (collect_ok hm) (htotal hsums)).mp ⟨r, h⟩⟩
  · intro hr
    obtain ⟨m, hm⟩ := (collectAll_isOk_iff hlit).mpr hr.sums
    rw [hm]
    exact (hprint (collect_ok hm) (htotal hr.sums)).mpr hr.products

lemma literalsFit_of_derivative {s r : List Char} {ts : List Term} (hs : Spells s ts)
    (h : derivative s = .ok r) : ∀ t ∈ ts, t.LiteralsFit := by
  rw [derivative_of_spells hs] at h
  obtain ⟨m, hm, -⟩ := bind_eq_ok h
  exact literalsFit_of_collect hm

theorem derivative_fault {s : List Char} {ts : List Term} {f : Fault} (hs : Spells s ts)
    (h : derivative s = .error f) :
    (f = .stoiRange ∧ ∃ t ∈ ts, ¬ t.LiteralsFit) ∨ f = .intOverflow := by
  rw [derivative_of_spells hs] at h
  rcases bind_eq_error h with hf | ⟨m, _, h⟩
  · exact collect_error hf
  · exact Or.inr (printAll_error h)

/-- On a polynomial whose literals fit nothing but an overflow can go wrong. -/
lemma derivative_total {s : List Char} {ts : List Term} (hs : Spells s ts)
    (hlit : ∀ t ∈ ts, t.LiteralsFit) (hno : derivative s ≠ .error .intOverflow) :
    ∃ r, derivative s = .ok r := by
  cases hr : derivative s with
  | ok r => exact ⟨r, rfl⟩
  | error f =>
    rcases derivative_fault hs hr with ⟨-, t, ht, hfit⟩ | rfl
    · exact absurd (hlit t ht) hfit
    · exact absurd hr hno

/-- Every call of `std::stoi` succeeds. -/
def StoiSucceeds (ts : List Term) : Prop :=
  ∀ t ∈ ts, ∀ d ∈ t.body.literals, ∃ z, stoi d.digits = .ok z

lemma stoiSucceeds_iff {ts : List Term} : StoiSucceeds ts ↔ ∀ t ∈ ts, t.LiteralsFit := by
  refine forall₂_congr fun t _ => forall₂_congr fun d _ => ?_
  rw [stoi_digits]
  by_cases h : d.value ≤ 2^31 - 1
  · rw [if_pos h]
    exact ⟨fun _ => h, fun _ => ⟨_, rfl⟩⟩
  · rw [if_neg h]
    constructor
    · rintro ⟨z, hz⟩
      cases hz
    · exact fun hle => absurd hle h

/-- The operations of `derivative` that can overflow are the sums of like terms and the
products of a sum with an exponent. -/
theorem derivative_overflow_iff {s : List Char} {ts : List Term} (hs : Spells s ts)
    (hstoi : StoiSucceeds ts) : derivative s ≠ .error .intOverflow ↔ Representable ts := by
  have hlit := stoiSucceeds_iff.mp hstoi
  rw [← derivative_isOk_iff hs hlit]
  constructor
  · exact derivative_total hs hlit
  · rintro ⟨r, hr⟩
    simp [hr]

theorem derivative_overflow_iff_sample :
    derivative ['-', '7', '*', 'x', '^', '3', '+', '2'] ≠ .error .intOverflow ↔
      Representable [⟨true, .scaledPower (.ofNat 7) (.ofNat 3)⟩, ⟨false, .constant (.ofNat 2)⟩] :=
  derivative_overflow_iff ⟨by simp, Or.inl (by decide +kernel)⟩
    (stoiSucceeds_iff.mpr (by decide +kernel))

theorem derivative_overflows :
    Spells ['2', '*', 'x', '^', '2', '1', '4', '7', '4', '8', '3', '6', '4', '7']
        [⟨false, .scaledPower (.ofNat 2) (.ofNat 2147483647)⟩] ∧
      StoiSucceeds [⟨false, .scaledPower (.ofNat 2) (.ofNat 2147483647)⟩] ∧
      derivative ['2', '*', 'x', '^', '2', '1', '4', '7', '4', '8', '3', '6', '4', '7'] =
        .error .intOverflow :=
  ⟨⟨by simp, Or.inr (by decide +kernel)⟩, stoiSucceeds_iff.mpr (by decide +kernel),
    by decide +kernel⟩

end UnixProgramming.Derivative
