import UnixProgramming.DerivativeOverflow

/-! The text that `derivative` returns stands for the formal derivative of the polynomial
that it was given, and what happens when the function is applied to its own results. -/
namespace UnixProgramming.Derivative
open MachineInt RegexSearch Polynomial

/-- Reading a result: the empty text stands for zero. -/
def Reads (r : List Char) (us : List Term) : Prop := (r = [] ∧ us = []) ∨ Spells r us

/-- The numbers that occur while the terms are collected and differentiated. -/
structure InRange (ts : List Term) : Prop where
  literals : ∀ t ∈ ts, t.LiteralsFit
  sums : ∀ p ∈ ts.inits, ∀ t ∈ p, |sumAt p t.exponent| ≤ 2^31 - 1
  products : ∀ t ∈ ts, |t.exponent * sumAt ts t.exponent| ≤ 2^31 - 1

lemma reads_plainText (us : List Term) : Reads (plainText us) us := by
  by_cases h : us = []
  · exact Or.inl ⟨by simp [h], h⟩
  · exact Or.inr (spells_plainText h)

lemma not_spells_nil (ts : List Term) : ¬ Spells [] ts := by
  intro h
  exact absurd (withSign_of_spells h) (by simp [withSign])

lemma reads_unique {r : List Char} {us vs : List Term} (hu : Reads r us) (hv : Reads r vs) :
    us = vs := by
  rcases hu with ⟨hr, rfl⟩ | hu <;> rcases hv with ⟨hr', rfl⟩ | hv
  · rfl
  · exact absurd (hr ▸ hv) (not_spells_nil vs)
  · exact absurd (hr' ▸ hu) (not_spells_nil us)
  · exact spells_unique hu hv

lemma InRange.sum_le {ts : List Term} (h : InRange ts) (k e : ℕ) :
    |sumAt (ts.take k) e| ≤ 2^31 - 1 := by
  rcases written_or_sumAt_eq_zero (ts.take k) e with ⟨t, ht, rfl⟩ | hzero
  · exact h.sums _ (List.mem_inits _ _ |>.mpr (List.take_prefix k ts)) t ht
  · rw [hzero]
    norm_num

lemma denote_printed (entries : List (ℤ × ℤ)) (hkeys : ∀ x ∈ entries, 0 ≤ x.1) :
    denote (entries.filterMap printedTerm) =
      Polynomial.derivative (entries.map fun x => monomial x.1.toNat x.2).sum := by
  induction entries with
  | nil => simp
  | cons x entries ih =>
    have hx := hkeys x (by simp)
    have ih := ih fun y hy => hkeys y (List.mem_cons_of_mem x hy)
    rw [List.map_cons, List.sum_cons, map_add, ← ih, derivative_monomial]
    by_cases h0 : x.1 = 0
    · have hp : printedTerm x = none := by simp [printedTerm, h0]
      rw [List.filterMap_cons_none hp, h0]
      simp
    · obtain ⟨u, hu⟩ : ∃ u, printedTerm x = some u := by simp [printedTerm, h0]
      rw [List.filterMap_cons_some hu, denote_cons, printedTerm_exponent hu,
        printedTerm_coefficient hu]
      have he : ((x.1.toNat : ℕ) : ℤ) = x.1 := Int.toNat_of_nonneg hx
      have hpred : (x.1 - 1).toNat = x.1.toNat - 1 := by omega
      rw [he, hpred, mul_comm]

lemma pairwise_printed {entries : List (ℤ × ℤ)} (hkeys : ∀ x ∈ entries, 0 ≤ x.1)
    (h : entries.Pairwise (fun x y => y.1 < x.1)) :
    (entries.filterMap printedTerm).Pairwise (fun u v => v.exponent < u.exponent) := by
  rw [List.pairwise_filterMap]
  refine h.imp_of_mem ?_
  intro x y _ hy hlt u hu v hv
  rw [printedTerm_exponent hu, printedTerm_exponent hv]
  have h0 : y.1 ≠ 0 := by
    intro h0
    simp [printedTerm, h0] at hv
  have := hkeys y hy
  omega

lemma exists_exponent_printed {entries : List (ℤ × ℤ)} (hkeys : ∀ x ∈ entries, 0 ≤ x.1) (n : ℕ) :
    (∃ u ∈ entries.filterMap printedTerm, u.exponent = n) ↔
      ∃ v, (((n + 1 : ℕ) : ℤ), v) ∈ entries := by
  simp only [List.mem_filterMap]
  constructor
  · rintro ⟨u, ⟨x, hx, hu⟩, rfl⟩
    have h0 : x.1 ≠ 0 := by
      intro h0
      simp [printedTerm, h0] at hu
    have hx0 := hkeys x hx
    have he : ((u.exponent + 1 : ℕ) : ℤ) = x.1 := by
      rw [printedTerm_exponent hu]
      omega
    exact ⟨x.2, by rw [he]; exact hx⟩
  · rintro ⟨v, hv⟩
    obtain ⟨u, hu⟩ : ∃ u, printedTerm (((n + 1 : ℕ) : ℤ), v) = some u := by
      have : ¬ ((n : ℤ) + 1 = 0) := by omega
      simp [printedTerm, this]
    refine ⟨u, ⟨_, hv, hu⟩, ?_⟩
    rw [printedTerm_exponent hu]
    simp

structure Differentiates (ts us : List Term) : Prop where
  denotes : denote us = Polynomial.derivative (denote ts)
  decreasing : us.Pairwise (fun u v => v.exponent < u.exponent)
  exponents : ∀ n, (∃ u ∈ us, u.exponent = n) ↔ ∃ t ∈ ts, t.exponent = n + 1

lemma Collected.differentiates {m : OrderedMap ℤ ℤ} {ts : List Term}
    (h : Collected OrderedSet.empty m ts) :
    Differentiates ts (m.elems.reverse.filterMap printedTerm) := by
  have hkeys : ∀ x ∈ m.elems.reverse, 0 ≤ x.1 :=
    fun x hx => h.key_nonneg (List.mem_reverse.mp hx)
  constructor
  · have hm : mapDenote m = denote ts := by
      rw [h.denotes]
      simp [mapDenote, OrderedSet.empty]
    rw [denote_printed _ hkeys, ((List.reverse_perm m.elems).map _).sum_eq, ← hm]
    rfl
  · exact pairwise_printed hkeys (List.pairwise_reverse.mpr m.sorted)
  · intro n
    rw [exists_exponent_printed hkeys]
    have hk := h.mem_key (k := ((n + 1 : ℕ) : ℤ))
    simp only [Nat.cast_inj] at hk
    rw [← hk]
    exact exists_congr fun v => List.mem_reverse

lemma derivative_printed {s r : List Char} {ts : List Term} (hs : Spells s ts)
    (h : derivative s = .ok r) : ∃ m, Collected OrderedSet.empty m ts ∧
      r = plainText (m.elems.reverse.filterMap printedTerm) := by
  rw [derivative_of_spells hs] at h
  obtain ⟨m, hm, h⟩ := bind_eq_ok h
  have hc := collect_ok hm
  have h : m.elems.reverse.foldlM print (plainText []) = .ok r := h
  exact ⟨m, hc, printAll_ok (fun x hx => hc.key_nonneg (List.mem_reverse.mp hx)) h⟩

theorem derivative_ok {s r : List Char} {ts : List Term} (hs : Spells s ts)
    (h : derivative s = .ok r) : ∃ us, Reads r us ∧ Differentiates ts us := by
  obtain ⟨m, hc, rfl⟩ := derivative_printed hs h
  exact ⟨_, reads_plainText _, hc.differentiates⟩

lemma InRange.representable {ts : List Term} (h : InRange ts) : Representable ts where
  sums k e := isInt_of_abs_le (h.sum_le k e)
  products := by
    intro e _
    rcases written_or_sumAt_eq_zero ts e with ⟨t, ht, rfl⟩ | hzero
    · exact h.products t ht
    · rw [hzero]
      norm_num

/-- Total correctness: with all numbers in range the result can be read in one way, as
the formal derivative, from the highest exponent down. -/
theorem derivative_correct {s : List Char} {ts : List Term} (hs : Spells s ts)
    (hr : InRange ts) :
    ∃ r us, derivative s = .ok r ∧ (∀ vs, Reads r vs ↔ vs = us) ∧
      denote us = Polynomial.derivative (denote ts) ∧
      us.Pairwise (fun u v => v.exponent < u.exponent) := by
  obtain ⟨r, hok⟩ := (derivative_isOk_iff hs hr.literals).mpr hr.representable
  obtain ⟨us, hreads, hd⟩ := derivative_ok hs hok
  refine ⟨r, us, hok, fun vs => ⟨fun hv => reads_unique hv hreads, ?_⟩, hd.denotes, hd.decreasing⟩
  rintro rfl
  exact hreads

theorem derivative_correct_sample : ∃ r us,
    derivative ['-', 'x', '^', '2', '-', 'x', '^', '3'] = .ok r ∧ (∀ vs, Reads r vs ↔ vs = us) ∧
      denote us = Polynomial.derivative
        (denote [⟨true, .power (.ofNat 2)⟩, ⟨true, .power (.ofNat 3)⟩]) ∧
      us.Pairwise (fun u v => v.exponent < u.exponent) :=
  derivative_correct ⟨by simp, Or.inl (by decide +kernel)⟩
    ⟨by decide +kernel, by decide +kernel, by decide +kernel⟩

def derivativeTimes (k : ℕ) (s : List Char) : Except Fault (List Char) :=
  match k with
  | 0 => .ok s
  | k + 1 => derivativeTimes k s >>= derivative

/-- Up to `k` applications stay in the language, and the last stands for the `k`-th
formal derivative. -/
def ClosedFor (k : ℕ) (s : List Char) (ts : List Term) : Prop :=
  (∀ j ≤ k, ∃ r us, derivativeTimes j s = .ok r ∧ r ≠ [] ∧ Spells r us) ∧
    ∃ r us, derivativeTimes k s = .ok r ∧ Reads r us ∧
      denote us = Polynomial.derivative^[k] (denote ts)

/-- Some term has a high enough exponent, and the coefficient of `x` is not the least `int`,
whose digits are too large for `stoi`. -/
def Repeatable (k : ℕ) (ts : List Term) : Prop :=
  k = 0 ∨ (∃ t ∈ ts, k ≤ t.exponent) ∧ (2 ≤ k → sumAt ts 1 ≠ -2^31)

lemma derivative_nil : derivative [] = .error .emptyString := rfl

lemma derivativeTimes_ok {k : ℕ} {s r : List Char} {ts : List Term} (hs : Spells s ts)
    (h : derivativeTimes k s = .ok r) :
    ∃ us, Reads r us ∧ denote us = Polynomial.derivative^[k] (denote ts) ∧
      ∀ n, (∃ u ∈ us, u.exponent = n) ↔ ∃ t ∈ ts, t.exponent = n + k := by
  induction k generalizing r with
  | zero =>
    obtain rfl : s = r := Except.ok.inj h
    exact ⟨ts, Or.inr hs, rfl, fun n => by simp⟩
  | succ k ih =>
    obtain ⟨q, hq, h⟩ := bind_eq_ok h
    obtain ⟨us, hreads, hden, hexp⟩ := ih hq
    rcases hreads with ⟨rfl, _⟩ | hspells
    · exact absurd h (by simp [derivative_nil])
    · obtain ⟨vs, hvs, hd⟩ := derivative_ok hspells h
      refine ⟨vs, hvs, ?_, fun n => ?_⟩
      · rw [hd.denotes, hden, Function.iterate_succ_apply']
      · rw [hd.exponents n, hexp (n + 1), Nat.add_assoc, Nat.add_comm 1 k]

lemma derivativeTimes_error_of_le {j k : ℕ} {s : List Char} {f : Fault} (hjk : j ≤ k)
    (h : derivativeTimes j s = .error f) : derivativeTimes k s = .error f := by
  induction k, hjk using Nat.le_induction with
  | base => exact h
  | succ k _ ih =>
    rw [derivativeTimes, ih]
    rfl

lemma Repeatable.of_le {j k : ℕ} {ts : List Term} (h : Repeatable k ts) (hjk : j ≤ k) :
    Repeatable j ts := by
  rcases h with rfl | ⟨⟨t, ht, hle⟩, hlinear⟩
  · exact Or.inl (by omega)
  · exact Or.inr ⟨⟨t, ht, by omega⟩, fun h2 => hlinear (by omega)⟩

/-- The exponents and coefficients that were printed are those of the entries. -/
lemma Collected.printed_literals {m : OrderedMap ℤ ℤ} {ts : List Term}
    (h : Collected OrderedSet.empty m ts) (hlit : ∀ t ∈ ts, t.LiteralsFit)
    (hr : Representable ts) (hlinear : sumAt ts 1 ≠ -2^31) :
    ∀ u ∈ m.elems.reverse.filterMap printedTerm, u.LiteralsFit := by
  intro u hu
  obtain ⟨⟨k, v⟩, hx, hxu⟩ := List.mem_filterMap.mp hu
  obtain ⟨t, ht, rfl, rfl⟩ := h.mem_iff.mp (List.mem_reverse.mp hx)
  have hexp := t.exponent_le (hlit t ht)
  have hscale : (t.exponent * sumAt ts t.exponent).natAbs ≤ 2^31 - 1 := by
    by_cases h2 : 2 ≤ t.exponent
    · obtain ⟨hl, hu⟩ := abs_le.mp (hr.products t.exponent h2)
      omega
    · have hsum : IsInt (sumAt ts t.exponent) := by simpa using hr.sums ts.length t.exponent
      obtain ⟨hl, hu⟩ := hsum
      interval_cases t.exponent
      · simp
      · omega
  unfold printedTerm at hxu
  split_ifs at hxu
  obtain rfl := Option.some.inj hxu
  unfold Term.LiteralsFit printedBody
  dsimp only
  split_ifs <;> simp only [Body.literals, Body.coefficient?, Body.exponent?, Option.toList_some,
    Option.toList_none, List.append_nil, List.singleton_append, List.forall_mem_cons,
    Literal.ofNat_value] <;> grind

/-- The coefficient of `x` was multiplied by two, and its absolute value taken. -/
lemma Differentiates.linear {ts us : List Term} (h : Differentiates ts us)
    (hr : Representable ts) : sumAt us 1 ≠ -2^31 := by
  have hsum : sumAt us 1 = 2 * sumAt ts 2 := by
    rw [← coeff_denote, h.denotes, coeff_derivative, coeff_denote]
    norm_num
    ring
  obtain ⟨hl, -⟩ := abs_le.mp (hr.products 2 le_rfl)
  push_cast at hl
  omega

/-- With an `x` in the text the result is a polynomial. It can be differentiated again, unless
the coefficient of `x` was the least `int`. -/
lemma derivative_spells {s : List Char} {ts : List Term} (hs : Spells s ts)
    (hlit : ∀ t ∈ ts, t.LiteralsFit) (hno : derivative s ≠ .error .intOverflow)
    (hterm : ∃ t ∈ ts, 1 ≤ t.exponent) :
    ∃ r us, derivative s = .ok r ∧ Spells r us ∧ sumAt us 1 ≠ -2^31 ∧
      (sumAt ts 1 ≠ -2^31 → ∀ u ∈ us, u.LiteralsFit) := by
  obtain ⟨r, hok⟩ := derivative_total hs hlit hno
  have hr := (derivative_isOk_iff hs hlit).mp ⟨r, hok⟩
  obtain ⟨m, hc, rfl⟩ := derivative_printed hs hok
  obtain ⟨t, ht, hle⟩ := hterm
  obtain ⟨u, hu, -⟩ := (hc.differentiates.exponents (t.exponent - 1)).mpr ⟨t, ht, by omega⟩
  exact ⟨_, _, hok, spells_plainText (List.ne_nil_of_mem hu), hc.differentiates.linear hr,
    hc.printed_literals hlit hr⟩

lemma derivativeTimes_spells {k : ℕ} {s : List Char} {ts : List Term} (hs : Spells s ts)
    (hlit : ∀ t ∈ ts, t.LiteralsFit) (hno : derivativeTimes k s ≠ .error .intOverflow)
    (hrep : Repeatable k ts) :
    ∃ r us, derivativeTimes k s = .ok r ∧ Spells r us ∧
      (sumAt ts 1 ≠ -2^31 → sumAt us 1 ≠ -2^31) ∧
      ((1 ≤ k → sumAt ts 1 ≠ -2^31) → ∀ u ∈ us, u.LiteralsFit) := by
  induction k with
  | zero => exact ⟨s, ts, rfl, hs, id, fun _ => hlit⟩
  | succ k ih =>
    obtain ⟨⟨t, ht, hle⟩, hlinear⟩ := hrep.resolve_left (Nat.succ_ne_zero k)
    obtain ⟨q, vs, hq, hv, hvlinear, hvlit⟩ := ih
      (fun h => hno (derivativeTimes_error_of_le (Nat.le_succ k) h))
      (Or.inr ⟨⟨t, ht, by omega⟩, fun h2 => hlinear (by omega)⟩)
    have hstep : derivativeTimes (k + 1) s = derivative q := by
      rw [derivativeTimes, hq]
      rfl
    -- the term of the highest exponent still has an `x`
    have hterm : ∃ v ∈ vs, 1 ≤ v.exponent := by
      obtain ⟨ws, hreads, -, hexp⟩ := derivativeTimes_ok hs hq
      obtain rfl := reads_unique (Or.inr hv) hreads
      obtain ⟨v, hvs, hve⟩ := (hexp (t.exponent - k)).mpr ⟨t, ht, by omega⟩
      exact ⟨v, hvs, by omega⟩
    obtain ⟨r, us, hr, hspells, hulinear, hulit⟩ := derivative_spells hv
      (hvlit fun h1 => hlinear (by omega)) (hstep ▸ hno) hterm
    exact ⟨r, us, hstep.trans hr, hspells, fun _ => hulinear,
      fun hfirst => hulit (hvlinear (hfirst (by omega)))⟩

/-- After a second application the coefficient of `x` was not the least `int`. -/
lemma sumAt_one_ne {s r : List Char} {ts : List Term} (hs : Spells s ts)
    (h : derivativeTimes 2 s = .ok r) : sumAt ts 1 ≠ -2^31 := by
  intro hleast
  obtain ⟨q, hq, hr⟩ := bind_eq_ok (x := derivativeTimes 1 s) h
  obtain ⟨m, hc, rfl⟩ := derivative_printed hs hq
  obtain ⟨t, ht, hte⟩ : ∃ t ∈ ts, t.exponent = 1 :=
    (written_or_sumAt_eq_zero ts 1).resolve_right (by rw [hleast]; norm_num)
  have hentry : ((1 : ℤ), (-2^31 : ℤ)) ∈ m := hc.mem_iff.mpr ⟨t, ht, by rw [hte]; rfl, hte ▸ hleast⟩
  have hprinted : (⟨true, .constant (.ofNat (2^31))⟩ : Term) ∈
      m.elems.reverse.filterMap printedTerm :=
    List.mem_filterMap.mpr ⟨_, List.mem_reverse.mpr hentry, by
      simp [printedTerm, printedBody]⟩
  have hfits := literalsFit_of_derivative (spells_plainText (List.ne_nil_of_mem hprinted)) hr _
    hprinted
  simp [Term.LiteralsFit, Body.literals, Body.coefficient?, Body.exponent?] at hfits

/-- The function can be applied to its own results exactly as long as some written term has a
high enough exponent and the coefficient of `x` is not the least `int`: a polynomial of
constants gives the empty text, and the digits of the least `int` are out of range. -/
theorem closedFor_iff {k : ℕ} {s : List Char} {ts : List Term} (hs : Spells s ts)
    (hlit : ∀ t ∈ ts, t.LiteralsFit) (hno : derivativeTimes k s ≠ .error .intOverflow) :
    ClosedFor k s ts ↔ Repeatable k ts := by
  constructor
  · rintro ⟨hall, _⟩
    obtain ⟨r, us, hr, hne, hspells⟩ := hall k le_rfl
    obtain ⟨vs, hreads, _, hexp⟩ := derivativeTimes_ok hs hr
    obtain rfl := reads_unique (Or.inr hspells) hreads
    obtain ⟨u, hu⟩ := List.exists_mem_of_ne_nil us hspells.1
    obtain ⟨t, ht, hte⟩ := (hexp u.exponent).mp ⟨u, hu, rfl⟩
    refine Or.inr ⟨⟨t, ht, by omega⟩, fun h2 => ?_⟩
    obtain ⟨q, -, hq, -⟩ := hall 2 h2
    exact sumAt_one_ne hs hq
  · intro hrep
    refine ⟨fun j hj => ?_, ?_⟩
    · obtain ⟨r, us, hr, hspells, -⟩ := derivativeTimes_spells (k := j) hs hlit
        (fun h => hno (derivativeTimes_error_of_le hj h)) (hrep.of_le hj)
      exact ⟨r, us, hr, fun hnil => not_spells_nil us (hnil ▸ hspells), hspells⟩
    · obtain ⟨r, _, hr, _⟩ := derivativeTimes_spells hs hlit hno hrep
      obtain ⟨us, hreads, hden, _⟩ := derivativeTimes_ok hs hr
      exact ⟨r, us, hr, hreads, hden⟩

theorem closedFor_iff_sample :
    ClosedFor 2 ['x', '^', '3', '-', '5']
        [⟨false, .power (.ofNat 3)⟩, ⟨true, .constant (.ofNat 5)⟩] ↔
      Repeatable 2 [⟨false, .power (.ofNat 3)⟩, ⟨true, .constant (.ofNat 5)⟩] :=
  closedFor_iff ⟨by simp, Or.inr (by decide +kernel)⟩ (by decide +kernel) (by decide +kernel)

lemma not_closedFor_of_error {k : ℕ} {s : List Char} {ts : List Term} {f : Fault}
    (h : derivativeTimes k s = .error f) : ¬ ClosedFor k s ts := by
  rintro ⟨-, r, us, hr, -⟩
  rw [h] at hr
  cases hr

/-- The text `x^5-2147483647*x-x`. -/
def leastCoefficient : List Char :=
  ['x', '^', '5', '-', '2', '1', '4', '7', '4', '8', '3', '6', '4', '7', '*', 'x', '-', 'x']

def leastTerms : List Term :=
  [⟨false, .power (.ofNat 5)⟩, ⟨true, .scaled (.ofNat 2147483647)⟩, ⟨true, .x⟩]

/-- The derivative of a constant is the empty text; a derivative that ends with the least `int`
is not accepted. -/
theorem closedFor_fails :
    (Spells ['1'] [⟨false, .constant (.ofNat 1)⟩] ∧ derivativeTimes 1 ['1'] = .ok [] ∧
      derivativeTimes 2 ['1'] = .error .emptyString ∧
      ¬ ClosedFor 2 ['1'] [⟨false, .constant (.ofNat 1)⟩]) ∧
    Spells leastCoefficient leastTerms ∧ (∀ t ∈ leastTerms, t.LiteralsFit) ∧
      derivativeTimes 1 leastCoefficient =
        .ok ['5', '*', 'x', '^', '4', '-', '2', '1', '4', '7', '4', '8', '3', '6', '4', '8'] ∧
      derivativeTimes 2 leastCoefficient = .error .stoiRange ∧
      ¬ ClosedFor 2 leastCoefficient leastTerms := by
  have hconstant : derivativeTimes 2 ['1'] = .error .emptyString := by decide +kernel
  have hleast : derivativeTimes 2 leastCoefficient = .error .stoiRange := by decide +kernel
  refine ⟨⟨⟨by simp, Or.inr (by decide +kernel)⟩, by decide +kernel, hconstant,
    not_closedFor_of_error hconstant⟩, ⟨by simp [leastTerms], Or.inr (by decide +kernel)⟩,
    by decide +kernel, by decide +kernel, hleast, not_closedFor_of_error hleast⟩

end UnixProgramming.Derivative
