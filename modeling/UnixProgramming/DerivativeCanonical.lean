import UnixProgramming.DerivativeCorrect

/-! When two texts of one polynomial have the same derivative text: terms of one exponent
are merged, but an exponent stays in the map after its terms have cancelled. -/
namespace UnixProgramming.Derivative

/-- Every positive exponent written in one list is written in the other. -/
def SameExponents (ts ts' : List Term) : Prop :=
  ∀ n, (∃ t ∈ ts, t.exponent = n + 1) ↔ ∃ t ∈ ts', t.exponent = n + 1

lemma SameExponents.symm {ts ts' : List Term} (h : SameExponents ts ts') : SameExponents ts' ts :=
  fun n => (h n).symm

lemma mem_printed {m m' : OrderedMap ℤ ℤ} {ts ts' : List Term}
    (h : Collected OrderedSet.empty m ts) (h' : Collected OrderedSet.empty m' ts')
    (hden : denote ts = denote ts') (hexp : SameExponents ts ts') {u : Term}
    (hu : u ∈ m.elems.reverse.filterMap printedTerm) :
    u ∈ m'.elems.reverse.filterMap printedTerm := by
  obtain ⟨⟨k, v⟩, hx, hxu⟩ := List.mem_filterMap.mp hu
  obtain ⟨t, ht, rfl, rfl⟩ := h.mem_iff.mp (List.mem_reverse.mp hx)
  have h0 : t.exponent ≠ 0 := by
    intro h0
    simp [printedTerm, h0] at hxu
  obtain ⟨n, hn⟩ := Nat.exists_eq_succ_of_ne_zero h0
  obtain ⟨t', ht', hte⟩ := (hexp n).mp ⟨t, ht, hn⟩
  have hsame : t'.exponent = t.exponent := hte.trans hn.symm
  have hsum : sumAt ts' t'.exponent = sumAt ts t.exponent := by
    rw [hsame, ← coeff_denote, ← hden, coeff_denote]
  have hmem : ((t.exponent : ℤ), sumAt ts t.exponent) ∈ m' :=
    h'.mem_iff.mpr ⟨t', ht', by rw [hsame], hsum⟩
  exact List.mem_filterMap.mpr ⟨_, List.mem_reverse.mpr hmem, hxu⟩

lemma printed_eq {m m' : OrderedMap ℤ ℤ} {ts ts' : List Term}
    (h : Collected OrderedSet.empty m ts) (h' : Collected OrderedSet.empty m' ts')
    (hden : denote ts = denote ts') (hexp : SameExponents ts ts') :
    m.elems.reverse.filterMap printedTerm = m'.elems.reverse.filterMap printedTerm := by
  have hsub := fun u => mem_printed h h' hden hexp (u := u)
  have hsub' := fun u => mem_printed h' h hden.symm hexp.symm (u := u)
  have : Std.Irrefl fun u v : Term => v.exponent < u.exponent := ⟨fun u => lt_irrefl _⟩
  have : Std.Antisymm fun u v : Term => v.exponent < u.exponent :=
    ⟨fun u v huv hvu => absurd hvu huv.asymm⟩
  exact h.differentiates.decreasing.eq_of_mem_iff h'.differentiates.decreasing
    fun u => ⟨hsub u, hsub' u⟩

/-- Two texts of one polynomial have the same result exactly when the same positive
exponents are written in both: a cancelled exponent that is written is printed with a
zero coefficient. -/
theorem derivative_canonical_iff {s s' : List Char} {ts ts' : List Term} (hs : Spells s ts)
    (hs' : Spells s' ts') (hden : denote ts = denote ts')
    (hlit : ∀ t ∈ ts, t.LiteralsFit) (hlit' : ∀ t ∈ ts', t.LiteralsFit)
    (hno : derivative s ≠ .error .intOverflow) (hno' : derivative s' ≠ .error .intOverflow) :
    (∃ r, derivative s = .ok r ∧ derivative s' = .ok r) ↔ SameExponents ts ts' := by
  constructor
  · rintro ⟨r, hr, hr'⟩ n
    obtain ⟨us, hreads, hd⟩ := derivative_ok hs hr
    obtain ⟨us', hreads', hd'⟩ := derivative_ok hs' hr'
    obtain rfl := reads_unique hreads hreads'
    rw [← hd.exponents n, hd'.exponents n]
  · intro hexp
    obtain ⟨r, hr⟩ := derivative_total hs hlit hno
    obtain ⟨r', hr'⟩ := derivative_total hs' hlit' hno'
    obtain ⟨m, hc, rfl⟩ := derivative_printed hs hr
    obtain ⟨m', hc', rfl⟩ := derivative_printed hs' hr'
    exact ⟨_, hr, by rw [printed_eq hc hc' hden hexp]; exact hr'⟩

theorem derivative_canonical_iff_split :
    (∃ r, derivative ['x', '+', 'x'] = .ok r ∧ derivative ['2', '*', 'x'] = .ok r) ↔
      SameExponents [⟨false, .x⟩, ⟨false, .x⟩] [⟨false, .scaled (.ofNat 2)⟩] :=
  derivative_canonical_iff ⟨by simp, Or.inr (by decide +kernel)⟩
    ⟨by simp, Or.inr (by decide +kernel)⟩ (by
      simp [Term.exponent, Body.exponent, Body.exponent?, Body.hasX, Term.coefficient, Body.scale,
        Body.coefficient?, ← map_add])
    (by decide +kernel) (by decide +kernel) (by decide +kernel) (by decide +kernel)

theorem derivative_not_canonical :
    Spells ['x', '^', '2', '+', 'x', '-', 'x']
        [⟨false, .power (.ofNat 2)⟩, ⟨false, .x⟩, ⟨true, .x⟩] ∧
      Spells ['x', '^', '2'] [⟨false, .power (.ofNat 2)⟩] ∧
      denote [⟨false, .power (.ofNat 2)⟩, ⟨false, .x⟩, ⟨true, .x⟩] =
        denote [⟨false, .power (.ofNat 2)⟩] ∧
      (∀ t ∈ ([⟨false, .power (.ofNat 2)⟩, ⟨false, .x⟩, ⟨true, .x⟩] : List Term),
        t.LiteralsFit) ∧
      derivative ['x', '^', '2', '+', 'x', '-', 'x'] = .ok ['2', '*', 'x', '+', '0'] ∧
      derivative ['x', '^', '2'] = .ok ['2', '*', 'x'] := by
  refine ⟨⟨by simp, Or.inr (by decide +kernel)⟩, ⟨by simp, Or.inr (by decide +kernel)⟩, ?_,
    by decide +kernel, by decide +kernel, by decide +kernel⟩
  simp [Term.exponent, Body.exponent, Body.exponent?, Body.hasX, Term.coefficient, Body.scale,
    Body.coefficient?]

end UnixProgramming.Derivative
