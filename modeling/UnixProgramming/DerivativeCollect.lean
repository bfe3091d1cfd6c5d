import UnixProgramming.DerivativeTokens

/-! The loop that collects like terms: what the map holds after any list of terms, when
the loop succeeds, and how it can fail. -/
namespace UnixProgramming.Derivative
open MachineInt RegexSearch Polynomial

def Term.LiteralsFit (t : Term) : Prop := ∀ d ∈ t.body.literals, d.value ≤ 2^31 - 1

instance (t : Term) : Decidable t.LiteralsFit :=
  inferInstanceAs (Decidable (∀ d ∈ t.body.literals, _))

def Fits (d : Option Literal) : Prop := ∀ l ∈ d, l.value ≤ 2^31 - 1

instance (d : Option Literal) : Decidable (Fits d) := inferInstanceAs (Decidable (∀ l ∈ d, _))

lemma Term.literalsFit_iff (t : Term) :
    t.LiteralsFit ↔ Fits t.body.coefficient? ∧ Fits t.body.exponent? := by
  simp [Term.LiteralsFit, Body.literals, Fits, or_imp, forall_and]

lemma stoi_digits (l : Literal) :
    stoi l.digits = if l.value ≤ 2^31 - 1 then .ok (l.value : ℤ) else .error .stoiRange := by
  have htake : l.digits.takeWhile Char.isDigit = l.digits :=
    List.takeWhile_eq_self_iff.mpr l.decimal
  have hiff : IsInt (Nat.ofDigitChars 10 l.digits 0) ↔ l.value ≤ 2^31 - 1 := by
    simp only [IsInt, Literal.value]
    omega
  simp only [stoi, htake, l.nonempty, ↓reduceIte, hiff]
  rfl

lemma stringToInt_digitsOf (d : Option Literal) (defaultValue : ℕ) :
    stringToInt (digitsOf d) defaultValue =
      if Fits d then .ok (((d.map Literal.value).getD defaultValue : ℕ) : ℤ)
      else .error .stoiRange := by
  cases d with
  | none => simp [digitsOf, stringToInt, Fits]
  | some l => simp [digitsOf, stringToInt, Fits, l.nonempty, stoi_digits]

lemma fits_scale {b : Body} (h : Fits b.coefficient?) : b.scale ≤ 2^31 - 1 := by
  unfold Body.scale
  cases hb : b.coefficient? with
  | none => simp
  | some l => exact h l hb

lemma applySign_sign {t : Term} (h : t.body.scale ≤ 2^31 - 1) :
    applySign [t.sign] t.body.scale = .ok t.coefficient := by
  cases hn : t.negative with
  | false => simp [applySign, Term.sign, Term.coefficient, hn]
  | true =>
    rw [applySign, if_pos (by simp [Term.sign, hn]), checked_of_isInt (by constructor <;> omega)]
    simp [Term.coefficient, hn]

lemma Term.exponent_le {t : Term} (h : t.LiteralsFit) : t.exponent ≤ 2^31 - 1 := by
  have he := (t.literalsFit_iff.mp h).2
  unfold Term.exponent Body.exponent
  cases hb : t.body.exponent? with
  | none => cases t.body.hasX <;> simp
  | some l => exact he l hb

/-- The coefficient and the exponent that the loop takes from a match. -/
def parsed (m : List (List Char)) : Except Fault (ℤ × ℤ) := do
  let constant ← stringToInt (str m 2) 1
  let constant ← applySign (str m 1) constant
  let minPow := if str m 3 ≠ [] then 1 else 0
  let pow ← stringToInt (str m 4) minPow
  return (constant, pow)

lemma collect_eq (constantByPow : OrderedMap ℤ ℤ) (m : List (List Char)) :
    collect constantByPow m = parsed m >>= fun entry =>
      (checked Fault.intOverflow (constantByPow.getD entry.2 0 + entry.1)).map
        (constantByPow.set entry.2) := by
  simp only [collect, parsed, bind_assoc, pure_bind]
  rfl

lemma parsed_captures (t : Term) :
    parsed t.captures =
      if t.LiteralsFit then .ok (t.coefficient, (t.exponent : ℤ)) else .error .stoiRange := by
  have hx : (if (if t.body.hasX then ['x'] else []) ≠ ([] : List Char) then (1 : ℤ) else 0) =
      ((if t.body.hasX then 1 else 0 : ℕ) : ℤ) := by
    cases t.body.hasX <;> rfl
  have hd : stringToInt (digitsOf t.body.coefficient?) 1 =
      if Fits t.body.coefficient? then .ok (t.body.scale : ℤ) else .error .stoiRange :=
    stringToInt_digitsOf t.body.coefficient? 1
  have he : stringToInt (digitsOf t.body.exponent?) ((if t.body.hasX then 1 else 0 : ℕ) : ℤ) =
      if Fits t.body.exponent? then .ok (t.exponent : ℤ) else .error .stoiRange :=
    stringToInt_digitsOf t.body.exponent? _
  simp only [parsed, str, Term.captures, List.getD_cons_succ, List.getD_cons_zero, Nat.reduceSub,
    hx, hd, he, Term.literalsFit_iff]
  by_cases hc : Fits t.body.coefficient?
  · by_cases hp : Fits t.body.exponent?
    · simp only [hc, hp, and_self, ↓reduceIte, Except.bind, bind, applySign_sign (fits_scale hc)]
      rfl
    · simp only [hc, hp, and_false, ↓reduceIte, Except.bind, bind, applySign_sign (fits_scale hc)]
  · simp only [hc, false_and, ↓reduceIte, Except.bind, bind]

/-- Tokenizing undoes rendering: the matches are the terms, they cover the text, and their
groups give the coefficients and exponents. -/
theorem matches_of_render (ts : List Term) (hlit : ∀ t ∈ ts, t.LiteralsFit) :
    wholeMatches (signedText ts) = ts.map (fun t => t.text :: t.captures) ∧
      (wholeMatches (signedText ts)).flatMap (fun m => m.headD []) = signedText ts ∧
      (findAll reg (signedText ts)).mapM parsed =
        .ok (ts.map fun t => (t.coefficient, (t.exponent : ℤ))) := by
  refine ⟨wholeMatches_signedText ts, ?_, ?_⟩
  · rw [wholeMatches_signedText, List.flatMap_map]
    rfl
  · rw [findAll_signedText]
    induction ts with
    | nil => rfl
    | cons t ts ih =>
      obtain ⟨ht, hts⟩ := List.forall_mem_cons.mp hlit
      rw [List.map_cons, List.mapM_cons, parsed_captures, if_pos ht, ih hts]
      rfl

theorem matches_of_render_signed :
    wholeMatches ['-', '3', '*', 'x', '+', 'x', '^', '2'] =
        [['-', '3', '*', 'x'] :: [['-'], ['3'], ['x'], []],
          ['+', 'x', '^', '2'] :: [['+'], [], ['x'], ['2']]] ∧
      (wholeMatches ['-', '3', '*', 'x', '+', 'x', '^', '2']).flatMap (fun m => m.headD []) =
        ['-', '3', '*', 'x', '+', 'x', '^', '2'] ∧
      (findAll reg ['-', '3', '*', 'x', '+', 'x', '^', '2']).mapM parsed =
        .ok [(-3, 1), (1, 2)] := by
  have h := matches_of_render [⟨true, .scaled (.ofNat 3)⟩, ⟨false, .power (.ofNat 2)⟩]
    (by decide +kernel)
  have h3 : Nat.toDigits 10 3 = ['3'] := by decide +kernel
  have h2 : Nat.toDigits 10 2 = ['2'] := by decide +kernel
  simpa [Term.text, Body.text, Term.sign, Literal.ofNat, h3, h2, Term.captures, digitsOf,
    Body.coefficient?, Body.exponent?, Body.hasX, Term.coefficient, Term.exponent, Body.scale,
    Body.exponent, Literal.value, Nat.ofDigitChars] using h

lemma collect_captures (m : OrderedMap ℤ ℤ) (t : Term) :
    collect m t.captures =
      if t.LiteralsFit then
        (checked Fault.intOverflow (m.getD t.exponent 0 + t.coefficient)).map (m.set t.exponent)
      else .error .stoiRange := by
  rw [collect_eq, parsed_captures]
  split_ifs
  · rfl
  · rfl

noncomputable def mapDenote (m : OrderedMap ℤ ℤ) : ℤ[X] :=
  (m.elems.map fun x => monomial x.1.toNat x.2).sum

lemma mapDenote_set (m : OrderedMap ℤ ℤ) (e : ℕ) (c : ℤ) :
    mapDenote (m.set e (m.getD e 0 + c)) = mapDenote m + monomial e c := by
  have hfresh : ∀ x ∈ OrderedSet.erase (e : ℤ) m, x.1 ≠ ((e : ℤ), m.getD e 0 + c).1 :=
    fun x hx => (OrderedSet.mem_erase.mp hx).2
  have hset : mapDenote (m.set e (m.getD e 0 + c)) = monomial e (m.getD e 0 + c) +
      ((OrderedSet.erase (e : ℤ) m).elems.map fun x => monomial x.1.toNat x.2).sum := by
    rw [mapDenote, OrderedMap.set, ((OrderedSet.insert_perm hfresh).map _).sum_eq]
    simp
  rw [hset]
  by_cases h : ∃ v, ((e : ℤ), v) ∈ m
  · obtain ⟨v, hv⟩ := h
    have hm : mapDenote m = monomial e v +
        ((OrderedSet.erase (e : ℤ) m).elems.map fun x => monomial x.1.toNat x.2).sum := by
      rw [mapDenote, ((OrderedSet.erase_perm hv).map _).sum_eq]
      simp
    rw [hm, OrderedMap.getD_of_mem hv, map_add]
    ring
  · have hne : ∀ x ∈ m, x.1 ≠ (e : ℤ) := fun x hx he => h ⟨x.2, by rw [← he]; exact hx⟩
    rw [OrderedMap.getD_of_forall_ne hne, OrderedSet.erase_of_forall_ne hne, mapDenote, zero_add,
      add_comm]

lemma getD_add (m : OrderedMap ℤ ℤ) (t : Term) (e : ℕ) :
    (m.set t.exponent (m.getD t.exponent 0 + t.coefficient)).getD e 0 =
      m.getD e 0 + if t.exponent = e then t.coefficient else 0 := by
  rw [OrderedMap.getD_set]
  by_cases he : t.exponent = e
  · simp [he]
  · have : ¬ (e : ℤ) = t.exponent := fun hc => he (by exact_mod_cast hc.symm)
    simp [he, this]

/-- What the map holds once the terms `ts` have been added to it. -/
structure Collected (m m' : OrderedMap ℤ ℤ) (ts : List Term) : Prop where
  sums : ∀ e : ℕ, m'.getD e 0 = m.getD e 0 + sumAt ts e
  keys : ∀ k, (∃ v, (k, v) ∈ m') ↔ (∃ v, (k, v) ∈ m) ∨ ∃ t ∈ ts, (t.exponent : ℤ) = k
  denotes : mapDenote m' = mapDenote m + denote ts

lemma Collected.nil (m : OrderedMap ℤ ℤ) : Collected m m [] := ⟨by simp, by simp, by simp⟩

lemma Collected.cons {m m' : OrderedMap ℤ ℤ} {t : Term} {ts : List Term}
    (h : Collected (m.set t.exponent (m.getD t.exponent 0 + t.coefficient)) m' ts) :
    Collected m m' (t :: ts) where
  sums := by
    intro e
    rw [h.sums e, getD_add, sumAt_cons, add_assoc]
  keys := by
    intro k
    rw [h.keys k]
    simp only [OrderedMap.mem_set, List.mem_cons, exists_eq_or_imp]
    constructor
    · rintro (⟨v, hv | ⟨hv, _⟩⟩ | hr)
      · exact Or.inr (Or.inl (congrArg Prod.fst hv).symm)
      · exact Or.inl ⟨v, hv⟩
      · exact Or.inr (Or.inr hr)
    · rintro (⟨v, hv⟩ | rfl | hr)
      · by_cases hk : k = t.exponent
        · exact Or.inl ⟨_, Or.inl (by rw [hk])⟩
        · exact Or.inl ⟨v, Or.inr ⟨hv, hk⟩⟩
      · exact Or.inl ⟨_, Or.inl rfl⟩
      · exact Or.inr hr
  denotes := by
    rw [h.denotes, mapDenote_set, denote_cons]
    ring

lemma Collected.mem_key {m : OrderedMap ℤ ℤ} {ts : List Term}
    (h : Collected OrderedSet.empty m ts) {k : ℤ} :
    (∃ v, (k, v) ∈ m) ↔ ∃ t ∈ ts, (t.exponent : ℤ) = k := by
  rw [h.keys k]
  constructor
  · rintro (⟨v, hv⟩ | ht)
    · cases hv
    · exact ht
  · exact Or.inr

lemma Collected.mem_iff {m : OrderedMap ℤ ℤ} {ts : List Term}
    (h : Collected OrderedSet.empty m ts) {k v : ℤ} :
    (k, v) ∈ m ↔ ∃ t ∈ ts, (t.exponent : ℤ) = k ∧ sumAt ts t.exponent = v := by
  have hget : ∀ e : ℕ, m.getD e 0 = sumAt ts e := fun e => (h.sums e).trans (zero_add _)
  constructor
  · intro hv
    obtain ⟨t, ht, rfl⟩ := h.mem_key.mp ⟨v, hv⟩
    exact ⟨t, ht, rfl, by rw [← hget, OrderedMap.getD_of_mem hv]⟩
  · rintro ⟨t, ht, rfl, rfl⟩
    obtain ⟨v, hv⟩ := h.mem_key.mpr ⟨t, ht, rfl⟩
    rwa [← hget, OrderedMap.getD_of_mem hv]

lemma Collected.key_nonneg {m : OrderedMap ℤ ℤ} {ts : List Term}
    (h : Collected OrderedSet.empty m ts) {x : ℤ × ℤ} (hx : x ∈ m) : 0 ≤ x.1 := by
  obtain ⟨t, _, ht⟩ := h.mem_key.mp ⟨x.2, hx⟩
  omega

theorem collect_ok {m m' : OrderedMap ℤ ℤ} {ts : List Term}
    (h : (ts.map Term.captures).foldlM collect m = .ok m') : Collected m m' ts := by
  induction ts generalizing m with
  | nil =>
    obtain rfl : m = m' := Except.ok.inj h
    exact Collected.nil m
  | cons t ts ih =>
    simp only [List.map_cons, List.foldlM_cons, collect_captures] at h
    split_ifs at h with hfit
    · cases hc : checked Fault.intOverflow (m.getD t.exponent 0 + t.coefficient) with
      | error f => rw [hc] at h; cases h
      | ok z =>
        rw [hc] at h
        obtain ⟨rfl, _⟩ := checked_eq_ok hc
        exact (ih h).cons
    · cases h

lemma literalsFit_of_collect {m m' : OrderedMap ℤ ℤ} {ts : List Term}
    (h : (ts.map Term.captures).foldlM collect m = .ok m') : ∀ t ∈ ts, t.LiteralsFit := by
  induction ts generalizing m with
  | nil => simp
  | cons t ts ih =>
    simp only [List.map_cons, List.foldlM_cons, collect_captures] at h
    split_ifs at h with hfit
    · obtain ⟨next, -, h⟩ := bind_eq_ok h
      exact List.forall_mem_cons.mpr ⟨hfit, ih h⟩
    · cases h

/-- The loop succeeds exactly when every sum on the way is representable. -/
theorem collect_isOk_iff {m : OrderedMap ℤ ℤ} {ts : List Term} (hlit : ∀ t ∈ ts, t.LiteralsFit)
    (hm : ∀ e : ℕ, IsInt (m.getD e 0)) :
    (∃ m', (ts.map Term.captures).foldlM collect m = .ok m') ↔
      ∀ k e, IsInt (m.getD (e : ℕ) 0 + sumAt (ts.take k) e) := by
  induction ts generalizing m with
  | nil =>
    constructor
    · intro _ k e
      simpa using hm e
    · intro _
      exact ⟨m, rfl⟩
  | cons t ts ih =>
    obtain ⟨ht, hts⟩ := List.forall_mem_cons.mp hlit
    simp only [List.map_cons, List.foldlM_cons, collect_captures, if_pos ht]
    by_cases h : IsInt (m.getD t.exponent 0 + t.coefficient)
    · have hset : ∀ e : ℕ, IsInt
          ((m.set t.exponent (m.getD t.exponent 0 + t.coefficient)).getD e 0) := by
        intro e
        rw [OrderedMap.getD_set]
        split_ifs
        · exact h
        · exact hm e
      have hih := ih hts hset
      simp only [getD_add, add_assoc, ← sumAt_cons, ← List.take_succ_cons] at hih
      rw [checked_of_isInt h]
      refine hih.trans ⟨fun hall k e => ?_, fun hall k e => hall (k + 1) e⟩
      cases k with
      | zero => simpa using hm e
      | succ k => exact hall k e
    · rw [checked, if_neg h]
      constructor
      · rintro ⟨m', hm'⟩
        cases hm'
      · intro hall
        have hfirst := hall 1 t.exponent
        simp only [List.take_succ_cons, List.take_zero, sumAt_cons, ↓reduceIte, sumAt_nil,
          add_zero] at hfirst
        exact absurd hfirst h

/-- The loop fails on grammatical input only because a number does not fit. -/
theorem collect_error {m : OrderedMap ℤ ℤ} {ts : List Term} {f : Fault}
    (h : (ts.map Term.captures).foldlM collect m = .error f) :
    (f = .stoiRange ∧ ∃ t ∈ ts, ¬ t.LiteralsFit) ∨ f = .intOverflow := by
  induction ts generalizing m with
  | nil => cases h
  | cons t ts ih =>
    simp only [List.map_cons, List.foldlM_cons, collect_captures] at h
    split_ifs at h with hfit
    · cases hc : checked Fault.intOverflow (m.getD t.exponent 0 + t.coefficient) with
      | error g =>
        rw [hc] at h
        cases h
        exact Or.inr (checked_eq_error hc)
      | ok z =>
        rw [hc] at h
        rcases ih h with ⟨hf, u, hu, hfit⟩ | hf
        · exact Or.inl ⟨hf, u, List.mem_cons_of_mem t hu, hfit⟩
        · exact Or.inr hf
    · cases h
      exact Or.inl ⟨rfl, t, by simp, hfit⟩

end UnixProgramming.Derivative
