import UnixProgramming.DerivativeOverflow

/-! `derivative` on texts that are not polynomials: what stands between a term and the next
sign is skipped, and a sign without a term, such as one before a blank, is only a constant. -/
namespace UnixProgramming.Derivative
open MachineInt RegexSearch

/-- A sign with or without a term, and the text up to the next sign. This text does not begin
with a character that the pattern would still take: a digit, `*`, `x` or `^`. -/
structure Piece where
  negative : Bool
  body : Option Body
  skipped : List Char
  unsigned : ∀ c ∈ skipped, c ≠ '+' ∧ c ≠ '-'
  ends : EndsTerm skipped

def Piece.term (p : Piece) : Option Term := p.body.map (Term.mk p.negative)

def Piece.sign (p : Piece) : Char := if p.negative then '-' else '+'

def Piece.text (p : Piece) : List Char :=
  p.sign :: ((p.body.map Body.text).getD [] ++ p.skipped)

def pieceText (ps : List Piece) : List Char := ps.flatMap Piece.text

def Piece.captures (p : Piece) : List (List Char) :=
  (p.term.map Term.captures).getD [[p.sign], [], [], []]

/-- What a piece adds to a constant at most. -/
def Piece.weight (p : Piece) : ℕ :=
  match p.body with
  | none => 1
  | some b => if b.exponent = 0 then b.scale else 0

lemma Piece.sign_eq (p : Piece) : p.sign = '+' ∨ p.sign = '-' := by
  unfold sign
  split_ifs <;> simp

/-- The search goes on to the next sign. -/
lemma findAll_skipped {skipped : List Char} (h : ∀ c ∈ skipped, c ≠ '+' ∧ c ≠ '-')
    (s : List Char) : findAll reg (skipped ++ s) = findAll reg s := by
  induction skipped with
  | nil => rfl
  | cons c skipped ih =>
    obtain ⟨⟨hplus, hminus⟩, hskipped⟩ := List.forall_mem_cons.mp h
    have hnone : reg.run (c :: (skipped ++ s)) = [] := by
      simp [reg, Pattern.run, hplus, hminus]
    rw [List.cons_append, findAll_of_find_none (by rw [hnone]; rfl)]
    exact ih hskipped

lemma endsTerm_append {skipped s : List Char} (h : EndsTerm skipped) (hs : AtSign s) :
    EndsTerm (skipped ++ s) := by
  cases skipped with
  | nil => exact hs.endsTerm
  | cons c skipped => exact h

lemma atSign_pieceText (ps : List Piece) : AtSign (pieceText ps) := by
  cases ps with
  | nil => simp [AtSign, pieceText]
  | cons p ps =>
    intro c hc
    have hsign : p.sign = c := by simpa [pieceText, Piece.text] using hc
    rw [← hsign]
    exact p.sign_eq

lemma first_piece (p : Piece) {s : List Char} (hs : AtSign s) :
    reg.first (p.text ++ s) = some (p.captures, p.skipped ++ s) := by
  obtain ⟨negative, body, skipped, hunsigned, hends⟩ := p
  have hends := endsTerm_append hends hs
  cases body with
  | some b =>
    have hfirst := first_term ⟨negative, b⟩ hends
    simpa [Piece.text, Piece.captures, Piece.term, Piece.sign, Term.text, Term.sign] using hfirst
  | none =>
    have hsign : (if negative then '-' else '+') = '+' ∨ (if negative then '-' else '+') = '-' := by
      split_ifs <;> simp
    exact first_reg (d := []) (p := []) (x := []) (q := []) (e := []) hsign (by simp)
      (fun c hc => (hends c hc).1) (.inr ⟨rfl, fun c hc => (hends c hc).2.1⟩)
      (.inr ⟨rfl, fun c hc => (hends c hc).2.2.1⟩) (.inr ⟨rfl, fun c hc => (hends c hc).2.2.2⟩)
      (by simp) (fun c hc => (hends c hc).1)

lemma findAll_pieceText (ps : List Piece) : findAll reg (pieceText ps) = ps.map Piece.captures := by
  induction ps with
  | nil => simp [pieceText, findAll]
  | cons p ps ih =>
    have hfirst := first_piece p (atSign_pieceText ps)
    rw [List.map_cons, ← ih, ← findAll_skipped p.unsigned (pieceText ps)]
    change findAll reg (p.text ++ pieceText ps) = _
    rw [Piece.text, List.cons_append] at hfirst ⊢
    exact findAll_of_first hfirst (by simp)

lemma parsed_sign (negative : Bool) :
    parsed [[if negative then '-' else '+'], [], [], []] =
      .ok (if negative then -1 else 1, 0) := by
  cases negative <;> rfl

lemma collect_sign (m : OrderedMap ℤ ℤ) (negative : Bool) :
    collect m [[if negative then '-' else '+'], [], [], []] =
      (checked Fault.intOverflow (m.getD 0 0 + if negative then -1 else 1)).map (m.set 0) := by
  rw [collect_eq, parsed_sign]
  rfl

/-- The maps agree but for the constant of the polynomial. -/
def Agree (m m' : OrderedMap ℤ ℤ) : Prop := ∀ x : ℤ × ℤ, x.1 ≠ 0 → (x ∈ m ↔ x ∈ m')

lemma Agree.getD {m m' : OrderedMap ℤ ℤ} (h : Agree m m') {k : ℤ} (hk : k ≠ 0) :
    m.getD k 0 = m'.getD k 0 := by
  by_cases hv : ∃ v, (k, v) ∈ m
  · obtain ⟨v, hv⟩ := hv
    rw [OrderedMap.getD_of_mem hv, OrderedMap.getD_of_mem ((h (k, v) hk).mp hv)]
  · have hne : ∀ x ∈ m, x.1 ≠ k := fun x hx he => hv ⟨x.2, by rw [← he]; exact hx⟩
    have hne' : ∀ x ∈ m', x.1 ≠ k := by
      rintro ⟨k', v⟩ hx rfl
      exact hne _ ((h _ hk).mpr hx) rfl
    rw [OrderedMap.getD_of_forall_ne hne, OrderedMap.getD_of_forall_ne hne']

lemma Agree.set {m m' : OrderedMap ℤ ℤ} (h : Agree m m') (k v : ℤ) :
    Agree (m.set k v) (m'.set k v) := by
  intro x hx
  rw [OrderedMap.mem_set, OrderedMap.mem_set, h x hx]

lemma Agree.set_zero {m m' : OrderedMap ℤ ℤ} (h : Agree m m') (v : ℤ) : Agree (m.set 0 v) m' := by
  intro x hx
  rw [OrderedMap.mem_set, h x hx]
  constructor
  · rintro (rfl | ⟨hm, -⟩)
    · exact absurd rfl hx
    · exact hm
  · exact fun hm => Or.inr ⟨hm, hx⟩

lemma Agree.symm {m m' : OrderedMap ℤ ℤ} (h : Agree m m') : Agree m' m :=
  fun x hx => (h x hx).symm

/-- The entries that are printed. -/
def printedEntries (m : OrderedMap ℤ ℤ) : List (ℤ × ℤ) :=
  m.elems.reverse.filter fun x => x.1 ≠ 0

lemma Agree.printedEntries_eq {m m' : OrderedMap ℤ ℤ} (h : Agree m m') :
    printedEntries m = printedEntries m' := by
  have hsorted : ∀ m : OrderedMap ℤ ℤ, (printedEntries m).Pairwise fun x y => y.1 < x.1 :=
    fun m => (List.pairwise_reverse.mpr m.sorted).filter _
  have hirrefl : Std.Irrefl fun x y : ℤ × ℤ => y.1 < x.1 := ⟨fun x => lt_irrefl _⟩
  have hantisymm : Std.Antisymm fun x y : ℤ × ℤ => y.1 < x.1 :=
    ⟨fun x y hxy hyx => absurd hyx hxy.asymm⟩
  refine (hsorted m).eq_of_mem_iff (hsorted m') fun x => ?_
  simp only [printedEntries, List.mem_filter, List.mem_reverse, decide_eq_true_eq]
  exact and_congr_left fun hx => h x hx

lemma printAll_printedEntries (entries : List (ℤ × ℤ)) (r : List Char) :
    entries.foldlM print r = (entries.filter fun x => x.1 ≠ 0).foldlM print r := by
  induction entries generalizing r with
  | nil => rfl
  | cons x entries ih =>
    by_cases hx : x.1 = 0
    · rw [List.filter_cons_of_neg (by simpa using hx), ← ih, List.foldlM_cons, print, if_pos hx]
      rfl
    · rw [List.filter_cons_of_pos (by simpa using hx), List.foldlM_cons, List.foldlM_cons]
      exact bind_congr fun r => ih r

/-- The constants stay in range while the pieces are read. -/
def RoomFor (ps : List Piece) (m : OrderedMap ℤ ℤ) : Prop :=
  |m.getD 0 0| + ((ps.map Piece.weight).sum : ℕ) ≤ 2^31 - 1

lemma RoomFor.add {p : Piece} {ps : List Piece} {m : OrderedMap ℤ ℤ} (h : RoomFor (p :: ps) m)
    {c : ℤ} (hc : |c| ≤ p.weight) :
    checked Fault.intOverflow (m.getD 0 0 + c) = .ok (m.getD 0 0 + c) ∧
      RoomFor ps (m.set 0 (m.getD 0 0 + c)) := by
  have hle := abs_add_le (m.getD 0 0) c
  simp only [RoomFor, List.map_cons, List.sum_cons, Nat.cast_add] at h
  refine ⟨checked_of_isInt (isInt_of_abs_le (by omega)), ?_⟩
  rw [RoomFor, OrderedMap.getD_set, if_pos rfl]
  omega

lemma RoomFor.skip {p : Piece} {ps : List Piece} {m : OrderedMap ℤ ℤ} (h : RoomFor (p :: ps) m)
    {k : ℤ} (hk : k ≠ 0) (v : ℤ) : RoomFor ps (m.set k v) := by
  simp only [RoomFor, List.map_cons, List.sum_cons, Nat.cast_add] at h
  rw [RoomFor, OrderedMap.getD_set, if_neg hk.symm]
  omega

lemma RoomFor.tail {p : Piece} {ps : List Piece} {m : OrderedMap ℤ ℤ} (h : RoomFor (p :: ps) m) :
    RoomFor ps m := by
  simp only [RoomFor, List.map_cons, List.sum_cons, Nat.cast_add] at h ⊢
  omega

/-- Both lists are collected to maps that agree, or fail with the same fault. -/
def SameResult (r r' : Except Fault (OrderedMap ℤ ℤ)) : Prop :=
  (∃ m m', r = .ok m ∧ r' = .ok m' ∧ Agree m m') ∨ ∃ f, r = .error f ∧ r' = .error f

lemma collect_pieces {ps : List Piece} {m m' : OrderedMap ℤ ℤ} (h : Agree m m')
    (hroom : RoomFor ps m) (hroom' : RoomFor ps m') :
    SameResult ((ps.map Piece.captures).foldlM collect m)
      (((ps.filterMap Piece.term).map Term.captures).foldlM collect m') := by
  induction ps generalizing m m' with
  | nil => exact Or.inl ⟨m, m', rfl, rfl, h⟩
  | cons p ps ih =>
    rw [List.map_cons, List.foldlM_cons]
    cases hbody : p.body with
    | none =>
      have hterm : p.term = none := by simp [Piece.term, hbody]
      have hcaptures : p.captures = [[if p.negative then '-' else '+'], [], [], []] := by
        simp [Piece.captures, hterm, Piece.sign]
      have hone : |if p.negative then (-1 : ℤ) else 1| ≤ p.weight := by
        simp only [Piece.weight, hbody]
        split_ifs <;> simp
      obtain ⟨hchecked, hnext⟩ := hroom.add hone
      rw [List.filterMap_cons_none hterm, hcaptures, collect_sign, hchecked]
      exact ih (h.set_zero _) hnext hroom'.tail
    | some b =>
      have hterm : p.term = some ⟨p.negative, b⟩ := by simp [Piece.term, hbody]
      have hcaptures : p.captures = Term.captures ⟨p.negative, b⟩ := by
        simp [Piece.captures, hterm]
      set t : Term := ⟨p.negative, b⟩ with ht
      rw [List.filterMap_cons_some hterm, List.map_cons, List.foldlM_cons, hcaptures,
        collect_captures, collect_captures]
      by_cases hfit : t.LiteralsFit
      · rw [if_pos hfit, if_pos hfit]
        by_cases hzero : t.exponent = 0
        · have hweight : |t.coefficient| ≤ p.weight := by
            have hb : b.exponent = 0 := hzero
            simp only [Piece.weight, hbody, hb, if_true, Term.coefficient]
            split_ifs <;> simp [ht]
          obtain ⟨hchecked, hnext⟩ := hroom.add hweight
          obtain ⟨hchecked', hnext'⟩ := hroom'.add hweight
          rw [hzero, Nat.cast_zero, hchecked, hchecked']
          exact ih ((h.set_zero _).symm.set_zero _).symm hnext hnext'
        · have hk : (t.exponent : ℤ) ≠ 0 := by exact_mod_cast hzero
          rw [h.getD hk]
          cases checked Fault.intOverflow (m'.getD t.exponent 0 + t.coefficient) with
          | error f => exact Or.inr ⟨f, rfl, rfl⟩
          | ok z => exact ih (h.set _ z) (hroom.skip hk z) (hroom'.skip hk z)
      · rw [if_neg hfit, if_neg hfit]
        exact Or.inr ⟨_, rfl, rfl⟩

/-- Only the signs and the terms right after them count, as long as the absolute values of the
constants add up to an `int`: the result is that of these terms alone. A term that a blank
separates from its sign is lost. -/
theorem derivative_skips (s : List Char) (ps : List Piece) (hs : withSign s = .ok (pieceText ps))
    (hconstants : (ps.map Piece.weight).sum ≤ 2^31 - 1) :
    derivative s =
      if ps.filterMap Piece.term = [] then .ok []
      else derivative (signedText (ps.filterMap Piece.term)) := by
  have hroom : RoomFor ps OrderedSet.empty := by
    have hzero : OrderedMap.getD (OrderedSet.empty : OrderedMap ℤ ℤ) 0 0 = 0 := getD_empty 0
    rw [RoomFor, hzero, abs_zero]
    omega
  have hcollect := collect_pieces (fun _ _ => Iff.rfl) hroom hroom
  have hleft : derivative s = (ps.map Piece.captures).foldlM collect OrderedSet.empty >>=
      fun m => m.elems.reverse.foldlM print [] := by
    rw [derivative, hs, ← findAll_pieceText]
    rfl
  have hright : (((ps.filterMap Piece.term).map Term.captures).foldlM collect OrderedSet.empty >>=
      fun m => m.elems.reverse.foldlM print []) =
      if ps.filterMap Piece.term = [] then .ok []
      else derivative (signedText (ps.filterMap Piece.term)) := by
    split_ifs with hempty
    · rw [hempty]
      rfl
    · rw [derivative_of_spells ⟨hempty, Or.inl rfl⟩]
  rw [hleft, ← hright]
  rcases hcollect with ⟨m, m', hm, hm', hagree⟩ | ⟨f, hm, hm'⟩
  · rw [hm, hm']
    change m.elems.reverse.foldlM print [] = m'.elems.reverse.foldlM print []
    rw [printAll_printedEntries, printAll_printedEntries m'.elems.reverse]
    exact congrArg (fun entries => entries.foldlM print []) hagree.printedEntries_eq
  · rw [hm, hm']

theorem derivative_skips_blanks :
    derivative ['x', '^', '2', ' ', '+', ' ', 'x'] = derivative ['+', 'x', '^', '2'] ∧
      derivative ['x', '^', '2', ' ', '+', ' ', 'x'] = .ok ['2', '*', 'x'] := by
  have hskips := derivative_skips ['x', '^', '2', ' ', '+', ' ', 'x']
    [⟨false, some (.power (.ofNat 2)), [' '], by simp, by simp [EndsTerm]⟩,
      ⟨false, none, [' ', 'x'], by simp, by simp [EndsTerm]⟩]
    (by decide +kernel) (by decide +kernel)
  exact ⟨hskips, hskips.trans (by decide +kernel)⟩

end UnixProgramming.Derivative
