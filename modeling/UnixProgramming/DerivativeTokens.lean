import UnixProgramming.DerivativeModel
import UnixProgramming.DerivativeGrammar

/-! The regular expression recovers the terms of a polynomial: every search resumes at
the sign of the next term, and greedy matching takes the whole term. -/
namespace UnixProgramming.Derivative
open MachineInt RegexSearch

def AtSign (s : List Char) : Prop := ∀ c ∈ s.head?, c = '+' ∨ c = '-'

def digitsOf (d : Option Literal) : List Char := (d.map Literal.digits).getD []

/-- The texts of groups 1 to 4 on a term. -/
def Term.captures (t : Term) : List (List Char) :=
  [[t.sign], digitsOf t.body.coefficient?, if t.body.hasX then ['x'] else [],
    digitsOf t.body.exponent?]

lemma Term.sign_eq (t : Term) : t.sign = '+' ∨ t.sign = '-' := by
  unfold Term.sign
  split_ifs <;> simp

lemma atSign_signedText (ts : List Term) : AtSign (signedText ts) := by
  cases ts with
  | nil => simp [AtSign]
  | cons t ts =>
    intro c hc
    have hsign : t.sign = c := by simpa [Term.text] using hc
    rw [← hsign]
    exact t.sign_eq

lemma AtSign.head_ne {s : List Char} (h : AtSign s) {c : Char} (hc : c ∈ s.head?) :
    c.isDigit = false ∧ c ≠ '*' ∧ c ≠ 'x' ∧ c ≠ '^' := by
  rcases h c hc with rfl | rfl <;> decide

lemma first_digits {d s : List Char} (hd : ∀ c ∈ d, c.isDigit = true)
    (hs : ∀ c ∈ s.head?, c.isDigit = false) :
    (Pattern.group (.star Char.isDigit)).first (d ++ s) = some ([d], s) := by
  apply first_group
  rw [first_star, List.dropWhile_append_of_pos hd]
  cases s with
  | nil => rfl
  | cons c cs => rw [List.dropWhile_cons_of_neg (by simp [hs c (by simp)])]

lemma first_optional {a : Char} {t s : List Char}
    (h : t = [a] ∨ (t = [] ∧ ∀ c ∈ s.head?, c ≠ a)) :
    (Pattern.opt (.char (· = a))).first (t ++ s) = some ([], s) := by
  rcases h with rfl | ⟨rfl, h⟩
  · exact first_opt_char (by simp)
  · exact first_opt_char_skip fun c hc => by simpa using h c hc

lemma first_sign {a : Char} (ha : a = '+' ∨ a = '-') (s : List Char) :
    (Pattern.group (.alt (.char (· = '+')) (.char (· = '-')))).first (a :: s) =
      some ([[a]], s) := by
  apply first_group (t := [a])
  rcases ha with rfl | rfl <;> simp [Pattern.first, Pattern.run, Pattern.groups]

lemma first_reg {a : Char} {d p x q e s : List Char} (ha : a = '+' ∨ a = '-')
    (hd : ∀ c ∈ d, c.isDigit = true)
    (hd' : ∀ c ∈ (p ++ (x ++ (q ++ (e ++ s)))).head?, c.isDigit = false)
    (hp : p = ['*'] ∨ (p = [] ∧ ∀ c ∈ (x ++ (q ++ (e ++ s))).head?, c ≠ '*'))
    (hx : x = ['x'] ∨ (x = [] ∧ ∀ c ∈ (q ++ (e ++ s)).head?, c ≠ 'x'))
    (hq : q = ['^'] ∨ (q = [] ∧ ∀ c ∈ (e ++ s).head?, c ≠ '^'))
    (he : ∀ c ∈ e, c.isDigit = true) (he' : ∀ c ∈ s.head?, c.isDigit = false) :
    reg.first (a :: (d ++ (p ++ (x ++ (q ++ (e ++ s)))))) =
      some ([[a], d, x, e], s) :=
  first_seq (first_sign ha _) (first_seq (first_digits hd hd') (first_seq (first_optional hp)
    (first_seq (first_group (first_optional hx)) (first_seq (first_optional hq)
      (first_digits he he')))))

/-- No term goes on with this text. -/
def EndsTerm (s : List Char) : Prop :=
  ∀ c ∈ s.head?, c.isDigit = false ∧ c ≠ '*' ∧ c ≠ 'x' ∧ c ≠ '^'

lemma AtSign.endsTerm {s : List Char} (h : AtSign s) : EndsTerm s := fun _ hc => h.head_ne hc

theorem first_term (t : Term) {s : List Char} (hs : EndsTerm s) :
    reg.first (t.text ++ s) = some (t.captures, s) := by
  have hsign := t.sign_eq
  have hdigit : ∀ c ∈ s.head?, c.isDigit = false := fun c hc => (hs c hc).1
  have hstar : ∀ c ∈ s.head?, c ≠ '*' := fun c hc => (hs c hc).2.1
  have hx : ∀ c ∈ s.head?, c ≠ 'x' := fun c hc => (hs c hc).2.2.1
  have hcaret : ∀ c ∈ s.head?, c ≠ '^' := fun c hc => (hs c hc).2.2.2
  obtain ⟨negative, body⟩ := t
  cases body with
  | constant d =>
    exact first_reg (p := []) (x := []) (q := []) (e := []) hsign d.decimal hdigit
      (.inr ⟨rfl, hstar⟩) (.inr ⟨rfl, hx⟩) (.inr ⟨rfl, hcaret⟩) (by simp) hdigit
  | x =>
    exact first_reg (d := []) (p := []) (x := ['x']) (q := []) (e := []) hsign (by simp)
      (by simp) (.inr ⟨rfl, by simp⟩) (.inl rfl) (.inr ⟨rfl, hcaret⟩) (by simp) hdigit
  | power e =>
    have h := first_reg (d := []) (p := []) (x := ['x']) (q := ['^']) (e := e.digits)
      (s := s) hsign (by simp) (by simp) (.inr ⟨rfl, by simp⟩) (.inl rfl) (.inl rfl) e.decimal
      hdigit
    simpa [Term.text, Body.text, Term.captures, digitsOf, Body.coefficient?, Body.exponent?,
      Body.hasX] using h
  | scaled d =>
    have h := first_reg (p := ['*']) (x := ['x']) (q := []) (e := []) (s := s) hsign
      d.decimal (by simp) (.inl rfl) (.inl rfl) (.inr ⟨rfl, hcaret⟩) (by simp) hdigit
    simpa [Term.text, Body.text, Term.captures, digitsOf, Body.coefficient?, Body.exponent?,
      Body.hasX] using h
  | scaledPower d e =>
    have h := first_reg (p := ['*']) (x := ['x']) (q := ['^']) (e := e.digits) (s := s) hsign
      d.decimal (by simp) (.inl rfl) (.inl rfl) (.inl rfl) e.decimal hdigit
    simpa [Term.text, Body.text, Term.captures, digitsOf, Body.coefficient?, Body.exponent?,
      Body.hasX] using h

/-- The matches of the pattern, with the text of each in front of its groups. -/
def wholeMatches (polynomial : List Char) : List (List (List Char)) :=
  findAll (.group reg) polynomial

/-- Iterating the pattern over the signed text yields one match per term, in order. -/
theorem wholeMatches_signedText (ts : List Term) :
    wholeMatches (signedText ts) = ts.map fun t => t.text :: t.captures := by
  unfold wholeMatches
  induction ts with
  | nil => simp [findAll]
  | cons t ts ih =>
    have hfirst := first_group (first_term t (atSign_signedText ts).endsTerm)
    rw [signedText_cons, List.map_cons, ← ih]
    rw [Term.text, List.cons_append] at hfirst ⊢
    exact findAll_of_first hfirst (by simp)

theorem findAll_signedText (ts : List Term) :
    findAll reg (signedText ts) = ts.map Term.captures := by
  have hwhole := wholeMatches_signedText ts
  rw [← findAll_group, ← wholeMatches, hwhole, List.map_map]
  rfl

theorem withSign_of_spells {s : List Char} {ts : List Term} (h : Spells s ts) :
    withSign s = .ok (signedText ts) := by
  obtain ⟨hne, h⟩ := h
  obtain ⟨t, ts, rfl⟩ := List.exists_cons_of_ne_nil hne
  rcases h with rfl | h
  · rcases t.sign_eq with hs | hs <;> simp [withSign, Term.text, hs]
  · rw [signedText_cons, Term.text, List.cons_append] at h ⊢
    obtain ⟨hsign, rfl⟩ := List.cons.inj h
    cases hb : t.body.text with
    | nil => exact absurd hb t.body.text_ne_nil
    | cons c cs =>
      have hc : c ≠ '-' ∧ c ≠ '+' := by
        rcases t.body.head_text (c := c) (by simp [hb]) with hd | rfl
        · constructor <;> rintro rfl <;> simp at hd
        · decide
      simp [withSign, hc, ← hsign]

lemma digitsOf_injective : Function.Injective digitsOf := by
  intro d e h
  cases d with
  | none =>
    cases e with
    | none => rfl
    | some e => exact absurd h.symm e.nonempty
  | some d =>
    cases e with
    | none => exact absurd h d.nonempty
    | some e =>
      cases d
      cases e
      simp only [digitsOf, Option.map_some, Option.getD_some] at h
      simp only [h]

lemma captures_injective : Function.Injective Term.captures := by
  intro t u h
  obtain ⟨n, b⟩ := t
  obtain ⟨m, c⟩ := u
  simp only [Term.captures, List.cons.injEq, and_true] at h
  obtain ⟨hsign, hd, hx, he⟩ := h
  have hn : n = m := by
    cases n <;> cases m <;> simp [Term.sign] at hsign ⊢
  have hd := digitsOf_injective hd
  have he := digitsOf_injective he
  have hb : b = c := by
    cases b <;> cases c <;>
      simp_all [Body.coefficient?, Body.exponent?, Body.hasX]
  rw [hn, hb]

/-- The language is unambiguous. -/
theorem spells_unique {s : List Char} {ts us : List Term} (ht : Spells s ts) (hu : Spells s us) :
    ts = us := by
  have h : signedText ts = signedText us :=
    Except.ok.inj ((withSign_of_spells ht).symm.trans (withSign_of_spells hu))
  have hc : ts.map Term.captures = us.map Term.captures := by
    rw [← findAll_signedText, ← findAll_signedText, h]
  exact captures_injective.list_map hc

end UnixProgramming.Derivative
