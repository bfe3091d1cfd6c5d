import UnixProgramming.MachineInt
import UnixProgramming.DerivativeGrammar
import UnixProgramming.StreamExtraction

/-! The input of `prefix_sum.cpp`: which texts are read as a number of elements and the
elements, and which failure the others give. -/
namespace UnixProgramming.PrefixSum
open MachineInt StreamExtraction
open UnixProgramming.Derivative (Literal)

def signed (negative : Bool) (magnitude : ℕ) : ℤ := if negative then -magnitude else magnitude

/-- A number after its sign, as far as it goes, and the text after it. -/
def extractMagnitude (negative : Bool) (text : List Char) : Option (ℤ × List Char) :=
  let digits := text.takeWhile Char.isDigit
  let value := signed negative (Nat.ofDigitChars 10 digits 0)
  if digits ≠ [] ∧ IsInt value then some (value, text.dropWhile Char.isDigit) else none

/-- `in >> value` for an `int`; the stream fails on a number out of range. -/
def extractInt (text : List Char) : Option (ℤ × List Char) :=
  match text.dropWhile isSpace with
  | [] => none
  | c :: text =>
    if c = '-' then extractMagnitude true text
    else if c = '+' then extractMagnitude false text
    else extractMagnitude false (c :: text)

/-- Why `main` does not get the elements. A negative number of elements is an exception of
the constructor of `vector`. -/
inductive Failure
  | sizeNotInteger
  | lengthError
  | elementNotInteger (i : ℕ)
  deriving DecidableEq, Repr

/-- The elements from index `i` on. -/
def readElements : ℕ → ℕ → List Char → Except Failure (List ℤ)
  | _, 0, _ => .ok []
  | i, count + 1, text =>
    match extractInt text with
    | some (x, text) => (readElements (i + 1) count text).map (x :: ·)
    | none => .error (.elementNotInteger (i + 1))

def readInput (text : List Char) : Except Failure (List ℤ) :=
  match extractInt text with
  | none => .error .sizeNotInteger
  | some (n, text) => if n < 0 then .error .lengthError else readElements 0 n.toNat text

inductive Sign
  | unsigned
  | plus
  | minus
  deriving DecidableEq, Repr

def Sign.text : Sign → List Char
  | unsigned => []
  | plus => ['+']
  | minus => ['-']

/-- A number after white space. -/
structure Numeral where
  spaces : List Char
  sign : Sign
  magnitude : Literal
  blank : ∀ c ∈ spaces, isSpace c = true

def Numeral.text (x : Numeral) : List Char := x.spaces ++ x.sign.text ++ x.magnitude.digits

def Numeral.value (x : Numeral) : ℤ := signed (x.sign = .minus) x.magnitude.value

def EndsNumber (text : List Char) : Prop := ∀ c ∈ text.head?, c.isDigit = false

/-- The text starts with numbers of these values, each of them read to its end. -/
inductive Starts : List Char → List ℤ → List Char → Prop
  | nil (text : List Char) : Starts text [] text
  | cons (x : Numeral) {text last : List Char} {values : List ℤ} (hint : IsInt x.value)
    (hend : EndsNumber text) (hrest : Starts text values last) :
    Starts (x.text ++ text) (x.value :: values) last

lemma isSpace_of_isDigit {c : Char} (h : c.isDigit = true) : isSpace c = false := by
  have hdigit : 48 ≤ c.toNat := by
    simp only [Char.isDigit, Bool.and_eq_true, decide_eq_true_eq] at h
    exact h.1
  have hspace : c ≠ ' ' := by
    rintro rfl
    exact absurd h (by decide)
  simp only [isSpace, hspace, decide_false, Bool.false_or, Bool.and_eq_false_iff,
    decide_eq_false_iff_not, not_le]
  omega

lemma takeWhile_isDigit (d : Literal) {text : List Char} (hend : EndsNumber text) :
    (d.digits ++ text).takeWhile Char.isDigit = d.digits ∧
      (d.digits ++ text).dropWhile Char.isDigit = text := by
  rw [List.takeWhile_append_of_pos d.decimal, List.dropWhile_append_of_pos d.decimal]
  cases text with
  | nil => simp
  | cons c text => simp [hend c rfl]

lemma extractMagnitude_eq (negative : Bool) (d : Literal) {text : List Char}
    (hend : EndsNumber text) (hint : IsInt (signed negative d.value)) :
    extractMagnitude negative (d.digits ++ text) = some (signed negative d.value, text) := by
  obtain ⟨htake, hdrop⟩ := takeWhile_isDigit d hend
  simp only [extractMagnitude, htake, hdrop]
  exact if_pos ⟨d.nonempty, hint⟩

lemma endsNumber_dropWhile (text : List Char) : EndsNumber (text.dropWhile Char.isDigit) := by
  intro c hc
  have hhead := List.head?_dropWhile_not Char.isDigit text
  rw [hc] at hhead
  simpa using hhead

/-- Nothing but a number in range is extracted. -/
lemma extractMagnitude_spelled {negative : Bool} {text rest : List Char} {z : ℤ}
    (h : extractMagnitude negative text = some (z, rest)) :
    ∃ d : Literal, text = d.digits ++ rest ∧ EndsNumber rest ∧ IsInt z ∧
      z = signed negative d.value := by
  simp only [extractMagnitude] at h
  split at h
  · next hfits =>
    obtain ⟨rfl, rfl⟩ := Prod.mk.inj (Option.some.inj h)
    exact ⟨⟨text.takeWhile Char.isDigit, hfits.1, fun c hc => List.mem_takeWhile_imp hc⟩,
      List.takeWhile_append_dropWhile.symm, endsNumber_dropWhile text, hfits.2, rfl⟩
  · cases h

/-- The digits of a number do not start with a space or a sign. -/
lemma Literal.digits_eq_cons (d : Literal) : ∃ c digits, d.digits = c :: digits ∧
    isSpace c = false ∧ c ≠ '-' ∧ c ≠ '+' := by
  obtain ⟨c, digits, hdigits⟩ := List.exists_cons_of_ne_nil d.nonempty
  have hdigit : c.isDigit = true := d.decimal c (by simp [hdigits])
  refine ⟨c, digits, hdigits, isSpace_of_isDigit hdigit, ?_, ?_⟩
  · rintro rfl
    exact absurd hdigit (by decide)
  · rintro rfl
    exact absurd hdigit (by decide)

lemma extractInt_text (x : Numeral) {text : List Char} (hend : EndsNumber text)
    (hint : IsInt x.value) : extractInt (x.text ++ text) = some (x.value, text) := by
  obtain ⟨spaces, sign, d, hblank⟩ := x
  obtain ⟨c, digits, hdigits, hspace, hminus, hplus⟩ := Literal.digits_eq_cons d
  cases sign with
  | unsigned =>
    have hdrop := dropWhile_isSpace hblank hspace (digits ++ text)
    have hmagnitude := extractMagnitude_eq false d hend hint
    rw [hdigits, List.cons_append] at hmagnitude
    simp only [Numeral.text, Sign.text, List.append_nil, List.append_assoc, extractInt, hdigits,
      List.cons_append, hdrop, hminus, hplus, if_false]
    exact hmagnitude
  | plus =>
    have hdrop := dropWhile_isSpace hblank (show isSpace '+' = false by decide) (d.digits ++ text)
    simp only [Numeral.text, Sign.text, List.append_assoc, List.cons_append, List.nil_append,
      extractInt, hdrop]
    exact extractMagnitude_eq false d hend hint
  | minus =>
    have hdrop := dropWhile_isSpace hblank (show isSpace '-' = false by decide) (d.digits ++ text)
    simp only [Numeral.text, Sign.text, List.append_assoc, List.cons_append, List.nil_append,
      extractInt, hdrop]
    exact extractMagnitude_eq true d hend hint

lemma extractInt_spelled {text rest : List Char} {z : ℤ} (h : extractInt text = some (z, rest)) :
    ∃ x : Numeral, text = x.text ++ rest ∧ EndsNumber rest ∧ IsInt x.value ∧ x.value = z := by
  have hblank : ∀ c ∈ text.takeWhile isSpace, isSpace c = true := fun c hc =>
    List.mem_takeWhile_imp hc
  have htext := (List.takeWhile_append_dropWhile (p := isSpace) (l := text)).symm
  unfold extractInt at h
  split at h
  · cases h
  · next c rest' hdrop =>
    rw [hdrop] at htext
    split_ifs at h with hminus hplus
    · obtain ⟨d, rfl, hend, hint, rfl⟩ := extractMagnitude_spelled h
      exact ⟨⟨_, .minus, d, hblank⟩, by simpa [Numeral.text, Sign.text, hminus] using htext, hend,
        hint, rfl⟩
    · obtain ⟨d, rfl, hend, hint, rfl⟩ := extractMagnitude_spelled h
      exact ⟨⟨_, .plus, d, hblank⟩, by simpa [Numeral.text, Sign.text, hplus] using htext, hend,
        hint, rfl⟩
    · obtain ⟨d, hd, hend, hint, rfl⟩ := extractMagnitude_spelled h
      rw [hd] at htext
      exact ⟨⟨_, .unsigned, d, hblank⟩, by simpa [Numeral.text, Sign.text] using htext, hend,
        hint, rfl⟩

/-- A number can be read exactly where one stands, and it is the same one. -/
lemma extractInt_iff {text rest : List Char} {z : ℤ} :
    extractInt text = some (z, rest) ↔ Starts text [z] rest := by
  constructor
  · intro h
    obtain ⟨x, rfl, hend, hint, rfl⟩ := extractInt_spelled h
    exact .cons x hint hend (.nil rest)
  · rintro (- | ⟨x, hint, hend, hrest⟩)
    cases hrest
    exact extractInt_text x hend hint

lemma extractInt_none_iff {text : List Char} :
    extractInt text = none ↔ ∀ z rest, ¬ Starts text [z] rest := by
  rw [← Option.not_isSome_iff_eq_none, Option.isSome_iff_exists]
  simp only [← extractInt_iff, Prod.exists, not_exists]

lemma starts_cons_iff {text last : List Char} {z : ℤ} {values : List ℤ} :
    Starts text (z :: values) last ↔
      ∃ rest, extractInt text = some (z, rest) ∧ Starts rest values last := by
  constructor
  · rintro (- | ⟨x, hint, hend, hrest⟩)
    exact ⟨_, extractInt_text x hend hint, hrest⟩
  · rintro ⟨rest, hfirst, hrest⟩
    obtain ⟨x, rfl, hend, hint, rfl⟩ := extractInt_spelled hfirst
    exact .cons x hint hend hrest

lemma readElements_ok_iff {i count : ℕ} {text : List Char} {a : List ℤ} :
    readElements i count text = .ok a ↔ a.length = count ∧ ∃ last, Starts text a last := by
  induction count generalizing i text a with
  | zero =>
    simp only [readElements, Except.ok.injEq, List.length_eq_zero_iff]
    constructor
    · rintro rfl
      exact ⟨rfl, text, .nil text⟩
    · rintro ⟨rfl, -⟩
      rfl
  | succ count ih =>
    simp only [readElements]
    cases a with
    | nil =>
      cases extractInt text with
      | none => simp
      | some first => cases hrest : readElements (i + 1) count first.2 <;> simp [hrest, Except.map]
    | cons z a =>
      simp only [starts_cons_iff, List.length_cons, Nat.add_right_cancel_iff]
      cases hfirst : extractInt text with
      | none => simp
      | some first =>
        obtain ⟨x, rest⟩ := first
        have hmap : (readElements (i + 1) count rest).map (x :: ·) = .ok (z :: a) ↔
            x = z ∧ readElements (i + 1) count rest = .ok a := by
          cases readElements (i + 1) count rest <;> simp [Except.map]
        simp only [hmap, ih, Option.some.injEq, Prod.mk.injEq]
        constructor
        · rintro ⟨rfl, hlength, last, hlast⟩
          exact ⟨hlength, last, rest, ⟨rfl, rfl⟩, hlast⟩
        · rintro ⟨hlength, last, _, ⟨rfl, rfl⟩, hlast⟩
          exact ⟨rfl, hlength, last, hlast⟩

/-- The first number that cannot be read is reported. -/
lemma readElements_error_iff {i count : ℕ} {text : List Char} {failure : Failure} :
    readElements i count text = .error failure ↔ ∃ values rest, Starts text values rest ∧
      values.length < count ∧ failure = .elementNotInteger (i + values.length + 1) ∧
      extractInt rest = none := by
  induction count generalizing i text with
  | zero => simp [readElements]
  | succ count ih =>
    simp only [readElements]
    cases hfirst : extractInt text with
    | none =>
      constructor
      · intro h
        obtain rfl := Except.error.inj h
        exact ⟨[], text, .nil text, by simp, by simp, hfirst⟩
      · rintro ⟨values, rest, hstarts, hlt, rfl, hnone⟩
        cases values with
        | nil => rfl
        | cons z values =>
          obtain ⟨rest, hsome, -⟩ := starts_cons_iff.mp hstarts
          rw [hfirst] at hsome
          cases hsome
    | some first =>
      obtain ⟨x, rest⟩ := first
      have hmap : (readElements (i + 1) count rest).map (x :: ·) = .error failure ↔
          readElements (i + 1) count rest = .error failure := by
        cases readElements (i + 1) count rest <;> simp [Except.map]
      refine hmap.trans (ih.trans ⟨?_, ?_⟩)
      · rintro ⟨values, last, hstarts, hlt, rfl, hnone⟩
        exact ⟨x :: values, last, starts_cons_iff.mpr ⟨rest, hfirst, hstarts⟩, by simpa using hlt,
          by simp only [List.length_cons]; congr 1; omega, hnone⟩
      · rintro ⟨values, last, hstarts, hlt, rfl, hnone⟩
        cases values with
        | nil =>
          cases hstarts
          rw [hfirst] at hnone
          cases hnone
        | cons z values =>
          obtain ⟨rest', hsome, hvalues⟩ := starts_cons_iff.mp hstarts
          rw [hfirst] at hsome
          obtain ⟨rfl, rfl⟩ := Prod.mk.inj (Option.some.inj hsome)
          exact ⟨values, last, hvalues, by simpa using hlt,
            by simp only [List.length_cons]; congr 1; omega, hnone⟩

lemma readInput_eq (text : List Char) :
    (extractInt text = none ∧ readInput text = .error .sizeNotInteger) ∨
    (∃ n rest, extractInt text = some (n, rest) ∧ n < 0 ∧ readInput text = .error .lengthError) ∨
    ∃ (count : ℕ) (rest : List Char), extractInt text = some ((count : ℤ), rest) ∧
      readInput text = readElements 0 count rest := by
  unfold readInput
  cases hfirst : extractInt text with
  | none => exact Or.inl ⟨rfl, rfl⟩
  | some first =>
    obtain ⟨n, rest⟩ := first
    by_cases hneg : n < 0
    · exact Or.inr (Or.inl ⟨n, rest, rfl, hneg, if_pos hneg⟩)
    · obtain ⟨count, rfl⟩ := Int.eq_ofNat_of_zero_le (not_lt.mp hneg)
      exact Or.inr (Or.inr ⟨count, rest, rfl, by simp [hneg]⟩)

lemma readInput_ok_iff {text : List Char} {a : List ℤ} :
    readInput text = .ok a ↔ ∃ last, Starts text (a.length :: a) last := by
  have hstarts : (∃ last, Starts text (a.length :: a) last) ↔
      ∃ rest, extractInt text = some ((a.length : ℤ), rest) ∧ ∃ last, Starts rest a last := by
    simp only [starts_cons_iff]
    exact exists_comm.trans (exists_congr fun _ => exists_and_left)
  rw [hstarts]
  rcases readInput_eq text with ⟨hfirst, heq⟩ | ⟨n, rest, hfirst, hneg, heq⟩ |
    ⟨count, rest, hfirst, heq⟩
  · simp [hfirst, heq]
  · have hnot : n ≠ a.length := by omega
    simp [hfirst, heq, hnot]
  · simp only [hfirst, heq, readElements_ok_iff, Option.some.injEq, Prod.mk.injEq, Nat.cast_inj]
    constructor
    · rintro ⟨hlength, hlast⟩
      exact ⟨rest, ⟨hlength.symm, rfl⟩, hlast⟩
    · rintro ⟨_, ⟨rfl, rfl⟩, hlast⟩
      exact ⟨rfl, hlast⟩

lemma readInput_element_iff {text : List Char} {i : ℕ} :
    readInput text = .error (.elementNotInteger i) ↔
      ∃ n values rest, Starts text (n :: values) rest ∧ values.length < n ∧
        i = values.length + 1 ∧ ∀ z last, ¬ Starts rest [z] last := by
  have hstarts : (∃ n values rest, Starts text (n :: values) rest ∧ values.length < n ∧
      i = values.length + 1 ∧ ∀ z last, ¬ Starts rest [z] last) ↔
      ∃ n rest, extractInt text = some (n, rest) ∧
        ∃ values last, Starts rest values last ∧ values.length < n ∧ i = values.length + 1 ∧
          extractInt last = none := by
    constructor
    · rintro ⟨n, values, last, hstarts, hlt, rfl, hnone⟩
      obtain ⟨rest, hfirst, hvalues⟩ := starts_cons_iff.mp hstarts
      exact ⟨n, rest, hfirst, values, last, hvalues, hlt, rfl, extractInt_none_iff.mpr hnone⟩
    · rintro ⟨n, rest, hfirst, values, last, hvalues, hlt, rfl, hnone⟩
      exact ⟨n, values, last, starts_cons_iff.mpr ⟨rest, hfirst, hvalues⟩, hlt, rfl,
        extractInt_none_iff.mp hnone⟩
  rw [hstarts]
  rcases readInput_eq text with ⟨hfirst, heq⟩ | ⟨n, rest, hfirst, hneg, heq⟩ |
    ⟨count, rest, hfirst, heq⟩
  · simp [hfirst, heq]
  · have hnot : ∀ k : ℕ, ¬ k < n := by omega
    simp [hfirst, heq, hnot]
  · simp only [hfirst, heq, readElements_error_iff, Option.some.injEq, Prod.mk.injEq,
      Failure.elementNotInteger.injEq, zero_add]
    constructor
    · rintro ⟨values, last, hvalues, hlt, hi, hnone⟩
      exact ⟨count, rest, ⟨rfl, rfl⟩, values, last, hvalues, by exact_mod_cast hlt, hi, hnone⟩
    · rintro ⟨_, _, ⟨rfl, rfl⟩, values, last, hvalues, hlt, hi, hnone⟩
      exact ⟨values, last, hvalues, by exact_mod_cast hlt, hi, hnone⟩

/-- The elements are read exactly from the texts that start with their number and with them;
from any other text, the message is about the first number that is missing. -/
theorem readInput_iff (text : List Char) :
    (∀ a, readInput text = .ok a ↔ ∃ last, Starts text (a.length :: a) last) ∧
    (readInput text = .error .sizeNotInteger ↔ ∀ z rest, ¬ Starts text [z] rest) ∧
    (readInput text = .error .lengthError ↔ ∃ n < 0, ∃ rest, Starts text [n] rest) ∧
    ∀ i, readInput text = .error (.elementNotInteger i) ↔
      ∃ n values rest, Starts text (n :: values) rest ∧ values.length < n ∧
        i = values.length + 1 ∧ ∀ z last, ¬ Starts rest [z] last := by
  refine ⟨fun a => readInput_ok_iff, ?_, ?_, fun i => readInput_element_iff⟩
  · rw [← extractInt_none_iff]
    rcases readInput_eq text with ⟨hfirst, heq⟩ | ⟨n, rest, hfirst, hneg, heq⟩ |
      ⟨count, rest, hfirst, heq⟩
    · simp [hfirst, heq]
    · simp [hfirst, heq]
    · simp [hfirst, heq, readElements_error_iff]
  · simp only [← extractInt_iff]
    rcases readInput_eq text with ⟨hfirst, heq⟩ | ⟨n, rest, hfirst, hneg, heq⟩ |
      ⟨count, rest, hfirst, heq⟩
    · simp [hfirst, heq]
    · simp [hfirst, heq, hneg]
    · simp [hfirst, heq, readElements_error_iff]

end UnixProgramming.PrefixSum
