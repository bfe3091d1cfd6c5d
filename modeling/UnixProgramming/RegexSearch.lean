import Mathlib

/-! Backtracking regular expressions with captures. `run` lists the ways a pattern
matches a prefix in the order a backtracking matcher tries them, greedy choices
first; the match that is reported is the first of the list. -/
namespace UnixProgramming.RegexSearch

inductive Pattern
  | char (test : Char → Bool)
  | star (test : Char → Bool)
  | opt (p : Pattern)
  | alt (p q : Pattern)
  | seq (p q : Pattern)
  | group (p : Pattern)

def Pattern.groups : Pattern → ℕ
  | char _ => 0
  | star _ => 0
  | opt p => p.groups
  | alt p q => p.groups + q.groups
  | seq p q => p.groups + q.groups
  | group p => p.groups + 1

abbrev Success := List (List Char) × List Char

def starRun (test : Char → Bool) : List Char → List Success
  | [] => [([], [])]
  | c :: cs => if test c then starRun test cs ++ [([], c :: cs)] else [([], c :: cs)]

/-- All successes in priority order. A group that takes no part captures nothing. -/
def Pattern.run : Pattern → List Char → List Success
  | char test, s =>
      match s with
      | [] => []
      | c :: cs => if test c then [([], cs)] else []
  | star test, s => starRun test s
  | opt p, s => p.run s ++ [(List.replicate p.groups [], s)]
  | alt p q, s =>
      (p.run s).map (fun r => (r.1 ++ List.replicate q.groups [], r.2)) ++
        (q.run s).map (fun r => (List.replicate p.groups [] ++ r.1, r.2))
  | seq p q, s => (p.run s).flatMap fun r => (q.run r.2).map fun r' => (r.1 ++ r'.1, r'.2)
  | group p, s => (p.run s).map fun r => (s.take (s.length - r.2.length) :: r.1, r.2)

def Pattern.first (p : Pattern) (s : List Char) : Option Success := (p.run s).head?

/-- Iteration over the leftmost matches, each search resuming where the last match
ended. Empty matches are skipped. -/
def findAll (p : Pattern) : List Char → List (List (List Char))
  | [] => []
  | c :: cs =>
      match _he : (p.run (c :: cs)).find? (fun r => decide (r.2.length ≤ cs.length)) with
      | some r => r.1 :: findAll p r.2
      | none => findAll p cs
  termination_by s => s.length
  decreasing_by
    · have := List.find?_some _he
      simp only [decide_eq_true_eq] at this
      simp only [List.length_cons]
      omega
    · simp

lemma first_star (test : Char → Bool) (s : List Char) :
    (Pattern.star test).first s = some ([], s.dropWhile test) := by
  simp only [Pattern.first, Pattern.run]
  induction s with
  | nil => simp [starRun]
  | cons c cs ih =>
    by_cases h : test c = true
    · simp [starRun, h, List.head?_append, ih]
    · simp [starRun, h]

lemma first_opt_char {test : Char → Bool} {c : Char} {cs : List Char} (h : test c = true) :
    (Pattern.opt (.char test)).first (c :: cs) = some ([], cs) := by
  simp [Pattern.first, Pattern.run, h]

lemma first_opt_char_skip {test : Char → Bool} {s : List Char}
    (h : ∀ c ∈ s.head?, test c = false) :
    (Pattern.opt (.char test)).first s = some ([], s) := by
  cases s with
  | nil => simp [Pattern.first, Pattern.run, Pattern.groups]
  | cons c cs => simp [Pattern.first, Pattern.run, Pattern.groups, h c (by simp)]

lemma first_seq {p q : Pattern} {s : List Char} {r r' : Success} (hp : p.first s = some r)
    (hq : q.first r.2 = some r') : (Pattern.seq p q).first s = some (r.1 ++ r'.1, r'.2) := by
  simp only [Pattern.first, List.head?_eq_some_iff] at hp hq ⊢
  obtain ⟨ys, hp⟩ := hp
  obtain ⟨zs, hq⟩ := hq
  simp [Pattern.run, hp, hq]

lemma first_group {p : Pattern} {s t : List Char} {caps : List (List Char)}
    (h : p.first (t ++ s) = some (caps, s)) :
    (Pattern.group p).first (t ++ s) = some (t :: caps, s) := by
  simp only [Pattern.first, List.head?_eq_some_iff] at h ⊢
  obtain ⟨ys, h⟩ := h
  simp [Pattern.run, h]

lemma findAll_of_find {p : Pattern} {c : Char} {cs : List Char} {r : Success}
    (h : (p.run (c :: cs)).find? (fun r => decide (r.2.length ≤ cs.length)) = some r) :
    findAll p (c :: cs) = r.1 :: findAll p r.2 := by
  rw [findAll]
  split
  · next he => rw [h] at he; cases he; rfl
  · next he => rw [h] at he; cases he

lemma findAll_of_find_none {p : Pattern} {c : Char} {cs : List Char}
    (h : (p.run (c :: cs)).find? (fun r => decide (r.2.length ≤ cs.length)) = none) :
    findAll p (c :: cs) = findAll p cs := by
  rw [findAll]
  split
  · next he => rw [h] at he; cases he
  · rfl

lemma findAll_of_first {p : Pattern} {c : Char} {cs : List Char} {r : Success}
    (h : p.first (c :: cs) = some r) (hlen : r.2.length ≤ cs.length) :
    findAll p (c :: cs) = r.1 :: findAll p r.2 := by
  obtain ⟨ys, hr⟩ := List.head?_eq_some_iff.mp h
  refine findAll_of_find ?_
  simp [hr, hlen]

/-- A group around the whole pattern captures the text of each match, and changes nothing
else. -/
lemma findAll_group (p : Pattern) (s : List Char) :
    (findAll (.group p) s).map List.tail = findAll p s := by
  have hfind : ∀ c cs, ((Pattern.group p).run (c :: cs)).find?
      (fun r => decide (r.2.length ≤ cs.length)) =
        ((p.run (c :: cs)).find? fun r => decide (r.2.length ≤ cs.length)).map fun r =>
          ((c :: cs).take ((c :: cs).length - r.2.length) :: r.1, r.2) := by
    intro c cs
    rw [Pattern.run, List.find?_map]
    rfl
  fun_induction findAll p s with
  | case1 => simp [findAll]
  | case2 c cs r he ih =>
    have hgroup := hfind c cs
    rw [he] at hgroup
    rw [findAll_of_find hgroup, List.map_cons, ih]
    rfl
  | case3 c cs he ih =>
    have hgroup := hfind c cs
    rw [he] at hgroup
    rw [findAll_of_find_none hgroup, ih]

end UnixProgramming.RegexSearch
