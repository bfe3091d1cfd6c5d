import Mathlib

/-! What `operator>>` of the standard streams passes over before a value, and the words that a
text is made of when it is read as strings. -/
namespace UnixProgramming.StreamExtraction

/-- `std::isspace` in the default locale. -/
def isSpace (c : Char) : Bool := c = ' ' || (9 ≤ c.toNat && c.toNat ≤ 13)

structure IsWord (word : List Char) : Prop where
  nonempty : word ≠ []
  unbroken : ∀ c ∈ word, isSpace c = false

/-- The strings that are read one after the other until the end of the text. -/
def words (text : List Char) : List (List Char) :=
  match h : text.dropWhile isSpace with
  | [] => []
  | c :: rest =>
    have : (rest.dropWhile fun c => !isSpace c).length < text.length := by
      have hskipped := (List.dropWhile_suffix (l := text) isSpace).length_le
      have hread := (List.dropWhile_suffix (l := rest) fun c => !isSpace c).length_le
      rw [h, List.length_cons] at hskipped
      omega
    (c :: rest.takeWhile fun c => !isSpace c) :: words (rest.dropWhile fun c => !isSpace c)
termination_by text.length

/-- The text is made of these words, with white space between them and perhaps around them. -/
inductive Spaced : List Char → List (List Char) → Prop
  | nil {spaces : List Char} (hspaces : ∀ c ∈ spaces, isSpace c = true) : Spaced spaces []
  | cons {spaces word text : List Char} {words : List (List Char)}
    (hspaces : ∀ c ∈ spaces, isSpace c = true) (hword : IsWord word)
    (hend : ∀ c ∈ text.head?, isSpace c = true) (hrest : Spaced text words) :
    Spaced (spaces ++ word ++ text) (word :: words)

lemma dropWhile_isSpace {spaces : List Char} (h : ∀ c ∈ spaces, isSpace c = true) {c : Char}
    (hc : isSpace c = false) (text : List Char) :
    (spaces ++ c :: text).dropWhile isSpace = c :: text := by
  rw [List.dropWhile_append_of_pos h]
  simp [hc]

/-- A word ends before white space or at the end of the text. -/
lemma takeWhile_word {word text : List Char} (h : ∀ c ∈ word, isSpace c = false)
    (hend : ∀ c ∈ text.head?, isSpace c = true) :
    ((word ++ text).takeWhile fun c => !isSpace c) = word ∧
      ((word ++ text).dropWhile fun c => !isSpace c) = text := by
  have hpos : ∀ c ∈ word, (!isSpace c) = true := fun c hc => by rw [h c hc]; rfl
  rw [List.takeWhile_append_of_pos hpos, List.dropWhile_append_of_pos hpos]
  cases text with
  | nil => simp
  | cons c text => simp [hend c rfl]

lemma words_of_spaced {text : List Char} {ws : List (List Char)} (h : Spaced text ws) :
    words text = ws := by
  induction h with
  | @nil spaces hspaces =>
    have hdrop : spaces.dropWhile isSpace = [] := List.dropWhile_eq_nil_iff.mpr hspaces
    rw [words]
    split
    · rfl
    · next hcons =>
      rw [hdrop] at hcons
      cases hcons
  | @cons spaces word text ws hspaces hword hend hrest ih =>
    obtain ⟨c, rest, rfl⟩ := List.exists_cons_of_ne_nil hword.nonempty
    obtain ⟨hc, hrest'⟩ := List.forall_mem_cons.mp hword.unbroken
    have hdrop := dropWhile_isSpace hspaces hc (rest ++ text)
    obtain ⟨htake, hleft⟩ := takeWhile_word hrest' hend
    rw [words, List.append_assoc, List.cons_append]
    split
    · next hnil =>
      rw [hdrop] at hnil
      cases hnil
    · next c' rest' hcons =>
      obtain ⟨rfl, rfl⟩ := List.cons.inj (hdrop.symm.trans hcons)
      change _ :: words _ = _
      rw [htake, hleft, ih]

lemma spaced_words (text : List Char) : Spaced text (words text) := by
  fun_induction words text with
  | case1 text hdrop => exact .nil (List.dropWhile_eq_nil_iff.mp hdrop)
  | case2 text c rest hdrop _ ih =>
    have hc : isSpace c = false := by
      have hhead := List.head?_dropWhile_not isSpace text
      rw [hdrop] at hhead
      simpa using hhead
    have htext : text = text.takeWhile isSpace ++ (c :: rest.takeWhile fun c => !isSpace c) ++
        rest.dropWhile fun c => !isSpace c := by
      rw [List.append_assoc, List.cons_append, List.takeWhile_append_dropWhile, ← hdrop,
        List.takeWhile_append_dropWhile]
    have hword : IsWord (c :: rest.takeWhile fun c => !isSpace c) := by
      refine ⟨by simp, List.forall_mem_cons.mpr ⟨hc, fun d hd => ?_⟩⟩
      simpa using List.mem_takeWhile_imp hd
    have hend : ∀ d ∈ (rest.dropWhile fun c => !isSpace c).head?, isSpace d = true := by
      intro d hd
      have hhead := List.head?_dropWhile_not (fun c => !isSpace c) rest
      rw [hd] at hhead
      simpa using hhead
    rw [htext]
    exact .cons (fun d hd => List.mem_takeWhile_imp hd) hword hend ih

/-- Reading gives the words exactly as the text is made of them. -/
theorem words_eq_iff {text : List Char} {ws : List (List Char)} :
    words text = ws ↔ Spaced text ws :=
  ⟨fun h => h ▸ spaced_words text, words_of_spaced⟩

end UnixProgramming.StreamExtraction
