import UnixProgramming.PipelineModel

/-! What the descriptors of the shell refer to: the tables of the parent between its calls, and
the table a child has after `close` and `dup2`. -/
namespace UnixProgramming.Pipeline
open DescriptorTable

variable {σ : Type*}

structure Tables (s : Sys σ) : Prop where
  stdin : s.locals.table.lookup 0 = some .stdin
  stdout : s.locals.table.lookup 1 = some .stdout
  bound : ∀ fd pipe, s.locals.table.lookup fd = some (.writeEnd pipe) → pipe < s.pipes.length

/-- `file_descriptors` are the ends of this pipe, and the parent has no other write end of it. -/
structure Piped (s : Sys σ) (pipe : ℕ) : Prop extends Tables s where
  reading : s.locals.table.lookup s.locals.fileDescriptors.1 = some (.readEnd pipe)
  writing : ∀ fd, s.locals.table.lookup fd = some (.writeEnd pipe) ↔
    fd = s.locals.fileDescriptors.2

/-- `input_fd` is the read end of a pipe with this content, which nobody writes any more. -/
def Supplied (s : Sys σ) (idx : ℕ) (input : List UInt8) : Prop :=
  if idx = 0 then input = [] else
    ∃ pipe, s.locals.table.lookup s.locals.inputFd = some (.readEnd pipe) ∧
      s.pipes[pipe]? = some input ∧ ¬ s.locals.table.Holds (.writeEnd pipe)

def Reads (s : Sys σ) (table : Table) (input : List UInt8) : Prop :=
  (table.lookup 0 = some .stdin ∧ input = []) ∨
    ∃ pipe, table.lookup 0 = some (.readEnd pipe) ∧ s.pipes[pipe]? = some input ∧
      ¬ table.Holds (.writeEnd pipe) ∧ ¬ s.locals.table.Holds (.writeEnd pipe)

def Writes (commands idx : ℕ) (s : Sys σ) (table : Table) (pipe : ℕ) (output : List UInt8) :
    Prop :=
  if idx + 1 = commands then table.lookup 1 = some .resultOut ∧ s.offset = output.length
  else table.lookup 1 = some (.writeEnd pipe) ∧ s.pipes[pipe]? = some output

lemma isOpen_iff {s : Sys σ} {handle : Handle} {table : Table} {process : σ}
    (hchildren : s.children = [.running table process]) :
    s.isOpen handle = true ↔ s.locals.table.Holds handle ∨ table.Holds handle := by
  simp [Sys.isOpen, hchildren, Child.table]

lemma lookup_makePipe {s : Sys σ} (point : Point) {fd : ℕ} {handle : Handle}
    (h : s.locals.table.lookup fd = some handle) :
    (s.makePipe point).locals.table.lookup fd = some handle :=
  lookup_allocate_of_eq (lookup_allocate_of_eq h)

lemma writeEnd_makePipe {s : Sys σ} {point : Point} {fd pipe : ℕ} :
    (s.makePipe point).locals.table.lookup fd = some (.writeEnd pipe) ↔
      (fd = (s.makePipe point).locals.fileDescriptors.2 ∧ pipe = s.pipes.length) ∨
        s.locals.table.lookup fd = some (.writeEnd pipe) := by
  constructor
  · intro h
    change ((s.locals.table.allocate _).2.allocate _).2.lookup fd = _ at h
    rw [lookup_allocate] at h
    split_ifs at h with hwriting
    · obtain rfl : s.pipes.length = pipe := by simpa using h
      exact .inl ⟨hwriting, rfl⟩
    · rw [lookup_allocate] at h
      split_ifs at h with hreading
      · cases h
      · exact .inr h
  · rintro (⟨rfl, rfl⟩ | h)
    · change ((s.locals.table.allocate _).2.allocate _).2.lookup _ = _
      rw [lookup_allocate]
      exact if_pos rfl
    · exact lookup_makePipe point h

lemma Tables.makePipe {s : Sys σ} (h : Tables s) (point : Point) :
    Piped (s.makePipe point) s.pipes.length where
  stdin := lookup_makePipe point h.stdin
  stdout := lookup_makePipe point h.stdout
  bound := by
    intro fd pipe hlookup
    have hlength : (s.makePipe point).pipes.length = s.pipes.length + 1 := by
      simp [Sys.makePipe]
    rcases writeEnd_makePipe.mp hlookup with ⟨-, rfl⟩ | hold
    · omega
    · have := h.bound fd pipe hold
      omega
  reading := by
    refine lookup_allocate_of_eq ?_
    rw [lookup_assign]
    exact if_pos rfl
  writing := by
    intro fd
    rw [writeEnd_makePipe]
    constructor
    · rintro (⟨hfd, -⟩ | hold)
      · exact hfd
      · exact absurd (h.bound fd _ hold) (lt_irrefl _)
    · intro hfd
      exact .inl ⟨hfd, rfl⟩

lemma Supplied.makePipe {s : Sys σ} {idx : ℕ} {input : List UInt8} (h : Supplied s idx input)
    (point : Point) : Supplied (s.makePipe point) idx input := by
  unfold Supplied at h ⊢
  split_ifs at h ⊢ with hidx
  · exact h
  · obtain ⟨pipe, hlookup, hpipe, hclosed⟩ := h
    have hlt : pipe < s.pipes.length := by
      obtain ⟨hlt, -⟩ := List.getElem?_eq_some_iff.mp hpipe
      exact hlt
    refine ⟨pipe, lookup_makePipe point hlookup, ?_, ?_⟩
    · simp only [Sys.makePipe]
      rw [List.getElem?_append_left hlt, hpipe]
    · intro hholds
      obtain ⟨fd, hfd⟩ := holds_iff.mp hholds
      rcases writeEnd_makePipe.mp hfd with ⟨-, rfl⟩ | hold
      · exact absurd hlt (lt_irrefl _)
      · exact hclosed (holds_iff.mpr ⟨fd, hold⟩)

lemma Piped.ne_of_lookup {s : Sys σ} {pipe fd : ℕ} {handle : Handle} (h : Piped s pipe)
    (hfd : s.locals.table.lookup fd = some handle) (hhandle : handle ≠ .writeEnd pipe) :
    fd ≠ s.locals.fileDescriptors.2 := by
  rintro rfl
  rw [(h.writing _).mpr rfl] at hfd
  exact hhandle (Option.some.inj hfd).symm

lemma Piped.closeWriting {s : Sys σ} {pipe : ℕ} (h : Piped s pipe) (idx : ℕ) :
    Tables (s.closeWriting idx) := by
  refine ⟨?_, ?_, ?_⟩
  · simp [Sys.closeWriting, h.ne_of_lookup h.stdin (by simp), h.stdin]
  · simp [Sys.closeWriting, h.ne_of_lookup h.stdout (by simp), h.stdout]
  · intro fd pipe' hfd
    simp only [Sys.closeWriting, lookup_close] at hfd
    split_ifs at hfd
    exact h.bound fd pipe' hfd

lemma Piped.supplied {s : Sys σ} {pipe : ℕ} {output : List UInt8} (h : Piped s pipe) (idx : ℕ)
    (hpipe : s.pipes[pipe]? = some output) : Supplied (s.closeWriting idx) (idx + 1) output := by
  rw [Supplied, if_neg (Nat.succ_ne_zero idx)]
  have hne := h.ne_of_lookup h.reading (by simp)
  refine ⟨pipe, ?_, hpipe, ?_⟩
  · simp [Sys.closeWriting, hne, h.reading]
  · intro hholds
    obtain ⟨fd, hfd⟩ := holds_iff.mp hholds
    simp only [Sys.closeWriting, lookup_close] at hfd
    split_ifs at hfd with hclosed
    exact hclosed ((h.writing fd).mp hfd)

lemma Tables.lookup_close_stdin {s : Sys σ} {fd pipe : ℕ} (h : Tables s)
    (hfd : s.locals.table.lookup fd = some (.readEnd pipe)) :
    (s.locals.table.close 0).lookup fd = some (.readEnd pipe) := by
  have hne : fd ≠ 0 := by
    rintro rfl
    rw [h.stdin] at hfd
    cases hfd
  rw [lookup_close, if_neg hne, hfd]

lemma lookup_redirectInput {s : Sys σ} {idx : ℕ} {input : List UInt8} (h : Tables s)
    (hsupplied : Supplied s idx input) {i : ℕ} (hi : i ≠ 0) :
    (redirectInput idx s.locals).lookup i = s.locals.table.lookup i := by
  unfold redirectInput
  split_ifs with hidx
  · rw [Supplied, if_neg hidx] at hsupplied
    obtain ⟨pipe, hlookup, -, -⟩ := hsupplied
    rw [lookup_dup2 (h.lookup_close_stdin hlookup), if_neg hi, lookup_close, if_neg hi]
  · rfl

lemma lookup_childTable {s : Sys σ} {pipe idx commands : ℕ} {input : List UInt8}
    (h : Piped s pipe) (hsupplied : Supplied s idx input) (hidx : idx ≠ commands - 1) (i : ℕ) :
    (childTable commands idx s.locals).lookup i =
      if i = 1 then some (.writeEnd pipe) else (redirectInput idx s.locals).lookup i := by
  have hne : s.locals.fileDescriptors.2 ≠ 1 := (h.ne_of_lookup h.stdout (by simp)).symm
  have hne' : s.locals.fileDescriptors.2 ≠ 0 := (h.ne_of_lookup h.stdin (by simp)).symm
  have hopen : ((redirectInput idx s.locals).close 1).lookup s.locals.fileDescriptors.2 =
      some (.writeEnd pipe) := by
    rw [lookup_close, if_neg hne, lookup_redirectInput h.toTables hsupplied hne',
      (h.writing _).mpr rfl]
  rw [childTable, redirectOutput, if_pos hidx, lookup_dup2 hopen, lookup_close]
  split_ifs
  · rfl
  · rfl

lemma lookup_childTable_last {idx commands : ℕ} (locals : Locals) (hidx : idx = commands - 1)
    (i : ℕ) :
    (childTable commands idx locals).lookup i =
      if i = 1 then some .resultOut
      else ((redirectInput idx locals).allocate .resultOut).2.lookup i := by
  have hopen : ((redirectInput idx locals).allocate .resultOut).2.lookup
      (redirectInput idx locals).lowestFree = some .resultOut := by
    rw [lookup_allocate, if_pos rfl]
  rw [childTable, redirectOutput, if_neg (not_not.mpr hidx)]
  exact lookup_dup2 hopen i

lemma lookup_childTable_zero {s : Sys σ} {pipe idx : ℕ} {input : List UInt8} {handle : Handle}
    (commands : ℕ) (h : Piped s pipe) (hsupplied : Supplied s idx input)
    (hlookup : (redirectInput idx s.locals).lookup 0 = some handle) :
    (childTable commands idx s.locals).lookup 0 = some handle := by
  by_cases hidx : idx = commands - 1
  · rw [lookup_childTable_last _ hidx, if_neg zero_ne_one]
    exact lookup_allocate_of_eq hlookup
  · rw [lookup_childTable h hsupplied hidx, if_neg zero_ne_one, hlookup]

lemma lookup_childTable_one {s : Sys σ} {pipe idx : ℕ} {input : List UInt8} (commands : ℕ)
    (h : Piped s pipe) (hsupplied : Supplied s idx input) :
    (childTable commands idx s.locals).lookup 1 =
      some (if idx = commands - 1 then .resultOut else .writeEnd pipe) := by
  split_ifs with hidx
  · rw [lookup_childTable_last _ hidx, if_pos rfl]
  · rw [lookup_childTable h hsupplied hidx, if_pos rfl]

/-- The child has no write end that its parent has not, but for its standard input. -/
lemma writeEnd_childTable {s : Sys σ} {pipe pipe' idx commands fd : ℕ} {input : List UInt8}
    (h : Piped s pipe) (hsupplied : Supplied s idx input) (hfd : fd ≠ 0)
    (hlookup : (childTable commands idx s.locals).lookup fd = some (.writeEnd pipe')) :
    s.locals.table.Holds (.writeEnd pipe') := by
  have hinput := lookup_redirectInput h.toTables hsupplied hfd
  rw [holds_iff]
  by_cases hidx : idx = commands - 1
  · rw [lookup_childTable_last _ hidx, lookup_allocate, hinput] at hlookup
    split_ifs at hlookup
    · cases hlookup
    · cases hlookup
    · exact ⟨fd, hlookup⟩
  · rw [lookup_childTable h hsupplied hidx, hinput] at hlookup
    split_ifs at hlookup
    · exact ⟨_, hlookup ▸ (h.writing _).mpr rfl⟩
    · exact ⟨fd, hlookup⟩

lemma reads_childTable {s : Sys σ} {pipe idx : ℕ} {input : List UInt8} (commands : ℕ)
    (h : Piped s pipe) (hsupplied : Supplied s idx input) :
    Reads s (childTable commands idx s.locals) input := by
  by_cases hidx : idx = 0
  · have hstdin : (redirectInput idx s.locals).lookup 0 = some .stdin := by
      simp [redirectInput, hidx, h.stdin]
    have hinput : input = [] := by
      simpa [Supplied, hidx] using hsupplied
    exact .inl ⟨lookup_childTable_zero commands h hsupplied hstdin, hinput⟩
  · have hsupply := hsupplied
    rw [Supplied, if_neg hidx] at hsupply
    obtain ⟨source, hlookup, hsource, hclosed⟩ := hsupply
    have hzero : (redirectInput idx s.locals).lookup 0 = some (.readEnd source) := by
      rw [redirectInput, if_pos hidx, lookup_dup2 (h.lookup_close_stdin hlookup), if_pos rfl]
    have hread := lookup_childTable_zero commands h hsupplied hzero
    refine .inr ⟨source, hread, hsource, ?_, hclosed⟩
    intro hholds
    obtain ⟨fd, hfd⟩ := holds_iff.mp hholds
    have hne : fd ≠ 0 := by
      rintro rfl
      rw [hread] at hfd
      cases hfd
    exact hclosed (writeEnd_childTable h hsupplied hne hfd)

lemma Piped.congr {s t : Sys σ} {pipe : ℕ} (h : Piped s pipe) (hlocals : t.locals = s.locals)
    (hlength : t.pipes.length = s.pipes.length) : Piped t pipe where
  stdin := hlocals ▸ h.stdin
  stdout := hlocals ▸ h.stdout
  bound := by
    rw [hlocals, hlength]
    exact h.bound
  reading := hlocals ▸ h.reading
  writing := hlocals ▸ h.writing

lemma Piped.holds {s : Sys σ} {pipe : ℕ} (h : Piped s pipe) :
    s.locals.table.Holds (.writeEnd pipe) :=
  holds_iff.mpr ⟨_, (h.writing _).mpr rfl⟩

/-- A read takes the next byte of the input and leaves the other pipes alone. -/
lemma Reads.read {s : Sys σ} {table : Table} {input : List UInt8} {process : σ}
    (h : Reads s table input) (hchildren : s.children = [.running table process]) :
    ∃ pipes, s.read (table.lookup 0) = some (input.head?, { s with pipes := pipes }) ∧
      pipes.length = s.pipes.length ∧
      (∀ pipe, s.locals.table.Holds (.writeEnd pipe) → pipes[pipe]? = s.pipes[pipe]?) ∧
      ∀ t : Sys σ, t.locals = s.locals → t.pipes = pipes → Reads t table input.tail := by
  rcases h with ⟨hstdin, rfl⟩ | ⟨source, hlookup, hsource, hclosed, hparent⟩
  · refine ⟨s.pipes, ?_, rfl, fun _ _ => rfl, fun t _ _ => .inl ⟨hstdin, rfl⟩⟩
    rw [hstdin]
    rfl
  · have hget : s.pipes.getD source [] = input := by
      simp [hsource]
    cases input with
    | nil =>
      have hopen : s.isOpen (.writeEnd source) = false := by
        rw [← Bool.not_eq_true, isOpen_iff hchildren]
        tauto
      refine ⟨s.pipes, ?_, rfl, fun _ _ => rfl, fun t hlocals hpipes => .inr ⟨source, ?_⟩⟩
      · simp only [Sys.read, hlookup, hget, hopen]
        rfl
      · rw [hlocals, hpipes]
        exact ⟨hlookup, hsource, hclosed, hparent⟩
    | cons byte rest =>
      have hlt : source < s.pipes.length := (List.getElem?_eq_some_iff.mp hsource).1
      refine ⟨s.pipes.set source rest, ?_, List.length_set, ?_,
        fun t hlocals hpipes => .inr ⟨source, ?_⟩⟩
      · simp only [Sys.read, hlookup, hget]
        rfl
      · intro pipe hholds
        have hne : source ≠ pipe := by
          rintro rfl
          exact hparent hholds
        rw [List.getElem?_set_ne hne]
      · rw [hlocals, hpipes]
        exact ⟨hlookup, by simp [hlt], hclosed, hparent⟩

lemma openResult_eq (s : Sys σ) (commands idx : ℕ) :
    s.openResult commands idx =
      { s with
        resultOut := (s.openResult commands idx).resultOut
        offset := (s.openResult commands idx).offset } := by
  unfold Sys.openResult
  split_ifs
  · rfl
  · rfl

lemma writes_childTable {s : Sys σ} {pipe idx commands : ℕ} {input : List UInt8}
    (hidx : idx < commands) (hpiped : Piped s pipe) (hempty : s.pipes[pipe]? = some [])
    (hsupplied : Supplied s idx input) :
    Writes commands idx (s.openResult commands idx) (childTable commands idx s.locals) pipe
      [] := by
  have hone := lookup_childTable_one commands hpiped hsupplied
  unfold Writes
  split_ifs with hlast
  · have hidx' : idx = commands - 1 := by omega
    rw [if_pos hidx'] at hone
    refine ⟨hone, ?_⟩
    simp [Sys.openResult, hidx']
  · have hidx' : idx ≠ commands - 1 := by omega
    rw [if_neg hidx'] at hone
    refine ⟨hone, ?_⟩
    rw [openResult_eq]
    exact hempty

end UnixProgramming.Pipeline
