import UnixProgramming.DescriptorTable

/-! The shell of `bash_commands.cpp`: the parent that forks one child per command and waits
for it, the children, and the pipes between them. -/
namespace UnixProgramming.Pipeline

abbrev Command := List String

/-- One token in the loop that splits them; the second component is the range from `first` to
`it`. -/
def splitToken (split : List Command × Command) (token : String) : List Command × Command :=
  if token = "|" then (split.1 ++ [split.2], []) else (split.1, split.2 ++ [token])

def splitCommands (tokens : List String) : List Command :=
  let split := tokens.foldl splitToken ([], [])
  if split.2 ≠ [] then split.1 ++ [split.2] else split.1

inductive Handle
  | stdin
  | stdout
  | stderr
  | readEnd (pipe : ℕ)
  | writeEnd (pipe : ℕ)
  | resultOut
  deriving DecidableEq, Repr

abbrev Table := DescriptorTable Handle

/-- What a command does next; `read` gets `none` at the end of its input. -/
inductive Action (σ : Type*)
  | read (next : Option UInt8 → σ)
  | write (byte : UInt8) (next : σ)
  | compute (next : σ)
  | exit

/-- The host: `execvp` fails with `none`, `forks` says which calls of `fork` succeed, and a
pipe holds `capacity` bytes. -/
structure Host (σ : Type*) where
  execvp : Command → Option σ
  action : σ → Action σ
  forks : ℕ → Bool
  capacity : ℕ

/-- Where the parent is in its loop over the commands. -/
inductive Point
  | start
  | pipe (idx : ℕ)
  | fork (idx : ℕ)
  | wait (idx : ℕ)
  | close (idx : ℕ)
  | ended
  deriving DecidableEq, Repr

/-- The variables `file_descriptors` and `input_fd`, and the table they point into. -/
structure Locals where
  table : Table
  fileDescriptors : ℕ × ℕ
  inputFd : ℕ
  deriving DecidableEq, Repr

inductive Child (σ : Type*)
  | starting (idx : ℕ) (locals : Locals)
  | running (table : Table) (process : σ)
  | exited

/-- `offset` belongs to the file description of `result.out`, which only one child opens. -/
structure Sys (σ : Type*) where
  point : Point
  locals : Locals
  children : List (Child σ)
  pipes : List (List UInt8)
  resultOut : Option (List UInt8)
  offset : ℕ

section

variable {σ : Type*}

def Sys.initial (resultOut : Option (List UInt8)) : Sys σ where
  point := .start
  locals := ⟨[some .stdin, some .stdout, some .stderr], (0, 0), 0⟩
  children := []
  pipes := []
  resultOut := resultOut
  offset := 0

def Child.table : Child σ → Table
  | .starting _ locals => locals.table
  | .running table _ => table
  | .exited => []

def Child.isExited : Child σ → Bool
  | .exited => true
  | _ => false

/-- Some process still has the handle open. -/
def Sys.isOpen (s : Sys σ) (handle : Handle) : Bool :=
  (s.locals.table :: s.children.map Child.table).any fun table => table.Holds handle

def Sys.makePipe (s : Sys σ) (point : Point) : Sys σ :=
  let (reading, table) := s.locals.table.allocate (.readEnd s.pipes.length)
  let (writing, table) := table.allocate (.writeEnd s.pipes.length)
  { s with
    point := point
    locals := { s.locals with table := table, fileDescriptors := (reading, writing) }
    pipes := s.pipes ++ [[]] }

/-- The parent has returned, and its descriptors are closed. -/
def Sys.finish (s : Sys σ) : Sys σ :=
  { s with point := .ended, locals := { s.locals with table := [] } }

def Sys.fork (s : Sys σ) (idx : ℕ) : Sys σ :=
  { s with point := .wait idx, children := s.children ++ [.starting idx s.locals] }

def Sys.reap (s : Sys σ) (idx i : ℕ) : Sys σ :=
  { s with point := .close idx, children := s.children.eraseIdx i }

def Sys.closeWriting (s : Sys σ) (idx : ℕ) : Sys σ :=
  { s with
    point := .pipe (idx + 1)
    locals := { s.locals with
      table := s.locals.table.close s.locals.fileDescriptors.2
      inputFd := s.locals.fileDescriptors.1 } }

/-- `wait` blocks as long as no child has exited, but not without children. -/
def Sys.wait (s : Sys σ) (idx : ℕ) : Option (Sys σ) :=
  match s.children.findIdx? Child.isExited with
  | some i => some (s.reap idx i)
  | none => if s.children.isEmpty then some { s with point := .close idx } else none

/-- One call of the parent. -/
def parentStep (host : Host σ) (cmds : List Command) (s : Sys σ) : Option (Sys σ) :=
  match s.point with
  | .start => some (s.makePipe (.pipe 0))
  | .pipe idx => some (if idx < cmds.length then s.makePipe (.fork idx) else s.finish)
  | .fork idx => some (if host.forks idx then s.fork idx else s.finish)
  | .wait idx => s.wait idx
  | .close idx => some (s.closeWriting idx)
  | .ended => none

def redirectInput (idx : ℕ) (locals : Locals) : Table :=
  if idx ≠ 0 then (locals.table.close 0).dup2 locals.inputFd 0 else locals.table

def redirectOutput (commands idx : ℕ) (locals : Locals) (table : Table) : Table :=
  if idx ≠ commands - 1 then
    (table.close 1).dup2 locals.fileDescriptors.2 1
  else
    let (out, table) := table.allocate .resultOut
    table.dup2 out 1

/-- The table that a child has when it calls `execvp`. -/
def childTable (commands idx : ℕ) (locals : Locals) : Table :=
  redirectOutput commands idx locals (redirectInput idx locals)

/-- `open` of the last child, which keeps the content of an existing file. -/
def Sys.openResult (s : Sys σ) (commands idx : ℕ) : Sys σ :=
  if idx ≠ commands - 1 then s
  else { s with resultOut := some (s.resultOut.getD []), offset := 0 }

def Sys.setChild (s : Sys σ) (i : ℕ) (child : Child σ) : Sys σ :=
  { s with children := s.children.set i child }

/-- The calls of a child up to `execvp`; it exits when that fails. -/
def Sys.startChild (host : Host σ) (cmds : List Command) (s : Sys σ) (i idx : ℕ)
    (locals : Locals) : Sys σ :=
  let s := s.openResult cmds.length idx
  match host.execvp (cmds.getD idx []) with
  | some process => s.setChild i (.running (childTable cmds.length idx locals) process)
  | none => s.setChild i .exited

/-- A read of one byte from a handle, with the byte or the end of the input; `none` while it
blocks. The standard input of the shell is exhausted. -/
def Sys.read (s : Sys σ) : Option Handle → Option (Option UInt8 × Sys σ)
  | some (.readEnd pipe) =>
    match s.pipes.getD pipe [] with
    | byte :: rest => some (some byte, { s with pipes := s.pipes.set pipe rest })
    | [] => if s.isOpen (.writeEnd pipe) then none else some (none, s)
  | _ => some (none, s)

inductive Written (σ : Type*)
  | done (s : Sys σ)
  | blocked
  | broken

def writeAt (content : List UInt8) (offset : ℕ) (byte : UInt8) : List UInt8 :=
  content.take offset ++ byte :: content.drop (offset + 1)

/-- A write of one byte to a handle. -/
def Sys.write (s : Sys σ) (capacity : ℕ) (byte : UInt8) : Option Handle → Written σ
  | some (.writeEnd pipe) =>
    if s.isOpen (.readEnd pipe) then
      if (s.pipes.getD pipe []).length < capacity then
        .done { s with pipes := s.pipes.modify pipe (· ++ [byte]) }
      else .blocked
    else .broken
  | some .resultOut =>
    .done { s with
      resultOut := s.resultOut.map fun content => writeAt content s.offset byte
      offset := s.offset + 1 }
  | _ => .done s

/-- One action of a command; a write to a pipe that nobody reads kills it. -/
def Sys.runChild (host : Host σ) (s : Sys σ) (i : ℕ) (table : Table) (process : σ) :
    Option (Sys σ) :=
  match host.action process with
  | .read next =>
    (s.read (table.lookup 0)).map fun (byte, s) => s.setChild i (.running table (next byte))
  | .write byte next =>
    match s.write host.capacity byte (table.lookup 1) with
    | .done s => some (s.setChild i (.running table next))
    | .blocked => none
    | .broken => some (s.setChild i .exited)
  | .compute next => some (s.setChild i (.running table next))
  | .exit => some (s.setChild i .exited)

def childStep (host : Host σ) (cmds : List Command) (s : Sys σ) (i : ℕ) : Option (Sys σ) :=
  match s.children[i]? with
  | some (.starting idx locals) => some (s.startChild host cmds i idx locals)
  | some (.running table process) => s.runChild host i table process
  | some .exited => none
  | none => none

/-- Any of the processes takes the next step. -/
def Step (host : Host σ) (cmds : List Command) (s t : Sys σ) : Prop :=
  parentStep host cmds s = some t ∨ ∃ i, childStep host cmds s i = some t

def Reachable (host : Host σ) (cmds : List Command) (resultOut : Option (List UInt8)) :
    Sys σ → Prop :=
  Relation.ReflTransGen (Step host cmds) (Sys.initial resultOut)

end
end UnixProgramming.Pipeline
