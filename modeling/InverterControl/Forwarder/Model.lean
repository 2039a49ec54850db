import Mathlib.Data.List.Dedup
import Mathlib.Data.List.Sort
import Mathlib.Data.List.DropRight
import Mathlib.Data.String.Basic
import InverterControl.Lib.Lines
import InverterControl.Lib.Runs

/-!
# The log forwarder

`log_forwarder.py` for one service: the scan of the retained files, the read of a batch, the push and
the save of the cursor, each call of the file system a step of its own, between which the logger appends
to `current`, renames it to an archive and removes archives.  A file is its index in `Log.files`, in the
order of creation; the forwarder sees only names and inode numbers, which may be used again.
-/

namespace InverterControl.Forwarder.Model

open InverterControl.Lib.Lines InverterControl.Lib.Runs

/-! ### The log directory -/

/-- A file: its inode number and its bytes. -/
structure File where
  inode : ℕ
  content : List UInt8
  deriving DecidableEq, Repr

/-- A name in the directory that `relevant_names` lets through. -/
inductive Path
  | archive (name : String)
  | previous
  | current
  deriving DecidableEq, Repr

structure Log where
  /-- Every file there ever was. -/
  files : List File
  /-- The archives of the directory, with their files. -/
  archives : List (String × ℕ)
  previous : Option ℕ
  current : Option ℕ
  /-- The archive names that were given. -/
  names : List String
  deriving DecidableEq, Repr

namespace Log

variable (log : Log)

def file (f : ℕ) : File := log.files.getD f ⟨0, []⟩

/-- `st_ino`. -/
def inode (f : ℕ) : ℕ := (log.file f).inode

def content (f : ℕ) : List UInt8 := (log.file f).content

/-- The file of a path. -/
def lookup : Path → Option ℕ
  | .archive name => (log.archives.find? (·.1 = name)).map (·.2)
  | .previous => log.previous
  | .current => log.current

/-- `relevant_names`, in the order of the directory. -/
def relevantNames : List Path :=
  (log.archives.map (Path.archive ·.1)).dedup ++
    ((log.previous.map fun _ => Path.previous).toList ++ (log.current.map fun _ => Path.current).toList)

/-- The files of the directory. -/
def retained : List ℕ := log.archives.map (·.2) ++ (log.previous.toList ++ log.current.toList)

/-- The newest file of that inode number. -/
def newest (inode : ℕ) : Option ℕ :=
  (List.range log.files.length).reverse.find? (log.inode · = inode)

end Log

/-- The two listings have the same names. -/
def sameNames (a b : List Path) : Prop := (∀ p ∈ a, p ∈ b) ∧ ∀ p ∈ b, p ∈ a

instance (a b : List Path) : Decidable (sameNames a b) := by unfold sameNames; infer_instance

/-! ### Lines -/

/-- `b"\n"`. -/
def newline : UInt8 := 10

/-- `line.rstrip(b"\n\r")`. -/
def rstrip (line : List UInt8) : List UInt8 := line.rdropWhile fun b => b = 10 ∨ b = 13

/-- A line that was read, with the place where it starts. -/
structure Line where
  file : ℕ
  start : ℕ
  message : List UInt8
  deriving DecidableEq, Repr

/-- The message of the line at a place. -/
def messageAt (log : Log) (f start : ℕ) : List UInt8 := rstrip (lineAt newline (log.content f) start)

/-! ### The forwarder -/

/-- A cursor of the state file. -/
structure Cursor where
  position : ℕ
  inode : Option ℕ
  deriving DecidableEq, Repr

/-- Where `process_logs` stands. -/
inductive Phase
  | idle
  /-- `retained_log_files`, between the two listings. -/
  | scanning (names todo : List Path) (files : List (Path × ℕ))
  /-- `read_new_lines`, before the next file is opened, with `new_position` and `new_inode`. -/
  | opening (rest : List (Path × ℕ)) (new : Cursor)
  /-- `_read_complete_lines` of an open file. -/
  | reading (path : Path) (file position : ℕ) (lines : List Line) (rest : List (Path × ℕ))
  | pushing (lines : List Line) (new : Cursor)
  | saving (new : Cursor)
  deriving DecidableEq, Repr

structure LogForwarder where
  log : Log
  /-- The cursor of the state file. -/
  saved : Cursor
  /-- The cursor that the iteration started with. -/
  cursor : Cursor
  phase : Phase
  /-- The lines of the pushes that succeeded. -/
  pushed : List Line
  /-- The files before this one were reached by a saved cursor. -/
  reached : ℕ
  deriving DecidableEq, Repr

/-- Without a state file. -/
def noCursor : Cursor := ⟨0, none⟩

/-- `BATCH_SIZE`. -/
def batchSize : ℕ := 100

def init (log : Log) : LogForwarder where
  log := log
  saved := noCursor
  cursor := noCursor
  phase := .idle
  pushed := []
  reached := 0

/-! ### `retained_log_files` -/

def archiveName : Path → Option String
  | .archive name => some name
  | _ => none

/-- The paths in the order in which they are read. -/
def paths (names : List Path) : List Path :=
  ((names.filterMap archiveName).insertionSort (· ≤ ·)).map Path.archive ++ [.previous, .current]

/-- `os.stat` of a path, and the file unless its inode was seen. -/
def statPath (log : Log) (files : List (Path × ℕ)) (path : Path) : List (Path × ℕ) :=
  match log.lookup path with
  | none => files
  | some f => if log.inode f ∈ files.map (log.inode ·.2) then files else files ++ [(path, f)]

/-! ### `read_new_lines` -/

/-- `files[start or 0:]`, from the file of the cursor. -/
def fromCursor (log : Log) (cursor : Cursor) (files : List (Path × ℕ)) : List (Path × ℕ) :=
  files.drop ((files.findIdx? fun file => some (log.inode file.2) = cursor.inode).getD 0)

/-- The position where an open file is read from. -/
def startPosition (log : Log) (cursor : Cursor) (f : ℕ) : ℕ :=
  if (log.content f).length < (if cursor.inode = some (log.inode f) then cursor.position else 0) then 0
  else if cursor.inode = some (log.inode f) then cursor.position
  else 0

/-- What `process_logs` does with the result of the read. -/
def result (cursor : Cursor) (lines : List Line) (new : Cursor) : Phase :=
  if lines ≠ [] then .pushing lines new
  else if new ≠ cursor then .saving new
  else .idle

/-- The next file is opened; an `OSError` or another file than expected ends the read. -/
def openNext (log : Log) (cursor : Cursor) (rest : List (Path × ℕ)) (new : Cursor) : Phase :=
  match rest with
  | [] => result cursor [] new
  | (path, expected) :: rest =>
    match log.lookup path with
    | none => .idle
    | some f =>
      if log.inode f ≠ log.inode expected then .idle
      else .reading path f (startPosition log cursor f) [] rest

/-- After the lines of a file: the next one, where an archive has none. -/
def closeFile (log : Log) (cursor : Cursor) (path : Path) (f position : ℕ) (lines : List Line)
    (rest : List (Path × ℕ)) : Phase :=
  if lines ≠ [] ∨ path = .current then result cursor lines ⟨position, some (log.inode f)⟩
  else .opening rest ⟨position, some (log.inode f)⟩

/-- A line that is not blank is appended. -/
def addLine (lines : List Line) (line : Line) : List Line :=
  if line.message = [] then lines else lines ++ [line]

/-- One round of `_read_complete_lines`. -/
def readLine (log : Log) (cursor : Cursor) (path : Path) (f position : ℕ) (lines : List Line)
    (rest : List (Path × ℕ)) : Phase :=
  if batchSize ≤ lines.length ∨ lineAt newline (log.content f) position = [] ∨
      (¬ Ended newline (lineAt newline (log.content f) position) ∧ path = .current) then
    closeFile log cursor path f position lines rest
  else
    .reading path f (position + (lineAt newline (log.content f) position).length)
      (addLine lines ⟨f, position, messageAt log f position⟩) rest

/-! ### The machine -/

/-- The inode number is one of the saved cursor, of the cursor to be saved or of the open file. -/
def referenced (s : LogForwarder) (inode : ℕ) : Prop :=
  s.saved.inode = some inode ∨
  match s.phase with
  | .opening _ new => new.inode = some inode
  | .reading _ f _ _ _ => s.log.inode f = inode
  | .pushing _ new => new.inode = some inode
  | .saving new => new.inode = some inode
  | _ => False

instance (s : LogForwarder) (inode : ℕ) : Decidable (referenced s inode) := by
  unfold referenced
  cases s.phase <;> infer_instance

inductive Event
  /-- The logger writes to `current`. -/
  | append (bytes : List UInt8)
  /-- `current` is renamed to an archive that sorts after every file. -/
  | rotate (name : String)
  /-- A `previous` that was left behind is renamed to an archive. -/
  | archivePrevious (name : String)
  /-- A new `current`. -/
  | create (inode : ℕ)
  /-- An archive that was reached is removed. -/
  | delete (name : String)
  /-- `load_state`, and the first listing of the scan. -/
  | scan
  /-- `os.stat` of the next path. -/
  | stat
  /-- The second listing. -/
  | relist
  /-- `open` of the next file. -/
  | open_
  | readLine
  /-- An `OSError` of the scan or the read. -/
  | oserror
  | push (ok : Bool)
  | save (ok : Bool)
  /-- The process ends, and starts again. -/
  | crash
  deriving DecidableEq, Repr

/-- The bytes are appended to a file. -/
def appendTo (files : List File) (f : ℕ) (bytes : List UInt8) : List File :=
  files.modify f fun file => { file with content := file.content ++ bytes }

/-- What the logger does. -/
def write (s : LogForwarder) (e : Event) : Log :=
  match e with
  | .append bytes =>
    match s.log.current with
    | some f => { s.log with files := appendTo s.log.files f bytes }
    | none => s.log
  | .rotate name =>
    match s.log.current, s.log.previous with
    | some f, none =>
      if ∀ n ∈ s.log.names, n < name then
        { s.log with
          archives := s.log.archives ++ [(name, f)]
          current := none
          names := s.log.names ++ [name] }
      else s.log
    | _, _ => s.log
  | .archivePrevious name =>
    match s.log.previous with
    | some f =>
      if ∀ n ∈ s.log.names, n < name then
        { s.log with
          archives := s.log.archives ++ [(name, f)]
          previous := none
          names := s.log.names ++ [name] }
      else s.log
    | none => s.log
  | .create inode =>
    if s.log.current = none ∧ (∀ f ∈ s.log.retained, s.log.inode f ≠ inode) ∧ ¬ referenced s inode then
      { s.log with files := s.log.files ++ [⟨inode, []⟩], current := some s.log.files.length }
    else s.log
  | .delete name =>
    match s.log.lookup (.archive name) with
    | some f =>
      if f < s.reached then { s.log with archives := s.log.archives.filter (·.1 ≠ name) } else s.log
    | none => s.log
  | _ => s.log

/-- `load_state`, and the first listing. -/
def scan (s : LogForwarder) : LogForwarder :=
  { s with
    cursor := s.saved
    phase := .scanning s.log.relevantNames (paths s.log.relevantNames) [] }

/-- The second listing: the scan is given up where the names changed. -/
def relist (s : LogForwarder) (names : List Path) (files : List (Path × ℕ)) : Phase :=
  if ¬ sameNames s.log.relevantNames names ∨ files = [] then .idle
  else .opening (fromCursor s.log s.cursor files) s.cursor

/-- The files up to the one of the cursor were reached. -/
def reachedBy (s : LogForwarder) (new : Cursor) : ℕ :=
  match new.inode.bind s.log.newest with
  | some f => max s.reached (f + 1)
  | none => s.reached

def next (s : LogForwarder) (e : Event) : LogForwarder :=
  match e, s.phase with
  | .scan, .idle => scan s
  | .stat, .scanning names (path :: todo) files =>
    { s with phase := .scanning names todo (statPath s.log files path) }
  | .relist, .scanning names [] files => { s with phase := relist s names files }
  | .open_, .opening rest new => { s with phase := openNext s.log s.cursor rest new }
  | .readLine, .reading path f position lines rest =>
    { s with phase := readLine s.log s.cursor path f position lines rest }
  | .oserror, .scanning _ _ _ => { s with phase := .idle }
  | .oserror, .opening _ _ => { s with phase := .idle }
  | .oserror, .reading _ _ _ _ _ => { s with phase := .idle }
  | .push true, .pushing lines new => { s with pushed := s.pushed ++ lines, phase := .saving new }
  | .push false, .pushing _ _ => { s with phase := .idle }
  | .save true, .saving new => { s with saved := new, reached := reachedBy s new, phase := .idle }
  | .save false, .saving _ => { s with phase := .idle }
  | .crash, _ => { s with phase := .idle }
  | e, _ => { s with log := write s e }

end InverterControl.Forwarder.Model
