import InverterControl.Python

/-!
# The backup meter

`GridBackup` of `grid_backup.py`: a fresh submeter measures in place of the pinned primary meter
while that one is unavailable.  The clock readings of a call are its arguments.  The numbers of a
read are those of `_number`, after the parsing of the D-Bus text; the display name is left out.
-/

namespace InverterControl.Backup.Model

open InverterControl.Python

/-- The fields of a read of the backup service; `none` where the value is missing or no number. -/
structure BackupFields where
  connected : Option ℚ := none
  role : Option String := none
  power : Option ℚ := none
  lastUpdate : Option ℚ := none
  deviceInstance : Option ℚ := none
  deriving DecidableEq, Repr

/-- An entry of `_source_transitions`. -/
structure SourceTransition where
  selectionGeneration : ℕ
  observedAtMonotonic : ℚ
  observedAtUnix : ℚ
  fromSource : Option String
  toSource : Option String
  usingBackup : Bool
  primaryValid : Bool
  primaryReason : Option String
  deriving DecidableEq, Repr

structure GridBackup where
  service : String
  maxAge : ℚ
  recoverySeconds : ℚ
  enabled : Bool
  generation : ℕ := 0
  fields : BackupFields := {}
  readTime : ℚ := 0
  deadline : ℚ := 0
  usingBackup : Bool := false
  primarySince : Option ℚ := none
  selectionGeneration : ℕ := 0
  sourceTransitions : List SourceTransition := []
  /-- `_identity["device_instance"]`. -/
  deviceInstance : Option ℤ := none
  deriving DecidableEq, Repr

/-- `invalidate`: the service lost or gained its owner. -/
def invalidate (b : GridBackup) : GridBackup :=
  { b with generation := b.generation + 1, fields := {}, deadline := 0 }

/-- A nonnegative integer instance of an AC load. -/
def validInstance (fields : BackupFields) : Option ℤ :=
  match fields.deviceInstance with
  | some q => if fields.role = some "acload" ∧ 0 ≤ q ∧ q.isInt then some q.num else none
  | none => none

/-- The age of a measurement against the wall clock. -/
def measurementAge (fields : BackupFields) (wall : ℚ) : Option ℚ :=
  fields.lastUpdate.map (wall - ·)

/-- The deadline of a read: `max_age` less the age the measurement has already. -/
def readDeadline (fields : BackupFields) (maxAge now wall : ℚ) : ℚ :=
  match measurementAge fields wall with
  | some age => if -5 ≤ age ∧ age ≤ maxAge then now + maxAge - max 0 age else 0
  | none => 0

/-- `replace`, unless the service was invalidated since the read began. -/
def replace (fields : BackupFields) (generation : ℕ) (now wall : ℚ) (b : GridBackup) : GridBackup :=
  if generation ≠ b.generation then b
  else
    { b with
      fields := fields
      deviceInstance := (validInstance fields).or b.deviceInstance
      readTime := now
      deadline := readDeadline fields b.maxAge now wall }

/-- What `GridTelemetry.snapshot` says of the primary meter. -/
structure Primary where
  valid : Bool
  invalidReason : Option String
  source : Option String
  sourceInstance : Option ℤ
  gt : ℚ
  deriving DecidableEq, Repr

/-- `_grid_backup_status`. -/
structure BackupStatus where
  available : Bool
  service : String
  generation : ℕ
  deviceInstance : Option ℤ
  power : Option ℚ
  measurementTime : Option ℚ
  ageSeconds : Option ℚ
  deriving DecidableEq, Repr

/-- What `select` reports of the grid. -/
structure GridStatus where
  valid : Bool
  backup : Bool
  primaryValid : Bool
  source : Option String
  sourceInstance : Option ℤ
  selectionGeneration : ℕ
  measurementTime : Option ℚ
  gt : ℚ
  backupStatus : BackupStatus
  deriving DecidableEq, Repr

/-- The backup has a fresh reading of an AC load. -/
def ready (now : ℚ) (b : GridBackup) : Bool :=
  b.fields.connected = some 1 ∧ (validInstance b.fields).isSome ∧ b.fields.power.isSome ∧
    now < b.deadline ∧ now - b.readTime ≤ 3

/-- When the primary meter became valid. -/
def notePrimary (primaryValid : Bool) (now : ℚ) (b : GridBackup) : GridBackup :=
  { b with primarySince := if primaryValid then b.primarySince.or (some now) else none }

/-- `_select_backup`, after the primary's validity was noted. -/
def selectBackup (primaryValid ready : Bool) (now : ℚ) (b : GridBackup) : Bool :=
  b.enabled && ready &&
    (!primaryValid || (b.usingBackup && b.primarySince.any (now - · < b.recoverySeconds)))

/-- The first 512 characters. -/
def clip (s : String) : String := String.ofList (s.toList.take 512)

/-- The edge that `_record_transition` logs. -/
def transition (p : Primary) (useBackup : Bool) (now wall : ℚ) (b : GridBackup) :
    SourceTransition where
  selectionGeneration := b.selectionGeneration + 1
  observedAtMonotonic := now
  observedAtUnix := wall
  fromSource := if b.usingBackup then some (clip b.service) else p.source.map clip
  toSource := if useBackup then some (clip b.service) else p.source.map clip
  usingBackup := useBackup
  primaryValid := p.valid
  primaryReason := p.invalidReason.map clip

/-- `deque.append` with `maxlen=8`. -/
def appendLast (t : SourceTransition) (log : List SourceTransition) : List SourceTransition :=
  (log ++ [t]).drop (log.length + 1 - 8)

/-- `_record_transition`. -/
def recordTransition (p : Primary) (useBackup : Bool) (now wall : ℚ) (b : GridBackup) : GridBackup :=
  { b with
    selectionGeneration := b.selectionGeneration + 1
    sourceTransitions := appendLast (transition p useBackup now wall b) b.sourceTransitions
    usingBackup := useBackup }

/-- The age that the status reports. -/
def reportedAge (now : ℚ) (b : GridBackup) : ℚ := max 0 (b.maxAge - (b.deadline - now))

/-- `_grid_backup_status`. -/
def backupStatus (now : ℚ) (b : GridBackup) : BackupStatus where
  available := ready now b
  service := b.service
  generation := b.generation
  deviceInstance := b.deviceInstance
  power := if ready now b then b.fields.power else none
  measurementTime := b.fields.lastUpdate
  ageSeconds := if 0 < b.deadline then some (reportedAge now b) else none

/-- The state `select` leaves. -/
def selectState (p : Primary) (now wall : ℚ) (b : GridBackup) : GridBackup :=
  if selectBackup p.valid (ready now b) now (notePrimary p.valid now b) ≠ b.usingBackup then
    recordTransition p (selectBackup p.valid (ready now b) now (notePrimary p.valid now b)) now wall
      (notePrimary p.valid now b)
  else notePrimary p.valid now b

/-- The status `select` returns. -/
def selectStatus (p : Primary) (now : ℚ) (b : GridBackup) : GridStatus :=
  if b.usingBackup then
    { valid := true
      backup := true
      primaryValid := p.valid
      source := some b.service
      sourceInstance := validInstance b.fields
      selectionGeneration := b.selectionGeneration
      measurementTime := b.fields.lastUpdate
      gt := pyRound (b.fields.power.getD 0)
      backupStatus := backupStatus now b }
  else
    { valid := p.valid
      backup := false
      primaryValid := p.valid
      source := p.source
      sourceInstance := p.sourceInstance
      selectionGeneration := b.selectionGeneration
      measurementTime := none
      gt := p.gt
      backupStatus := backupStatus now b }

/-- `select`. -/
def select (p : Primary) (now wall : ℚ) (b : GridBackup) : GridStatus × GridBackup :=
  (selectStatus p now (selectState p now wall b), selectState p now wall b)

end InverterControl.Backup.Model
