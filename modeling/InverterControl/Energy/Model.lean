import InverterControl.Lib.Runs
import InverterControl.Python

/-!
# The daily ledger of the grid meter

`GridEnergyLedger` of `grid_energy.py`: the day's import and export as differences of the meter's
cumulative counters, with the state that is saved and loaded again.  Dates are day numbers.  What
`zoneinfo` and `datetime` make of an instant is the parameter `zone`; a field of a reply is the finite
number that `float` makes of it.  `persist` runs with the lock released during the save, so its parts
are steps of their own.
-/

namespace InverterControl.Energy.Model

open InverterControl.Lib.Runs InverterControl.Python

/-! ### Replies of the meter -/

/-- `/Serial` of a reply. -/
inductive Serial
  | missing
  | text (s : String)
  | other
  deriving DecidableEq, Repr

/-- A complete reply of a meter service. -/
structure MeterFields where
  forward : Option ℚ
  reverse : Option ℚ
  deviceInstance : Option ℚ
  serial : Serial
  connected : Option ℚ
  deriving DecidableEq, Repr

/-- `_number`: a number that is not negative. -/
def number (value : Option ℚ) : Option ℚ := value.filter (0 ≤ ·)

/-- The identity of a meter. -/
structure Source where
  service : String
  deviceInstance : ℤ
  serial : Option String
  deriving DecidableEq, Repr

/-- The serial number is absent, or a text that is neither empty nor too long. -/
def parseSerial : Serial → Option (Option String)
  | .missing => some none
  | .text s => if s ≠ "" ∧ s.length ≤ 128 then some (some s) else none
  | .other => none

/-- The prefix of the services of grid meters. -/
def gridPrefix : String := "com.victronenergy.grid."

/-- The service is the name of a grid meter. -/
def isMeterService (service : String) : Prop :=
  startsWith service gridPrefix ∧ service ≠ gridPrefix ∧ service.length ≤ 255

instance (service : String) : Decidable (isMeterService service) := by
  unfold isMeterService; infer_instance

/-- `parse_meter_source`. -/
def parseMeterSource (service : Option String) (deviceInstance : Option ℚ) (serial : Serial) :
    Option Source :=
  match service, number deviceInstance, parseSerial serial with
  | some service, some inst, some serial =>
    if isMeterService service ∧ inst.isInt ∧ inst ≤ 2147483647 then
      some ⟨service, inst.num, serial⟩
    else none
  | _, _, _ => none

/-! ### The calendar -/

/-- The local date of an instant, and the timestamp of the local midnight of that date. -/
structure Day where
  date : ℤ
  boundary : ℚ
  deriving DecidableEq, Repr

/-- `datetime.fromtimestamp(at, ZoneInfo(name))`, its date, and the timestamp of the midnight that
`datetime.combine` makes of it. -/
abbrev Zone := String → ℚ → Option Day

/-- `_calendar`: it fails for a name that is no text, and for an instant before the epoch. -/
def calendar (zone : Zone) (name : Option String) (time : ℚ) : Option Day :=
  match name with
  | some name => if name = "" ∨ time < 0 then none else zone name time
  | none => none

/-! ### The state -/

/-- `import_kwh` and `export_kwh`. -/
structure Counters where
  importKwh : ℚ
  exportKwh : ℚ
  deriving DecidableEq, Repr

/-- `_state`; the readings of `latest` are `latest` and `observedAt`. -/
structure State where
  generation : ℕ
  source : Source
  date : ℤ
  timeZone : String
  startedAt : ℚ
  baseline : Counters
  latest : Counters
  observedAt : ℚ
  complete : Bool
  reason : String
  deriving DecidableEq, Repr

/-- A save in flight: the copy of the state, its revision, and whether the file is replaced already. -/
structure Save where
  revision : ℕ
  state : State
  replaced : Bool
  deriving DecidableEq, Repr

structure GridEnergyLedger where
  state : Option State := none
  observedMono : Option ℚ := none
  readError : Option String := some "awaiting_meter"
  resetPending : Option String := none
  resetObservation : Bool := false
  dirty : Bool := false
  revision : ℕ := 0
  lastSaveAttempt : Option ℚ := none
  saveError : Bool := false
  /-- The save that holds `_save_lock`. -/
  saving : Option Save := none
  /-- The state on the file. -/
  disk : Option State := none
  deriving DecidableEq, Repr

/-- `__init__` where there is no file yet. -/
def init : GridEnergyLedger := {}

/-- A text that is not empty. -/
def truthy (text : Option String) : Option String := text.filter (· ≠ "")

variable (zone : Zone) (l : GridEnergyLedger)

/-- `invalidate`. -/
def invalidate (reason : String) (reset : Bool) : GridEnergyLedger :=
  { l with
    readError := some reason
    resetPending := if reset then some reason else l.resetPending }

/-- An observation that is accepted. -/
structure Observation where
  source : Source
  timeZone : String
  day : Day
  counters : Counters
  time : ℚ
  mono : ℚ
  deriving DecidableEq, Repr

/-- `CLOCK_TOLERANCE`. -/
def clockTolerance : ℚ := 5

/-- `MIDNIGHT_BRACKET`. -/
def midnightBracket : ℚ := 30

/-- A counter is less than it was. -/
def Counters.less (c old : Counters) : Prop := c.importKwh < old.importKwh ∨ c.exportKwh < old.exportKwh

instance (c old : Counters) : Decidable (c.less old) := by unfold Counters.less; infer_instance

/-- The wall clock went back, or not with the monotonic clock. -/
def clockChanged (previous : State) (o : Observation) : Prop :=
  o.time - previous.observedAt < 0 ∨
    ∃ mono, l.observedMono = some mono ∧
      clockTolerance < |o.time - previous.observedAt - (o.mono - mono)|

instance (previous : State) (o : Observation) : Decidable (clockChanged l previous o) := by
  unfold clockChanged
  cases l.observedMono with
  | none => exact decidable_of_iff (o.time - previous.observedAt < 0) (by simp)
  | some mono =>
    exact decidable_of_iff (o.time - previous.observedAt < 0 ∨
      clockTolerance < |o.time - previous.observedAt - (o.mono - mono)|) (by simp)

/-- `_reseed_reason`, where there is a state. -/
def changeReason (previous : State) (o : Observation) : Option String :=
  if (truthy l.resetPending).isSome then truthy l.resetPending
  else if o.source ≠ previous.source then some "source_changed"
  else if o.timeZone ≠ previous.timeZone then some "timezone_changed"
  else if o.counters.less previous.latest then some "counter_reset"
  else if clockChanged l previous o then some "clock_changed"
  else none

/-- `_reseed_reason`. -/
def reseedReason (o : Observation) : Option String := l.state.bind (changeReason l · o)

/-- The two readings are equal, on both sides of one midnight, and close on both clocks. -/
def bracketed (previous : State) (mono : ℚ) (o : Observation) : Prop :=
  o.day.date = previous.date + 1 ∧
  (0 ≤ o.mono - mono ∧ o.mono - mono ≤ midnightBracket) ∧
  (0 ≤ o.time - previous.observedAt ∧ o.time - previous.observedAt ≤ midnightBracket) ∧
  o.counters = previous.latest

instance (previous : State) (mono : ℚ) (o : Observation) : Decidable (bracketed previous mono o) := by
  unfold bracketed; infer_instance

/-- `_midnight_proved`. -/
def midnightProved (o : Observation) : Bool :=
  match l.state, l.observedMono with
  | some previous, some mono =>
    (reseedReason l o).isNone && (truthy l.readError).isNone && bracketed previous mono o
  | _, _ => false

/-- The state that an observation seeds. -/
def seed (o : Observation) : State where
  generation := match l.state with
    | some previous => previous.generation + 1
    | none => 1
  source := o.source
  date := o.day.date
  timeZone := o.timeZone
  startedAt := if midnightProved l o then o.day.boundary else o.time
  baseline := o.counters
  latest := o.counters
  observedAt := o.time
  complete := midnightProved l o
  reason := if midnightProved l o then "midnight_verified"
    else (reseedReason l o).getD "incomplete_day"

/-- The observation continues the day of the state. -/
def continued (previous : State) (o : Observation) : State :=
  { previous with latest := o.counters, observedAt := o.time }

/-- The state after an observation. -/
def observedState (o : Observation) : State :=
  match l.state with
  | some previous =>
    if (reseedReason l o).isSome ∨ previous.date ≠ o.day.date then seed l o else continued previous o
  | none => seed l o

/-- `_observe_locked`. -/
def observeLocked (o : Observation) : GridEnergyLedger :=
  { l with
    state := some (observedState l o)
    resetObservation := (reseedReason l o).isSome
    observedMono := some o.mono
    readError := none
    resetPending := none
    dirty := true
    revision := l.revision + 1 }

/-- The observation of a reply, or the reason of its refusal. -/
def observation (service : Option String) (fields : Option MeterFields) (timeZone : Option String)
    (time mono : ℚ) : Except String Observation :=
  match timeZone, calendar zone timeZone time with
  | some name, some day =>
    match fields with
    | some f =>
      if mono < 0 then .error "meter_unavailable"
      else match parseMeterSource service f.deviceInstance f.serial, number f.forward,
      number f.reverse with
        | some source, some forward, some reverse =>
          if number f.connected = some 1 then .ok ⟨source, name, day, ⟨forward, reverse⟩, time, mono⟩
          else .error "meter_unavailable"
        | _, _, _ => .error "meter_unavailable"
    | none => .error "meter_unavailable"
  | _, _ => .error "timezone_unavailable"

/-- `observe`. -/
def observe (service : Option String) (fields : Option MeterFields) (timeZone : Option String)
    (time mono : ℚ) : GridEnergyLedger :=
  match observation zone service fields timeZone time mono with
  | .ok o => observeLocked l o
  | .error reason => invalidate l reason false

/-! ### The snapshot -/

inductive Status
  | unknown
  | reset
  | stale
  | complete
  | partial_
  deriving DecidableEq, Repr

/-- `MAX_AGE`. -/
def maxAge : ℚ := 90

/-- `_availability` of a state (`none`: the calendar raises). -/
def availability (s : State) (time mono : ℚ) : Option (Status × Option String) :=
  if (truthy l.resetPending).isSome ∨ l.resetObservation = true then
    some (.reset, (truthy l.resetPending).or (some s.reason))
  else match l.observedMono with
    | none => some (.unknown, (truthy l.readError).or (some "awaiting_meter"))
    | some observed =>
      if mono - observed < 0 ∨ clockTolerance < |time - s.observedAt - (mono - observed)| then
        some (.reset, some "clock_changed")
      else if (truthy l.readError).isSome then some (.stale, l.readError)
      else if maxAge < mono - observed then some (.stale, some "stale_reading")
      else (calendar zone (some s.timeZone) time).map fun day =>
        if day.date ≠ s.date then (.stale, some "stale_reading")
        else if s.complete then (.complete, none)
        else (.partial_, none)

/-- `round(value, 9)`. -/
def round9 (value : ℚ) : ℚ := pyRound (value * 10 ^ 9) / 10 ^ 9

/-- What `snapshot` returns. -/
structure Snapshot where
  date : Option ℤ
  timeZone : Option String
  importKwh : Option ℚ
  exportKwh : Option ℚ
  observedAt : Option ℚ
  startedAt : Option ℚ
  complete : Bool
  source : Option Source
  status : Status
  reason : String
  deriving DecidableEq, Repr

/-- The snapshot where no state is known. -/
def unknownSnapshot : Snapshot where
  date := none
  timeZone := none
  importKwh := none
  exportKwh := none
  observedAt := none
  startedAt := none
  complete := false
  source := none
  status := .unknown
  reason := (truthy l.readError).getD "awaiting_meter"

/-- The counters are shown. -/
def Status.shows (status : Status) : Bool := status = .complete ∨ status = .partial_

/-- The snapshot of a state. -/
def stateSnapshot (s : State) (status : Status) (reason : Option String) : Snapshot where
  date := s.date
  timeZone := s.timeZone
  importKwh := if status.shows then some (round9 (s.latest.importKwh - s.baseline.importKwh)) else none
  exportKwh := if status.shows then some (round9 (s.latest.exportKwh - s.baseline.exportKwh)) else none
  observedAt := s.observedAt
  startedAt := s.startedAt
  complete := status.shows && s.complete
  source := s.source
  status := status
  reason := (truthy reason).getD (if l.saveError then "persistence_unavailable" else s.reason)

/-- `snapshot` (`none`: the calendar raises). -/
def snapshot (time mono : ℚ) : Option Snapshot :=
  match l.state with
  | none => some (unknownSnapshot l)
  | some s => (availability zone l s time mono).map fun a => stateSnapshot l s a.1 a.2

/-! ### The file -/

/-- `PERSIST_INTERVAL`. -/
def persistInterval : ℚ := 60

/-- The last attempt is too near. -/
def tooSoon (now : ℚ) : Prop := ∃ last, l.lastSaveAttempt = some last ∧ now - last < persistInterval

instance (now : ℚ) : Decidable (tooSoon l now) := by
  unfold tooSoon
  cases l.lastSaveAttempt with
  | none => exact isFalse (by simp)
  | some last => exact decidable_of_iff (now - last < persistInterval) (by simp)

/-- `persist` up to the save: `_save_lock` is taken and the state copied. -/
def beginSave (now : ℚ) : GridEnergyLedger :=
  match l.saving, l.state with
  | none, some s =>
    if l.dirty = false ∨ tooSoon l now then l
    else { l with lastSaveAttempt := some now, saving := some ⟨l.revision, s, false⟩ }
  | _, _ => l

/-- `os.replace` of `_save`. -/
def replaceFile : GridEnergyLedger :=
  match l.saving with
  | some save => { l with disk := some save.state, saving := some { save with replaced := true } }
  | none => l

/-- `_save` raises, before the file is replaced or after. -/
def failSave : GridEnergyLedger :=
  match l.saving with
  | some _ => { l with saveError := true, saving := none }
  | none => l

/-- `_save` returns: the state is saved, unless a newer one was observed. -/
def finishSave : GridEnergyLedger :=
  match l.saving with
  | some save =>
    if save.replaced = true then
      { l with
        saveError := false
        dirty := if save.revision = l.revision then false else l.dirty
        saving := none }
    else l
  | none => l

/-- `_validate_saved_readings`. -/
def validReadings (s : State) : Prop :=
  0 ≤ s.startedAt ∧ 0 ≤ s.observedAt ∧
  (0 ≤ s.baseline.importKwh ∧ 0 ≤ s.latest.importKwh) ∧
  (0 ≤ s.baseline.exportKwh ∧ 0 ≤ s.latest.exportKwh) ∧
  (∃ day, calendar zone (some s.timeZone) s.observedAt = some day ∧ day.date = s.date ∧
    (day.boundary ≤ s.startedAt ∧ s.startedAt ≤ s.observedAt) ∧
    (s.complete = true → s.startedAt = day.boundary)) ∧
  ¬ s.latest.less s.baseline

/-- `_validate_state`, of a state with the types of the fields. -/
def validateState (s : State) : Prop :=
  1 ≤ s.generation ∧
  parseMeterSource (some s.source.service) (some s.source.deviceInstance)
    (match s.source.serial with
      | some serial => .text serial
      | none => .missing) = some s.source ∧
  validReadings zone s

instance (s : State) : Decidable (validReadings zone s) := by
  unfold validReadings
  cases calendar zone (some s.timeZone) s.observedAt with
  | none => exact isFalse (by simp)
  | some day =>
    exact decidable_of_iff (0 ≤ s.startedAt ∧ 0 ≤ s.observedAt ∧
      (0 ≤ s.baseline.importKwh ∧ 0 ≤ s.latest.importKwh) ∧
      (0 ≤ s.baseline.exportKwh ∧ 0 ≤ s.latest.exportKwh) ∧
      (day.date = s.date ∧ (day.boundary ≤ s.startedAt ∧ s.startedAt ≤ s.observedAt) ∧
        (s.complete = true → s.startedAt = day.boundary)) ∧ ¬ s.latest.less s.baseline) (by simp)

instance (s : State) : Decidable (validateState zone s) := by
  unfold validateState; infer_instance

/-- The state that `_load` takes from the file, which may not be readable. -/
def load (disk : Option State) (readable : Bool) : Option State :=
  if readable then disk.filter (validateState zone ·) else none

/-- `__init__` over the file: a new process. -/
def restart (readable : Bool) : GridEnergyLedger where
  state := load zone l.disk readable
  readError := some (if l.disk.isSome ∧ load zone l.disk readable = none then "state_unavailable"
    else "awaiting_meter")
  disk := l.disk

/-! ### The machine -/

inductive Event
  | observe (service : Option String) (fields : Option MeterFields) (timeZone : Option String)
      (time mono : ℚ)
  | invalidate (reason : String) (reset : Bool)
  | beginSave (now : ℚ)
  | replaceFile
  | failSave
  | finishSave
  | restart (readable : Bool)
  deriving DecidableEq, Repr

def next (l : GridEnergyLedger) (e : Event) : GridEnergyLedger :=
  match e with
  | .observe service fields timeZone time mono => observe zone l service fields timeZone time mono
  | .invalidate reason reset => invalidate l reason reset
  | .beginSave now => beginSave l now
  | .replaceFile => replaceFile l
  | .failSave => failSave l
  | .finishSave => finishSave l
  | .restart readable => restart zone l readable

end InverterControl.Energy.Model
