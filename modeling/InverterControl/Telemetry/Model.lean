import InverterControl.Lib.Runs
import InverterControl.Python
import Mathlib.Data.Finset.Insert
import Mathlib.Order.WithBot

/-!
# The grid telemetry

`GridTelemetry` of `grid_telemetry.py`: every method takes the one lock, so it is one step, with the
reading of the monotonic clock as its argument.  The dictionaries of the fields are functions into
`Option`.  The text of a D-Bus reply is parsed before (`Raw`), and the messages of a refusal are the
constructors of `Reason`.
-/

namespace InverterControl.Telemetry.Model

open InverterControl.Lib.Runs InverterControl.Python

/-! ### The paths -/

/-- The supported phases. -/
inductive Phase
  | L1
  | L2
  deriving DecidableEq, Repr

/-- The index of an AC input. -/
inductive Input
  | in0
  | in1
  deriving DecidableEq, Repr

/-- `GRID_PATHS`. -/
inductive GridPath
  | phaseCount
  | power (p : Phase)
  | source (i : Input)
  | serviceName (i : Input)
  | deviceInstance (i : Input)
  deriving DecidableEq, Repr

/-- `GRID_METER_PATHS`. -/
inductive MeterPath
  | connected
  | phases
  deriving DecidableEq, Repr

def GridPath.all : List GridPath :=
  [.phaseCount, .power .L1, .power .L2, .source .in0, .serviceName .in0, .deviceInstance .in0,
    .source .in1, .serviceName .in1, .deviceInstance .in1]

/-- The path on the bus. -/
def GridPath.text : GridPath → String
  | .phaseCount => "/Ac/Grid/NumberOfPhases"
  | .power .L1 => "/Ac/Grid/L1/Power"
  | .power .L2 => "/Ac/Grid/L2/Power"
  | .source .in0 => "/Ac/In/0/Source"
  | .source .in1 => "/Ac/In/1/Source"
  | .serviceName .in0 => "/Ac/In/0/ServiceName"
  | .serviceName .in1 => "/Ac/In/1/ServiceName"
  | .deviceInstance .in0 => "/Ac/In/0/DeviceInstance"
  | .deviceInstance .in1 => "/Ac/In/1/DeviceInstance"

def MeterPath.text : MeterPath → String
  | .connected => "/Connected"
  | .phases => "/NrOfPhases"

/-- The grid path of a text (`none`: it is not in `GRID_PATHS`). -/
def gridPath (text : String) : Option GridPath := GridPath.all.find? (·.text = text)

/-- The meter path of a text. -/
def meterPath (text : String) : Option MeterPath :=
  [MeterPath.connected, MeterPath.phases].find? (·.text = text)

theorem GridPath.mem_all (p : GridPath) : p ∈ GridPath.all := by
  cases p with
  | phaseCount => decide
  | power p => cases p <;> decide
  | source i => cases i <;> decide
  | serviceName i => cases i <;> decide
  | deviceInstance i => cases i <;> decide

theorem gridPath_text (p : GridPath) : gridPath p.text = some p := by
  cases p with
  | phaseCount => decide
  | power p => cases p <;> decide
  | source i => cases i <;> decide
  | serviceName i => cases i <;> decide
  | deviceInstance i => cases i <;> decide

/-! ### The values -/

/-- A raw value, with what `_number` makes of it. -/
inductive Raw
  | none
  | text (s : String) (number : Option ℚ)
  | other (number : Option ℚ)
  deriving DecidableEq, Repr

/-- `_number`. -/
def Raw.number : Raw → Option ℚ
  | .none => Option.none
  | .text _ number => number
  | .other number => number

/-- A value of `_fields`. -/
inductive Value
  | number (q : ℚ)
  | name (s : String)
  deriving DecidableEq, Repr

/-- The number that a field holds. -/
def Value.number? : Option Value → Option ℚ
  | some (.number q) => some q
  | _ => none

/-- The value that `_update` stores: a name is a text that is not empty. -/
def stored (path : GridPath) (raw : Raw) : Option Value :=
  match path, raw with
  | .serviceName _, .text s _ => if s = "" then none else some (.name s)
  | .serviceName _, _ => none
  | _, raw => raw.number.map .number

/-- `normalized != self._fields.get(path)`. -/
def differs (path : GridPath) (raw : Raw) (held : Option Value) : Bool :=
  match path, raw with
  | .serviceName _, .none => held ≠ none
  | .serviceName _, .text s _ => held ≠ some (.name s)
  | .serviceName _, .other _ => true
  | _, raw => raw.number.map .number ≠ held

/-! ### The state -/

structure GridTelemetry where
  maxAge : ℚ
  expectedPhases : ℤ
  generation : ℕ := 0
  fields : GridPath → Option Value := fun _ => none
  updated : GridPath → Option ℚ := fun _ => none
  lastGood : Phase → ℤ := fun _ => 0
  requiredPhases : ℤ
  source : Option String
  sourceInstance : Option ℤ := none
  meterFields : String × MeterPath → Option ℚ := fun _ => none
  meterUpdated : String × MeterPath → Option ℚ := fun _ => none
  meterReady : Finset String := ∅
  declaredPhasesRequired : Finset String := ∅
  /-- `_owner_error`, where it is a text that is not empty. -/
  ownerError : Option String := none

/-- `__init__`. -/
def init (maxAge : ℚ) (expectedService : String) (expectedPhases : ℤ) : GridTelemetry where
  maxAge := maxAge
  expectedPhases := expectedPhases
  requiredPhases := expectedPhases
  source := if expectedService = "" then none else some expectedService

variable (t : GridTelemetry)

/-! ### The system's fields -/

/-- `round(value)` of a power field that is a number. -/
def noteGood (path : GridPath) (value : Option Value) (lastGood : Phase → ℤ) : Phase → ℤ :=
  match path, value with
  | .power p, some (.number q) => Function.update lastGood p (pyRound q)
  | _, _ => lastGood

/-- `_update`. -/
def updateField (path : GridPath) (raw : Raw) (now : ℚ) : GridTelemetry :=
  { t with
    fields := Function.update t.fields path (stored path raw)
    updated := Function.update t.updated path (some now)
    lastGood := noteGood path (stored path raw) t.lastGood }

def GridPath.isPower : GridPath → Bool
  | .power _ => true
  | _ => false

/-- The signal changes a topology or source field, or loses a power. -/
def outdatesRead (path : GridPath) (raw : Raw) : Bool :=
  if path.isPower then raw.number = none else differs path raw (t.fields path)

/-- `self._generation += 1`. -/
def bump : GridTelemetry := { t with generation := t.generation + 1 }

/-- `update` of one of `GRID_PATHS`. -/
def updateGrid (path : GridPath) (raw : Raw) (now : ℚ) : GridTelemetry :=
  updateField (if outdatesRead t path raw then bump t else t) path raw now

/-- `update`. -/
def update (path : String) (raw : Raw) (now : ℚ) : GridTelemetry :=
  match gridPath path with
  | some p => updateGrid t p raw now
  | none => t

/-- A reply that carries no token, or the current one. -/
def isCurrent (token : Option ℕ) : Prop := ∀ g, token = some g → g = t.generation

instance (token : Option ℕ) : Decidable (isCurrent t token) :=
  match token with
  | none => isTrue (by rintro g ⟨⟩)
  | some g => decidable_of_iff (g = t.generation) (by simp [isCurrent])

/-- Every path is updated, in order. -/
def updateAll (values : GridPath → Raw) (now : ℚ) (paths : List GridPath) : GridTelemetry :=
  paths.foldl (fun t path => updateField t path (values path) now) t

/-- `replace`. -/
def replace (values : GridPath → Raw) (token : Option ℕ) (now : ℚ) : GridTelemetry :=
  if isCurrent t token then { updateAll (bump t) values now GridPath.all with ownerError := none }
  else t

/-! ### The source and its meter -/

/-- The name of an instance that is a nonnegative integer. -/
def integralInstance : Option Value → Option ℤ
  | some (.number q) => if 0 ≤ q ∧ q.isInt then some q.num else none
  | _ => none

/-- `GRID_SERVICE_PREFIX`. -/
def gridServicePrefix : String := "com.victronenergy.grid."

/-- The candidate of one input. -/
def candidate (i : Input) : Option (String × ℤ × Input) :=
  match t.fields (.source i), t.fields (.serviceName i),
    integralInstance (t.fields (.deviceInstance i)) with
  | some (.number kind), some (.name name), some inst =>
    if (kind = 1 ∨ kind = 3) ∧ startsWith name "com.victronenergy." then some (name, inst, i) else none
  | _, _, _ => none

/-- `_source_candidates`. -/
def sourceCandidates : List (String × ℤ × Input) := [Input.in0, Input.in1].filterMap (candidate t)

/-- `selected_meter`. -/
def selectedMeter : Option String :=
  match sourceCandidates t with
  | (name, _) :: _ => if startsWith name gridServicePrefix then some name else none
  | [] => none

/-- The signal loses the connection, or changes the declared phases. -/
def outdatesMeterRead (service : String) (path : MeterPath) (value : Option ℚ) : Bool :=
  match path with
  | .connected => value ≠ some 1
  | .phases => value ≠ t.meterFields (service, .phases)

/-- A meter's field is stored. -/
def storeMeter (service : String) (path : MeterPath) (value : Option ℚ) (now : ℚ) : GridTelemetry :=
  { t with
    meterFields := Function.update t.meterFields (service, path) value
    meterUpdated := Function.update t.meterUpdated (service, path) (some now) }

/-- The meter declares its phases from now on. -/
def requireDeclared (service : String) : GridTelemetry :=
  { t with declaredPhasesRequired := insert service t.declaredPhasesRequired }

/-- The generation after a meter's signal. -/
def noteMeterSignal (service : String) (path : MeterPath) (value : Option ℚ) (token : Option ℕ) :
    GridTelemetry :=
  if token = none ∧ outdatesMeterRead t service path value = true then bump t else t

/-- `update_meter` that is accepted. -/
def acceptMeterUpdate (service : String) (path : MeterPath) (raw : Raw) (token : Option ℕ) (now : ℚ) :
    GridTelemetry :=
  storeMeter
    (if path = .phases then
      requireDeclared (noteMeterSignal t service path raw.number token) service
    else noteMeterSignal t service path raw.number token)
    service path raw.number now

/-- `update_meter`: its answer, and the state. -/
def updateMeter (service : Option String) (path : String) (raw : Raw) (token : Option ℕ) (now : ℚ) :
    Bool × GridTelemetry :=
  match service, meterPath path with
  | some service, some path =>
    if some service ≠ selectedMeter t then (false, t)
    else if isCurrent t token then (true, acceptMeterUpdate t service path raw token now)
    else (false, t)
  | _, _ => (false, t)

/-- A complete reply of a meter; the declared phases may be missing from it. -/
structure MeterReply where
  connected : Raw
  phases : Option Raw
  deriving DecidableEq, Repr

/-- The reply is published. -/
def publishMeter (service : String) (reply : MeterReply) (now : ℚ) : GridTelemetry :=
  { storeMeter (storeMeter (bump t) service .connected reply.connected.number now) service .phases
      ((reply.phases.getD .none).number) now with
    declaredPhasesRequired :=
      if reply.phases.isSome then insert service t.declaredPhasesRequired
      else t.declaredPhasesRequired
    meterReady := insert service t.meterReady }

/-- The meter did not answer. -/
def dropMeter (service : String) : GridTelemetry :=
  { bump t with meterReady := t.meterReady.erase service }

/-- `replace_meter`. -/
def replaceMeter (service : String) (reply : Option MeterReply) (token : ℕ) (now : ℚ) :
    Bool × GridTelemetry :=
  if token ≠ t.generation ∨ some service ≠ selectedMeter t then (false, t)
  else match reply with
    | none => (false, dropMeter t service)
    | some reply => (true, publishMeter t service reply now)

/-- The critical values are gone, with the message that says why. -/
def clear (error : Option String) : GridTelemetry :=
  { bump t with
    fields := fun _ => none
    updated := fun _ => none
    meterReady := ∅
    meterFields := fun _ => none
    meterUpdated := fun _ => none
    ownerError := error }

/-- The service is one that the measurement depends on. -/
def isCritical (service : String) : Prop :=
  service = "com.victronenergy.system" ∨ some service = t.source ∨ some service = selectedMeter t

instance (service : String) : Decidable (isCritical t service) := by
  unfold isCritical; infer_instance

/-- `owner_changed`. -/
def ownerChanged (service : String) : Bool × GridTelemetry :=
  if isCritical t service then (true, clear t (some ("Grid source owner changed: " ++ service)))
  else (false, t)

/-- `unavailable`: an empty reason is no error. -/
def unavailable (reason : String) : GridTelemetry :=
  clear t (if reason = "" then none else some reason)

/-! ### The snapshot -/

/-- The messages of `_reason`. -/
inductive Reason
  | owner (error : String)
  /-- `Unsupported or unavailable grid phase count: …` -/
  | unsupportedPhases (phases : Option ℚ)
  /-- `Grid phase count differs from configured topology` -/
  | phasesDiffer
  /-- `Grid phase count decreased; waiting for established topology` -/
  | phasesDecreased
  /-- `Grid L… power unavailable` -/
  | powerUnavailable (p : Phase)
  /-- `Grid source identity unavailable` -/
  | sourceUnavailable
  /-- `Ambiguous grid source identity` -/
  | sourceAmbiguous
  /-- `Grid measurement source changed; waiting for established source` -/
  | sourceChanged
  /-- `Grid device instance changed; waiting for established source` -/
  | instanceChanged
  /-- `External grid meter metadata unavailable` -/
  | meterUnavailable
  /-- `External grid meter is not connected` -/
  | meterDisconnected
  /-- `Grid power does not match the meter phase topology` -/
  | meterPhasesDiffer
  /-- `Grid measurement revalidation overdue` -/
  | overdue
  deriving DecidableEq, Repr

/-- The phases of a supported count. -/
def phasesOf (phases : ℚ) : List Phase := if phases = 1 then [.L1] else [.L1, .L2]

/-- `_power_paths`: the phase count and the required paths. -/
def powerPaths : Except Reason (ℚ × List GridPath) :=
  match Value.number? (t.fields .phaseCount) with
  | none => .error (.unsupportedPhases none)
  | some phases =>
    if phases ≠ 1 ∧ phases ≠ 2 then .error (.unsupportedPhases phases)
    else if t.expectedPhases ≠ 0 ∧ phases ≠ t.expectedPhases then .error .phasesDiffer
    else if phases < t.requiredPhases then .error .phasesDecreased
    else match (phasesOf phases).find? (fun p => t.fields (.power p) = none) with
      | some p => .error (.powerUnavailable p)
      | none => .ok (phases, .phaseCount :: (phasesOf phases).map .power)

/-- The age of an observation (`⊤` where there is none). -/
def ageOf (now : ℚ) : Option ℚ → WithTop ℚ
  | some time => ((now - time : ℚ) : WithTop ℚ)
  | none => ⊤

/-- The declared phases of a meter disagree with the system's. -/
def declaredDiffer (source : String) (phases : ℚ) : Prop :=
  (source ∈ t.declaredPhasesRequired ∨ t.meterFields (source, .phases) ≠ none) ∧
    t.meterFields (source, .phases) ≠ some phases

instance (source : String) (phases : ℚ) : Decidable (declaredDiffer t source phases) := by
  unfold declaredDiffer; infer_instance

/-- `_external_meter_status`: the age of the meter's connection. -/
def externalMeterStatus (source : String) (phases now : ℚ) : Except Reason (WithTop ℚ) :=
  if startsWith source gridServicePrefix then
    if source ∉ t.meterReady then .error .meterUnavailable
    else if t.meterFields (source, .connected) ≠ some 1 then .error .meterDisconnected
    else if declaredDiffer t source phases then .error .meterPhasesDiffer
    else .ok (ageOf now (t.meterUpdated (source, .connected)))
  else .ok 0

/-- The paths of a source descriptor. -/
def sourcePaths (i : Input) : List GridPath := [.source i, .serviceName i, .deviceInstance i]

/-- A measurement that passed every check but its age. -/
structure Measurement where
  phases : ℚ
  source : String
  sourceInstance : ℤ
  requiredPaths : List GridPath
  meterAge : WithTop ℚ

/-- The checks of the source of a measurement. -/
def checkSource (phases now : ℚ) (paths : List GridPath) : Except Reason Measurement :=
  match sourceCandidates t with
  | [] => .error .sourceUnavailable
  | (source, inst, i) :: others =>
    if ∃ c ∈ others, (c.1, c.2.1) ≠ (source, inst) then .error .sourceAmbiguous
    else if t.source ≠ none ∧ some source ≠ t.source then .error .sourceChanged
    else if t.sourceInstance ≠ none ∧ some inst ≠ t.sourceInstance then .error .instanceChanged
    else match externalMeterStatus t source phases now with
      | .error e => .error e
      | .ok meterAge => .ok ⟨phases, source, inst, paths ++ sourcePaths i, meterAge⟩

/-- The checks of `_reason` before the age. -/
def measure (now : ℚ) : Except Reason Measurement :=
  match t.ownerError with
  | some error => .error (.owner error)
  | none =>
    match powerPaths t with
    | .error e => .error e
    | .ok (phases, paths) => checkSource t phases now paths

/-- The age of a measurement: of its oldest part. -/
def measurementAge (now : ℚ) (m : Measurement) : WithTop ℚ :=
  (m.requiredPaths.map fun path => ageOf now (t.updated path)).foldr max m.meterAge

/-- The source and the topology are established. -/
def establish (m : Measurement) : GridTelemetry :=
  { t with
    requiredPhases := max t.requiredPhases m.phases.num
    source := some m.source
    sourceInstance := some m.sourceInstance }

/-- `_reason`: why the measurement is not valid, its age, and the state. -/
def reason (now : ℚ) : Option Reason × Option (WithTop ℚ) × GridTelemetry :=
  match measure t now with
  | .error e => (some e, none, t)
  | .ok m =>
    if (t.maxAge : WithTop ℚ) < measurementAge t now m then
      (some .overdue, some (measurementAge t now m), t)
    else (none, some (measurementAge t now m), establish t m)

/-- What `snapshot` returns. -/
structure Snapshot where
  g1 : ℤ
  g2 : ℤ
  gt : ℤ
  valid : Bool
  invalidReason : Option Reason
  age : Option (WithTop ℚ)
  phases : Option ℤ
  source : Option String
  sourceInstance : Option ℤ
  deriving DecidableEq

/-- The second phase that is shown: of a two-phase topology. -/
def secondPhase : ℤ := if t.requiredPhases = 2 then t.lastGood .L2 else 0

/-- The snapshot of a state in which `_reason` was asked. -/
def report (why : Option Reason) (age : Option (WithTop ℚ)) : Snapshot where
  g1 := t.lastGood .L1
  g2 := secondPhase t
  gt := t.lastGood .L1 + secondPhase t
  valid := why = none
  invalidReason := why
  age := age
  phases := if t.requiredPhases = 0 then none else some t.requiredPhases
  source := t.source
  sourceInstance := t.sourceInstance

/-- `snapshot`. -/
def snapshot (now : ℚ) : Snapshot × GridTelemetry :=
  (report (reason t now).2.2 (reason t now).1 (reason t now).2.1, (reason t now).2.2)

/-! ### The machine -/

inductive Op
  | update (path : String) (raw : Raw)
  | replace (values : GridPath → Raw) (token : Option ℕ)
  | updateMeter (service : Option String) (path : String) (raw : Raw) (token : Option ℕ)
  | replaceMeter (service : String) (reply : Option MeterReply) (token : ℕ)
  | ownerChanged (service : String)
  | unavailable (reason : String)
  | snapshot

/-- A call, and the monotonic clock in it. -/
structure Event where
  op : Op
  now : ℚ

/-- The state after a call. -/
def next (t : GridTelemetry) (e : Event) : GridTelemetry :=
  match e.op with
  | .update path raw => update t path raw e.now
  | .replace values token => replace t values token e.now
  | .updateMeter service path raw token => (updateMeter t service path raw token e.now).2
  | .replaceMeter service reply token => (replaceMeter t service reply token e.now).2
  | .ownerChanged service => (ownerChanged t service).2
  | .unavailable reason => unavailable t reason
  | .snapshot => (snapshot t e.now).2

end InverterControl.Telemetry.Model
