import InverterControl.Lib.Runs
import InverterControl.Python

/-!
# The submeter trim

`SubmeterTrim` of `submeter_trim.py`: a small correction of a held command for each fresh, settled
window of submeter reports.  `propose` returns a decision object and `commit` takes one back after an
accepted write, by identity: the objects carry the number of their creation.  An exception is the
result `none`.
-/

namespace InverterControl.Trim.Model

open InverterControl.Lib.Runs InverterControl.Python

def maxAge : ℚ := 8
def maxFuture : ℚ := 1
def settleSeconds : ℚ := 10
def measurementDelay : ℚ := 6
def windowSeconds : ℚ := 20
def minSpan : ℚ := 10
def minReports : ℕ := 5
def submeterRange : ℚ := 40
def primaryRange : ℚ := 30
def rawDeviation : ℚ := 80
def deadzone : ℚ := 5
def gain : ℚ := 1 / 4
def maxStep : ℤ := 4
def maxTotal : ℤ := 60

/-- `TrimDecision._kind`. -/
inductive Kind
  | hold
  | trim
  | base
  deriving DecidableEq, Repr

structure TrimDecision where
  setpoint : ℤ
  delta : ℤ
  measurementTime : Option ℚ
  reason : String
  previous : ℤ
  kind : Kind
  proposedAt : ℚ
  deriving DecidableEq, Repr

/-- A decision object: `==` compares the decisions, `is` the identities. -/
structure Issued where
  id : ℕ
  decision : TrimDecision
  deriving DecidableEq, Repr

structure Report where
  timestamp : ℚ
  power : ℚ
  observedAt : ℚ
  deriving DecidableEq, Repr

/-- The submeter's `(service, instance, generation)`. -/
structure Identity where
  service : String
  deviceInstance : ℤ
  generation : ℤ
  deriving DecidableEq, Repr

/-- `(source_key, identity)`. -/
structure Context where
  source : String × List ℤ
  identity : Identity
  deriving DecidableEq, Repr

structure SubmeterTrim where
  enabled : Bool
  service : Option String
  deviceInstance : Option ℤ
  lastAcceptedDelta : Option ℤ := none
  lastAcceptedTime : Option ℚ := none
  lastTrimTime : Option ℚ := none
  lastNow : Option ℚ := none
  context : Option Context := none
  acceptedSetpoint : Option ℤ := none
  commandTime : Option ℚ := none
  commandWall : Option ℚ := none
  lastMeasurement : Option ℚ := none
  lastPower : Option ℚ := none
  limits : Option (ℚ × ℚ) := none
  totalTrim : ℤ := 0
  needsWarmup : Bool := true
  issued : Option Issued := none
  pending : Option Issued := none
  reports : List Report := []
  primary : List (ℚ × ℚ) := []
  average : Option ℚ := none
  reason : String
  /-- The number of the next decision object. -/
  nextId : ℕ := 0
  deriving DecidableEq, Repr

/-- What `propose` returns (`none`: it raises), and the state it leaves. -/
abbrev Result := Option Issued × SubmeterTrim

/-- `__init__`, with the identity that is configured. -/
def init (enabled : Bool) (expectedService : Option String) (expectedInstance : Option ℤ) :
    SubmeterTrim where
  enabled := enabled
  service := expectedService
  deviceInstance := expectedInstance
  reason := if enabled then "warming_up" else "disabled"

/-- `_clear_window`. -/
def clearWindow (s : SubmeterTrim) : SubmeterTrim :=
  { s with reports := [], primary := [], average := none, pending := none }

/-- `reset`. -/
def reset (reason : String) (s : SubmeterTrim) : SubmeterTrim :=
  { clearWindow s with needsWarmup := true, issued := none, reason := reason }

/-- The decision that `_decision` builds. -/
def newDecision (base previous : ℤ) (now : ℚ) (reason : String) (delta : ℤ)
    (timestamp : Option ℚ) : TrimDecision where
  setpoint := base + delta
  delta := delta
  measurementTime := timestamp
  reason := reason
  previous := previous
  kind := if delta ≠ 0 then .trim else if base ≠ previous then .base else .hold
  proposedAt := now

/-- `d` becomes the issued decision object, and the pending one when it moves the setpoint. -/
def issue (d : TrimDecision) (s : SubmeterTrim) : SubmeterTrim :=
  { s with
    reason := d.reason
    issued := some ⟨s.nextId, d⟩
    pending := if d.delta ≠ 0 then some ⟨s.nextId, d⟩ else s.pending
    nextId := s.nextId + 1 }

/-- `_decision`. -/
def decision (base previous : ℤ) (now : ℚ) (reason : String) (delta : ℤ) (timestamp : Option ℚ)
    (s : SubmeterTrim) : Result :=
  (some ⟨s.nextId, newDecision base previous now reason delta timestamp⟩,
    issue (newDecision base previous now reason delta timestamp) s)

/-- `_decision` without a delta and a timestamp. -/
def hold (base previous : ℤ) (now : ℚ) (reason : String) (s : SubmeterTrim) : Result :=
  decision base previous now reason 0 none s

/-- `reset(reason)`, and the decision that says why. -/
def refuse (base previous : ℤ) (now : ℚ) (reason : String) (s : SubmeterTrim) : Result :=
  hold base previous now reason (reset reason s)

/-- `_restart_baseline`. -/
def restartBaseline (previous : ℤ) (now wallTime : ℚ) (s : SubmeterTrim) : SubmeterTrim :=
  { clearWindow s with
    acceptedSetpoint := some previous
    commandTime := some now
    commandWall := some wallTime
    totalTrim := 0
    lastMeasurement := none
    lastPower := none
    needsWarmup := false }

/-! ### The report -/

/-- The fields of a sample dictionary (`.none` where a key is missing). -/
structure Sample where
  available : PyValue
  service : PyValue
  deviceInstance : PyValue
  /-- `none`: the key is missing, and 0 stands for it. -/
  generation : Option PyValue
  measurementTime : PyValue
  power : PyValue
  ageSeconds : PyValue
  deriving DecidableEq, Repr

/-- A report that is accepted: who sent it, its timestamp and its power. -/
structure Reading where
  identity : Identity
  timestamp : ℚ
  power : ℚ
  deriving DecidableEq, Repr

/-- The identity of a sample, if it is valid. -/
def sampleIdentity (sample : Sample) : Option Identity :=
  match sample.service, integer sample.deviceInstance,
      integer (sample.generation.getD (.int 0)) with
  | .str service, some deviceInstance, some generation =>
    if startsWith service "com.victronenergy.acload." ∧ 0 ≤ deviceInstance ∧ 0 ≤ generation then
      some ⟨service, deviceInstance, generation⟩
    else none
  | _, _, _ => none

/-- Another service or device instance than the pinned one. -/
def foreign (identity : Identity) (s : SubmeterTrim) : Prop :=
  (∃ service, s.service = some service ∧ identity.service ≠ service) ∨
    ∃ i, s.deviceInstance = some i ∧ identity.deviceInstance ≠ i

instance (identity : Identity) (s : SubmeterTrim) : Decidable (foreign identity s) :=
  decidable_of_iff ((s.service.any (identity.service ≠ ·) ||
    s.deviceInstance.any (identity.deviceInstance ≠ ·)) = true) (by
      simp [foreign, Option.any_eq_true])

/-- The measurement of a sample, whose age is checked against the wall clock. -/
def sampleMeasurement (sample : Sample) (wallTime : ℚ) : Except String (ℚ × ℚ) :=
  match number sample.measurementTime, number sample.power, number sample.ageSeconds with
  | some timestamp, some power, some age =>
    if timestamp ≤ 0 ∨ age < 0 then .error "invalid_submeter"
    else if wallTime - timestamp < -maxFuture then .error "future_submeter"
    else if maxAge < wallTime - timestamp ∨ maxAge < age then .error "stale_submeter"
    else .ok (timestamp, power)
  | _, _, _ => .error "invalid_submeter"

/-- `_sample`, up to the pinning of the identity.  `none`: the sample is no dictionary. -/
def readSample (sample : Option Sample) (wallTime : ℚ) (s : SubmeterTrim) :
    Except String Reading :=
  match sample with
  | none => .error "submeter_unavailable"
  | some sample =>
    if sample.available ≠ .bool true then .error "submeter_unavailable"
    else match sampleIdentity sample with
      | none => .error "invalid_identity"
      | some identity =>
        if foreign identity s then .error "foreign_identity"
        else match sampleMeasurement sample wallTime with
          | .error e => .error e
          | .ok (timestamp, power) => .ok ⟨identity, timestamp, power⟩

/-- The first valid identity is pinned. -/
def pinIdentity (identity : Identity) (s : SubmeterTrim) : SubmeterTrim :=
  { s with service := some identity.service, deviceInstance := some identity.deviceInstance }

/-! ### The checks of a proposal -/

/-- The arguments of `propose`. -/
structure Proposal where
  now : PyValue
  wallTime : PyValue
  previousSetpoint : PyValue
  baseSetpoint : PyValue
  sample : Option Sample
  eligible : PyValue
  reason : String
  rawGrid : PyValue
  filteredGrid : PyValue
  minSetpoint : PyValue
  maxSetpoint : PyValue
  /-- `none`: no tuple. -/
  sourceKey : Option (List PyValue)
  deriving DecidableEq, Repr

/-- The items of a valid source key after the service: nonnegative integers. -/
def keyItems : List PyValue → Option (List ℤ)
  | [] => some []
  | v :: vs =>
    match integer v, keyItems vs with
    | some n, some ns => if 0 ≤ n then some (n :: ns) else none
    | _, _ => none

/-- A valid source key: a service name and at least one nonnegative integer. -/
def validSourceKey : Option (List PyValue) → Option (String × List ℤ)
  | some (.str service :: v :: vs) =>
    if startsWith service "com.victronenergy." then (keyItems (v :: vs)).map (service, ·) else none
  | _ => none

/-- What a proposal sees that passes every check: the base command is the previous one. -/
structure View where
  previous : ℤ
  clock : ℚ
  wall : ℚ
  low : ℚ
  high : ℚ
  raw : ℚ
  filtered : ℚ
  context : Context
  timestamp : ℚ
  power : ℚ
  deriving DecidableEq, Repr

/-- The checks of `propose` answer at once, or let the proposal pass. -/
inductive Examined
  | answered (r : Result)
  | passed (v : View) (s : SubmeterTrim)

/-- A clock that went back. -/
def reversed (clock : ℚ) (s : SubmeterTrim) : Prop := ∃ t, s.lastNow = some t ∧ clock < t

instance (clock : ℚ) (s : SubmeterTrim) : Decidable (reversed clock s) :=
  decidable_of_iff ((s.lastNow.any (clock < ·)) = true) (by simp [reversed, Option.any_eq_true])

/-- `self._limits`: changed limits are a reset. -/
def noteLimits (low high : ℚ) (s : SubmeterTrim) : SubmeterTrim :=
  { (if s.limits ≠ none ∧ s.limits ≠ some (low, high) then reset "limits_changed" s else s) with
    limits := some (low, high) }

/-- `_sample` and what `propose` does with its answer. -/
def examineSample (a : Proposal) (previous : ℤ) (clock wall low high raw filtered : ℚ)
    (source : String × List ℤ) (s : SubmeterTrim) : Examined :=
  match readSample a.sample wall s with
  | .error e => .answered (refuse previous previous clock e s)
  | .ok r =>
    .passed ⟨previous, clock, wall, low, high, raw, filtered, ⟨source, r.identity⟩, r.timestamp,
      r.power⟩ (pinIdentity r.identity s)

/-- `_check_proposal_source`. -/
def examineSource (a : Proposal) (previous : ℤ) (clock wall low high : ℚ) (s : SubmeterTrim) :
    Examined :=
  match number a.rawGrid, number a.filteredGrid with
  | some raw, some filtered =>
    match validSourceKey a.sourceKey with
    | none => .answered (refuse previous previous clock "invalid_source" s)
    | some source => examineSample a previous clock wall low high raw filtered source s
  | _, _ => .answered (refuse previous previous clock "invalid_primary" s)

/-- The limits. -/
def examineLimits (a : Proposal) (previous : ℤ) (clock wall : ℚ) (s : SubmeterTrim) : Examined :=
  match number a.minSetpoint, number a.maxSetpoint with
  | some low, some high =>
    if high ≤ low ∨ ¬ (low ≤ previous ∧ previous ≤ high) then
      .answered (refuse previous previous clock "invalid_limits" s)
    else examineSource a previous clock wall low high (noteLimits low high s)
  | _, _ => .answered (refuse previous previous clock "invalid_limits" s)

/-- `_check_proposal_mode`. -/
def examineMode (a : Proposal) (previous base : ℤ) (clock wall : ℚ) (s : SubmeterTrim) : Examined :=
  if s.enabled = false then .answered (refuse base previous clock "disabled" s)
  else if a.eligible ≠ .bool true then
    .answered (refuse base previous clock (if a.reason = "" then "ineligible" else a.reason) s)
  else if integer a.baseSetpoint = none then
    .answered (refuse previous previous clock "invalid_base_command" s)
  else if base ≠ previous then .answered (hold base previous clock "fast_command" (clearWindow s))
  else examineLimits a previous clock wall s

/-- `_check_proposal_clock`. -/
def examineClock (a : Proposal) (previous base : ℤ) (s : SubmeterTrim) : Examined :=
  match number a.now, number a.wallTime with
  | some clock, some wall =>
    if clock < 0 ∨ wall ≤ 0 then .answered (refuse base previous 0 "invalid_clock" s)
    else if reversed clock s then
      .answered (hold base previous clock "clock_reversed"
        { reset "clock_reversed" s with lastNow := some clock })
    else examineMode a previous base clock wall { s with lastNow := some clock }
  | _, _ => .answered (refuse base previous 0 "invalid_clock" s)

/-- The checks of `propose`, in their order.  A previous setpoint that is no integer raises. -/
def examine (a : Proposal) (s : SubmeterTrim) : Examined :=
  match integer a.previousSetpoint with
  | none => .answered (none, s)
  | some previous => examineClock a previous ((integer a.baseSetpoint).getD previous) s

/-! ### The window -/

/-- The baseline starts anew: another source or submeter, or a setpoint that was not accepted here. -/
def restarts (v : View) (s : SubmeterTrim) : Prop :=
  s.context ≠ some v.context ∨ s.acceptedSetpoint ≠ some v.previous

instance (v : View) (s : SubmeterTrim) : Decidable (restarts v s) := by
  unfold restarts; infer_instance

/-- The baseline of a proposal that passed: started anew, warmed up after a reset, or kept. -/
def updateBaseline (v : View) (s : SubmeterTrim) : SubmeterTrim :=
  if restarts v s then
    { restartBaseline v.previous v.clock v.wall s with context := some v.context }
  else if s.needsWarmup then
    { s with commandTime := some v.clock, commandWall := some v.wall, needsWarmup := false }
  else s

/-- The primary's history. -/
def notePrimary (v : View) (s : SubmeterTrim) : SubmeterTrim :=
  { s with primary :=
      (s.primary ++ [(v.clock, v.filtered)]).filter fun p => v.clock - p.1 ≤ windowSeconds }

/-- `is_new` of `_update_report_identity`. -/
def isNew (timestamp : ℚ) (s : SubmeterTrim) : Prop := ∀ t, s.lastMeasurement = some t → t < timestamp

instance (timestamp : ℚ) (s : SubmeterTrim) : Decidable (isNew timestamp s) :=
  decidable_of_iff ((s.lastMeasurement.all (· < timestamp)) = true) (by
    simp [isNew, Option.all_eq_true])

/-- The error of `_update_report_identity`. -/
def reportError (timestamp power : ℚ) (s : SubmeterTrim) : Option String :=
  match s.lastMeasurement with
  | none => none
  | some t =>
    if timestamp < t then some "out_of_order_submeter"
    else if timestamp = t ∧ s.lastPower ≠ some power then some "changed_submeter_report"
    else none

/-- A new report ends a pending proposal. -/
def noteReport (timestamp power : ℚ) (s : SubmeterTrim) : SubmeterTrim :=
  { s with pending := none, lastMeasurement := some timestamp, lastPower := some power }

/-- A new report joins the window. -/
def addReport (timestamp power clock : ℚ) (s : SubmeterTrim) : SubmeterTrim :=
  { s with reports := s.reports ++ [⟨timestamp, power, clock⟩] }

/-- Reports older than the window leave it. -/
def pruneReports (timestamp : ℚ) (s : SubmeterTrim) : SubmeterTrim :=
  { s with reports := s.reports.filter fun r => timestamp - r.timestamp ≤ windowSeconds }

/-- `max(values) - min(values)`. -/
def spread : List ℚ → ℚ
  | [] => 0
  | x :: xs => xs.foldl max x - xs.foldl min x

/-- The primary's values since the first report of the window. -/
def primarySince (s : SubmeterTrim) : List ℚ :=
  match s.reports with
  | [] => []
  | r :: _ => (s.primary.filter fun p => r.observedAt ≤ p.1).map (·.2)

/-- The mean of the window's reports. -/
def mean (s : SubmeterTrim) : ℚ := (s.reports.map (·.power)).sum / s.reports.length

/-- What `_check_window_stability` finds wrong. -/
def unstable (s : SubmeterTrim) : Option String :=
  if s.reports = [] then none
  else if submeterRange < spread (s.reports.map (·.power)) then some "submeter_unstable"
  else if primaryRange < spread (primarySince s) then some "primary_unstable"
  else none

/-- The mean that `_check_window_stability` keeps. -/
def noteAverage (s : SubmeterTrim) : SubmeterTrim :=
  if s.reports = [] then s else { s with average := some (mean s) }

/-- The magnitude of a trim. -/
def magnitude (average : ℚ) : ℤ := min maxStep (max 1 (pyRound (|average| * gain)))

/-- The delta of a trim. -/
def trimDelta (average : ℚ) : ℤ := if 0 < average then -magnitude average else magnitude average

/-- `_bounded_trim_decision`. -/
def boundedTrimDecision (v : View) (average : ℚ) (s : SubmeterTrim) : Result :=
  if maxTotal < |s.totalTrim + trimDelta average| then
    decision v.previous v.previous v.clock "trim_budget" 0 (some v.timestamp) s
  else if ¬ (v.low < (v.previous + trimDelta average : ℤ) ∧
      ((v.previous + trimDelta average : ℤ) : ℚ) < v.high) then
    decision v.previous v.previous v.clock "setpoint_limit" 0 (some v.timestamp) s
  else decision v.previous v.previous v.clock "trim" (trimDelta average) (some v.timestamp) s

/-- The window spans less than `MIN_SPAN`. -/
def shortSpan (s : SubmeterTrim) : Prop :=
  ∀ a b, s.reports.head? = some a → s.reports.getLast? = some b → b.timestamp - a.timestamp < minSpan

instance (s : SubmeterTrim) : Decidable (shortSpan s) :=
  match hf : s.reports.head?, hl : s.reports.getLast? with
  | some a, some b =>
    decidable_of_iff (b.timestamp - a.timestamp < minSpan) (by simp [shortSpan, hf, hl])
  | none, _ => isTrue (by simp [shortSpan, hf])
  | _, none => isTrue (by simp [shortSpan, hl])

/-- The end of `_propose_window`: a decision from a full window. -/
def decideWindow (v : View) (fresh : Bool) (s : SubmeterTrim) : Result :=
  if fresh = false then hold v.previous v.previous v.clock "repeated_submeter" s
  else if s.reports.length < minReports ∨ shortSpan s then
    hold v.previous v.previous v.clock "collecting" s
  else match s.average with
    | none => (none, s)
    | some average =>
      if |average| ≤ deadzone then
        decision v.previous v.previous v.clock "within_deadzone" 0 (some v.timestamp) s
      else boundedTrimDecision v average s

/-- A pending proposal is issued again while its report and command are still fresh. -/
def reissue (v : View) (fresh : Bool) (s : SubmeterTrim) : Result :=
  match s.pending with
  | some p => (some p, { s with issued := some p, reason := p.decision.reason })
  | none => decideWindow v fresh s

/-- `_propose_window` from the window's stability on. -/
def settleWindow (v : View) (fresh : Bool) (s : SubmeterTrim) : Result :=
  match unstable s with
  | some e => hold v.previous v.previous v.clock e (clearWindow s)
  | none =>
    match s.commandTime with
    | none => (none, s)
    | some t =>
      if v.clock - t < settleSeconds then
        hold v.previous v.previous v.clock "settling" (noteAverage s)
      else reissue v fresh (noteAverage s)

/-- `_propose_window` from the report's age on. -/
def collectWindow (v : View) (fresh : Bool) (s : SubmeterTrim) : Result :=
  match s.commandWall with
  | none => (none, s)
  | some wall =>
    if v.timestamp < wall + measurementDelay then
      hold v.previous v.previous v.clock "measurement_predates_settle" { s with pending := none }
    else if fresh then
      settleWindow v fresh (pruneReports v.timestamp (addReport v.timestamp v.power v.clock s))
    else settleWindow v fresh (pruneReports v.timestamp s)

/-- `_propose_window`. -/
def proposeWindow (v : View) (s : SubmeterTrim) : Result :=
  if rawDeviation < |v.raw - v.filtered| then
    hold v.previous v.previous v.clock "primary_transient" (clearWindow s)
  else match reportError v.timestamp v.power (notePrimary v s) with
    | some e => hold v.previous v.previous v.clock e (clearWindow (notePrimary v s))
    | none =>
      if isNew v.timestamp (notePrimary v s) then
        collectWindow v true (noteReport v.timestamp v.power (notePrimary v s))
      else collectWindow v false (notePrimary v s)

/-- `propose`. -/
def propose (a : Proposal) (s : SubmeterTrim) : Result :=
  match examine a s with
  | .answered r => r
  | .passed v s => proposeWindow v (updateBaseline v s)

/-! ### Commit -/

/-- The object passed to `commit`: a decision object, `None`, or anything else. -/
inductive Handle
  | decision (id : ℕ)
  | none
  | other
  deriving DecidableEq, Repr

/-- `commit` is called with the issued object and valid clocks. -/
def commits (h : Handle) (now wallTime : PyValue) (s : SubmeterTrim) : Option (Issued × ℚ × ℚ) :=
  match h, s.issued, number now, number wallTime with
  | .decision id, some i, some clock, some wall =>
    if id = i.id ∧ ¬ clock < i.decision.proposedAt ∧ ¬ wall ≤ 0 then some (i, clock, wall) else none
  | _, _, _, _ => none

/-- The command time moves, and a first accepted setpoint is recorded. -/
def acceptCommand (d : TrimDecision) (clock wall : ℚ) (s : SubmeterTrim) : SubmeterTrim :=
  if d.setpoint ≠ d.previous ∨ s.acceptedSetpoint = none then
    { s with
      commandTime := some clock
      commandWall := some wall
      acceptedSetpoint := some d.setpoint }
  else s

/-- A changed setpoint is accounted for, and the window begins again. -/
def acceptChange (d : TrimDecision) (wall : ℚ) (s : SubmeterTrim) : SubmeterTrim :=
  if d.setpoint ≠ d.previous then
    { clearWindow s with
      lastAcceptedDelta := some (d.setpoint - d.previous)
      lastAcceptedTime := some wall
      totalTrim := if d.kind = .trim then s.totalTrim + d.delta else 0
      lastTrimTime := if d.kind = .trim then some wall else s.lastTrimTime
      needsWarmup := false }
  else s

/-- `commit`: `True`, `False`, or (`none`) an `AttributeError` for the object `None` when no decision
is issued. -/
def commit (h : Handle) (now wallTime : PyValue) (s : SubmeterTrim) : Option Bool × SubmeterTrim :=
  match commits h now wallTime s with
  | some (i, clock, wall) =>
    (some true,
      { acceptChange i.decision wall (acceptCommand i.decision clock wall s) with
        pending := none, issued := none })
  | none =>
    if h = .none ∧ s.issued = none ∧ number now ≠ none ∧ number wallTime ≠ none then (none, s)
    else (some false, s)

/-! ### The machine -/

/-- A call, with its arguments. -/
inductive Call
  | propose (a : Proposal)
  | commit (h : Handle) (now wallTime : PyValue)
  | reset (reason : String)
  deriving DecidableEq, Repr

/-- The state after a call. -/
def next (s : SubmeterTrim) : Call → SubmeterTrim
  | .propose a => (propose a s).2
  | .commit h now wallTime => (commit h now wallTime s).2
  | .reset reason => reset reason s

end InverterControl.Trim.Model
