import InverterControl.Lib.Runs
import Mathlib.Algebra.Order.Field.Rat
import Mathlib.Tactic

/-!
# The hardware watchdog

`HardwareWatchdog` of `watchdog.py`: one lock owns every physical write (normal, manual, generic
0 W, restore and meter-loss -10 W), so every entry point is one atomic step.  What the surroundings
decide during a step is in `Env`: the clock readings, the answer of `victron.set_grid_setpoint` and
the value of the `get_setpoint` callback.  Every call of `set_grid_setpoint` is returned as a
`HwCall`, with the watchdog as it was when the call was made.

Thread lifecycle, diagnostics and the status callback decide nothing here and are left out.
-/

namespace InverterControl.Watchdog.Model

open InverterControl.Lib.Runs

/-- `GRID_LOSS_FALLBACK_SETPOINT`. -/
def gridLossFallbackSetpoint : ℤ := -10

/-- `GRID_LOSS_REFRESH_INTERVAL`, in seconds. -/
def gridLossRefreshInterval : ℚ := 2

/-- `GRID_LOSS_RETRY_INTERVAL`, in seconds. -/
def gridLossRetryInterval : ℚ := 1

/-- `SETPOINT_OVERRIDE_INTERVAL`, in seconds. -/
def setpointOverrideInterval : ℚ := 2

/-- What `victron.set_grid_setpoint` does: returns `True`, returns `False`, or raises. -/
inductive WriteOutcome
  | accepted
  | rejected
  | raised (message : String)
  deriving DecidableEq, Repr

structure HardwareWatchdog where
  timeoutSeconds : ℚ
  dryRun : Bool
  gridLossHoldSeconds : Option ℚ
  lastDbusUpdate : ℚ := 0
  lastMqttUpdate : ℚ := 0
  lastSetpointUpdate : ℚ := 0
  telemetryInvalid : Bool := false
  gridInvalidSince : Option ℚ := none
  gridLossForced : Bool := false
  hasValidSetpoint : Bool := false
  gridLossFallbackApplied : Bool := false
  gridLossRefreshPending : Bool := false
  lastGridLossWrite : Option ℚ := none
  lastGridLossAttempt : Option ℚ := none
  enabled : Bool := false
  controlGeneration : ℕ := 0
  overrideValue : Option ℤ := none
  overrideError : Option String := none
  overrideRejectionError : Option String := none
  overrideRequestId : Option String := none
  overrideLastAttempt : Option ℚ := none
  overrideLastWrite : Option ℚ := none
  overrideRefreshFailed : Bool := false
  triggered : Bool := false
  hardwareForced : Bool := false
  preForcedSetpoint : ℤ := 0
  failCount : ℕ := 0
  successCount : ℕ := 0
  failThreshold : ℕ := 3
  successThreshold : ℕ := 2
  deriving DecidableEq, Repr

/-- One call of `victron.set_grid_setpoint`: the value passed, the answer, and the watchdog at the
moment of the call. -/
structure HwCall where
  value : ℤ
  outcome : WriteOutcome
  watchdog : HardwareWatchdog
  deriving DecidableEq

/-- What the surroundings decide during one step: the clock at its start, the clock after a hardware
write, the answer of the hardware, and `get_setpoint()` (`none`: no callback, or it raised). -/
structure Env where
  now : ℚ
  after : ℚ
  hardware : WriteOutcome
  getSetpoint : Option ℤ
  deriving DecidableEq, Repr

/-- A step of the watchdog: the new state, and the hardware calls it made. -/
abbrev Step := HardwareWatchdog × List HwCall

/-- `last is not None and now - last < interval`. -/
def within (last : Option ℚ) (now interval : ℚ) : Prop := ∃ t, last = some t ∧ now - t < interval

instance (last : Option ℚ) (now interval : ℚ) : Decidable (within last now interval) :=
  match last with
  | none => isFalse (by rintro ⟨t, h, -⟩; cases h)
  | some t => decidable_of_iff (now - t < interval) (by simp [within])

/-! ### The operator's override -/

/-- What `get_setpoint_override` returns. -/
structure OverrideStatus where
  value : Option ℤ
  lastError : Option String
  requestId : Option String
  deriving DecidableEq, Repr

/-- Python's `a or b` on optional strings: `None` and the empty string are false. -/
def orStr (a b : Option String) : Option String := if a = none ∨ a = some "" then b else a

/-- `get_setpoint_override`. -/
def getSetpointOverride (w : HardwareWatchdog) : OverrideStatus where
  value := w.overrideValue
  lastError := orStr w.overrideRejectionError w.overrideError
  requestId := w.overrideRequestId

/-- `reject_setpoint_override`. -/
def rejectSetpointOverride (error : String) (requestId : Option String) (w : HardwareWatchdog) :
    HardwareWatchdog :=
  { w with
    overrideRejectionError :=
      some (if error = "" then "Setpoint override command rejected" else error)
    overrideRequestId := requestId }

/-- The Python object given as the value of an override command. -/
inductive OverrideArg
  | none
  | int (n : ℤ)
  /-- Any object whose type is not exactly `int`. -/
  | other
  deriving DecidableEq, Repr

/-- `-(2**31) <= value < 2**31`. -/
def isInt32 (n : ℤ) : Prop := -(2 ^ 31) ≤ n ∧ n < 2 ^ 31

instance (n : ℤ) : Decidable (isInt32 n) := by unfold isInt32; infer_instance

/-- The part of `set_setpoint_override` after the hardware accepted a value, or for an active
override that is stopped: the generation moves on and every automatic episode is forgotten. -/
def installOverride (now : ℚ) (value : Option ℤ) (requestId : Option String)
    (w : HardwareWatchdog) : HardwareWatchdog :=
  { w with
    controlGeneration := w.controlGeneration + 1
    overrideValue := value
    overrideError := none
    overrideRejectionError := none
    overrideRequestId := requestId
    overrideLastAttempt := value.map fun _ => now
    overrideLastWrite := value.map fun _ => now
    overrideRefreshFailed := false
    triggered := false
    hardwareForced := false
    preForcedSetpoint := 0
    gridLossForced := false
    gridLossFallbackApplied := false
    gridLossRefreshPending := false
    lastGridLossWrite := none
    lastGridLossAttempt := none
    failCount := 0
    successCount := 0
    lastSetpointUpdate := if value.isSome then now else w.lastSetpointUpdate
    hasValidSetpoint := if value.isSome then true else w.hasValidSetpoint }

/-- `set_setpoint_override`: Start and Edit write at once, Stop writes nothing. -/
def setSetpointOverride (arg : OverrideArg) (requestId : Option String) (e : Env)
    (w : HardwareWatchdog) : Step :=
  match arg with
  | .other => (rejectSetpointOverride "value must be an int32 integer or null" requestId w, [])
  | .none =>
    if w.overrideValue = none then
      ({ w with
          overrideError := none
          overrideRejectionError := none
          overrideRequestId := requestId }, [])
    else (installOverride e.after none requestId w, [])
  | .int n =>
    if isInt32 n then
      match e.hardware with
      | .accepted => (installOverride e.after (some n) requestId w, [⟨n, .accepted, w⟩])
      | .rejected =>
        (rejectSetpointOverride "Inverter rejected the setpoint write" requestId w,
          [⟨n, .rejected, w⟩])
      | .raised m => (rejectSetpointOverride m requestId w, [⟨n, .raised m, w⟩])
    else (rejectSetpointOverride "value must be an int32 integer or null" requestId w, [])

/-- `str(error) or "Inverter setpoint refresh failed"` for a refresh that was not accepted. -/
def refreshError : WriteOutcome → String
  | .raised "" => "Inverter setpoint refresh failed"
  | .raised m => m
  | _ => "Inverter rejected the setpoint refresh"

/-- The time a refresh waits for: of the last accepted write, or of the last attempt after a
failure. -/
def overrideLast (w : HardwareWatchdog) : Option ℚ :=
  if w.overrideRefreshFailed then w.overrideLastAttempt else w.overrideLastWrite

/-- A refresh is attempted at `now`. -/
def noteRefreshAttempt (now : ℚ) (w : HardwareWatchdog) : HardwareWatchdog :=
  { w with overrideLastAttempt := some now }

/-- The rest of a refresh, after the hardware answered. -/
def finishRefresh (e : Env) (w : HardwareWatchdog) : HardwareWatchdog :=
  if e.hardware = .accepted then
    { w with
      overrideRefreshFailed := false
      overrideError := none
      overrideLastWrite := some e.after
      lastSetpointUpdate := e.after }
  else
    { w with
      overrideRefreshFailed := true
      overrideError := some (refreshError e.hardware) }

/-- `_maintain_override_locked`. -/
def maintainOverride (e : Env) (now : ℚ) (w : HardwareWatchdog) : Step :=
  match w.overrideValue with
  | none => (w, [])
  | some v =>
    if within (overrideLast w) now setpointOverrideInterval then (w, [])
    else
      (finishRefresh e (noteRefreshAttempt now w),
        [⟨v, e.hardware, noteRefreshAttempt now w⟩])

/-! ### Meter loss -/

/-- `_maintain_grid_loss_fallback_locked` does not write yet. -/
def fallbackNotDue (now : ℚ) (w : HardwareWatchdog) : Prop :=
  w.lastGridLossAttempt ≠ none ∧
    if w.gridLossRefreshPending then within w.lastGridLossAttempt now gridLossRetryInterval
    else within w.lastGridLossWrite now gridLossRefreshInterval

instance (now : ℚ) (w : HardwareWatchdog) : Decidable (fallbackNotDue now w) := by
  unfold fallbackNotDue; infer_instance

/-- The fallback is attempted at `now`. -/
def noteFallbackAttempt (now : ℚ) (w : HardwareWatchdog) : HardwareWatchdog :=
  { w with lastGridLossAttempt := some now, gridLossRefreshPending := true }

/-- The rest of an attempt, after the hardware answered. -/
def finishFallback (e : Env) (w : HardwareWatchdog) : HardwareWatchdog :=
  if e.hardware = .accepted then
    { w with
      hardwareForced := true
      gridLossFallbackApplied := true
      gridLossRefreshPending := false
      lastGridLossWrite := some e.after }
  else w

/-- `_maintain_grid_loss_fallback_locked`. -/
def maintainGridLossFallback (e : Env) (now : ℚ) (w : HardwareWatchdog) : Step :=
  if fallbackNotDue now w then (w, [])
  else
    (finishFallback e (noteFallbackAttempt now w),
      [⟨gridLossFallbackSetpoint, e.hardware, noteFallbackAttempt now w⟩])

/-- The outage's deadline has passed, or there is nothing to hold. -/
def holdExpired (now hold : ℚ) (w : HardwareWatchdog) : Prop :=
  w.telemetryInvalid = true ∧ ∃ since, w.gridInvalidSince = some since ∧
    (w.hasValidSetpoint = false ∨ w.triggered = true ∨ hold ≤ now - since)

instance (now hold : ℚ) (w : HardwareWatchdog) : Decidable (holdExpired now hold w) :=
  match h : w.gridInvalidSince with
  | none => isFalse (by rintro ⟨-, t, ht, -⟩; rw [h] at ht; cases ht)
  | some t =>
    decidable_of_iff (w.telemetryInvalid = true ∧
      (w.hasValidSetpoint = false ∨ w.triggered = true ∨ hold ≤ now - t)) (by simp [holdExpired, h])

/-- A prior generic zero is not the meter-loss fallback: an accepted -10 W is still to come. -/
def startGridLoss (w : HardwareWatchdog) : HardwareWatchdog :=
  { w with
    hardwareForced := false
    gridLossRefreshPending := true
    lastGridLossWrite := none
    lastGridLossAttempt := none }

/-- The latch of `_check_grid_loss_locked`. -/
def latchGridLoss (w : HardwareWatchdog) : HardwareWatchdog :=
  { (if w.gridLossForced then w else startGridLoss w) with
    gridLossForced := true, triggered := true, preForcedSetpoint := 0 }

/-- The latch, when the deadline has passed. -/
def latchIfExpired (now hold : ℚ) (w : HardwareWatchdog) : HardwareWatchdog :=
  if holdExpired now hold w then latchGridLoss w else w

/-- `_check_grid_loss_locked`. -/
def checkGridLossLocked (e : Env) (now : ℚ) (w : HardwareWatchdog) : Step :=
  if w.overrideValue ≠ none then maintainOverride e now w
  else if w.dryRun then (w, [])
  else match w.gridLossHoldSeconds with
    | none => (w, [])
    | some hold =>
      if (latchIfExpired now hold w).gridLossForced then
        maintainGridLossFallback e now (latchIfExpired now hold w)
      else (latchIfExpired now hold w, [])

/-- `check_grid_loss`. -/
def checkGridLoss (e : Env) (w : HardwareWatchdog) : Step := checkGridLossLocked e e.now w

/-- The telemetry is valid again at `now`; an outage that is not latched is over. -/
def noteTelemetry (now : ℚ) (w : HardwareWatchdog) : HardwareWatchdog :=
  { w with
    lastDbusUpdate := now
    telemetryInvalid := false
    gridInvalidSince := if w.gridLossForced then w.gridInvalidSince else none }

/-- `mark_dbus_update`: a read that returns after the deadline cannot cancel an expired hold. -/
def markDbusUpdate (e : Env) (w : HardwareWatchdog) : Step :=
  (noteTelemetry e.now (checkGridLossLocked e e.now w).1, (checkGridLossLocked e e.now w).2)

/-- `mark_dbus_invalid`: the first one starts the outage's deadline, later ones do not move it. -/
def markDbusInvalid (e : Env) (w : HardwareWatchdog) : HardwareWatchdog :=
  { w with
    gridInvalidSince := if w.gridInvalidSince = none then some e.now else w.gridInvalidSince
    telemetryInvalid := true
    successCount := 0 }

/-- `mark_mqtt_update`. -/
def markMqttUpdate (e : Env) (w : HardwareWatchdog) : HardwareWatchdog :=
  { w with lastMqttUpdate := e.now }

/-- `mark_setpoint_update`, at the clock reading `now`. -/
def markSetpointUpdate (now : ℚ) (w : HardwareWatchdog) : HardwareWatchdog :=
  { w with
    lastSetpointUpdate := now
    hasValidSetpoint := if w.telemetryInvalid then w.hasValidSetpoint else true
    gridLossFallbackApplied := if w.telemetryInvalid then w.gridLossFallbackApplied else false }

/-! ### The normal writer -/

/-- What `write_control_setpoint` does: `True` (with its `on_accept` called), `False`, or the
exception of the hardware write. -/
inductive WriteResult
  | accepted
  | refused
  | raised
  deriving DecidableEq, Repr

/-- A calculation is obsolete: an operator owns the output, the generation moved on, or a fallback
is in force. -/
def writeBlocked (generation : ℕ) (w : HardwareWatchdog) : Prop :=
  w.overrideValue ≠ none ∨ generation ≠ w.controlGeneration ∨ w.triggered = true

instance (generation : ℕ) (w : HardwareWatchdog) : Decidable (writeBlocked generation w) := by
  unfold writeBlocked; infer_instance

/-- `write_control_setpoint`.  The caller runs its `on_accept` when the result is `accepted`. -/
def writeControlSetpoint (value : ℤ) (generation : ℕ) (dryRun : Bool) (e : Env)
    (w : HardwareWatchdog) : Step × WriteResult :=
  if writeBlocked generation w then ((w, []), .refused)
  else if dryRun || w.dryRun then ((w, []), .accepted)
  else match e.hardware with
    | .accepted => ((markSetpointUpdate e.after w, [⟨value, .accepted, w⟩]), .accepted)
    | .rejected => ((w, [⟨value, .rejected, w⟩]), .refused)
    | .raised m => ((w, [⟨value, .raised m, w⟩]), .raised)

/-! ### Heartbeats, the generic failsafe and recovery -/

/-- The latch is released: the accepted fallback stays, nothing is left to restore. -/
def releaseGridLoss (w : HardwareWatchdog) : HardwareWatchdog :=
  if w.gridLossForced then
    { w with gridLossForced := false, gridInvalidSince := none, hardwareForced := false }
  else w

/-- The watchdog is armed again. -/
def rearm (w : HardwareWatchdog) : HardwareWatchdog :=
  { w with hardwareForced := false, triggered := false, preForcedSetpoint := 0 }

/-- The rest of a restoration, after the hardware answered. -/
def finishRestore (e : Env) (w : HardwareWatchdog) : HardwareWatchdog :=
  if e.hardware = .accepted then rearm w else w

/-- `_recover_from_failsafe_locked`. -/
def recoverFromFailsafe (e : Env) (w : HardwareWatchdog) : Step :=
  if w.overrideValue ≠ none then (w, [])
  else if w.telemetryInvalid then (w, [])
  else if w.gridLossForced ∧ (w.hardwareForced = false ∨ w.gridLossRefreshPending = true) then
    (w, [])
  else if (releaseGridLoss w).hardwareForced then
    (finishRestore e (releaseGridLoss w),
      [⟨(releaseGridLoss w).preForcedSetpoint, e.hardware, releaseGridLoss w⟩])
  else (rearm (releaseGridLoss w), [])

/-- The check of `_recover_grid_loss_locked`: the -10 W is in place and the telemetry is fresh. -/
def recoveryCheckPasses (now : ℚ) (w : HardwareWatchdog) : Prop :=
  w.hardwareForced = true ∧ w.gridLossRefreshPending = false ∧ w.telemetryInvalid = false ∧
    now - w.lastDbusUpdate ≤ w.timeoutSeconds

instance (now : ℚ) (w : HardwareWatchdog) : Decidable (recoveryCheckPasses now w) := by
  unfold recoveryCheckPasses; infer_instance

/-- The counters of `_recover_grid_loss_locked`. -/
def countRecovery (now : ℚ) (w : HardwareWatchdog) : HardwareWatchdog :=
  { w with
    failCount := 0
    successCount := if recoveryCheckPasses now w then w.successCount + 1 else 0 }

/-- `_recover_grid_loss_locked`. -/
def recoverGridLoss (e : Env) (now : ℚ) (w : HardwareWatchdog) : Step :=
  if recoveryCheckPasses now w ∧ w.successThreshold ≤ w.successCount + 1 then
    recoverFromFailsafe e (countRecovery now w)
  else (countRecovery now w, [])

/-- The setpoint to come back to is saved, until the hardware has accepted the zero. -/
def saveSetpoint (e : Env) (w : HardwareWatchdog) : HardwareWatchdog :=
  if w.hardwareForced then w
  else { w with preForcedSetpoint := if w.gridLossForced then 0 else e.getSetpoint.getD 0 }

/-- The rest of the failsafe, after the hardware answered. -/
def finishFailsafe (e : Env) (w : HardwareWatchdog) : HardwareWatchdog :=
  if e.hardware = .accepted then
    { w with hardwareForced := true, gridLossFallbackApplied := false }
  else w

/-- `_apply_failsafe`. -/
def applyFailsafe (e : Env) (w : HardwareWatchdog) : Step :=
  if w.overrideValue ≠ none then maintainOverride e e.after w
  else if w.dryRun then (w, [])
  else if w.gridLossForced then maintainGridLossFallback e e.after w
  else (finishFailsafe e (saveSetpoint e w), [⟨0, e.hardware, saveSetpoint e w⟩])

/-- Both the setpoint writes and the telemetry have been silent for the full timeout. -/
def stale (now : ℚ) (w : HardwareWatchdog) : Prop :=
  w.timeoutSeconds < now - w.lastSetpointUpdate ∧ w.timeoutSeconds < now - w.lastDbusUpdate

instance (now : ℚ) (w : HardwareWatchdog) : Decidable (stale now w) := by
  unfold stale; infer_instance

/-- The hysteresis counters of `_check_heartbeat_locked`. -/
def countHeartbeat (now : ℚ) (w : HardwareWatchdog) : HardwareWatchdog :=
  if stale now w then { w with failCount := w.failCount + 1, successCount := 0 }
  else if w.telemetryInvalid then { w with successCount := 0, failCount := 0 }
  else { w with successCount := w.successCount + 1, failCount := 0 }

/-- `self._triggered = True`. -/
def trigger (w : HardwareWatchdog) : HardwareWatchdog := { w with triggered := true }

/-- What the counters of `_check_heartbeat_locked` lead to. -/
def actOnHeartbeat (e : Env) (w : HardwareWatchdog) : Step :=
  if w.failThreshold ≤ w.failCount then
    if w.hardwareForced then (trigger w, []) else applyFailsafe e (trigger w)
  else if w.successThreshold ≤ w.successCount ∧ w.triggered = true then recoverFromFailsafe e w
  else (w, [])

/-- `_check_heartbeat_locked` after the check of the meter loss. -/
def finishHeartbeat (e : Env) (now : ℚ) (w : HardwareWatchdog) : Step :=
  if w.gridLossForced then recoverGridLoss e now w else actOnHeartbeat e (countHeartbeat now w)

/-- `_check_heartbeat_locked`. -/
def checkHeartbeat (e : Env) (w : HardwareWatchdog) : Step :=
  if w.overrideValue ≠ none then maintainOverride e e.now w
  else if w.dryRun then (w, [])
  else
    ((finishHeartbeat e e.now (checkGridLossLocked e e.now w).1).1,
      (checkGridLossLocked e e.now w).2 ++
        (finishHeartbeat e e.now (checkGridLossLocked e e.now w).1).2)

/-- `start`, at the clock reading `now`. -/
def start (now : ℚ) (w : HardwareWatchdog) : HardwareWatchdog :=
  if w.enabled then w
  else
    { w with
      enabled := true
      triggered := false
      hardwareForced := false
      preForcedSetpoint := 0
      failCount := 0
      successCount := 0
      gridInvalidSince := none
      gridLossForced := false
      hasValidSetpoint := false
      gridLossFallbackApplied := false
      gridLossRefreshPending := false
      lastGridLossWrite := none
      lastGridLossAttempt := none
      telemetryInvalid := false
      lastDbusUpdate := now
      lastMqttUpdate := now
      lastSetpointUpdate := now }

/-! ### The machine -/

/-- The entry points, in any order and from any thread. -/
inductive Op
  | setSetpointOverride (arg : OverrideArg) (requestId : Option String)
  | rejectSetpointOverride (error : String) (requestId : Option String)
  | writeControlSetpoint (value : ℤ) (generation : ℕ) (dryRun : Bool)
  | markDbusUpdate
  | markDbusInvalid
  | markMqttUpdate
  | markSetpointUpdate
  | checkGridLoss
  | checkHeartbeat
  | start
  /-- The owner's assignment to `watchdog.dry_run`. -/
  | setDryRun (enabled : Bool)
  deriving DecidableEq, Repr

/-- An entry point is called, and what the surroundings decide during the call. -/
structure Event where
  op : Op
  env : Env
  deriving DecidableEq, Repr

/-- One step, with the hardware calls it made. -/
def perform (w : HardwareWatchdog) (ev : Event) : Step :=
  match ev.op with
  | .setSetpointOverride arg requestId => setSetpointOverride arg requestId ev.env w
  | .rejectSetpointOverride error requestId => (rejectSetpointOverride error requestId w, [])
  | .writeControlSetpoint value generation dryRun =>
    (writeControlSetpoint value generation dryRun ev.env w).1
  | .markDbusUpdate => markDbusUpdate ev.env w
  | .markDbusInvalid => (markDbusInvalid ev.env w, [])
  | .markMqttUpdate => (markMqttUpdate ev.env w, [])
  | .markSetpointUpdate => (markSetpointUpdate ev.env.now w, [])
  | .checkGridLoss => checkGridLoss ev.env w
  | .checkHeartbeat => checkHeartbeat ev.env w
  | .start => (start ev.env.now w, [])
  | .setDryRun enabled => ({ w with dryRun := enabled }, [])

/-- The state after a step. -/
def next (w : HardwareWatchdog) (ev : Event) : HardwareWatchdog := (perform w ev).1

/-- The hardware calls of a step. -/
def calls (w : HardwareWatchdog) (ev : Event) : List HwCall := (perform w ev).2

/-- The watchdog as `__init__` leaves it. -/
def init (timeoutSeconds : ℚ) (dryRun : Bool) (gridLossHoldSeconds : Option ℚ) :
    HardwareWatchdog where
  timeoutSeconds := timeoutSeconds
  dryRun := dryRun
  gridLossHoldSeconds := gridLossHoldSeconds

/-- A state some run leads to. -/
def Reachable (w : HardwareWatchdog) : Prop :=
  ∃ timeoutSeconds dryRun gridLossHoldSeconds evs,
    w = exec next (init timeoutSeconds dryRun gridLossHoldSeconds) evs

end InverterControl.Watchdog.Model
