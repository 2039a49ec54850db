import InverterControl.Backup.Model
import InverterControl.Logic.Model
import InverterControl.Trim.Model
import InverterControl.Watchdog.Model

/-!
# The controller

The methods of `InverterController` (`controller.py`) that decide the setpoint or touch it: what a
control cycle calculates, the submeter trim around it, the last checks under the write lock, and the
setters of other threads.  What a method reads from outside (meters, clocks, the tariff window) is its
argument; the grid snapshot is what `GridBackup.select` returns.  Display state, metrics, logging and the
dump loads are left out.
-/

namespace InverterControl.Controller.Model

open InverterControl.Python InverterControl.Logic.Model
open InverterControl.Backup.Model (BackupStatus GridStatus)
open InverterControl.Trim.Model (Issued Proposal Sample SubmeterTrim)
open InverterControl.Watchdog.Model (Env HardwareWatchdog HwCall OverrideArg)

/-! ### The controller's data -/

/-- `CONTROL_FLAG_KEYS`. -/
inductive FlagKey
  | onlyCharging
  | noFeed
  | houseSupport
  | chargeBattery
  | doNotSupplyCharger
  | setLimitToEvCharger
  | minimizeCharging
  deriving DecidableEq, Repr

/-- `_control_flags`. -/
structure ControlFlags where
  onlyCharging : Bool := false
  noFeed : Bool := false
  houseSupport : Bool := false
  chargeBattery : Bool := false
  doNotSupplyCharger : Bool := false
  setLimitToEvCharger : Bool := false
  minimizeCharging : Bool := false
  deriving DecidableEq, Repr

def ControlFlags.get (f : ControlFlags) : FlagKey → Bool
  | .onlyCharging => f.onlyCharging
  | .noFeed => f.noFeed
  | .houseSupport => f.houseSupport
  | .chargeBattery => f.chargeBattery
  | .doNotSupplyCharger => f.doNotSupplyCharger
  | .setLimitToEvCharger => f.setLimitToEvCharger
  | .minimizeCharging => f.minimizeCharging

def ControlFlags.set (f : ControlFlags) (value : Bool) : FlagKey → ControlFlags
  | .onlyCharging => { f with onlyCharging := value }
  | .noFeed => { f with noFeed := value }
  | .houseSupport => { f with houseSupport := value }
  | .chargeBattery => { f with chargeBattery := value }
  | .doNotSupplyCharger => { f with doNotSupplyCharger := value }
  | .setLimitToEvCharger => { f with setLimitToEvCharger := value }
  | .minimizeCharging => { f with minimizeCharging := value }

/-- `any(self.get_control_flag(key) for key in CONTROL_FLAG_KEYS)`. -/
def ControlFlags.any (f : ControlFlags) : Bool :=
  f.onlyCharging || f.noFeed || f.houseSupport || f.chargeBattery || f.doNotSupplyCharger ||
    f.setLimitToEvCharger || f.minimizeCharging

/-- `power_limit_min` and `power_limit_max`: in order, as the configuration and the setter check. -/
structure PowerLimits where
  min : ℤ
  max : ℤ
  ordered : min ≤ max
  deriving DecidableEq, Repr

/-- The submeter's part of `_submeter_trim_context`. -/
structure SampleKey where
  service : String
  deviceInstance : Option ℤ
  generation : ℕ
  measurementTime : Option ℚ
  deriving DecidableEq, Repr

/-- `_trim_context`. -/
structure TrimContext where
  source : List PyValue
  sample : SampleKey
  modeGeneration : ℕ
  deriving DecidableEq, Repr

structure InverterController where
  watchdog : HardwareWatchdog
  calculator : SetpointCalculator
  submeterTrim : SubmeterTrim
  trimDecision : Option Issued := none
  trimContext : Option TrimContext := none
  trimModeGeneration : ℕ := 0
  trimHistoryModeGeneration : ℕ := 0
  controlHistoryGeneration : ℕ := 0
  controlFlags : ControlFlags := {}
  dryRun : Bool
  previousSetpoint : ℤ := 0
  manualSetpoint : Option ℤ := none
  filteredGt : Option ℚ := none
  gridInputsInvalid : Bool := false
  controlGridSelection : ℕ := 0
  lastBackupMeasurement : Option ℚ := none
  preChargeRequested : Bool := false
  preChargeExpiresAt : ℚ := 0
  calculatedChargeBattery : Bool := false
  lastSetpointWasCharge : Bool := false
  powerLimits : PowerLimits
  deriving DecidableEq

/-! ### The tariff window -/

/-- The cached tariff settings and the hour of the wall clock (`none`: no known time zone). -/
structure TouReading where
  start : PyValue
  stop : PyValue
  hour : Option ℕ
  deriving DecidableEq, Repr

/-- `_in_expensive_window`: unknown settings never authorize forced charging. -/
def inExpensiveWindow (t : TouReading) : Bool :=
  match t.start, t.stop with
  | .int start, .int stop =>
    if ¬ (-1 ≤ start ∧ start ≤ 24) ∨ ¬ (-1 ≤ stop ∧ stop ≤ 24) then true
    else if start < 0 ∨ stop < 0 ∨ start = stop then false
    else match t.hour with
      | none => true
      | some hour =>
        if start < stop then start ≤ hour ∧ (hour : ℤ) < stop else start ≤ hour ∨ (hour : ℤ) < stop
  | _, _ => true

/-! ### The submeter trim -/

def optionalFloat : Option ℚ → PyValue
  | some q => .float q
  | none => .none

def optionalInt : Option ℤ → PyValue
  | some n => .int n
  | none => .none

/-- `_grid_backup_status`, as `_sample` reads it. -/
def sampleOf (b : BackupStatus) : Sample where
  available := .bool b.available
  service := .str b.service
  deviceInstance := optionalInt b.deviceInstance
  generation := some (.int b.generation)
  measurementTime := optionalFloat b.measurementTime
  power := optionalFloat b.power
  ageSeconds := optionalFloat b.ageSeconds

/-- `_trim_source_key`. -/
def trimSourceKey (g : GridStatus) : List PyValue :=
  [match g.source with
    | some source => .str source
    | none => .none,
    optionalInt g.sourceInstance, .int g.selectionGeneration]

/-- The primary meter is valid and in use. -/
def primaryAvailable (g : GridStatus) : Bool := g.valid && g.primaryValid && !g.backup

def sampleKey (b : BackupStatus) : SampleKey where
  service := b.service
  deviceInstance := b.deviceInstance
  generation := b.generation
  measurementTime := b.measurementTime

/-- `_submeter_trim_context`. -/
def submeterTrimContext (g : GridStatus) (c : InverterController) : TrimContext where
  source := trimSourceKey g
  sample := sampleKey g.backupStatus
  modeGeneration := c.trimModeGeneration

/-- `_reset_submeter_trim`. -/
def resetSubmeterTrim (reason : String) (c : InverterController) : InverterController :=
  { c with
    submeterTrim := Trim.Model.reset reason c.submeterTrim
    trimDecision := none
    trimContext := none }

/-- What a trim reads from outside: the clocks, whether a house total is known, and whether the ESS
is in external control. -/
structure TrimReadings where
  monotonic : ℚ
  wall : ℚ
  houseTotal : Bool
  essExternal : Bool
  deriving DecidableEq, Repr

/-- `_trim_block_reason`. -/
def trimBlockReason (x : TrimReadings) (g : GridStatus) (chargeBattery : Bool)
    (c : InverterController) : String :=
  if primaryAvailable g = false then "primary_unavailable"
  else if c.calculator.config.gridBackupService = none ∨
      c.calculator.config.gridBackupService = some "" then "submeter_not_pinned"
  else if chargeBattery || c.preChargeRequested || c.controlFlags.any then "operating_mode"
  else if c.manualSetpoint ≠ none ∨ c.watchdog.overrideValue ≠ none then "manual_control"
  else if c.watchdog.triggered then "watchdog"
  else if c.calculator.config.creepRate ≠ 0 ∨ x.houseTotal = true then "incompatible_feedback"
  else if x.essExternal = false then "ess_not_external"
  else ""

/-- The arguments of `propose`. -/
def trimProposal (x : TrimReadings) (g : GridStatus) (base : ℤ) (eligible : Bool) (reason : String)
    (filtered : ℚ) (c : InverterController) : Proposal where
  now := .float x.monotonic
  wallTime := .float x.wall
  previousSetpoint := .int c.previousSetpoint
  baseSetpoint := .int base
  sample := some (sampleOf g.backupStatus)
  eligible := .bool eligible
  reason := reason
  rawGrid := .float g.gt
  filteredGrid := .float filtered
  minSetpoint := .int c.powerLimits.min
  maxSetpoint := .int c.powerLimits.max
  sourceKey := some (trimSourceKey g)

def Flag.isBurst : Flag → Bool
  | .burst _ => true
  | _ => false

def Flag.isDerivative : Flag → Bool
  | .derivative _ => true
  | _ => false

/-- The calculator has not decided to hold. -/
def fastControlActive (result : ControlResult) (c : InverterController) : Bool :=
  result.setpoint ≠ c.previousSetpoint || !decide (inDeadband c.calculator.config result.filteredGt) ||
    result.flags.any Flag.isBurst || result.flags.any Flag.isDerivative

/-- `_trim_stays_in_primary_hold`. -/
def trimStaysInPrimaryHold (delta : ℤ) (c : InverterController) : Prop :=
  ∃ filtered, c.filteredGt = some filtered ∧ inDeadband c.calculator.config (filtered + delta)

instance (delta : ℤ) (c : InverterController) : Decidable (trimStaysInPrimaryHold delta c) :=
  match h : c.filteredGt with
  | none => isFalse (by rintro ⟨f, hf, -⟩; rw [h] at hf; cases hf)
  | some f =>
    decidable_of_iff (inDeadband c.calculator.config (f + delta)) (by
      simp [trimStaysInPrimaryHold, h])

/-- The trim's history of another mode is forgotten. -/
def noteTrimMode (c : InverterController) : InverterController :=
  if c.trimHistoryModeGeneration ≠ c.trimModeGeneration then
    { resetSubmeterTrim "mode_changed" c with trimHistoryModeGeneration := c.trimModeGeneration }
  else c

/-- Why no trim is wanted (`""`: it is). -/
def trimReason (x : TrimReadings) (g : GridStatus) (chargeBattery : Bool) (result : ControlResult)
    (c : InverterController) : String :=
  if trimBlockReason x g chargeBattery c = "" ∧ fastControlActive result c = true then
    "fast_control_active"
  else trimBlockReason x g chargeBattery c

/-- `_apply_submeter_trim` after the proposal was answered by `i`. -/
def adoptTrim (i : Issued) (g : GridStatus) (result : ControlResult) (c : InverterController) :
    Command × InverterController :=
  if deltaLimit c.calculator < |i.decision.setpoint - c.previousSetpoint| ∧ i.decision.delta ≠ 0 then
    ((result.setpoint, result.flags), resetSubmeterTrim "delta_limit" c)
  else if i.decision.delta ≠ 0 ∧ ¬ trimStaysInPrimaryHold i.decision.delta c then
    ((result.setpoint, result.flags), resetSubmeterTrim "primary_deadband_limit" c)
  else
    ((i.decision.setpoint,
      result.flags ++ if i.decision.delta ≠ 0 then [.trim i.decision.delta] else []),
      { c with trimDecision := some i, trimContext := some (submeterTrimContext g c) })

/-- The proposal of `_apply_submeter_trim`. -/
def proposeTrim (x : TrimReadings) (g : GridStatus) (chargeBattery : Bool) (result : ControlResult)
    (c : InverterController) : Trim.Model.Result :=
  Trim.Model.propose
    (trimProposal x g result.setpoint (trimReason x g chargeBattery result c = "")
      (trimReason x g chargeBattery result c) result.filteredGt c)
    c.submeterTrim

/-- `_apply_submeter_trim`, after the trim's history was checked. -/
def applyNotedTrim (x : TrimReadings) (g : GridStatus) (chargeBattery : Bool)
    (result : ControlResult) (c : InverterController) : Option Command × InverterController :=
  match proposeTrim x g chargeBattery result c with
  | (none, trim) => (none, { c with submeterTrim := trim })
  | (some i, trim) =>
    (some (adoptTrim i g result { c with submeterTrim := trim }).1,
      (adoptTrim i g result { c with submeterTrim := trim }).2)

/-- `_apply_submeter_trim` (`none`: the proposal raised). -/
def applySubmeterTrim (x : TrimReadings) (g : GridStatus) (chargeBattery : Bool)
    (result : ControlResult) (c : InverterController) : Option Command × InverterController :=
  if c.submeterTrim.enabled = false then (some (result.setpoint, result.flags), c)
  else applyNotedTrim x g chargeBattery result (noteTrimMode c)

/-- The first checks of `_trim_write_ready`, without the trim itself. -/
def trimStillAllowed (x : TrimReadings) (g : GridStatus) (i : Issued) (c : InverterController) :
    Prop :=
  c.trimContext = some (submeterTrimContext g c) ∧ trimBlockReason x g false c = "" ∧
    |i.decision.setpoint - c.previousSetpoint| ≤ deltaLimit c.calculator ∧
    trimStaysInPrimaryHold i.decision.delta c

instance (x : TrimReadings) (g : GridStatus) (i : Issued) (c : InverterController) :
    Decidable (trimStillAllowed x g i c) := by
  unfold trimStillAllowed; infer_instance

/-- The proposal of `_trim_write_ready`. -/
def refreshTrim (x : TrimReadings) (g : GridStatus) (c : InverterController) : Trim.Model.Result :=
  Trim.Model.propose (trimProposal x g c.previousSetpoint true "" (c.filteredGt.getD 0) c)
    c.submeterTrim

/-- `_trim_write_ready` (`none`: the proposal raised): a trim is proposed once more, and must be the
decision again. -/
def trimWriteReady (x : TrimReadings) (g : GridStatus) (c : InverterController) :
    Option Bool × InverterController :=
  match c.trimDecision with
  | none => (some true, c)
  | some i =>
    if i.decision.delta = 0 then (some true, c)
    else if ¬ trimStillAllowed x g i c then (some false, c)
    else
      ((refreshTrim x g c).1.map (·.decision = i.decision),
        { c with submeterTrim := (refreshTrim x g c).2 })

/-! ### The calculation -/

/-- What a calculation reads from outside. -/
structure Readings where
  wallTime : ℚ
  /-- The window as `_consume_precharge_request` reads it. -/
  prechargeTou : TouReading
  /-- The window as the calculation reads it. -/
  tou : TouReading
  mpptTotal : ℚ
  pvInverterTotal : ℚ
  invPower : ℚ
  evPower : PyValue
  garagePower : ℚ
  derivedGt : Option ℚ
  /-- `grid_filter.value()`. -/
  prefilteredGt : Option ℚ
  deriving DecidableEq, Repr

/-- `_reset_grid_measurements`. -/
def resetGridMeasurements (c : InverterController) : InverterController :=
  { c with filteredGt := none, calculator := resetMeasurementHistory c.calculator }

/-- `calculate_setpoint` and `run_cycle` forget the last decision first. -/
def forgetDecision (c : InverterController) : InverterController :=
  { c with trimDecision := none, trimContext := none }

/-- The backup's sample was already applied. -/
def heldSample (g : GridStatus) (c : InverterController) : Prop :=
  g.backup = true ∧ g.measurementTime = c.lastBackupMeasurement

instance (g : GridStatus) (c : InverterController) : Decidable (heldSample g c) := by
  unfold heldSample; infer_instance

/-- `calculate_setpoint` of a sample that was applied before: the accepted command once more. -/
def holdSample (r : Readings) (c : InverterController) : Command × InverterController :=
  (if c.lastSetpointWasCharge && inExpensiveWindow r.tou then
    (min 0 c.previousSetpoint, [.submeterHold, .chargeTou])
  else (c.previousSetpoint, [.submeterHold]),
    { resetSubmeterTrim "backup_source" c with
      calculatedChargeBattery := c.lastSetpointWasCharge })

/-- A queued pre-charge request authorizes forced charging now. -/
def prechargeDue (r : Readings) (c : InverterController) : Bool :=
  c.preChargeRequested && decide (r.wallTime < c.preChargeExpiresAt) &&
    !inExpensiveWindow r.prechargeTou

/-- The calculation was asked to charge: by the flag, or by a request. -/
def chargeRequested (r : Readings) (c : InverterController) : Bool :=
  c.controlFlags.chargeBattery || prechargeDue r c

/-- The snapshot that `calculate_setpoint` hands to the calculator. -/
def systemState (r : Readings) (g : GridStatus) (c : InverterController) : SystemState where
  gt := g.gt
  invPower := r.invPower
  mpptTotal := r.mpptTotal
  pvInverterTotal := r.pvInverterTotal
  evPower := validEvSitePower r.evPower
  garagePower := r.garagePower
  onlyCharging := c.controlFlags.onlyCharging
  noFeed := c.controlFlags.noFeed
  houseSupport := c.controlFlags.houseSupport
  chargeBattery := chargeRequested r c
  chargeBatteryBlocked := chargeRequested r c && inExpensiveWindow r.tou
  doNotSupplyCharger := c.controlFlags.doNotSupplyCharger
  limitToEv := c.controlFlags.setLimitToEvCharger
  previousSetpoint := c.previousSetpoint
  derivedGt := if g.backup then none else r.derivedGt
  filteredGt := c.filteredGt
  prefilteredGt := r.prefilteredGt

/-- `_calculated_charge_battery` of a calculation. -/
def calculatedCharge (r : Readings) (c : InverterController) : Bool :=
  (chargeRequested r c && !inExpensiveWindow r.tou) ||
    (c.lastSetpointWasCharge && inExpensiveWindow r.tou)

/-- `calculate_setpoint` up to the calculator's result. -/
def regulate (r : Readings) (g : GridStatus) (c : InverterController) :
    ControlResult × InverterController :=
  ((calculate c.calculator (systemState r g c)).1,
    { c with
      preChargeRequested := false
      calculatedChargeBattery := calculatedCharge r c
      calculator := (calculate c.calculator (systemState r g c)).2
      filteredGt := some (calculate c.calculator (systemState r g c)).1.filteredGt })

/-! ### The write -/

/-- What the write reads from outside, and what the hardware answers. -/
structure WriteReadings where
  trim : TrimReadings
  evPower : PyValue
  tou : TouReading
  /-- The clocks in the accept callback. -/
  commitMonotonic : ℚ
  commitWall : ℚ
  env : Env
  deriving DecidableEq, Repr

/-- The setpoint within the limits that are in force now. -/
def bounded (setpoint : ℤ) (c : InverterController) : ℤ :=
  clampTo c.powerLimits.min c.powerLimits.max setpoint

/-- The limits of the write. -/
def boundSetpoint (command : Command) (c : InverterController) : Command × InverterController :=
  ((bounded command.1 c, command.2),
    if bounded command.1 c ≠ command.1 then resetSubmeterTrim "power_limits_changed" c else c)

/-- The diagnostics that the write replaces by its own. -/
def Flag.isEvDiagnostic : Flag → Bool
  | .siteUnknown | .limitsConflict | .exclusionUnavailable => true
  | _ => false

/-- `guard_unknown_ev_power`, with the modes of the write. -/
def evGuarded (evPower : PyValue) (setpoint : ℤ) (c : InverterController) : Command :=
  guardUnknownEvPower setpoint c.controlFlags.doNotSupplyCharger (validEvSitePower evPower)
    c.powerLimits.max c.controlFlags.onlyCharging c.controlFlags.noFeed

/-- The unknown-EV guard of the write. -/
def guardEv (evPower : PyValue) (command : Command) (c : InverterController) :
    Command × InverterController :=
  (((evGuarded evPower command.1 c).1,
      command.2.filter (!Flag.isEvDiagnostic ·) ++ (evGuarded evPower command.1 c).2),
    if (evGuarded evPower command.1 c).1 ≠ command.1 then
      resetSubmeterTrim "ev_site_power_unknown" c
    else c)

def Flag.isChargeMarker : Flag → Bool
  | .charge | .chargeTou => true
  | _ => false

/-- `_guard_tou_charge` applies. -/
def touCeiling (tou : TouReading) (c : InverterController) : Bool :=
  c.calculatedChargeBattery && inExpensiveWindow tou

/-- `_guard_tou_charge`. -/
def guardTouCharge (tou : TouReading) (command : Command) (c : InverterController) :
    Command × InverterController :=
  if touCeiling tou c = false then (command, c)
  else
    ((min 0 command.1, command.2.filter (!Flag.isChargeMarker ·) ++ .chargeTou ::
        if 0 < c.powerLimits.min then [.chargeLimitsConflict] else []),
      { resetSubmeterTrim "tou_changed_before_write" c with calculatedChargeBattery := false })

/-- The guards of an automatic write. -/
def guardCommand (automatic : Bool) (w : WriteReadings) (command : Command)
    (c : InverterController) : Command × InverterController :=
  if automatic then
    guardTouCharge w.tou (guardEv w.evPower command c).1 (guardEv w.evPower command c).2
  else (command, c)

/-- The command that is written: bounded, and guarded when it is automatic. -/
def checkCommand (automatic : Bool) (w : WriteReadings) (command : Command)
    (c : InverterController) : Command × InverterController :=
  guardCommand automatic w (boundSetpoint command c).1 (boundSetpoint command c).2

/-- `self.submeter_trim.commit(self._trim_decision, …)`. -/
def commitDecision (w : WriteReadings) (c : InverterController) : SubmeterTrim :=
  match c.trimDecision with
  | none => c.submeterTrim
  | some i =>
    (Trim.Model.commit (.decision i.id) (.float w.commitMonotonic) (.float w.commitWall)
      c.submeterTrim).2

/-- `accept_control_setpoint`. -/
def acceptControlSetpoint (automatic : Bool) (w : WriteReadings) (g : GridStatus) (setpoint : ℤ)
    (c : InverterController) : InverterController :=
  { c with
    submeterTrim := commitDecision w c
    previousSetpoint := setpoint
    lastSetpointWasCharge := automatic && c.calculatedChargeBattery
    lastBackupMeasurement := if g.backup then g.measurementTime else none }

/-- How `_write_cycle_setpoint` ends. -/
inductive WriteEnd
  /-- `None`: the trim was no longer ready. -/
  | skipped
  | written (command : Command) (ok : Bool)
  | raised
  deriving DecidableEq

/-- The flags that are shown. -/
def shownFlags (flags : List Flag) (c : InverterController) : List Flag :=
  if c.dryRun then .dry :: flags else flags

/-- The checked command goes to the watchdog, and its acceptance is recorded. -/
def writeChecked (automatic : Bool) (w : WriteReadings) (g : GridStatus) (generation : ℕ)
    (command : Command) (c : InverterController) : WriteEnd × InverterController × List HwCall :=
  match Watchdog.Model.writeControlSetpoint command.1 generation c.dryRun w.env c.watchdog with
  | ((watchdog, calls), .accepted) =>
    (.written (command.1, shownFlags command.2 c) true,
      acceptControlSetpoint automatic w g command.1 { c with watchdog := watchdog }, calls)
  | ((watchdog, calls), .refused) =>
    (.written (command.1, shownFlags command.2 c) false, { c with watchdog := watchdog }, calls)
  | ((watchdog, calls), .raised) => (.raised, { c with watchdog := watchdog }, calls)

/-- `_write_cycle_setpoint`, from the lock on. -/
def writeCycleSetpoint (automatic : Bool) (w : WriteReadings) (sys current : GridStatus)
    (generation : ℕ) (command : Command) (c : InverterController) :
    WriteEnd × InverterController × List HwCall :=
  match trimWriteReady w.trim current c with
  | (none, c) => (.raised, c, [])
  | (some false, c) => (.skipped, resetSubmeterTrim "changed_before_write" c, [])
  | (some true, c) =>
    writeChecked automatic w sys generation (checkCommand automatic w command c).1
      (checkCommand automatic w command c).2

/-! ### Grid loss -/

/-- `_update_grid_loss_state_locked`, as far as it sets the baseline. -/
def updateGridLossState (c : InverterController) : InverterController :=
  match c.watchdog.overrideValue with
  | some value => { c with previousSetpoint := value }
  | none =>
    if c.watchdog.gridLossFallbackApplied then
      { c with previousSetpoint := Watchdog.Model.gridLossFallbackSetpoint }
    else c

/-- The surroundings of a step of the watchdog: `get_setpoint` is the controller's own. -/
def watchdogEnv (env : Env) (c : InverterController) : Env :=
  { env with getSetpoint := some c.previousSetpoint }

/-- A step of the watchdog, with the hardware calls it made. -/
def stepWatchdog (step : Env → HardwareWatchdog → HardwareWatchdog × List HwCall) (env : Env)
    (c : InverterController) : InverterController × List HwCall :=
  ({ c with watchdog := (step (watchdogEnv env c) c.watchdog).1 },
    (step (watchdogEnv env c) c.watchdog).2)

/-! ### The setters of other threads -/

/-- `ABSOLUTE_LIMIT`. -/
def absoluteLimit : ℤ := 3000

/-- A limit that is applied. -/
def clipLimit (value : ℤ) : ℤ := clampTo (-absoluteLimit) absoluteLimit value

theorem clipLimit_mono {a b : ℤ} (h : a ≤ b) : clipLimit a ≤ clipLimit b := by
  unfold clipLimit clampTo
  exact max_le_max le_rfl (min_le_min le_rfl h)

/-- `set_power_limits`, after the save: limits in the wrong order raise. -/
def setPowerLimits (min max : ℤ) (c : InverterController) : InverterController :=
  if h : min ≤ max then
    { c with
      powerLimits := ⟨clipLimit min, clipLimit max, clipLimit_mono h⟩
      calculator :=
        { c.calculator with powerLimitMin := clipLimit min, powerLimitMax := clipLimit max }
      trimModeGeneration := c.trimModeGeneration + 1 }
  else c

/-- `set_control_flag`. -/
def setControlFlag (key : FlagKey) (value : Bool) (c : InverterController) : InverterController :=
  { c with
    trimModeGeneration :=
      if c.controlFlags.get key ≠ value then c.trimModeGeneration + 1 else c.trimModeGeneration
    controlFlags := c.controlFlags.set value key }

/-- `set_dry_run`. -/
def setDryRun (enabled : Bool) (c : InverterController) : InverterController :=
  { c with
    trimModeGeneration :=
      if c.dryRun ≠ enabled then c.trimModeGeneration + 1 else c.trimModeGeneration
    dryRun := enabled
    watchdog := { c.watchdog with dryRun := enabled } }

/-- `set_manual_setpoint`. -/
def setManualSetpoint (value : ℤ) (c : InverterController) : InverterController :=
  { c with
    manualSetpoint := some (clampTo c.powerLimits.min c.powerLimits.max value)
    trimModeGeneration := c.trimModeGeneration + 1 }

/-- The `accept` of `_handle_pre_charge_webhook`. -/
def acceptPrecharge (expiresAt : ℚ) (c : InverterController) : InverterController :=
  { c with
    preChargeExpiresAt := expiresAt
    preChargeRequested := true
    trimModeGeneration := c.trimModeGeneration + 1 }

/-- `select_ess_mode`, whose write succeeds: it raises in DRY mode. -/
def selectEssMode (c : InverterController) : InverterController :=
  if c.dryRun then c else { c with trimModeGeneration := c.trimModeGeneration + 1 }

end InverterControl.Controller.Model
