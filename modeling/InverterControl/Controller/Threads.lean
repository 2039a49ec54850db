import InverterControl.Controller.Model
import InverterControl.Lib.Runs

/-!
# The threads around the controller

The control thread goes through `run_cycle` in steps between which other threads may act: the
watchdog thread checks, the MQTT thread sets the override and the setters of the other threads run.
A step is what one holds the write lock for, or what it does between two such sections.  The control
thread can fail at any point of a cycle, which then ends.
-/

namespace InverterControl.Controller.Threads

open InverterControl.Lib.Runs InverterControl.Python InverterControl.Logic.Model
open InverterControl.Controller.Model
open InverterControl.Backup.Model (GridStatus)
open InverterControl.Trim.Model (Issued)
open InverterControl.Watchdog.Model (Env HardwareWatchdog HwCall OverrideArg)

/-- How a calculation came to its command. -/
inductive Origin
  /-- A pending manual setpoint. -/
  | manual
  /-- A backup sample that was applied before. -/
  | held
  /-- The calculator, with what it knew of forced charging: whether it was asked to charge, whether the
  window was active, and whether the last accepted command was a forced charge. -/
  | calculated (requested window lastWasCharge : Bool)
  deriving DecidableEq, Repr

/-- The local variables of `run_cycle` after the calculation. -/
structure Locals where
  generation : ℕ
  sys : GridStatus
  command : Command
  pendingManual : Option ℤ
  origin : Origin
  deriving DecidableEq

/-- Who called `_grid_ready_for_control`. -/
inductive Caller
  | override
  | first (generation : ℕ)
  | second (k : Locals)
  deriving DecidableEq

/-- The steps of `_grid_ready_for_control`. -/
inductive GateStage
  | start
  | readTriggered
  | checkInvalid
  | checkTriggered
  | update (ready : Bool)
  deriving DecidableEq, Repr

/-- Where the control thread is. -/
inductive ControlPc
  | idle
  | begun (generation : ℕ)
  | gate (caller : Caller) (g : GridStatus) (stage : GateStage)
  | overrideCheck
  | overrideUpdate
  | ready (generation : ℕ) (sys : GridStatus)
  | trimming (k : Locals) (chargeBattery : Bool) (result : ControlResult)
  | calculated (k : Locals)
  | writing (k : Locals) (current : GridStatus)
  | written (k : Locals) (ok : Bool)
  | finalUpdate
  deriving DecidableEq

/-- Where the MQTT thread is in `set_setpoint_override`. -/
inductive MqttPc
  | idle
  | clearing
  | updating
  deriving DecidableEq, Repr

structure System where
  controller : InverterController
  pc : ControlPc := .idle
  mqtt : MqttPc := .idle
  deriving DecidableEq

/-- What a step of the control thread reads. -/
structure Inputs where
  grid : GridStatus
  env : Env
  readings : Readings
  trim : TrimReadings
  write : WriteReadings
  deriving DecidableEq

/-- The two entry points of the watchdog thread. -/
inductive WatchdogOp
  | checkHeartbeat
  | checkGridLoss
  deriving DecidableEq, Repr

inductive Event
  | control (i : Inputs)
  /-- An exception ends the cycle. -/
  | abort
  | watchdog (op : WatchdogOp) (env : Env)
  /-- The MQTT thread goes on; between two commands it takes up the one given. -/
  | mqtt (arg : OverrideArg) (requestId : Option String) (env : Env)
  | setControlFlag (key : FlagKey) (value : Bool)
  | setPowerLimits (min max : ℤ)
  | setDryRun (enabled : Bool)
  | setManualSetpoint (value : ℤ)
  | acceptPrecharge (expiresAt : ℚ)
  | selectEssMode
  deriving DecidableEq

/-- A step: the new state, and the hardware calls it made. -/
abbrev Step := System × List HwCall

/-! ### The control thread -/

/-- The controller changes and the control thread moves on. -/
def goTo (pc : ControlPc) (c : InverterController) (s : System) : System :=
  { s with controller := c, pc := pc }

@[simp] theorem goTo_controller (pc : ControlPc) (c : InverterController) (s : System) :
    (goTo pc c s).controller = c := rfl

@[simp] theorem goTo_pc (pc : ControlPc) (c : InverterController) (s : System) :
    (goTo pc c s).pc = pc := rfl

/-- A new generation of the override forgets the measurements before it. -/
def noteGeneration (c : InverterController) : InverterController :=
  if c.watchdog.controlGeneration ≠ c.controlHistoryGeneration then
    { resetGridMeasurements (resetSubmeterTrim "control_generation" c) with
      controlHistoryGeneration := c.watchdog.controlGeneration }
  else c

/-- `run_cycle` up to the first read. -/
def beginCycle (s : System) : System :=
  goTo (.begun s.controller.watchdog.controlGeneration) (noteGeneration (forgetDecision s.controller))
    s

/-- The system data are read, and the override decides who owns the cycle. -/
def readSystem (generation : ℕ) (g : GridStatus) (s : System) : System :=
  if s.controller.watchdog.overrideValue ≠ none then
    goTo (.gate .override g .start) (resetSubmeterTrim "manual_control" s.controller) s
  else goTo (.gate (.first generation) g .start) s.controller s

/-- `_grid_ready_for_control` has answered. -/
def answerGate (caller : Caller) (g : GridStatus) (ready : Bool) (c : InverterController)
    (s : System) : System :=
  match caller with
  | .override => goTo .overrideCheck c s
  | .first generation => goTo (if ready then .ready generation g else .idle) c s
  | .second k => goTo (if ready then .writing k g else .idle) c s

/-- Another source was selected: recalculate on the next cycle. -/
def noteSelection (g : GridStatus) (c : InverterController) : InverterController :=
  resetGridMeasurements
    { resetSubmeterTrim "source_changed" c with
      controlGridSelection := g.selectionGeneration
      lastBackupMeasurement := none }

/-- The grid is valid: the source may be another one. -/
def checkSelection (caller : Caller) (g : GridStatus) (c : InverterController) (s : System) :
    System :=
  if g.selectionGeneration ≠ c.controlGridSelection then
    answerGate caller g false (noteSelection g c) s
  else goTo (.gate caller g .readTriggered) c s

/-- The first step of `_grid_ready_for_control`. -/
def startGate (caller : Caller) (g : GridStatus) (env : Env) (s : System) : Step :=
  if g.valid = false then
    (goTo (.gate caller g .checkInvalid)
      { resetSubmeterTrim "primary_invalid" s.controller with
        watchdog := Watchdog.Model.markDbusInvalid env s.controller.watchdog } s, [])
  else
    (checkSelection caller g (stepWatchdog Watchdog.Model.markDbusUpdate env s.controller).1 s,
      (stepWatchdog Watchdog.Model.markDbusUpdate env s.controller).2)

/-- The grid became invalid: the measurements before are forgotten. -/
def noteInvalid (c : InverterController) : InverterController :=
  { (if c.gridInputsInvalid then c else resetGridMeasurements c) with gridInputsInvalid := true }

/-- One step of `_grid_ready_for_control`. -/
def stepGate (caller : Caller) (g : GridStatus) (stage : GateStage) (env : Env) (s : System) : Step :=
  match stage with
  | .start => startGate caller g env s
  | .readTriggered =>
    if s.controller.watchdog.triggered then
      (goTo (.gate caller g .checkTriggered) (resetSubmeterTrim "watchdog" s.controller) s, [])
    else
      (goTo (.gate caller g (.update true)) { s.controller with gridInputsInvalid := false } s, [])
  | .checkInvalid =>
    (goTo (.gate caller g (.update false))
      (noteInvalid (stepWatchdog Watchdog.Model.checkGridLoss env s.controller).1) s,
      (stepWatchdog Watchdog.Model.checkGridLoss env s.controller).2)
  | .checkTriggered =>
    (goTo (.gate caller g (.update false))
      (stepWatchdog Watchdog.Model.checkGridLoss env s.controller).1 s,
      (stepWatchdog Watchdog.Model.checkGridLoss env s.controller).2)
  | .update ready => (answerGate caller g ready (updateGridLossState s.controller) s, [])

/-- The local variables before the trim. -/
def calculatedCycle (generation : ℕ) (sys : GridStatus) (r : Readings) (c : InverterController) :
    Locals where
  generation := generation
  sys := sys
  command := ((regulate r sys c).1.setpoint, (regulate r sys c).1.flags)
  pendingManual := none
  origin := .calculated (chargeRequested r c) (inExpensiveWindow r.tou) c.lastSetpointWasCharge

/-- `calculate_setpoint` up to the trim. -/
def calculateSetpoint (generation : ℕ) (sys : GridStatus) (r : Readings) (c : InverterController)
    (s : System) : System :=
  if heldSample sys c then
    goTo (.calculated ⟨generation, sys, (holdSample r c).1, none, .held⟩) (holdSample r c).2 s
  else
    goTo (.trimming (calculatedCycle generation sys r c) (chargeRequested r c) (regulate r sys c).1)
      (regulate r sys c).2 s

/-- The pending manual setpoint, or a calculation. -/
def calculate (generation : ℕ) (sys : GridStatus) (r : Readings) (s : System) : System :=
  match s.controller.manualSetpoint with
  | some value =>
    goTo (.calculated ⟨generation, sys, (value, [.manual]), some value, .manual⟩)
      (resetSubmeterTrim "manual_control" s.controller) s
  | none => calculateSetpoint generation sys r (forgetDecision s.controller) s

/-- A failed cycle. -/
def fail (c : InverterController) (s : System) : System :=
  goTo .idle (resetSubmeterTrim "cycle_error" c) s

/-- `_apply_submeter_trim`. -/
def applyTrim (k : Locals) (chargeBattery : Bool) (result : ControlResult) (x : TrimReadings)
    (s : System) : System :=
  match applySubmeterTrim x k.sys chargeBattery result s.controller with
  | (none, c) => fail c s
  | (some command, c) => goTo (.calculated { k with command := command }) c s

/-- `_skip_changed_grid` up to the gate. -/
def readGrid (k : Locals) (current : GridStatus) (s : System) : System :=
  if current.selectionGeneration ≠ k.sys.selectionGeneration ∨
      current.measurementTime ≠ k.sys.measurementTime then
    goTo .idle (resetSubmeterTrim "source_changed_before_write" s.controller) s
  else goTo (.gate (.second k) current .start) s.controller s

/-- The write of a cycle has ended. -/
def endWrite (k : Locals) (s : System) : WriteEnd × InverterController × List HwCall → Step
  | (.skipped, c, calls) => (goTo .idle c s, calls)
  | (.raised, c, calls) => (fail c s, calls)
  | (.written command true, c, calls) =>
    (goTo (.written { k with command := command } true) c s, calls)
  | (.written command false, c, calls) =>
    (goTo (.written { k with command := command } false) (resetSubmeterTrim "write_rejected" c) s,
      calls)

/-- `_write_cycle_setpoint`. -/
def write (k : Locals) (current : GridStatus) (w : WriteReadings) (s : System) : Step :=
  endWrite k s (writeCycleSetpoint (k.pendingManual = none) w k.sys current k.generation k.command
    s.controller)

/-- `run_cycle` after the write. -/
def finish (k : Locals) (ok : Bool) (s : System) : System :=
  if k.generation ≠ s.controller.watchdog.controlGeneration then
    goTo .finalUpdate (resetSubmeterTrim "control_generation" s.controller) s
  else if ok ∧ k.pendingManual ≠ none ∧ s.controller.manualSetpoint = k.pendingManual then
    goTo .idle { s.controller with manualSetpoint := none } s
  else goTo .idle s.controller s

/-- One step of the control thread. -/
def stepControl (i : Inputs) (s : System) : Step :=
  match s.pc with
  | .idle => (beginCycle s, [])
  | .begun generation => (readSystem generation i.grid s, [])
  | .gate caller g stage => stepGate caller g stage i.env s
  | .overrideCheck =>
    (goTo .overrideUpdate (stepWatchdog Watchdog.Model.checkGridLoss i.env s.controller).1 s,
      (stepWatchdog Watchdog.Model.checkGridLoss i.env s.controller).2)
  | .overrideUpdate => (goTo .idle (updateGridLossState s.controller) s, [])
  | .ready generation sys => (calculate generation sys i.readings s, [])
  | .trimming k chargeBattery result => (applyTrim k chargeBattery result i.trim s, [])
  | .calculated k => (readGrid k i.grid s, [])
  | .writing k current => write k current i.write s
  | .written k ok => (finish k ok s, [])
  | .finalUpdate => (goTo .idle (updateGridLossState s.controller) s, [])

/-! ### The other threads -/

/-- The watchdog's step of an entry point of its thread. -/
def WatchdogOp.step : WatchdogOp → Env → HardwareWatchdog → HardwareWatchdog × List HwCall
  | .checkHeartbeat => Watchdog.Model.checkHeartbeat
  | .checkGridLoss => Watchdog.Model.checkGridLoss

/-- One step of another thread that is one of the watchdog. -/
def stepOther (x : InverterController × List HwCall) (s : System) : Step :=
  ({ s with controller := x.1 }, x.2)

/-- One step of the watchdog thread. -/
def stepWatchdogThread (op : WatchdogOp) (env : Env) (s : System) : Step :=
  stepOther (stepWatchdog op.step env s.controller) s

/-- The end of a command of the MQTT thread: a pending manual setpoint ends with a command that took
effect. -/
def answerMqtt (c : InverterController) : MqttPc :=
  if (Watchdog.Model.getSetpointOverride c.watchdog).lastError = none then .clearing else .updating

/-- One step of `set_setpoint_override`: the watchdog's, the end of a pending manual setpoint, and
`_update_grid_loss_state`. -/
def stepMqtt (arg : OverrideArg) (requestId : Option String) (env : Env) (s : System) : Step :=
  match s.mqtt with
  | .idle =>
    stepOther (stepWatchdog (Watchdog.Model.setSetpointOverride arg requestId) env s.controller)
      { s with
        mqtt := answerMqtt
          (stepWatchdog (Watchdog.Model.setSetpointOverride arg requestId) env s.controller).1 }
  | .clearing =>
    ({ s with controller := { s.controller with manualSetpoint := none }, mqtt := .updating }, [])
  | .updating =>
    ({ s with controller := updateGridLossState s.controller, mqtt := .idle }, [])

/-- An exception ends the cycle that runs. -/
def abort (s : System) : System :=
  match s.pc with
  | .idle => s
  | _ => fail s.controller s

/-- A setter of another thread. -/
def stepSetter (f : InverterController → InverterController) (s : System) : Step :=
  ({ s with controller := f s.controller }, [])

/-- One event. -/
def perform (s : System) : Event → Step
  | .control i => stepControl i s
  | .abort => (abort s, [])
  | .watchdog op env => stepWatchdogThread op env s
  | .mqtt arg requestId env => stepMqtt arg requestId env s
  | .setControlFlag key value => stepSetter (setControlFlag key value) s
  | .setPowerLimits min max => stepSetter (setPowerLimits min max) s
  | .setDryRun enabled => stepSetter (setDryRun enabled) s
  | .setManualSetpoint value => stepSetter (setManualSetpoint value) s
  | .acceptPrecharge expiresAt => stepSetter (acceptPrecharge expiresAt) s
  | .selectEssMode => stepSetter selectEssMode s

/-- The state after an event. -/
def next (s : System) (e : Event) : System := (perform s e).1

/-- The hardware calls of an event. -/
def calls (s : System) (e : Event) : List HwCall := (perform s e).2

/-- The configuration of a process. -/
structure Setup where
  config : Config
  limits : PowerLimits
  dryRun : Bool
  trimEnabled : Bool
  timeoutSeconds : ℚ
  gridLossHoldSeconds : Option ℚ
  deriving DecidableEq

/-- The controller when its watchdog was started at the clock reading `now`. -/
def init (p : Setup) (now : ℚ) : System where
  controller :=
    { watchdog := Watchdog.Model.start now
        (Watchdog.Model.init p.timeoutSeconds p.dryRun p.gridLossHoldSeconds)
      calculator :=
        { config := p.config, powerLimitMin := p.limits.min, powerLimitMax := p.limits.max }
      submeterTrim := Trim.Model.init p.trimEnabled p.config.gridBackupService none
      dryRun := p.dryRun
      powerLimits := p.limits }

/-! ### A quiet house -/

/-- The default limits, and no backup meter. -/
def plainSetup : Setup where
  config := defaultConfig none 0
  limits := ⟨-2300, 2250, by decide⟩
  dryRun := false
  trimEnabled := false
  timeoutSeconds := 30
  gridLossHoldSeconds := none

/-- The environment at the clock reading `t`, with a hardware that accepts. -/
def acceptingEnv (t : ℚ) : Env := ⟨t, t, .accepted, none⟩

/-- The primary meter reads `gt` at the time `t`, and there is no backup. -/
def primaryGrid (t gt : ℚ) : GridStatus where
  valid := true
  backup := false
  primaryValid := true
  source := some "com.victronenergy.grid.main"
  sourceInstance := some 30
  selectionGeneration := 1
  measurementTime := some t
  gt := gt
  backupStatus := ⟨false, "", 0, none, none, none, none⟩

/-- A tariff without an expensive window. -/
def flatTariff : TouReading := ⟨.int (-1), .int (-1), some 12⟩

/-- A tariff whose window is active at any hour. -/
def activeTariff : TouReading := ⟨.int 0, .int 24, some 12⟩

/-- What the control thread reads at the time `t` when nothing but the grid has a load. -/
def quietInputs (t gt : ℚ) : Inputs where
  grid := primaryGrid t gt
  env := acceptingEnv t
  readings := ⟨t, flatTariff, flatTariff, 0, 0, 0, .int 0, 0, none, none⟩
  trim := ⟨t, t, false, true⟩
  write := ⟨⟨t, t, false, true⟩, .int 0, flatTariff, t, t, acceptingEnv t⟩

/-- The control thread takes `n` steps at the time `t`; an undisturbed cycle takes 13. -/
def quietSteps (n : ℕ) (t gt : ℚ) : List Event :=
  List.replicate n (.control (quietInputs t gt))

/-- A heartbeat of the watchdog thread. -/
def heartbeat (t : ℚ) : Event := .watchdog .checkHeartbeat (acceptingEnv t)

end InverterControl.Controller.Threads
