import InverterControl.Controller.Threads
import InverterControl.Watchdog.Steps

/-!
# What one event of the system can do

Every event is at most one operation of the watchdog (`watchdog_perform`), so the watchdog of a run
is in a state that its own operations lead to, and every hardware call has one of its writers.  The
lemmas below say what an event does to the rest of the controller.
-/

namespace InverterControl.Controller.Steps

open InverterControl.Lib.Runs InverterControl.Python InverterControl.Logic.Model
open InverterControl.Controller.Model InverterControl.Controller.Threads
open InverterControl.Backup.Model (GridStatus)
open InverterControl.Trim.Model (Issued)
open InverterControl.Watchdog.Model (Env HardwareWatchdog HwCall OverrideArg)
open InverterControl.Watchdog.Steps (Op.isOwners Owner next_owner)

/-! ### What the trim's bookkeeping leaves alone -/

/-- The controller without the trim, the calculator and the histories of the measurements. -/
structure Core where
  watchdog : HardwareWatchdog
  controlFlags : ControlFlags
  dryRun : Bool
  previousSetpoint : ℤ
  manualSetpoint : Option ℤ
  preChargeRequested : Bool
  preChargeExpiresAt : ℚ
  calculatedChargeBattery : Bool
  lastSetpointWasCharge : Bool
  powerLimits : PowerLimits
  trimModeGeneration : ℕ

def core (c : InverterController) : Core :=
  ⟨c.watchdog, c.controlFlags, c.dryRun, c.previousSetpoint, c.manualSetpoint, c.preChargeRequested,
    c.preChargeExpiresAt, c.calculatedChargeBattery, c.lastSetpointWasCharge, c.powerLimits,
    c.trimModeGeneration⟩

section Core

variable (x : TrimReadings) (g : GridStatus) (c : InverterController)

theorem noteGeneration_core : core (noteGeneration c) = core c := by
  unfold noteGeneration
  split_ifs <;> rfl

theorem noteInvalid_core : core (noteInvalid c) = core c := by
  unfold noteInvalid
  split_ifs <;> rfl

theorem noteTrimMode_core : core (noteTrimMode c) = core c := by
  unfold noteTrimMode
  split_ifs <;> rfl

/-- The trim of a calculation only changes what belongs to it. -/
theorem applySubmeterTrim_state (chargeBattery : Bool) (result : ControlResult) :
    ∃ t decision context mode, (applySubmeterTrim x g chargeBattery result c).2 =
      { c with
        submeterTrim := t, trimDecision := decision, trimContext := context,
        trimHistoryModeGeneration := mode } := by
  have hnote : ∃ t decision context mode, noteTrimMode c =
      { c with
        submeterTrim := t, trimDecision := decision, trimContext := context,
        trimHistoryModeGeneration := mode } := by
    unfold noteTrimMode
    split_ifs <;> exact ⟨_, _, _, _, rfl⟩
  obtain ⟨t, decision, context, mode, hnoted⟩ := hnote
  unfold applySubmeterTrim
  split_ifs
  · exact ⟨_, _, _, _, rfl⟩
  unfold applyNotedTrim
  rw [hnoted]
  split
  · exact ⟨_, _, _, _, rfl⟩
  · unfold adoptTrim
    split_ifs <;> exact ⟨_, _, _, _, rfl⟩

theorem applySubmeterTrim_core (chargeBattery : Bool) (result : ControlResult) :
    core (applySubmeterTrim x g chargeBattery result c).2 = core c := by
  obtain ⟨t, decision, context, mode, h⟩ := applySubmeterTrim_state x g c chargeBattery result
  rw [h]
  rfl

/-- The check before a write only asks the trim once more. -/
theorem trimWriteReady_state :
    ∃ t, (trimWriteReady x g c).2 = { c with submeterTrim := t } := by
  unfold trimWriteReady
  split
  · exact ⟨_, rfl⟩
  split_ifs
  · exact ⟨_, rfl⟩
  · exact ⟨_, rfl⟩
  · exact ⟨_, rfl⟩

theorem trimWriteReady_core : core (trimWriteReady x g c).2 = core c := by
  obtain ⟨t, h⟩ := trimWriteReady_state x g c
  rw [h]
  rfl

theorem boundSetpoint_core (command : Command) : core (boundSetpoint command c).2 = core c := by
  unfold boundSetpoint
  simp only
  split_ifs <;> rfl

theorem guardEv_core (evPower : PyValue) (command : Command) :
    core (guardEv evPower command c).2 = core c := by
  unfold guardEv
  simp only
  split_ifs <;> rfl

end Core

section Guards

variable {c c' : InverterController}

theorem bounded_of_core (h : core c' = core c) (setpoint : ℤ) :
    bounded setpoint c' = bounded setpoint c := by
  have hlimits : c'.powerLimits = c.powerLimits := congrArg Core.powerLimits h
  simp only [bounded, hlimits]

theorem evGuarded_of_core (h : core c' = core c) (evPower : PyValue) (setpoint : ℤ) :
    evGuarded evPower setpoint c' = evGuarded evPower setpoint c := by
  have hlimits : c'.powerLimits = c.powerLimits := congrArg Core.powerLimits h
  have hflags : c'.controlFlags = c.controlFlags := congrArg Core.controlFlags h
  simp only [evGuarded, hlimits, hflags]

theorem touCeiling_of_core (h : core c' = core c) (tou : TouReading) :
    touCeiling tou c' = touCeiling tou c := by
  have hcharge : c'.calculatedChargeBattery = c.calculatedChargeBattery :=
    congrArg Core.calculatedChargeBattery h
  simp only [touCeiling, hcharge]

end Guards

/-! ### The command that is written -/

/-- The setpoint that the limits and the guards of an automatic write leave of a command's. -/
def guardedSetpoint (w : WriteReadings) (setpoint : ℤ) (c : InverterController) : ℤ :=
  if touCeiling w.tou c then min 0 (evGuarded w.evPower (bounded setpoint c) c).1
  else (evGuarded w.evPower (bounded setpoint c) c).1

theorem guardTouCharge_setpoint (tou : TouReading) (command : Command) (c : InverterController) :
    (guardTouCharge tou command c).1.1 =
      if touCeiling tou c then min 0 command.1 else command.1 := by
  unfold guardTouCharge
  cases touCeiling tou c <;> rfl

theorem checkCommand_setpoint (w : WriteReadings) (command : Command) (c : InverterController) :
    (checkCommand true w command c).1.1 = guardedSetpoint w command.1 c := by
  have hbound := boundSetpoint_core c command
  have hev := (guardEv_core (boundSetpoint command c).2 w.evPower (boundSetpoint command c).1).trans
    hbound
  simp only [checkCommand, guardCommand, if_true, guardTouCharge_setpoint, guardedSetpoint,
    touCeiling_of_core hev]
  simp only [guardEv, evGuarded_of_core hbound]
  rfl

theorem checkCommand_state (automatic : Bool) (w : WriteReadings) (command : Command)
    (c : InverterController) :
    ∃ t decision context charge, (checkCommand automatic w command c).2 =
      { c with
        submeterTrim := t, trimDecision := decision, trimContext := context,
        calculatedChargeBattery := charge } := by
  have hbound : ∃ t decision context, (boundSetpoint command c).2 =
      { c with submeterTrim := t, trimDecision := decision, trimContext := context } := by
    unfold boundSetpoint
    simp only
    split_ifs <;> exact ⟨_, _, _, rfl⟩
  have hev (command' : Command) (c' : InverterController) : ∃ t decision context,
      (guardEv w.evPower command' c').2 =
        { c' with submeterTrim := t, trimDecision := decision, trimContext := context } := by
    unfold guardEv
    simp only
    split_ifs <;> exact ⟨_, _, _, rfl⟩
  obtain ⟨t, decision, context, hbound⟩ := hbound
  unfold checkCommand guardCommand
  split
  · obtain ⟨t', decision', context', hev⟩ := hev (boundSetpoint command c).1 (boundSetpoint command c).2
    rw [hev, hbound]
    unfold guardTouCharge
    split <;> exact ⟨_, _, _, _, rfl⟩
  · rw [hbound]
    exact ⟨_, _, _, _, rfl⟩

/-- The command that a write hands to the watchdog, and the controller then, when the trim is ready. -/
def attempt (k : Locals) (current : GridStatus) (w : WriteReadings) (c : InverterController) :
    Option (Command × InverterController) :=
  match trimWriteReady w.trim current c with
  | (some true, c) => some (checkCommand (k.pendingManual = none) w k.command c)
  | _ => none

variable {k : Locals} {current : GridStatus} {w : WriteReadings} {c : InverterController}

/-- The command that is written comes from the controller as the trim's check left it. -/
theorem attempt_eq {x : Command × InverterController} (h : attempt k current w c = some x) :
    (trimWriteReady w.trim current c).1 = some true ∧
      x = checkCommand (k.pendingManual = none) w k.command (trimWriteReady w.trim current c).2 := by
  unfold attempt at h
  split at h
  · next c' hready =>
    obtain rfl := Option.some.inj h
    rw [hready]
    exact ⟨rfl, rfl⟩
  · cases h

/-- **The value of an automatic write.** -/
theorem attempt_setpoint {x : Command × InverterController} (h : attempt k current w c = some x)
    (hk : k.pendingManual = none) : x.1.1 = guardedSetpoint w k.command.1 c := by
  have hcore := trimWriteReady_core w.trim current c
  rw [(attempt_eq h).2, hk, decide_eq_true rfl, checkCommand_setpoint]
  simp only [guardedSetpoint, touCeiling_of_core hcore, evGuarded_of_core hcore,
    bounded_of_core hcore]

/-- The checks leave everything but the trim and the charge alone. -/
theorem attempt_state {x : Command × InverterController} (h : attempt k current w c = some x) :
    ∃ t decision context charge, x.2 =
      { c with
        submeterTrim := t, trimDecision := decision, trimContext := context,
        calculatedChargeBattery := charge } := by
  obtain ⟨t, hready⟩ := trimWriteReady_state w.trim current c
  rw [(attempt_eq h).2, hready]
  exact checkCommand_state _ w k.command _

theorem attempt_core {x : Command × InverterController} (h : attempt k current w c = some x) :
    ∃ charge, core x.2 = { core c with calculatedChargeBattery := charge } := by
  obtain ⟨t, decision, context, charge, hx⟩ := attempt_state h
  rw [hx]
  exact ⟨charge, rfl⟩

/-- What the watchdog answers to the command of a write. -/
def answer (k : Locals) (w : WriteReadings) (setpoint : ℤ) (c : InverterController) :
    Watchdog.Model.Step × Watchdog.Model.WriteResult :=
  Watchdog.Model.writeControlSetpoint setpoint k.generation c.dryRun w.env c.watchdog

/-- The controller once the watchdog has answered. -/
def answered (k : Locals) (w : WriteReadings) (x : Command × InverterController)
    (c : InverterController) : InverterController :=
  { x.2 with watchdog := (answer k w x.1.1 c).1.1 }

/-- The cycle with the command that was written. -/
def writtenCycle (k : Locals) (x : Command × InverterController) : Locals :=
  { k with command := (x.1.1, shownFlags x.1.2 x.2) }

/-- The ways a write can end. -/
inductive WriteCase (k : Locals) (current : GridStatus) (w : WriteReadings) (s : System) : Prop
  /-- The trim is not ready, and the hardware is not called. -/
  | notReady (c : InverterController) (hx : attempt k current w s.controller = none)
      (hcore : core c = core s.controller) (h : write k current w s = (goTo .idle c s, []))
      (hreset : ∃ reason, c = resetSubmeterTrim reason (trimWriteReady w.trim current s.controller).2)
  | accepted (x : Command × InverterController) (hx : attempt k current w s.controller = some x)
      (hr : (answer k w x.1.1 s.controller).2 = .accepted)
      (h : write k current w s =
        (goTo (.written (writtenCycle k x) true)
          (acceptControlSetpoint (k.pendingManual = none) w k.sys x.1.1
            (answered k w x s.controller)) s,
          (answer k w x.1.1 s.controller).1.2))
  | refused (x : Command × InverterController) (hx : attempt k current w s.controller = some x)
      (hr : (answer k w x.1.1 s.controller).2 = .refused)
      (h : write k current w s =
        (goTo (.written (writtenCycle k x) false)
          (resetSubmeterTrim "write_rejected" (answered k w x s.controller)) s,
          (answer k w x.1.1 s.controller).1.2))
  | raised (x : Command × InverterController) (hx : attempt k current w s.controller = some x)
      (hr : (answer k w x.1.1 s.controller).2 = .raised)
      (h : write k current w s =
        (fail (answered k w x s.controller) s, (answer k w x.1.1 s.controller).1.2))

/-- **The write.** -/
theorem write_cases (k : Locals) (current : GridStatus) (w : WriteReadings) (s : System) :
    WriteCase k current w s := by
  have hready := trimWriteReady_core w.trim current s.controller
  have hnot {c : InverterController} {o : Option Bool} (ho : o ≠ some true)
      (h : trimWriteReady w.trim current s.controller = (o, c)) :
      attempt k current w s.controller = none := by
    unfold attempt
    rw [h]
    rcases o with _ | _ | _ <;> first | rfl | exact absurd rfl ho
  rcases h : trimWriteReady w.trim current s.controller with ⟨_ | _ | _, c⟩
  · rw [h] at hready
    refine .notReady (resetSubmeterTrim "cycle_error" c) (hnot (by simp) h) hready ?_ ⟨_, by rw [h]⟩
    simp only [write, writeCycleSetpoint, h]
    rfl
  · rw [h] at hready
    refine .notReady (resetSubmeterTrim "changed_before_write" c) (hnot (by simp) h) hready ?_
      ⟨_, by rw [h]⟩
    simp only [write, writeCycleSetpoint, h]
    rfl
  · have hx : attempt k current w s.controller =
        some (checkCommand (k.pendingManual = none) w k.command c) := by simp only [attempt, h]
    obtain ⟨charge, hcore⟩ := attempt_core hx
    have hw : (checkCommand (k.pendingManual = none) w k.command c).2.watchdog =
        s.controller.watchdog := congrArg Core.watchdog hcore
    have hd : (checkCommand (k.pendingManual = none) w k.command c).2.dryRun =
        s.controller.dryRun := congrArg Core.dryRun hcore
    rcases hr : answer k w (checkCommand (k.pendingManual = none) w k.command c).1.1
      s.controller with ⟨⟨watchdog, calls⟩, _ | _ | _⟩
    · refine .accepted _ hx (by rw [hr]) ?_
      unfold answer at hr
      simp only [write, writeCycleSetpoint, h, writeChecked, hw, hd, hr, endWrite, answered, answer,
        writtenCycle]
    · refine .refused _ hx (by rw [hr]) ?_
      unfold answer at hr
      simp only [write, writeCycleSetpoint, h, writeChecked, hw, hd, hr, endWrite, answered, answer,
        writtenCycle]
    · refine .raised _ hx (by rw [hr]) ?_
      unfold answer at hr
      simp only [write, writeCycleSetpoint, h, writeChecked, hw, hd, hr, endWrite, answered, answer]

/-! ### The watchdog's operation -/

/-- The surroundings of an operation that reads none. -/
def noEnv : Env := ⟨0, 0, .rejected, none⟩

/-- The operation of the watchdog in a step of the control thread. -/
def controlOperation (i : Inputs) (s : System) : Option Watchdog.Model.Event :=
  match s.pc with
  | .gate _ g .start =>
    if g.valid = false then some ⟨.markDbusInvalid, i.env⟩
    else some ⟨.markDbusUpdate, watchdogEnv i.env s.controller⟩
  | .gate _ _ .checkInvalid => some ⟨.checkGridLoss, watchdogEnv i.env s.controller⟩
  | .gate _ _ .checkTriggered => some ⟨.checkGridLoss, watchdogEnv i.env s.controller⟩
  | .overrideCheck => some ⟨.checkGridLoss, watchdogEnv i.env s.controller⟩
  | .writing k current =>
    (attempt k current i.write s.controller).map fun x =>
      ⟨.writeControlSetpoint x.1.1 k.generation s.controller.dryRun, i.write.env⟩
  | _ => none

/-- The operation of an entry point of the watchdog thread. -/
def threadOperation : WatchdogOp → Watchdog.Model.Op
  | .checkHeartbeat => .checkHeartbeat
  | .checkGridLoss => .checkGridLoss

/-- The operation of the watchdog in an event. -/
def operation (s : System) : Event → Option Watchdog.Model.Event
  | .control i => controlOperation i s
  | .watchdog op env => some ⟨threadOperation op, watchdogEnv env s.controller⟩
  | .mqtt arg requestId env =>
    if s.mqtt = .idle then
      some ⟨.setSetpointOverride arg requestId, watchdogEnv env s.controller⟩
    else none
  | .setDryRun enabled => some ⟨.setDryRun enabled, noEnv⟩
  | _ => none

/-- The watchdog and the hardware calls after an optional operation. -/
def operate (w : HardwareWatchdog) : Option Watchdog.Model.Event → HardwareWatchdog × List HwCall
  | some ev => Watchdog.Model.perform w ev
  | none => (w, [])

/-- The watchdog and the hardware calls of a step. -/
def outcome (x : Step) : HardwareWatchdog × List HwCall := (x.1.controller.watchdog, x.2)

variable {s : System} {i : Inputs}

theorem write_outcome (h : s.pc = .writing k current) :
    outcome (write k current i.write s) =
      operate s.controller.watchdog (controlOperation i s) := by
  simp only [controlOperation, h]
  cases write_cases k current i.write s with
  | notReady c hx hcore h =>
    rw [h, hx]
    exact Prod.ext (congrArg Core.watchdog hcore) rfl
  | accepted x hx hr h => rw [h, hx]; rfl
  | refused x hx hr h => rw [h, hx]; rfl
  | raised x hx hr h => rw [h, hx]; rfl

/-- The state of a meter loss only sets the baseline. -/
theorem updateGridLossState_core (c : InverterController) : ∃ previous,
    core (updateGridLossState c) = { core c with previousSetpoint := previous } := by
  unfold updateGridLossState
  split
  · exact ⟨_, rfl⟩
  · split_ifs
    · exact ⟨_, rfl⟩
    · exact ⟨_, rfl⟩

theorem updateGridLossState_watchdog (c : InverterController) :
    (updateGridLossState c).watchdog = c.watchdog := by
  obtain ⟨previous, h⟩ := updateGridLossState_core c
  exact congrArg Core.watchdog h

theorem answerGate_controller (caller : Caller) (g : GridStatus) (ready : Bool)
    (c : InverterController) (s : System) : (answerGate caller g ready c s).controller = c := by
  cases caller <;> rfl

theorem checkSelection_watchdog (caller : Caller) (g : GridStatus) (c : InverterController)
    (s : System) : (checkSelection caller g c s).controller.watchdog = c.watchdog := by
  unfold checkSelection
  split_ifs
  · rw [answerGate_controller]
    rfl
  · rfl

theorem stepGate_outcome {caller : Caller} {g : GridStatus} {stage : GateStage}
    (h : s.pc = .gate caller g stage) :
    outcome (stepGate caller g stage i.env s) =
      operate s.controller.watchdog (controlOperation i s) := by
  simp only [controlOperation, h]
  cases stage with
  | start =>
    simp only [stepGate, startGate]
    split_ifs
    · rfl
    · exact Prod.ext (checkSelection_watchdog _ _ _ _) rfl
  | readTriggered =>
    simp only [stepGate]
    split_ifs <;> rfl
  | checkInvalid => exact Prod.ext (congrArg Core.watchdog (noteInvalid_core _)) rfl
  | checkTriggered => rfl
  | update ready =>
    refine Prod.ext ?_ rfl
    simp only [stepGate, outcome, answerGate_controller]
    exact updateGridLossState_watchdog s.controller

theorem applyTrim_outcome (k : Locals) (chargeBattery : Bool) (result : ControlResult)
    (x : TrimReadings) (s : System) :
    (applyTrim k chargeBattery result x s).controller.watchdog = s.controller.watchdog := by
  have h : (applySubmeterTrim x k.sys chargeBattery result s.controller).2.watchdog =
      s.controller.watchdog :=
    congrArg Core.watchdog (applySubmeterTrim_core x k.sys s.controller chargeBattery result)
  unfold applyTrim
  split
  · next heq => rw [heq] at h; exact h
  · next heq => rw [heq] at h; exact h

theorem calculate_watchdog (generation : ℕ) (sys : GridStatus) (r : Readings) (s : System) :
    (Threads.calculate generation sys r s).controller.watchdog = s.controller.watchdog := by
  unfold Threads.calculate
  split
  · rfl
  · unfold calculateSetpoint
    split_ifs <;> rfl

theorem finish_watchdog (k : Locals) (ok : Bool) (s : System) :
    (finish k ok s).controller.watchdog = s.controller.watchdog := by
  unfold finish
  split_ifs <;> rfl

theorem stepControl_outcome (i : Inputs) (s : System) :
    outcome (stepControl i s) = operate s.controller.watchdog (controlOperation i s) := by
  unfold stepControl
  cases h : s.pc with
  | idle =>
    simp only [controlOperation, h]
    exact Prod.ext (congrArg Core.watchdog (noteGeneration_core _)) rfl
  | begun generation =>
    simp only [controlOperation, h, readSystem]
    split_ifs <;> rfl
  | gate caller g stage => exact stepGate_outcome h
  | overrideCheck => simp only [controlOperation, h]; rfl
  | overrideUpdate =>
    simp only [controlOperation, h]
    exact Prod.ext (updateGridLossState_watchdog _) rfl
  | ready generation sys =>
    simp only [controlOperation, h]
    exact Prod.ext (calculate_watchdog _ _ _ _) rfl
  | trimming k chargeBattery result =>
    simp only [controlOperation, h]
    exact Prod.ext (applyTrim_outcome _ _ _ _ _) rfl
  | calculated k =>
    simp only [controlOperation, h, readGrid]
    split_ifs <;> rfl
  | writing k current => exact write_outcome h
  | written k ok =>
    simp only [controlOperation, h]
    exact Prod.ext (finish_watchdog _ _ _) rfl
  | finalUpdate =>
    simp only [controlOperation, h]
    exact Prod.ext (updateGridLossState_watchdog _) rfl

/-- **The system drives its watchdog.**  The watchdog after an event and the hardware calls of the event
are those of at most one operation. -/
theorem perform_outcome (s : System) (e : Event) :
    outcome (perform s e) = operate s.controller.watchdog (operation s e) := by
  cases e with
  | control i => exact stepControl_outcome i s
  | abort =>
    simp only [perform, operation, abort]
    cases s.pc <;> rfl
  | watchdog op env => cases op <;> rfl
  | mqtt arg requestId env =>
    simp only [perform, operation, stepMqtt]
    cases s.mqtt with
    | idle => rfl
    | clearing => rfl
    | updating => exact Prod.ext (updateGridLossState_watchdog _) rfl
  | setPowerLimits min max =>
    simp only [perform, operation, stepSetter, setPowerLimits]
    split_ifs <;> rfl
  | selectEssMode =>
    simp only [perform, operation, stepSetter, selectEssMode]
    split_ifs <;> rfl
  | setControlFlag key value => rfl
  | setDryRun enabled => rfl
  | setManualSetpoint value => rfl
  | acceptPrecharge expiresAt => rfl

/-- A step is an operation on the watchdog, or none. -/
theorem watchdog_next (s : System) (e : Event) : (Threads.next s e).controller.watchdog =
    (operate s.controller.watchdog (operation s e)).1 :=
  congrArg Prod.fst (perform_outcome s e)

theorem calls_eq (s : System) (e : Event) :
    Threads.calls s e = (operate s.controller.watchdog (operation s e)).2 :=
  congrArg Prod.snd (perform_outcome s e)

/-- A hardware call belongs to the operation of its event. -/
theorem mem_calls {s : System} {e : Event} {call : HwCall} (h : call ∈ Threads.calls s e) :
    ∃ ev, operation s e = some ev ∧ call ∈ Watchdog.Model.calls s.controller.watchdog ev := by
  rw [calls_eq] at h
  cases hop : operation s e with
  | none => rw [hop] at h; cases h
  | some ev => rw [hop] at h; exact ⟨ev, rfl, h⟩

/-- The operations of a run. -/
def operations (past : List (Taken System Event)) : List Watchdog.Model.Event :=
  past.filterMap fun x => operation x.before x.input

/-- **Refinement.**  The watchdog of a run of the system is in the state that its operations lead to. -/
theorem watchdog_exec (s : System) (es : List Event) :
    (exec next s es).controller.watchdog =
      exec Watchdog.Model.next s.controller.watchdog (operations (trace next s es)) := by
  refine history_induction (P := fun is (t : System) => t.controller.watchdog =
    exec Watchdog.Model.next s.controller.watchdog (operations (trace Threads.next s is))) rfl ?_ es
  intro is e ih
  have hstep := watchdog_next (exec Threads.next s is) e
  have htrace : operations (trace Threads.next s (is ++ [e])) =
      operations (trace Threads.next s is) ++ (operation (exec Threads.next s is) e).toList := by
    cases hop : operation (exec Threads.next s is) e <;>
      simp [operations, List.filterMap_append, hop]
  rw [hstep, htrace, exec_append, ← ih]
  cases operation (exec Threads.next s is) e with
  | none => rfl
  | some ev => rfl

variable {e : Event}

/-- The operations of the events. -/
inductive Operates (s : System) (e : Event) (ev : Watchdog.Model.Event) : Prop
  | gate (i : Inputs) (he : e = .control i)
      (hop : ev.op = .markDbusInvalid ∨ ev.op = .markDbusUpdate ∨ ev.op = .checkGridLoss)
  | write (i : Inputs) (k : Locals) (current : GridStatus) (x : Command × InverterController)
      (he : e = .control i) (hpc : s.pc = .writing k current)
      (hx : attempt k current i.write s.controller = some x)
      (hev : ev = ⟨.writeControlSetpoint x.1.1 k.generation s.controller.dryRun, i.write.env⟩)
  | thread (op : WatchdogOp) (env : Env) (he : e = .watchdog op env)
      (hev : ev = ⟨threadOperation op, watchdogEnv env s.controller⟩)
  | override (arg : OverrideArg) (requestId : Option String) (env : Env)
      (he : e = .mqtt arg requestId env)
      (hev : ev = ⟨.setSetpointOverride arg requestId, watchdogEnv env s.controller⟩)
  | dryRun (enabled : Bool) (he : e = .setDryRun enabled) (hev : ev = ⟨.setDryRun enabled, noEnv⟩)

theorem operates {ev : Watchdog.Model.Event} (h : operation s e = some ev) : Operates s e ev := by
  cases e with
  | control i =>
    simp only [operation, controlOperation] at h
    split at h
    · split_ifs at h
      · exact .gate i rfl (by cases h; exact Or.inl rfl)
      · exact .gate i rfl (by cases h; exact Or.inr (Or.inl rfl))
    · exact .gate i rfl (by cases h; exact Or.inr (Or.inr rfl))
    · exact .gate i rfl (by cases h; exact Or.inr (Or.inr rfl))
    · exact .gate i rfl (by cases h; exact Or.inr (Or.inr rfl))
    · next k current hpc =>
      obtain ⟨x, hx, rfl⟩ := Option.map_eq_some_iff.mp h
      exact .write i k current x rfl hpc hx rfl
    · cases h
  | watchdog op env => exact .thread op env rfl (Option.some.inj h).symm
  | mqtt arg requestId env =>
    simp only [operation] at h
    split_ifs at h
    exact .override arg requestId env rfl (Option.some.inj h).symm
  | setDryRun enabled => exact .dryRun enabled rfl (Option.some.inj h).symm
  | _ => cases h

/-- Only the MQTT thread and the dry-run setter change what the owner of the watchdog decides. -/
theorem owners_operation (he : ∀ arg requestId env, e ≠ .mqtt arg requestId env)
    {ev : Watchdog.Model.Event} (hop : operation s e = some ev)
    (howner : ¬ Op.isOwners ev.op = false) : ∃ enabled, ev = ⟨.setDryRun enabled, noEnv⟩ := by
  cases operates hop with
  | gate i _ hop => rcases hop with h | h | h <;> exact absurd (by rw [h]; rfl) howner
  | write i k current x _ _ _ hev => exact absurd (by rw [hev]; rfl) howner
  | thread op env _ hev => exact absurd (by rw [hev]; cases op <;> rfl) howner
  | override arg requestId env h _ => exact absurd h (he arg requestId env)
  | dryRun enabled _ hev => exact ⟨enabled, hev⟩

/-- Without a command of the MQTT thread the override stays. -/
theorem next_override (he : ∀ arg requestId env, e ≠ .mqtt arg requestId env) :
    (Threads.next s e).controller.watchdog.overrideValue = s.controller.watchdog.overrideValue ∧
      (Threads.next s e).controller.watchdog.controlGeneration =
        s.controller.watchdog.controlGeneration := by
  have hstep := watchdog_next s e
  rw [hstep]
  cases hop : operation s e with
  | none => exact ⟨rfl, rfl⟩
  | some ev =>
    by_cases howner : Op.isOwners ev.op = false
    · have h := next_owner howner s.controller.watchdog
      exact ⟨congrArg Owner.overrideValue h, congrArg Owner.controlGeneration h⟩
    · obtain ⟨enabled, rfl⟩ := owners_operation he hop howner
      exact ⟨rfl, rfl⟩

/-! ### Where the control thread goes -/

/-- Where a step of the control thread leads, and from where. -/
inductive Leads (i : Inputs) (s : System) : ControlPc → Prop
  /-- The cycle is over. -/
  | rests : Leads i s .idle
  | begins (generation : ℕ) (hpc : s.pc = .idle)
    (hcurrent : generation = (stepControl i s).1.controller.watchdog.controlGeneration) :
    Leads i s (.begun generation)
  | readsOverride (generation : ℕ)
    (hpc : s.pc = .begun generation) : Leads i s (.gate .override i.grid .start)
  | readsFirst (generation : ℕ) (hpc : s.pc = .begun generation)
    (hoverride : s.controller.watchdog.overrideValue = none) :
    Leads i s (.gate (.first generation) i.grid .start)
  | invalid (caller : Caller) (g : GridStatus) (hpc : s.pc = .gate caller g .start) :
    Leads i s (.gate caller g .checkInvalid)
  | valid (caller : Caller) (g : GridStatus) (hpc : s.pc = .gate caller g .start)
    (hvalid : g.valid = true) :
    Leads i s (.gate caller g .readTriggered)
  | triggered (caller : Caller) (g : GridStatus) (hpc : s.pc = .gate caller g .readTriggered) :
    Leads i s (.gate caller g .checkTriggered)
  | calm (caller : Caller) (g : GridStatus) (hpc : s.pc = .gate caller g .readTriggered)
    (hcalm : s.controller.watchdog.triggered = false) : Leads i s (.gate caller g (.update true))
  | held (caller : Caller) (g : GridStatus) (stage : GateStage) (hpc : s.pc = .gate caller g stage) :
    Leads i s (.gate caller g (.update false))
  | answersOverride (g : GridStatus) (stage : GateStage) (hpc : s.pc = .gate .override g stage) :
    Leads i s .overrideCheck
  | answersFirst (generation : ℕ) (g : GridStatus)
    (hpc : s.pc = .gate (.first generation) g (.update true)) :
    Leads i s (.ready generation g)
  | answersSecond (k : Locals) (g : GridStatus) (hpc : s.pc = .gate (.second k) g (.update true)) :
    Leads i s (.writing k g)
  | checksOverride (hpc : s.pc = .overrideCheck) : Leads i s .overrideUpdate
  | regulates (generation : ℕ) (sys : GridStatus) (k : Locals) (chargeBattery : Bool)
    (result : ControlResult) (hpc : s.pc = .ready generation sys) (hk : k.generation = generation) :
    Leads i s (.trimming k chargeBattery result)
  | decides (generation : ℕ) (sys : GridStatus) (k : Locals) (hpc : s.pc = .ready generation sys)
    (hk : k.generation = generation) : Leads i s (.calculated k)
  | trims (k : Locals) (chargeBattery : Bool) (result : ControlResult) (command : Command)
    (hpc : s.pc = .trimming k chargeBattery result) :
    Leads i s (.calculated { k with command := command })
  | readsSecond (k : Locals) (hpc : s.pc = .calculated k) : Leads i s (.gate (.second k) i.grid .start)
  | writes (k : Locals) (current : GridStatus) (command : Command) (ok : Bool)
    (hpc : s.pc = .writing k current) : Leads i s (.written { k with command := command } ok)
  | ends (k : Locals) (ok : Bool) (hpc : s.pc = .written k ok) : Leads i s .finalUpdate

theorem answerGate_leads {caller : Caller} {g : GridStatus} {stage : GateStage} {ready : Bool}
    (hpc : s.pc = .gate caller g stage) (hready : ready = true → stage = .update true)
    (c : InverterController) : Leads i s (answerGate caller g ready c s).pc := by
  cases caller with
  | override => exact .answersOverride g stage hpc
  | first generation =>
    cases ready with
    | false => exact .rests
    | true => exact .answersFirst generation g (by rw [hpc, hready rfl])
  | second k =>
    cases ready with
    | false => exact .rests
    | true => exact .answersSecond k g (by rw [hpc, hready rfl])

theorem stepGate_leads {caller : Caller} {g : GridStatus} {stage : GateStage}
    (hpc : s.pc = .gate caller g stage) : Leads i s (stepGate caller g stage i.env s).1.pc := by
  cases stage with
  | start =>
    simp only [stepGate, startGate, checkSelection]
    split_ifs with hvalid
    · exact .invalid caller g hpc
    · exact answerGate_leads hpc (fun hready => absurd hready Bool.false_ne_true) _
    · exact .valid caller g hpc (Bool.not_eq_false _ ▸ hvalid)
  | readTriggered =>
    simp only [stepGate]
    split_ifs with htriggered
    · exact .triggered caller g hpc
    · exact .calm caller g hpc (Bool.eq_false_iff.mpr htriggered)
  | checkInvalid => exact .held caller g _ hpc
  | checkTriggered => exact .held caller g _ hpc
  | update ready => exact answerGate_leads hpc (fun hready => by rw [hready]) _

/-- **Every step of the control thread leads to one of these.** -/
theorem stepControl_leads (i : Inputs) (s : System) : Leads i s (stepControl i s).1.pc := by
  cases hpc : s.pc with
  | idle =>
    simp only [stepControl, hpc]
    refine .begins _ hpc ?_
    simp only [stepControl, hpc]
    exact (congrArg (fun c : Core => c.watchdog.controlGeneration)
      (noteGeneration_core (forgetDecision s.controller))).symm
  | begun generation =>
    simp only [stepControl, hpc, readSystem]
    split_ifs with hoverride
    · exact .readsOverride generation hpc
    · exact .readsFirst generation hpc (not_not.mp hoverride)
  | gate caller g stage =>
    simp only [stepControl, hpc]
    exact stepGate_leads hpc
  | overrideCheck =>
    simp only [stepControl, hpc]
    exact .checksOverride hpc
  | overrideUpdate =>
    simp only [stepControl, hpc]
    exact .rests
  | ready generation sys =>
    simp only [stepControl, hpc, Threads.calculate, calculateSetpoint]
    split
    · exact .decides generation sys _ hpc rfl
    · split_ifs
      · exact .decides generation sys _ hpc rfl
      · exact .regulates generation sys _ _ _ hpc rfl
  | trimming k chargeBattery result =>
    simp only [stepControl, hpc, applyTrim]
    split
    · exact .rests
    · exact .trims k chargeBattery result _ hpc
  | calculated k =>
    simp only [stepControl, hpc, readGrid]
    split_ifs
    · exact .rests
    · exact .readsSecond k hpc
  | writing k current =>
    simp only [stepControl, hpc]
    cases write_cases k current i.write s with
    | notReady c hx hcore heq =>
      rw [heq]
      exact .rests
    | accepted x hx hr heq =>
      rw [heq]
      exact .writes k current _ true hpc
    | refused x hx hr heq =>
      rw [heq]
      exact .writes k current _ false hpc
    | raised x hx hr heq =>
      rw [heq]
      exact .rests
  | written k ok =>
    simp only [stepControl, hpc, finish]
    split_ifs
    · exact .ends k ok hpc
    · exact .rests
    · exact .rests
  | finalUpdate =>
    simp only [stepControl, hpc]
    exact .rests

/-! ### The cycle's local variables -/

/-- The cycle that a caller of the gate carries. -/
def callerCycle : Caller → Option Locals
  | .second k => some k
  | _ => none

/-- The cycle whose calculation the control thread carries. -/
def cycleOf : ControlPc → Option Locals
  | .gate caller _ _ => callerCycle caller
  | .trimming k _ _ | .calculated k | .writing k _ | .written k _ => some k
  | _ => none

/-- **A step keeps the cycle up to its command**, or has calculated it. -/
theorem stepControl_cycle {k' : Locals} (h : cycleOf (stepControl i s).1.pc = some k') :
    (∃ k command, cycleOf s.pc = some k ∧ k' = { k with command := command }) ∨
    ∃ generation sys, s.pc = .ready generation sys ∧
      cycleOf (Threads.calculate generation sys i.readings s).pc = some k' := by
  have hleads := stepControl_leads i s
  have hcalculate (generation : ℕ) (sys : GridStatus) (hpc : s.pc = .ready generation sys) :
      cycleOf (Threads.calculate generation sys i.readings s).pc = some k' := by
    simpa only [stepControl, hpc] using h
  have hgate (caller : Caller) (g : GridStatus) (stage : GateStage) (hpc : s.pc = .gate caller g stage)
      (hcaller : callerCycle caller = some k') :
      ∃ k command, cycleOf s.pc = some k ∧ k' = { k with command := command } :=
    ⟨k', k'.command, by rw [hpc]; exact hcaller, rfl⟩
  generalize (stepControl i s).1.pc = pc at hleads h
  cases hleads with
  | rests => cases h
  | begins generation hpc hcurrent => cases h
  | readsOverride generation hpc => cases h
  | readsFirst generation hpc hoverride => cases h
  | invalid caller g hpc => exact Or.inl (hgate caller g _ hpc h)
  | valid caller g hpc hvalid => exact Or.inl (hgate caller g _ hpc h)
  | triggered caller g hpc => exact Or.inl (hgate caller g _ hpc h)
  | calm caller g hpc hcalm => exact Or.inl (hgate caller g _ hpc h)
  | held caller g stage hpc => exact Or.inl (hgate caller g _ hpc h)
  | answersOverride g stage hpc => cases h
  | answersFirst generation g hpc => cases h
  | answersSecond k g hpc => exact Or.inl (hgate (.second k) g _ hpc h)
  | checksOverride hpc => cases h
  | regulates generation sys k chargeBattery result hpc hk =>
    exact Or.inr ⟨generation, sys, hpc, hcalculate generation sys hpc⟩
  | decides generation sys k hpc hk => exact Or.inr ⟨generation, sys, hpc, hcalculate generation sys hpc⟩
  | trims k chargeBattery result command hpc =>
    exact Or.inl ⟨k, command, by rw [hpc]; rfl, (Option.some.inj h).symm⟩
  | readsSecond k hpc => exact Or.inl ⟨k, k.command, by rw [hpc]; rfl, (Option.some.inj h).symm⟩
  | writes k current command ok hpc =>
    exact Or.inl ⟨k, command, by rw [hpc]; rfl, (Option.some.inj h).symm⟩
  | ends k ok hpc => cases h

theorem abort_cycle {k : Locals} (h : cycleOf (abort s).pc = some k) : cycleOf s.pc = some k := by
  unfold abort at h
  split at h
  · exact h
  · cases h

/-! ### What a step of the control thread leaves alone -/

/-- The program counters at which the control thread neither calculates nor writes. -/
def isQuiet : ControlPc → Bool
  | .ready .. | .writing .. | .written .. => false
  | _ => true

theorem checkSelection_core (caller : Caller) (g : GridStatus) (c : InverterController) (s : System) :
    core (checkSelection caller g c s).controller = core c := by
  unfold checkSelection
  split_ifs
  · rw [answerGate_controller]
    rfl
  · rfl

theorem stepGate_quiet (caller : Caller) (g : GridStatus) (stage : GateStage) :
    ∃ watchdog previous, core (stepGate caller g stage i.env s).1.controller =
      { core s.controller with watchdog := watchdog, previousSetpoint := previous } := by
  cases stage with
  | start =>
    simp only [stepGate, startGate]
    split_ifs
    · exact ⟨_, _, rfl⟩
    · simp only [checkSelection_core]
      exact ⟨_, _, rfl⟩
  | readTriggered =>
    simp only [stepGate]
    split_ifs <;> exact ⟨_, _, rfl⟩
  | checkInvalid =>
    simp only [stepGate, goTo_controller, noteInvalid_core]
    exact ⟨_, _, rfl⟩
  | checkTriggered => exact ⟨_, _, rfl⟩
  | update ready =>
    simp only [stepGate, answerGate_controller]
    obtain ⟨previous, h⟩ := updateGridLossState_core s.controller
    exact ⟨_, _, h⟩

/-- **A quiet step** changes the watchdog and the baseline at most, but for the trim and the
histories. -/
theorem stepControl_quiet (h : isQuiet s.pc = true) :
    ∃ watchdog previous, core (stepControl i s).1.controller =
      { core s.controller with watchdog := watchdog, previousSetpoint := previous } := by
  unfold stepControl
  cases hpc : s.pc with
  | idle => exact ⟨_, _, noteGeneration_core _⟩
  | begun generation =>
    simp only [readSystem]
    split_ifs <;> exact ⟨_, _, rfl⟩
  | gate caller g stage => exact stepGate_quiet caller g stage
  | overrideCheck => exact ⟨_, _, rfl⟩
  | overrideUpdate =>
    obtain ⟨previous, h⟩ := updateGridLossState_core s.controller
    exact ⟨_, _, h⟩
  | trimming k chargeBattery result =>
    have hcore := applySubmeterTrim_core i.trim k.sys s.controller chargeBattery result
    simp only [applyTrim]
    split
    · next heq =>
      rw [heq] at hcore
      exact ⟨_, _, hcore⟩
    · next heq =>
      rw [heq] at hcore
      exact ⟨_, _, hcore⟩
  | calculated k =>
    simp only [readGrid]
    split_ifs <;> exact ⟨_, _, rfl⟩
  | finalUpdate =>
    obtain ⟨previous, h⟩ := updateGridLossState_core s.controller
    exact ⟨_, _, h⟩
  | ready generation sys => rw [hpc] at h; cases h
  | writing k current => rw [hpc] at h; cases h
  | written k ok => rw [hpc] at h; cases h

/-- The parts of the controller that a write leaves alone. -/
theorem write_core (k : Locals) (current : GridStatus) (w : WriteReadings) (s : System) :
    ∃ watchdog previous charge last, core (write k current w s).1.controller =
      { core s.controller with
        watchdog := watchdog, previousSetpoint := previous, calculatedChargeBattery := charge,
        lastSetpointWasCharge := last } := by
  cases write_cases k current w s with
  | notReady c hx hcore h =>
    rw [h]
    exact ⟨_, _, _, _, hcore⟩
  | accepted x hx hr h =>
    obtain ⟨charge, hcore⟩ := attempt_core hx
    rw [h]
    refine ⟨(answer k w x.1.1 s.controller).1.1, x.1.1, charge,
      decide (k.pendingManual = none) && charge, ?_⟩
    have hcharge : x.2.calculatedChargeBattery = charge := congrArg Core.calculatedChargeBattery hcore
    have h' := congrArg (fun y : Core => { y with
      watchdog := (answer k w x.1.1 s.controller).1.1, previousSetpoint := x.1.1,
      lastSetpointWasCharge := decide (k.pendingManual = none) && charge }) hcore
    rw [← h', ← hcharge]
    rfl
  | refused x hx hr h =>
    obtain ⟨charge, hcore⟩ := attempt_core hx
    rw [h]
    exact ⟨(answer k w x.1.1 s.controller).1.1, _, charge, _,
      congrArg (fun y : Core => { y with watchdog := (answer k w x.1.1 s.controller).1.1 }) hcore⟩
  | raised x hx hr h =>
    obtain ⟨charge, hcore⟩ := attempt_core hx
    rw [h]
    exact ⟨(answer k w x.1.1 s.controller).1.1, _, charge, _,
      congrArg (fun y : Core => { y with watchdog := (answer k w x.1.1 s.controller).1.1 }) hcore⟩

/-- The control thread ends a pending manual setpoint at most, and only after its write. -/
theorem stepControl_manual (i : Inputs) (s : System) :
    (stepControl i s).1.controller.manualSetpoint = s.controller.manualSetpoint ∨
      (stepControl i s).1.controller.manualSetpoint = none ∧ (stepControl i s).1.pc = .idle ∧
        ∃ k ok, s.pc = .written k ok := by
  cases hq : isQuiet s.pc with
  | true =>
    obtain ⟨watchdog, previous, h⟩ := stepControl_quiet (i := i) hq
    exact Or.inl (congrArg Core.manualSetpoint h)
  | false =>
    unfold stepControl
    cases hpc : s.pc with
    | ready generation sys =>
      simp only [Threads.calculate, calculateSetpoint]
      split
      · exact Or.inl rfl
      · split_ifs <;> exact Or.inl rfl
    | writing k current =>
      obtain ⟨watchdog, previous, charge, last, h⟩ := write_core k current i.write s
      exact Or.inl (congrArg Core.manualSetpoint h)
    | written k ok =>
      simp only [finish]
      split_ifs
      · exact Or.inl rfl
      · exact Or.inr ⟨rfl, rfl, k, ok, rfl⟩
      · exact Or.inl rfl
    | _ => rw [hpc] at hq; cases hq

end InverterControl.Controller.Steps
