import InverterControl.Controller.Baseline
import InverterControl.Controller.Limits
import InverterControl.Controller.Trims
import InverterControl.Logic.Pipeline

/-!
# The slew limit on the hardware

The calculator limits the change against `previous_setpoint`.  Between two values that the hardware
accepts from automatic writes the baseline is the earlier one (`Follows`), as long as no other value
is accepted: but DRY mode accepts, too, and moves the baseline while the hardware keeps its value.
-/

namespace InverterControl.Controller.Slew

open InverterControl.Lib.Runs InverterControl.Python InverterControl.Logic.Model
open InverterControl.Controller.Model InverterControl.Controller.Threads
open InverterControl.Controller.Steps InverterControl.Controller.Baseline
open InverterControl.Controller.Trims InverterControl.Controller.Limits
open InverterControl.Backup.Model (GridStatus)
open InverterControl.Watchdog.Model (Env HwCall)

/-! ### The settings of the calculator -/

/-- What the calculator has of the configuration. -/
structure Settings where
  config : Config
  powerLimitMin : ℤ
  powerLimitMax : ℤ
  powerLimits : PowerLimits

def settings (c : InverterController) : Settings :=
  ⟨c.calculator.config, c.calculator.powerLimitMin, c.calculator.powerLimitMax, c.powerLimits⟩

section Settings

variable (x : TrimReadings) (g : GridStatus) (c : InverterController)

theorem noteGeneration_settings : settings (noteGeneration c) = settings c := by
  unfold noteGeneration
  split_ifs <;> rfl

theorem noteInvalid_settings : settings (noteInvalid c) = settings c := by
  unfold noteInvalid
  split_ifs <;> rfl

theorem updateGridLossState_settings : settings (updateGridLossState c) = settings c := by
  unfold updateGridLossState
  split
  · rfl
  · split_ifs <;> rfl

theorem applySubmeterTrim_settings (chargeBattery : Bool) (result : ControlResult) :
    settings (applySubmeterTrim x g chargeBattery result c).2 = settings c := by
  obtain ⟨t, decision, context, mode, h⟩ := applySubmeterTrim_state x g c chargeBattery result
  rw [h]
  rfl

theorem trimWriteReady_settings : settings (trimWriteReady x g c).2 = settings c := by
  obtain ⟨t, h⟩ := trimWriteReady_state x g c
  rw [h]
  rfl

theorem checkCommand_settings (automatic : Bool) (w : WriteReadings) (command : Command) :
    settings (checkCommand automatic w command c).2 = settings c := by
  obtain ⟨t, decision, context, charge, h⟩ := checkCommand_state automatic w command c
  rw [h]
  rfl

end Settings

variable {s : System} {e : Event}

theorem write_settings (k : Locals) (current : GridStatus) (w : WriteReadings) (s : System) :
    settings (write k current w s).1.controller = settings s.controller := by
  have hready := trimWriteReady_settings w.trim current s.controller
  have hend (x : WriteEnd × InverterController × List HwCall) :
      settings (endWrite k s x).1.controller = settings x.2.1 := by
    unfold endWrite
    split <;> rfl
  rw [write, hend]
  unfold writeCycleSetpoint
  split
  · next heq =>
    rw [heq] at hready
    exact hready
  · next heq =>
    rw [heq] at hready
    exact hready
  · next c heq =>
    rw [heq] at hready
    have hchecked := checkCommand_settings c (k.pendingManual = none) w k.command
    unfold writeChecked
    split <;> exact hchecked.trans hready

theorem stepControl_settings (i : Inputs) (s : System) :
    settings (stepControl i s).1.controller = settings s.controller := by
  unfold stepControl
  cases s.pc with
  | idle => exact noteGeneration_settings _
  | begun generation =>
    simp only [readSystem]
    split_ifs <;> rfl
  | gate caller g stage =>
    cases stage with
    | start =>
      simp only [stepGate, startGate]
      split_ifs
      · rfl
      · simp only [checkSelection]
        split_ifs
        · rw [answerGate_controller]
          rfl
        · rfl
    | readTriggered =>
      simp only [stepGate]
      split_ifs <;> rfl
    | checkInvalid => exact noteInvalid_settings _
    | checkTriggered => rfl
    | update ready =>
      simp only [stepGate, answerGate_controller]
      exact updateGridLossState_settings _
  | overrideCheck => rfl
  | overrideUpdate => exact updateGridLossState_settings _
  | ready generation sys =>
    simp only [Threads.calculate, calculateSetpoint]
    split
    · rfl
    · split_ifs <;> rfl
  | trimming k chargeBattery result =>
    have happlied := applySubmeterTrim_settings i.trim k.sys s.controller chargeBattery result
    simp only [applyTrim]
    split
    · next heq =>
      rw [heq] at happlied
      exact happlied
    · next heq =>
      rw [heq] at happlied
      exact happlied
  | calculated k =>
    simp only [readGrid]
    split_ifs <;> rfl
  | writing k current => exact write_settings k current i.write s
  | written k ok =>
    simp only [finish]
    split_ifs <;> rfl
  | finalUpdate => exact updateGridLossState_settings _

/-- Only the setter changes the settings. -/
theorem next_settings (he : ∀ min max, e ≠ .setPowerLimits min max) :
    settings (Threads.next s e).controller = settings s.controller := by
  cases e with
  | control i => exact stepControl_settings i s
  | abort =>
    simp only [Threads.next, perform, abort]
    cases s.pc <;> rfl
  | mqtt arg requestId env =>
    simp only [Threads.next, perform, stepMqtt]
    cases s.mqtt with
    | idle => rfl
    | clearing => rfl
    | updating => exact updateGridLossState_settings _
  | setPowerLimits min max => exact absurd rfl (he min max)
  | selectEssMode =>
    simp only [Threads.next, perform, stepSetter, selectEssMode]
    split_ifs <;> rfl
  | _ => rfl

/-- The calculator has the limits of the controller, and the configuration of the process. -/
structure Aligned (config : Config) (c : InverterController) : Prop where
  config : c.calculator.config = config
  min : c.calculator.powerLimitMin = c.powerLimits.min
  max : c.calculator.powerLimitMax = c.powerLimits.max

variable {config : Config}

theorem Aligned.of_settings {c c' : InverterController} (h : Aligned config c)
    (hs : settings c' = settings c) :
    Aligned config c' := by
  have hlimits : c'.powerLimits = c.powerLimits := congrArg Settings.powerLimits hs
  exact ⟨(congrArg Settings.config hs).trans h.config,
    (congrArg Settings.powerLimitMin hs).trans (h.min.trans (by rw [hlimits])),
    (congrArg Settings.powerLimitMax hs).trans (h.max.trans (by rw [hlimits]))⟩

theorem Aligned.next (h : Aligned config s.controller) (e : Event) :
    Aligned config (Threads.next s e).controller := by
  by_cases he : ∃ min max, e = .setPowerLimits min max
  · obtain ⟨min, max, rfl⟩ := he
    simp only [Threads.next, perform, stepSetter, setPowerLimits]
    split_ifs
    · exact ⟨h.config, rfl, rfl⟩
    · exact h
  · exact h.of_settings (next_settings fun min max heq => he ⟨min, max, heq⟩)

theorem aligned_exec (p : Setup) (now : ℚ) (es : List Event) :
    Aligned p.config (exec Threads.next (Threads.init p now) es).controller :=
  exec_invariant (P := fun t : System => Aligned p.config t.controller)
    ⟨rfl, rfl, rfl⟩ fun x _ hx => hx.next x.input

/-! ### Two values on the hardware -/

/-- The hardware accepts the value of an automatic write. -/
def WritesAutomatic (s : System) (e : Event) (v : ℤ) : Prop :=
  ∃ k ∈ accepted s e, k.pendingManual = none ∧ ∃ c ∈ Threads.calls s e, c.outcome = .accepted ∧
    c.value = v

instance (s : System) (e : Event) (v : ℤ) : Decidable (WritesAutomatic s e v) := by
  unfold WritesAutomatic; infer_instance

/-- Another writer, a manual setpoint or other limits: the slew limit does not reach over the event. -/
def interrupts (s : System) (e : Event) : Prop :=
  hardwareAccepts s e ∨ (∃ k ∈ accepted s e, k.pendingManual ≠ none) ∨
    (Threads.next s e).controller.powerLimits ≠ s.controller.powerLimits

instance (s : System) (e : Event) : Decidable (interrupts s e) := by
  unfold interrupts; infer_instance

/-- The floor for an unknown EV raises a setpoint, in a calculation or at a write. -/
def floorRaises (s : System) : Event → Prop
  | .control i =>
    match s.pc with
    | .ready _ sys =>
      s.controller.manualSetpoint = none ∧ ¬ heldSample sys s.controller ∧
        (limitedCommand s.controller.calculator (systemState i.readings sys s.controller)).1 <
          (regulate i.readings sys s.controller).1.setpoint
    | .writing k _ =>
      k.pendingManual = none ∧ bounded k.command.1 s.controller <
        (evGuarded i.write.evPower (bounded k.command.1 s.controller) s.controller).1
    | _ => False
  | _ => False

instance (s : System) (e : Event) : Decidable (floorRaises s e) := by
  unfold floorRaises
  split
  · split <;> infer_instance
  · infer_instance

/-- The ceiling of the expensive window lowers a setpoint, in a calculation or at a write. -/
def ceilingLowers (s : System) : Event → Prop
  | .control i =>
    match s.pc with
    | .ready _ sys =>
      s.controller.manualSetpoint = none ∧ heldSample sys s.controller ∧
        (holdSample i.readings s.controller).1.1 < s.controller.previousSetpoint
    | .writing k _ =>
      k.pendingManual = none ∧ guardedSetpoint i.write k.command.1 s.controller <
        (evGuarded i.write.evPower (bounded k.command.1 s.controller) s.controller).1
    | _ => False
  | _ => False

instance (s : System) (e : Event) : Decidable (ceilingLowers s e) := by
  unfold ceilingLowers
  split
  · split <;> infer_instance
  · infer_instance

/-- Two consecutive values that the hardware accepts from automatic writes, at `x` and at `y`, with
nothing in between that the slew limit does not reach over. -/
structure Consecutive (s : System) (a : List Event) (x : Event) (b : List Event) (y : Event) (v v' : ℤ) :
    Prop where
  first : WritesAutomatic (exec Threads.next s a) x v
  second : WritesAutomatic (exec Threads.next s (a ++ x :: b)) y v'
  between : ∀ z ∈ trace Threads.next (exec Threads.next s (a ++ [x])) b, ¬ interrupts z.before z.input
  unguarded : ∀ z ∈ trace Threads.next (exec Threads.next s (a ++ [x])) (b ++ [y]),
    ¬ floorRaises z.before z.input ∧ ¬ ceilingLowers z.before z.input

/-- The writes that DRY mode accepts in between repeat the value, which is within the limits. -/
structure Repeated (s : System) (a : List Event) (x : Event) (b : List Event) (v : ℤ) : Prop where
  dry : ∀ z ∈ trace Threads.next (exec Threads.next s (a ++ [x])) b,
    ∀ k ∈ accepted z.before z.input, k.command.1 = v
  within : holds (exec Threads.next s a).controller.powerLimits v

/-! ### The baseline between them -/

/-- The cycle that goes to its write. -/
def carried : ControlPc → Option Locals
  | .calculated k | .gate (.second k) _ _ | .writing k _ => some k
  | _ => none

/-- What the control thread has calculated is no further from `v` than the limit. -/
structure Near (v limit : ℤ) (pc : ControlPc) : Prop where
  cycle : ∀ k, carried pc = some k → k.pendingManual = none → |k.command.1 - v| ≤ limit
  result : ∀ k chargeBattery result, pc = .trimming k chargeBattery result →
    |result.setpoint - v| ≤ limit

/-- The hardware has the baseline. -/
structure Follows (config : Config) (v : ℤ) (s : System) : Prop where
  unclaimed : Baseline.Unclaimed s.controller.watchdog
  previous : s.controller.previousSetpoint = v
  trim : TrimSound s.controller
  aligned : Aligned config s.controller
  within : holds s.controller.powerLimits v
  near : Near v config.setpointDeltaLimit s.pc

theorem near_of_none {v limit : ℤ} {pc : ControlPc} (h : carried pc = none)
    (ht : ∀ k chargeBattery result, pc ≠ .trimming k chargeBattery result) : Near v limit pc :=
  ⟨fun k hk => (Option.some_ne_none k (hk.symm.trans h)).elim,
    fun k cb result hpc => absurd hpc (ht k cb result)⟩

theorem near_calculated {v limit : ℤ} {k : Locals}
    (h : k.pendingManual = none → |k.command.1 - v| ≤ limit) :
    Near v limit (.calculated k) :=
  ⟨fun k' hk => Option.some.inj hk ▸ h, fun k' cb result hpc => by cases hpc⟩

variable {v : ℤ}

/-- **The calculation stays near the baseline.** -/
theorem Follows.near_calculate (h : Follows config v s) (hlimit : 0 ≤ config.setpointDeltaLimit)
    {i : Inputs} {generation : ℕ} {sys : GridStatus} (hpc : s.pc = .ready generation sys)
    (hfloor : ¬ floorRaises s (.control i)) (hceiling : ¬ ceilingLowers s (.control i)) :
    Near v config.setpointDeltaLimit (Threads.calculate generation sys i.readings s).pc := by
  simp only [floorRaises, ceilingLowers, hpc] at hfloor hceiling
  unfold Threads.calculate
  split
  case h_1 value _ => exact near_calculated fun hnone => by cases hnone
  case h_2 hmanual =>
    unfold calculateSetpoint
    split
    case isTrue hheld =>
      refine near_calculated fun _ => ?_
      have hle : (holdSample i.readings s.controller).1.1 ≤ s.controller.previousSetpoint := by
        unfold holdSample
        split_ifs
        · exact min_le_right _ _
        · exact le_rfl
      have heq : (holdSample i.readings s.controller).1.1 = s.controller.previousSetpoint :=
        le_antisymm hle (not_lt.mp fun hlt => hceiling ⟨hmanual, hheld, hlt⟩)
      show |(holdSample i.readings s.controller).1.1 - v| ≤ _
      rw [heq, h.previous, sub_self, abs_zero]
      exact hlimit
    case isFalse hheld =>
      refine ⟨fun k hk => (by cases hk), fun k cb result hpc' => ?_⟩
      obtain ⟨-, -, rfl⟩ : _ ∧ _ ∧ (regulate i.readings sys s.controller).1 = result := by
        injection hpc' with h1 h2 h3
        exact ⟨h1, h2, h3⟩
      have hdelta : deltaLimit s.controller.calculator = config.setpointDeltaLimit := by
        rw [deltaLimit, h.aligned.config]
      have hraise := not_lt.mp fun hlt => hfloor ⟨hmanual, hheld, hlt⟩
      have hresult : (regulate i.readings sys s.controller).1.setpoint =
          (limitedCommand s.controller.calculator (systemState i.readings sys s.controller)).1 := by
        refine le_antisymm hraise ?_
        show _ ≤ (Logic.Model.calculate s.controller.calculator
          (systemState i.readings sys s.controller)).1.setpoint
        rw [Logic.Pipeline.calculate_setpoint]
        split_ifs
        · exact le_max_right _ _
        · exact le_rfl
      have hlimits := h.within
      rw [hresult, Logic.Pipeline.limitedCommand_fst,
        Logic.Pipeline.limitSetpoint_eq (hdelta ▸ hlimit), hdelta, h.aligned.min, h.aligned.max]
      show |Logic.Pipeline.slewed _ _ _ s.controller.previousSetpoint _ - v| ≤ _
      rw [h.previous]
      exact Logic.Pipeline.abs_slewed_sub_le hlimit hlimits.1 hlimits.2

/-- The trim keeps the result, or stays near the baseline. -/
theorem adoptTrim_cases {c : InverterController} {i : Trim.Model.Issued} {g : GridStatus}
    (result : ControlResult)
    (hstill : i.decision.delta = 0 → i.decision.setpoint = result.setpoint ∨
      i.decision.setpoint = c.previousSetpoint) :
    (adoptTrim i g result c).1.1 = result.setpoint ∨ (adoptTrim i g result c).1.1 = c.previousSetpoint ∨
      |(adoptTrim i g result c).1.1 - c.previousSetpoint| ≤ deltaLimit c.calculator := by
  unfold adoptTrim
  split
  · exact Or.inl rfl
  · next hlimit =>
    split
    · exact Or.inl rfl
    · by_cases hdelta : i.decision.delta = 0
      · exact (hstill hdelta).imp_right Or.inl
      · exact Or.inr (Or.inr (not_lt.mp fun hlt => hlimit ⟨hlt, hdelta⟩))

theorem applySubmeterTrim_cases {c : InverterController} (hsound : TrimSound c) {x : TrimReadings}
    {g : GridStatus} {chargeBattery : Bool} {result : ControlResult} {command : Command}
    (h : (applySubmeterTrim x g chargeBattery result c).1 = some command) :
    command.1 = result.setpoint ∨ command.1 = c.previousSetpoint ∨
      |command.1 - c.previousSetpoint| ≤ deltaLimit c.calculator := by
  unfold applySubmeterTrim at h
  split at h
  · exact Or.inl (congrArg Prod.fst (Option.some.inj h)).symm
  · have hprevious := previous_of_core (noteTrimMode_core c)
    have hconfig : deltaLimit (noteTrimMode c).calculator = deltaLimit c.calculator := by
      unfold noteTrimMode
      split_ifs <;> rfl
    have hstill : Trim.Steps.Still result.setpoint (noteTrimMode c).previousSetpoint
        (proposeTrim x g chargeBattery result (noteTrimMode c)) :=
      Trim.Steps.still_propose ((resets_noteTrimMode c).uncommitted.sound hsound).toCore rfl rfl
    unfold applyNotedTrim at h
    split at h
    · cases h
    · next i trim hpropose =>
      have hcases := adoptTrim_cases (c := { noteTrimMode c with submeterTrim := trim }) (i := i)
        (g := g)
        result fun hdelta => hstill i (by rw [hpropose]) hdelta
      rw [Option.some.inj h] at hcases
      rw [hprevious, hconfig] at hcases
      exact hcases

/-- The trim changes a calculation within the limit. -/
theorem Follows.near_applyTrim (h : Follows config v s) (hlimit : 0 ≤ config.setpointDeltaLimit)
    {k : Locals} {chargeBattery : Bool} {result : ControlResult} {x : TrimReadings}
    (hresult : |result.setpoint - v| ≤ config.setpointDeltaLimit) :
    Near v config.setpointDeltaLimit (applyTrim k chargeBattery result x s).pc := by
  unfold applyTrim
  split
  · exact near_of_none rfl fun _ _ _ => ControlPc.noConfusion
  · next command c heq =>
    refine near_calculated fun _ => ?_
    have hdelta : deltaLimit s.controller.calculator = config.setpointDeltaLimit := by
      rw [deltaLimit, h.aligned.config]
    have hcases := applySubmeterTrim_cases h.trim (congrArg Prod.fst heq)
    rw [h.previous, hdelta] at hcases
    rcases hcases with hsame | hsame | hnear
    · rw [hsame]
      exact hresult
    · rw [hsame, sub_self, abs_zero]
      exact hlimit
    · exact hnear

theorem Follows.near_stepControl (h : Follows config v s) (hlimit : 0 ≤ config.setpointDeltaLimit)
    {i : Inputs} (hfloor : ¬ floorRaises s (.control i))
    (hceiling : ¬ ceilingLowers s (.control i)) :
    Near v config.setpointDeltaLimit (stepControl i s).1.pc := by
  have hleads := stepControl_leads i s
  have hready (generation : ℕ) (sys : GridStatus) (hpc : s.pc = .ready generation sys) :
      Near v config.setpointDeltaLimit (stepControl i s).1.pc := by
    simpa only [stepControl, hpc] using h.near_calculate hlimit hpc hfloor hceiling
  have htrimming (k : Locals) (chargeBattery : Bool) (result : ControlResult)
      (hpc : s.pc = .trimming k chargeBattery result) :
      Near v config.setpointDeltaLimit (stepControl i s).1.pc := by
    simpa only [stepControl, hpc] using h.near_applyTrim hlimit
      (h.near.result k chargeBattery result hpc)
  -- what a pc carries that was carried before is as near as it was
  have hkept {pc : ControlPc} (hcarried : ∀ k, carried pc = some k → carried s.pc = some k)
      (ht : ∀ k chargeBattery result, pc ≠ .trimming k chargeBattery result) :
      Near v config.setpointDeltaLimit pc :=
    ⟨fun k hk => h.near.cycle k (hcarried k hk), fun k chargeBattery result hpc =>
      absurd hpc (ht k chargeBattery result)⟩
  have hgate (caller : Caller) (g : GridStatus) (stage stage' : GateStage)
      (hpc : s.pc = .gate caller g stage) :
      Near v config.setpointDeltaLimit (.gate caller g stage') := by
    refine hkept (fun k hk => ?_) fun _ _ _ => ControlPc.noConfusion
    rw [hpc]
    cases caller with
    | second k' => exact hk
    | override => cases hk
    | first generation => cases hk
  generalize (stepControl i s).1.pc = pc at hleads hready htrimming ⊢
  cases hleads with
  | rests => exact near_of_none rfl fun _ _ _ => ControlPc.noConfusion
  | begins generation hpc hcurrent => exact near_of_none rfl fun _ _ _ => ControlPc.noConfusion
  | readsOverride generation hpc => exact near_of_none rfl fun _ _ _ => ControlPc.noConfusion
  | readsFirst generation hpc hoverride => exact near_of_none rfl fun _ _ _ => ControlPc.noConfusion
  | invalid caller g hpc => exact hgate caller g _ _ hpc
  | valid caller g hpc hvalid => exact hgate caller g _ _ hpc
  | triggered caller g hpc => exact hgate caller g _ _ hpc
  | calm caller g hpc hcalm => exact hgate caller g _ _ hpc
  | held caller g stage hpc => exact hgate caller g _ _ hpc
  | answersOverride g stage hpc => exact near_of_none rfl fun _ _ _ => ControlPc.noConfusion
  | answersFirst generation g hpc => exact near_of_none rfl fun _ _ _ => ControlPc.noConfusion
  | answersSecond k g hpc =>
    exact hkept (fun k' hk => by rw [hpc]; exact hk) fun _ _ _ => ControlPc.noConfusion
  | checksOverride hpc => exact near_of_none rfl fun _ _ _ => ControlPc.noConfusion
  | regulates generation sys k chargeBattery result hpc hk => exact hready generation sys hpc
  | decides generation sys k hpc hk => exact hready generation sys hpc
  | trims k chargeBattery result command hpc => exact htrimming k chargeBattery result hpc
  | readsSecond k hpc =>
    exact hkept (fun k' hk => by rw [hpc]; exact hk) fun _ _ _ => ControlPc.noConfusion
  | writes k current command ok hpc => exact near_of_none rfl fun _ _ _ => ControlPc.noConfusion
  | ends k ok hpc => exact near_of_none rfl fun _ _ _ => ControlPc.noConfusion

/-- **One event** in between keeps the baseline on the hardware. -/
theorem Follows.next (h : Follows config v s) (hlimit : 0 ≤ config.setpointDeltaLimit)
    (hinterrupts : ¬ interrupts s e) (hfloor : ¬ floorRaises s e) (hceiling : ¬ ceilingLowers s e)
    (hdry : ∀ k ∈ accepted s e, k.command.1 = v) : Follows config v (Threads.next s e) := by
  have hlimits : (Threads.next s e).controller.powerLimits = s.controller.powerLimits :=
    not_not.mp fun hne => hinterrupts (Or.inr (Or.inr hne))
  refine ⟨next_unclaimed h.unclaimed (Or.inl fun haccepts => hinterrupts (Or.inl haccepts)), ?_,
    trimSound_next h.trim e, h.aligned.next e, hlimits ▸ h.within, ?_⟩
  · cases haccepted : accepted s e with
    | none =>
      exact (next_previous (updateGridLossState_of_unclaimed h.unclaimed) haccepted).trans
        h.previous
    | some k' =>
      obtain ⟨i, k, current, x, rfl, haccepts, rfl⟩ := accepted_eq_some haccepted
      rw [haccepts.next]
      exact hdry _ haccepted
  · by_cases he : ∃ i, e = .control i
    · obtain ⟨i, rfl⟩ := he
      exact h.near_stepControl hlimit hfloor hceiling
    · rcases next_pc (s := s) fun i heq => he ⟨i, heq⟩ with hpc | hpc
      · rw [hpc]
        exact h.near
      · rw [hpc]
        exact near_of_none rfl fun _ _ _ => ControlPc.noConfusion

/-- An automatic write on the hardware carries the guarded command of its cycle. -/
theorem writesAutomatic_cases (h : WritesAutomatic s e v) :
    ∃ i k current x, e = .control i ∧ Accepts s i k current x ∧ k.pendingManual = none ∧ x.1.1 = v ∧
      i.write.env.hardware = .accepted ∧ s.controller.dryRun = false ∧
      s.controller.watchdog.dryRun = false ∧
      ¬ Watchdog.Model.writeBlocked k.generation s.controller.watchdog := by
  obtain ⟨k', hk', hmanual, c, hc, hout, hv⟩ := h
  obtain ⟨i, k, current, x, rfl, haccepts, rfl⟩ := accepted_eq_some hk'
  rw [haccepts.calls] at hc
  obtain ⟨hfree, hdry, hwatchdog, rfl⟩ := Watchdog.Steps.writeControlSetpoint_calls i.write.env hc
  exact ⟨i, k, current, x, rfl, haccepts, hmanual, hv, hout, hdry, hwatchdog, hfree⟩

/-- **After the write** the hardware has the baseline. -/
theorem follows_of_writesAutomatic (h : WritesAutomatic s e v) (hheard : Heard s)
    (htrim : TrimSound s.controller) (haligned : Aligned config s.controller)
    (hwithin : holds s.controller.powerLimits v) :
    Follows config v (Threads.next s e) := by
  obtain ⟨i, k, current, x, rfl, haccepts, hmanual, rfl, hout, hdry, hwatchdog, hfree⟩ :=
    writesAutomatic_cases h
  have hvalid : s.controller.watchdog.telemetryInvalid = false := hheard (by rw [haccepts.pc]; rfl)
  obtain ⟨hoverride, -, -⟩ : s.controller.watchdog.overrideValue = none ∧
      k.generation = s.controller.watchdog.controlGeneration ∧
      s.controller.watchdog.triggered = false := by
    simpa [Watchdog.Model.writeBlocked] using hfree
  obtain ⟨charge, hcore⟩ := attempt_core haccepts.attempted
  have hlimits : x.2.powerLimits = s.controller.powerLimits := congrArg Core.powerLimits hcore
  have hanswer : (answer k i.write x.1.1 s.controller).1.1 =
      Watchdog.Model.markSetpointUpdate i.write.env.after s.controller.watchdog := by
    unfold answer Watchdog.Model.writeControlSetpoint
    rw [if_neg hfree, hdry, hwatchdog, hout]
    rfl
  refine ⟨?_, ?_, trimSound_next htrim _, haligned.next _, ?_, ?_⟩
  · rw [haccepts.next]
    show Baseline.Unclaimed (answer k i.write x.1.1 s.controller).1.1
    rw [hanswer]
    exact ⟨hoverride, by simp [Watchdog.Model.markSetpointUpdate, hvalid]⟩
  · rw [haccepts.next]
    rfl
  · rw [haccepts.next]
    show holds x.2.powerLimits x.1.1
    rw [hlimits]
    exact hwithin
  · rw [haccepts.next]
    exact near_of_none rfl fun _ _ _ => ControlPc.noConfusion

/-- **The next value** on the hardware is near it. -/
theorem Follows.near_write {v' : ℤ} (h : Follows config v s) (hwrites : WritesAutomatic s e v')
    (hfloor : ¬ floorRaises s e)
    (hceiling : ¬ ceilingLowers s e) : |v' - v| ≤ config.setpointDeltaLimit := by
  obtain ⟨i, k, current, x, rfl, haccepts, hmanual, rfl, -⟩ := writesAutomatic_cases hwrites
  simp only [floorRaises, ceilingLowers, haccepts.pc] at hfloor hceiling
  have hcommand := h.near.cycle k (by rw [haccepts.pc]; rfl) hmanual
  have hfloored := not_lt.mp fun hlt => hfloor ⟨hmanual, hlt⟩
  have hlowered := not_lt.mp fun hlt => hceiling ⟨hmanual, hlt⟩
  have hguarded : guardedSetpoint i.write k.command.1 s.controller =
    bounded k.command.1 s.controller := by
    have hev := evGuarded_cases i.write.evPower (bounded k.command.1 s.controller) s.controller
    have hraised : (evGuarded i.write.evPower (bounded k.command.1 s.controller) s.controller).1 =
        bounded k.command.1 s.controller := by
      rcases hev with hsame | ⟨-, hmax⟩
      · exact hsame
      · exact le_antisymm hfloored (hmax ▸ le_max_right _ _)
    rw [hraised] at hlowered
    unfold guardedSetpoint at hlowered ⊢
    rw [hraised] at hlowered ⊢
    split_ifs with htou
    · rw [if_pos htou] at hlowered
      exact le_antisymm (min_le_right _ _) hlowered
    · rfl
  rw [attempt_setpoint haccepts.attempted hmanual, hguarded]
  exact (Logic.Pipeline.abs_clampTo_sub_le h.within.1 h.within.2).trans hcommand

/-- **The slew limit holds on the hardware** between two automatic writes, when DRY mode has accepted no
other value in between. -/
theorem slew_on_hardware (p : Setup) (now : ℚ) (hlimit : 0 ≤ p.config.setpointDeltaLimit)
    {a b : List Event} {x y : Event} {v v' : ℤ} (h : Consecutive (Threads.init p now) a x b y v v')
    (hrepeated : Repeated (Threads.init p now) a x b v) : |v' - v| ≤ p.config.setpointDeltaLimit := by
  have hsecond := h.second
  have hunguarded := h.unguarded
  rw [List.append_cons, exec_append] at hsecond
  simp only [trace_append, List.mem_append] at hunguarded
  have hstart : Follows p.config v (exec Threads.next (Threads.init p now) (a ++ [x])) := by
    rw [exec_snoc]
    exact follows_of_writesAutomatic h.first (heard_exec p now a) (trim_exec p now a)
      (aligned_exec p now a)
      hrepeated.within
  have hend :
    Follows p.config v (exec Threads.next (exec Threads.next (Threads.init p now) (a ++ [x])) b) :=
    exec_invariant hstart fun z hz hfollows =>
      hfollows.next hlimit (h.between z hz) (hunguarded z (Or.inl hz)).1 (hunguarded z (Or.inl hz)).2
        (hrepeated.dry z hz)
  obtain ⟨hfloor, hceiling⟩ :=
    hunguarded ⟨exec Threads.next (exec Threads.next (Threads.init p now) (a ++ [x])) b, y⟩
      (Or.inr (List.mem_singleton.mpr rfl))
  exact hend.near_write hsecond hfloor hceiling

instance (s : System) (a b : List Event) (x y : Event)
    (v v' : ℤ) : Decidable (Consecutive s a x b y v v') :=
  decidable_of_iff (WritesAutomatic (exec Threads.next s a) x v ∧
      WritesAutomatic (exec Threads.next s (a ++ x :: b)) y v' ∧
      (∀ z ∈ trace Threads.next (exec Threads.next s (a ++ [x])) b, ¬ interrupts z.before z.input) ∧
      ∀ z ∈ trace Threads.next (exec Threads.next s (a ++ [x])) (b ++ [y]),
        ¬ floorRaises z.before z.input ∧ ¬ ceilingLowers z.before z.input)
    ⟨fun ⟨h1, h2, h3, h4⟩ => ⟨h1, h2, h3, h4⟩, fun h => ⟨h.first, h.second, h.between, h.unguarded⟩⟩

/-- A quiet cycle, up to the write of the second one. -/
def quietStart : List Event := quietSteps 3 1 0 ++ quietSteps 11 2 0

/-- A cycle that repeats the value in DRY, up to the next write. -/
def repeatedInDry : List Event :=
  .control (quietInputs 2 0) :: .setDryRun true :: quietSteps 13 3 0 ++
  .setDryRun false :: quietSteps 11 4 100

theorem slew_on_hardware_repeated : |(-18 : ℤ) - 0| ≤ plainSetup.config.setpointDeltaLimit :=
  slew_on_hardware plainSetup 0 (by decide) (a := quietStart) (x := .control (quietInputs 2 0))
    (b := repeatedInDry) (y := .control (quietInputs 4 100)) (by decide +kernel)
      ⟨by decide +kernel, by decide +kernel⟩

/-- 3000 W are imported, up to the write of the second cycle. -/
def importing : List Event := quietSteps 3 1 3000 ++ quietSteps 11 2 3000

/-- That write. -/
def firstWrite : Event := .control (quietInputs 2 3000)

/-- A cycle in DRY when 3000 W are exported instead, up to the next write. -/
def movedInDry : List Event :=
  .control (quietInputs 2 3000) :: .setDryRun true :: quietSteps 13 3 (-3000) ++
    .setDryRun false :: quietSteps 11 4 (-3000)

/-- **DRY mode moves the baseline**: -1890 W are followed by 2110 W on the hardware. -/
theorem dry_moves_baseline :
    Consecutive (Threads.init plainSetup 0) importing firstWrite movedInDry
      (.control (quietInputs 4 (-3000)))
      (-1890) 2110 ∧ ¬ |(2110 : ℤ) - -1890| ≤ plainSetup.config.setpointDeltaLimit :=
  ⟨by decide +kernel, by decide⟩

end InverterControl.Controller.Slew
