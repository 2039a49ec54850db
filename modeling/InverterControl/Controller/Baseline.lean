import InverterControl.Controller.Steps
import InverterControl.Watchdog.Hardware
import InverterControl.Watchdog.MeterLoss
import InverterControl.Watchdog.Override

/-!
# The accepted baseline

Who sets `previous_setpoint`: an accepted write of the control thread, and `_update_grid_loss_state`
for an override or an accepted fallback.  Without either (`Unclaimed`) the baseline is the last
accepted write of the control thread, in DRY or not (`next_previous`).  A write is reached on valid
telemetry only (`heard_exec`), so an accepted one ends the claim of an earlier fallback.
-/

namespace InverterControl.Controller.Baseline

open InverterControl.Lib.Runs InverterControl.Python InverterControl.Logic.Model
open InverterControl.Controller.Model InverterControl.Controller.Threads
open InverterControl.Controller.Steps
open InverterControl.Backup.Model (GridStatus)
open InverterControl.Watchdog.Model hiding Event next calls perform init
open InverterControl.Watchdog.Steps
open InverterControl.Watchdog.Hardware (Quiet)
open InverterControl.Watchdog.MeterLoss (checkGridLossLocked_telemetry recoverGridLoss_cases)

/-! ### The watchdog -/

section Watchdog

variable (e : Env) (now : ℚ) {w : HardwareWatchdog}

/-- No override, and no fallback that the hardware accepted. -/
structure Unclaimed (w : HardwareWatchdog) : Prop where
  override : w.overrideValue = none
  fallback : w.gridLossFallbackApplied = false

theorem Unclaimed.of_eq {w' : HardwareWatchdog} (h : Unclaimed w)
    (ho : w'.overrideValue = w.overrideValue)
    (hf : w'.gridLossFallbackApplied = w.gridLossFallbackApplied) : Unclaimed w' :=
  ⟨ho.trans h.override, hf.trans h.fallback⟩

theorem Unclaimed.checkGridLossLocked (h : Unclaimed w)
    (hc : ∀ c ∈ (checkGridLossLocked e now w).2, c.outcome ≠ .accepted) :
    Unclaimed (checkGridLossLocked e now w).1 := by
  rcases checkGridLossLocked_cases e now h.override with heq | ⟨-, hold, -, -, heq⟩
  · rw [heq]
    exact h
  · rw [heq] at hc ⊢
    obtain ⟨a, p, hf, ap, lw, hstate⟩ := maintainGridLossFallback_state e now (latchIfExpired now hold w)
    obtain ⟨hf', p', lw', a', gf, tr, pre, hlatch⟩ := latchIfExpired_state now w hold
    rcases maintainGridLossFallback_applied e now (latchIfExpired now hold w) with
      ⟨-, happlied, -⟩ | ⟨-, -, hcall⟩
    · refine ⟨?_, ?_⟩
      · rw [hstate, hlatch]
        exact h.override
      · rw [happlied, hlatch]
        exact h.fallback
    · exact absurd rfl (hc _ (by rw [hcall]; exact List.mem_singleton.mpr rfl))

theorem Unclaimed.recoverFromFailsafe (h : Unclaimed w) : Unclaimed (recoverFromFailsafe e w).1 := by
  rcases recoverFromFailsafe_cases e w with heq | ⟨heq, -, -⟩
  · rw [heq]
    exact h
  · obtain ⟨gf, since, hf, tr, pre, hstate⟩ := rearm_releaseGridLoss_state w
    rw [heq, hstate]
    exact h.of_eq rfl rfl

theorem Unclaimed.finishFailsafe (h : Unclaimed w) : Unclaimed (finishFailsafe e w) := by
  unfold Watchdog.Model.finishFailsafe
  split_ifs
  · exact ⟨h.override, rfl⟩
  · exact h

theorem Unclaimed.checkHeartbeat (h : Unclaimed w)
    (hc : ∀ c ∈ (checkHeartbeat e w).2, c.outcome ≠ .accepted) : Unclaimed (checkHeartbeat e w).1 := by
  cases hd : w.dryRun
  swap
  · simpa [Watchdog.Model.checkHeartbeat, h.override, hd] using h
  rcases checkHeartbeat_cases e h.override hd with ⟨hg, -, heq⟩ | ⟨-, heq⟩
  · rw [heq]
    obtain ⟨f, n, tr, ⟨hbeat, -⟩ | ⟨-, -, hbeat⟩ | ⟨-, -, hbeat⟩⟩ :=
      finishHeartbeat_cases e e.now h.override hd hg
    · rw [hbeat]
      exact h.of_eq rfl rfl
    · obtain ⟨pre, hsave⟩ :=
        saveSetpoint_state e { w with failCount := f, successCount := n, triggered := tr }
      rw [hbeat, hsave]
      refine Unclaimed.finishFailsafe e ?_
      exact h.of_eq rfl rfl
    · rw [hbeat]
      refine Unclaimed.recoverFromFailsafe e ?_
      exact h.of_eq rfl rfl
  · rw [heq] at hc ⊢
    have hchecked := h.checkGridLossLocked e e.now hc
    rcases recoverGridLoss_cases e e.now
      (Watchdog.Model.checkGridLossLocked e e.now w).1 with hrec | ⟨-, -, hrec⟩
    · rw [hrec]
      exact hchecked.of_eq rfl rfl
    · obtain ⟨gf, since, hf, tr, pre, hstate⟩ :=
        rearm_releaseGridLoss_state
          (countRecovery e.now (Watchdog.Model.checkGridLossLocked e e.now w).1)
      rw [hrec, hstate]
      exact hchecked.of_eq rfl rfl

/-- The normal writer claims nothing. -/
theorem Unclaimed.writeControlSetpoint (h : Unclaimed w) (value : ℤ) (generation : ℕ) (dryRun : Bool) :
    Unclaimed (writeControlSetpoint value generation dryRun e w).1.1 := by
  unfold Watchdog.Model.writeControlSetpoint
  split_ifs
  · exact h
  · exact h
  · split
    · refine ⟨h.override, ?_⟩
      simp [markSetpointUpdate, h.fallback]
    · exact h
    · exact h

/-- **Only an accepted call of the watchdog's own claims the baseline.** -/
theorem Unclaimed.next (h : Unclaimed w) {ev : Watchdog.Model.Event}
    (hc : (∀ c ∈ Watchdog.Model.calls w ev, c.outcome ≠ .accepted) ∨
      ∃ value generation dryRun, ev.op = .writeControlSetpoint value generation dryRun) :
    Unclaimed (Watchdog.Model.next w ev) := by
  obtain ⟨op, env⟩ := ev
  rcases hc with hc | ⟨value, generation, dryRun, rfl⟩
  swap
  · exact h.writeControlSetpoint env value generation dryRun
  cases op with
  | setSetpointOverride arg requestId =>
    simp only [Watchdog.Model.next, Watchdog.Model.perform, Watchdog.Model.calls,
      setSetpointOverride] at hc ⊢
    cases arg with
    | none =>
      rw [if_pos h.override]
      exact h.of_eq rfl rfl
    | other => exact h.of_eq rfl rfl
    | int n =>
      by_cases hn : isInt32 n
      · simp only [if_pos hn] at hc ⊢
        cases hw : env.hardware with
        | accepted =>
          rw [hw] at hc
          exact absurd rfl (hc _ (List.mem_singleton.mpr rfl))
        | rejected => exact h.of_eq rfl rfl
        | raised m => exact h.of_eq rfl rfl
      · simp only [if_neg hn]
        exact h.of_eq rfl rfl
  | rejectSetpointOverride error requestId => exact h.of_eq rfl rfl
  | writeControlSetpoint value generation dryRun =>
    exact h.writeControlSetpoint env value generation dryRun
  | markDbusUpdate => exact (h.checkGridLossLocked env env.now hc).of_eq rfl rfl
  | markDbusInvalid => exact h.of_eq rfl rfl
  | markMqttUpdate => exact h.of_eq rfl rfl
  | markSetpointUpdate =>
    refine ⟨h.override, ?_⟩
    simp [Watchdog.Model.next, Watchdog.Model.perform, markSetpointUpdate, h.fallback]
  | checkGridLoss => exact h.checkGridLossLocked env env.now hc
  | checkHeartbeat => exact h.checkHeartbeat env hc
  | start =>
    simp only [Watchdog.Model.next, Watchdog.Model.perform, start]
    split_ifs
    · exact h
    · exact ⟨h.override, rfl⟩
  | setDryRun enabled => exact h.of_eq rfl rfl

end Watchdog

/-- Only `mark_dbus_invalid` makes the telemetry invalid. -/
theorem telemetryInvalid_of_next {w : HardwareWatchdog} {ev : Watchdog.Model.Event}
    (h : (Watchdog.Model.next w ev).telemetryInvalid = true) :
    w.telemetryInvalid = true ∧ ev.op ≠ .markDbusUpdate ∨ ev.op = .markDbusInvalid := by
  obtain ⟨op, env⟩ := ev
  cases op with
  | setSetpointOverride arg requestId =>
    refine Or.inl ⟨?_, by simp⟩
    rcases setSetpointOverride_cases env w arg requestId with heq | ⟨err, rej, req, heq⟩
    · simpa [Watchdog.Model.next, Watchdog.Model.perform, heq, installOverride] using h
    · simpa [Watchdog.Model.next, Watchdog.Model.perform, heq] using h
  | rejectSetpointOverride error requestId => exact Or.inl ⟨h, by simp⟩
  | writeControlSetpoint value generation dryRun =>
    refine Or.inl ⟨?_, by simp⟩
    simp only [Watchdog.Model.next, Watchdog.Model.perform, writeControlSetpoint] at h
    split_ifs at h
    · exact h
    · exact h
    · split at h <;> exact h
  | markDbusUpdate => cases h
  | markDbusInvalid => exact Or.inr rfl
  | markMqttUpdate => exact Or.inl ⟨h, by simp⟩
  | markSetpointUpdate => exact Or.inl ⟨h, by simp⟩
  | checkGridLoss =>
    have heq := congrArg HardwareWatchdog.telemetryInvalid (checkGridLossLocked_bare env env.now w)
    exact Or.inl ⟨heq ▸ h, by simp⟩
  | checkHeartbeat =>
    have heq := congrArg HardwareWatchdog.telemetryInvalid (checkHeartbeat_bare env w)
    exact Or.inl ⟨heq ▸ h, by simp⟩
  | start =>
    simp only [Watchdog.Model.next, Watchdog.Model.perform, start] at h
    split_ifs at h
    exact Or.inl ⟨h, by simp⟩
  | setDryRun enabled => exact Or.inl ⟨h, by simp⟩

/-! ### Telemetry at the write -/

/-- The control thread is past a valid read of the grid, and up to the next one of its cycle. -/
def heard : ControlPc → Bool
  | .gate _ _ .readTriggered | .gate _ _ .checkTriggered | .gate _ _ (.update true) => true
  | .gate (.second _) _ .start => true
  | .ready .. | .trimming .. | .calculated .. | .writing .. | .written .. => true
  | _ => false

/-- What the control thread has heard is valid. -/
def Heard (s : System) : Prop := heard s.pc = true → s.controller.watchdog.telemetryInvalid = false

variable {s : System} {e : Event}

/-- A step that is not the read of the grid keeps valid telemetry valid. -/
theorem telemetry_next (h : s.controller.watchdog.telemetryInvalid = false)
    (hop : ∀ ev, operation s e = some ev → ev.op ≠ .markDbusInvalid) :
    (Threads.next s e).controller.watchdog.telemetryInvalid = false := by
  have hstep := watchdog_next s e
  rw [hstep]
  cases hev : operation s e with
  | none => exact h
  | some ev =>
    refine Bool.eq_false_iff.mpr fun hinvalid => ?_
    rcases telemetryInvalid_of_next hinvalid with ⟨hbefore, -⟩ | hmark
    · rw [h] at hbefore
      cases hbefore
    · exact hop ev hev hmark

theorem heard_answerGate {caller : Caller} {g : GridStatus} {ready : Bool} {c : InverterController}
    (h : heard (answerGate caller g ready c s).pc = true) : ready = true := by
  cases ready
  · cases caller <;> cases h
  · rfl

/-- The control thread hears nothing new but by a valid read. -/
theorem heard_of_stepControl {i : Inputs} (h : heard (stepControl i s).1.pc = true) :
    (heard s.pc = true ∧ ∀ ev, controlOperation i s = some ev → ev.op ≠ .markDbusInvalid) ∨
      ∃ caller g, s.pc = .gate caller g .start ∧ g.valid = true := by
  have hleads := stepControl_leads i s
  generalize (stepControl i s).1.pc = pc at hleads h
  unfold controlOperation
  cases hleads with
  | rests => cases h
  | begins generation hpc hcurrent => cases h
  | readsOverride generation hpc => cases h
  | readsFirst generation hpc hoverride => cases h
  | invalid caller g hpc => cases h
  | valid caller g hpc hvalid => exact Or.inr ⟨caller, g, hpc, hvalid⟩
  | triggered caller g hpc => exact Or.inl ⟨by rw [hpc]; rfl, by simp [hpc]⟩
  | calm caller g hpc hcalm => exact Or.inl ⟨by rw [hpc]; rfl, by simp [hpc]⟩
  | held caller g stage hpc => cases h
  | answersOverride g stage hpc => cases h
  | answersFirst generation g hpc => exact Or.inl ⟨by rw [hpc]; rfl, by simp [hpc]⟩
  | answersSecond k g hpc => exact Or.inl ⟨by rw [hpc]; rfl, by simp [hpc]⟩
  | checksOverride hpc => cases h
  | regulates generation sys k chargeBattery result hpc hk =>
    exact Or.inl ⟨by rw [hpc]; rfl, by simp [hpc]⟩
  | decides generation sys k hpc hk => exact Or.inl ⟨by rw [hpc]; rfl, by simp [hpc]⟩
  | trims k chargeBattery result command hpc => exact Or.inl ⟨by rw [hpc]; rfl, by simp [hpc]⟩
  | readsSecond k hpc => exact Or.inl ⟨by rw [hpc]; rfl, by simp [hpc]⟩
  | writes k current command ok hpc =>
    refine Or.inl ⟨by rw [hpc]; rfl, fun ev hev => ?_⟩
    simp only [hpc] at hev
    obtain ⟨x, -, rfl⟩ := Option.map_eq_some_iff.mp hev
    simp
  | ends k ok hpc => cases h

theorem Heard.init (p : Setup) (now : ℚ) : Heard (Threads.init p now) := fun h => by cases h

theorem Heard.next (h : Heard s) (e : Event) : Heard (Threads.next s e) := by
  intro hheard
  have hother (hpc : heard s.pc = true)
      (hop : ∀ ev, operation s e = some ev → ev.op ≠ .markDbusInvalid) :
      (Threads.next s e).controller.watchdog.telemetryInvalid = false := telemetry_next (h hpc) hop
  cases e with
  | control i =>
    rcases heard_of_stepControl hheard with ⟨hpc, hop⟩ | ⟨caller, g, hpc, hvalid⟩
    · exact hother hpc hop
    · have hstep := watchdog_next s (.control i)
      simp only [operation, controlOperation, hpc, hvalid, operate] at hstep
      rw [hstep]
      rfl
  | abort =>
    simp only [Threads.next, perform, abort] at hheard
    split at hheard
    · next hidle =>
      rw [hidle] at hheard
      cases hheard
    · cases hheard
  | watchdog op env =>
    exact hother hheard fun ev hev => by cases op <;> cases hev <;> simp [threadOperation]
  | mqtt arg requestId env =>
    refine hother ?_ fun ev hev => ?_
    · simp only [Threads.next, perform, stepMqtt] at hheard
      split at hheard <;> exact hheard
    · simp only [operation] at hev
      split_ifs at hev
      cases hev
      simp
  | setDryRun enabled => exact hother hheard fun ev hev => by cases hev; simp
  | _ => exact hother hheard fun ev hev => by cases hev

/-- **Run.**  A write is reached on valid telemetry only. -/
theorem heard_exec (p : Setup) (now : ℚ) (es : List Event) :
    Heard (exec Threads.next (Threads.init p now) es) :=
  exec_invariant (Heard.init p now) fun x _ hx => hx.next x.input

/-- Only the control thread moves its program counter. -/
theorem next_pc (he : ∀ i, e ≠ .control i) :
    (Threads.next s e).pc = s.pc ∨ (Threads.next s e).pc = .idle := by
  cases e with
  | control i => exact absurd rfl (he i)
  | abort =>
    simp only [Threads.next, perform, abort]
    split
    · exact Or.inl rfl
    · exact Or.inr rfl
  | mqtt arg requestId env =>
    simp only [Threads.next, perform, stepMqtt]
    cases s.mqtt <;> exact Or.inl rfl
  | _ => exact Or.inl rfl

/-! ### Accepted writes -/

/-- The cycle whose write the event has ended with an acceptance, by the hardware or in DRY. -/
def accepted (s : System) (e : Event) : Option Locals :=
  match e, s.pc, (Threads.next s e).pc with
  | .control _, .writing _ _, .written k true => some k
  | _, _, _ => none

/-- An accepted write is answered so by the watchdog. -/
structure Accepts (s : System) (i : Inputs) (k : Locals) (current : GridStatus)
    (x : Command × InverterController) :
    Prop where
  pc : s.pc = .writing k current
  attempted : attempt k current i.write s.controller = some x
  answered : (answer k i.write x.1.1 s.controller).2 = .accepted
  next : Threads.next s (.control i) = goTo (.written (writtenCycle k x) true)
    (acceptControlSetpoint (k.pendingManual = none) i.write k.sys x.1.1
      (Steps.answered k i.write x s.controller)) s
  calls : Threads.calls s (.control i) = (answer k i.write x.1.1 s.controller).1.2

theorem accepted_eq_some {k' : Locals} (h : accepted s e = some k') :
    ∃ i k current x, e = .control i ∧ Accepts s i k current x ∧ k' = writtenCycle k x := by
  unfold accepted at h
  split at h
  case h_1 i k current k'' hpc hnext =>
    have hperform : perform s (.control i) = write k current i.write s := by
      simp only [perform, stepControl, hpc]
    have hstep : Threads.next s (.control i) = (write k current i.write s).1 :=
      congrArg Prod.fst hperform
    have hcalls : Threads.calls s (.control i) = (write k current i.write s).2 :=
      congrArg Prod.snd hperform
    rw [hstep] at hnext
    cases write_cases k current i.write s with
    | notReady c hx hcore heq => rw [heq] at hnext; cases hnext
    | accepted x hx hr heq =>
      rw [heq] at hnext hstep hcalls
      injection hnext with hk
      exact ⟨i, k, current, x, rfl, ⟨hpc, hx, hr, hstep, hcalls⟩, (Option.some.inj h).symm.trans hk.symm⟩
    | refused x hx hr heq => rw [heq] at hnext; injection hnext with _ hok; cases hok
    | raised x hx hr heq => rw [heq] at hnext; cases hnext
  case h_2 => cases h

/-- A write that the watchdog blocks is not accepted. -/
theorem Accepts.free {i : Inputs} {k : Locals} {current : GridStatus} {x : Command × InverterController}
    (h : Accepts s i k current x) : ¬ writeBlocked k.generation s.controller.watchdog := by
  intro hblocked
  have hanswered := h.answered
  unfold answer at hanswered
  rw [writeControlSetpoint_of_blocked i.write.env hblocked] at hanswered
  cases hanswered

/-- Without an override and a fallback nothing sets the baseline. -/
theorem updateGridLossState_of_unclaimed {c : InverterController} (h : Unclaimed c.watchdog) :
    updateGridLossState c = c := by
  simp [updateGridLossState, h.override, h.fallback]

theorem previous_of_core {c c' : InverterController} (h : core c' = core c) :
    c'.previousSetpoint = c.previousSetpoint := congrArg Core.previousSetpoint h

/-- A step of the gate that is not its last one leaves the baseline. -/
theorem stepGate_previous {stage : GateStage} (hstage : ∀ ready, stage ≠ .update ready) (caller : Caller)
    (g : GridStatus) (env : Env) :
    (stepGate caller g stage env s).1.controller.previousSetpoint = s.controller.previousSetpoint := by
  cases stage with
  | start =>
    simp only [stepGate, startGate]
    split_ifs
    · rfl
    · have hcore := checkSelection_core caller g (stepWatchdog markDbusUpdate env s.controller).1 s
      exact (previous_of_core hcore).trans rfl
  | readTriggered =>
    simp only [stepGate]
    split_ifs <;> rfl
  | checkInvalid =>
    have hcore := noteInvalid_core (stepWatchdog checkGridLoss env s.controller).1
    exact (previous_of_core hcore).trans rfl
  | checkTriggered => rfl
  | update ready => exact absurd rfl (hstage ready)

/-- A write that is not accepted leaves the baseline. -/
theorem write_previous (k : Locals) (current : GridStatus) (i : Inputs) (hpc : s.pc = .writing k current)
    (hno : accepted s (.control i) = none) :
    (write k current i.write s).1.controller.previousSetpoint = s.controller.previousSetpoint := by
  cases write_cases k current i.write s with
  | notReady c hx hcore heq =>
    rw [heq]
    exact previous_of_core hcore
  | accepted x hx hr heq =>
    have hnext : Threads.next s (.control i) = (write k current i.write s).1 := by
      simp only [Threads.next, perform, stepControl, hpc]
    simp only [accepted, hpc, hnext, heq, goTo_pc] at hno
    cases hno
  | refused x hx hr heq =>
    obtain ⟨charge, hcore⟩ := attempt_core hx
    rw [heq]
    exact congrArg Core.previousSetpoint hcore
  | raised x hx hr heq =>
    obtain ⟨charge, hcore⟩ := attempt_core hx
    rw [heq]
    exact congrArg Core.previousSetpoint hcore

/-- **The baseline stays**, without an accepted write of the control thread, or the state of a meter
loss sets it. -/
theorem next_previous_cases (hno : accepted s e = none) :
    (Threads.next s e).controller.previousSetpoint = s.controller.previousSetpoint ∨
      (operation s e = none ∧ (Threads.next s e).controller.previousSetpoint =
        (updateGridLossState s.controller).previousSetpoint) := by
  cases e with
  | control i =>
    have hnext : Threads.next s (.control i) = (stepControl i s).1 := rfl
    rw [hnext]
    unfold operation controlOperation stepControl
    cases hpc : s.pc with
    | idle => exact Or.inl (previous_of_core (noteGeneration_core _))
    | begun generation =>
      simp only [readSystem]
      split_ifs <;> exact Or.inl rfl
    | gate caller g stage =>
      cases stage with
      | update ready =>
        refine Or.inr ⟨rfl, ?_⟩
        simp only [stepGate, answerGate_controller]
      | _ => exact Or.inl (stepGate_previous (fun _ => GateStage.noConfusion) caller g i.env)
    | overrideCheck => exact Or.inl rfl
    | overrideUpdate => exact Or.inr ⟨rfl, rfl⟩
    | ready generation sys =>
      simp only [Threads.calculate, calculateSetpoint]
      split
      · exact Or.inl rfl
      · split_ifs <;> exact Or.inl rfl
    | trimming k chargeBattery result =>
      have hcore := applySubmeterTrim_core i.trim k.sys s.controller chargeBattery result
      simp only [applyTrim]
      split
      · next heq =>
        rw [heq] at hcore
        exact Or.inl (previous_of_core hcore)
      · next heq =>
        rw [heq] at hcore
        exact Or.inl (previous_of_core hcore)
    | calculated k =>
      simp only [readGrid]
      split_ifs <;> exact Or.inl rfl
    | writing k current => exact Or.inl (write_previous k current i hpc hno)
    | written k ok =>
      simp only [finish]
      split_ifs <;> exact Or.inl rfl
    | finalUpdate => exact Or.inr ⟨rfl, rfl⟩
  | abort =>
    simp only [Threads.next, perform, abort]
    cases s.pc <;> exact Or.inl rfl
  | mqtt arg requestId env =>
    simp only [Threads.next, perform, stepMqtt, operation]
    cases s.mqtt with
    | idle => exact Or.inl rfl
    | clearing => exact Or.inl rfl
    | updating => exact Or.inr ⟨rfl, rfl⟩
  | setPowerLimits min max =>
    simp only [Threads.next, perform, stepSetter, setPowerLimits]
    split_ifs <;> exact Or.inl rfl
  | selectEssMode =>
    simp only [Threads.next, perform, stepSetter, selectEssMode]
    split_ifs <;> exact Or.inl rfl
  | _ => exact Or.inl rfl

theorem next_previous (h : updateGridLossState s.controller = s.controller) (hno : accepted s e = none) :
    (Threads.next s e).controller.previousSetpoint = s.controller.previousSetpoint := by
  rcases next_previous_cases hno with hsame | ⟨-, hset⟩
  · exact hsame
  · rw [hset, h]

/-- The hardware accepts a value in the event. -/
def hardwareAccepts (s : System) (e : Event) : Prop := ∃ c ∈ Threads.calls s e, c.outcome = .accepted

instance (s : System) (e : Event) : Decidable (hardwareAccepts s e) := by
  unfold hardwareAccepts; infer_instance

/-- **Nothing claims the baseline** without an accepted call, but for the control thread's. -/
theorem next_unclaimed (h : Unclaimed s.controller.watchdog)
    (hno : ¬ hardwareAccepts s e ∨ accepted s e ≠ none) :
    Unclaimed (Threads.next s e).controller.watchdog := by
  have hstep := watchdog_next s e
  rw [hstep]
  cases hev : operation s e with
  | none => exact h
  | some ev =>
    refine h.next ?_
    rcases hno with hno | hsome
    · refine Or.inl fun c hc hout => hno ⟨c, ?_, hout⟩
      rw [calls_eq, hev]
      exact hc
    · obtain ⟨k', hk'⟩ := Option.ne_none_iff_exists'.mp hsome
      obtain ⟨i, k, current, x, rfl, haccepts, -⟩ := accepted_eq_some hk'
      simp only [operation, controlOperation, haccepts.pc, haccepts.attempted, Option.map_some,
        Option.some.injEq] at hev
      exact Or.inr ⟨_, _, _, by rw [← hev]⟩

/-! ### Cycles that nobody interferes with -/

/-- No override and no latch, on valid telemetry. -/
structure Calm (generation : ℕ) (w : HardwareWatchdog) : Prop where
  generation : w.controlGeneration = generation
  override : w.overrideValue = none
  forced : w.gridLossForced = false
  valid : w.telemetryInvalid = false

theorem Calm.quiet {generation : ℕ} {w : HardwareWatchdog} (h : Calm generation w) :
    Quiet w := ⟨h.forced, h.valid⟩

/-- What a step of the watchdog leaves of a calm state: a new generation, or a calm state with no
new fallback. -/
def StaysCalm (generation : ℕ) (w w' : HardwareWatchdog) : Prop :=
  generation < w'.controlGeneration ∨
    (Calm generation w' ∧ (w'.gridLossFallbackApplied = true → w.gridLossFallbackApplied = true))

/-- **One operation** of the system, but for an invalid read. -/
theorem Calm.operate {generation : ℕ} {s : System} (h : Calm generation s.controller.watchdog)
    {e : Event} {ev : Watchdog.Model.Event} (hop : operation s e = some ev)
    (hne : ev.op ≠ .markDbusInvalid) :
    StaysCalm generation s.controller.watchdog (Watchdog.Model.next s.controller.watchdog ev) := by
  obtain ⟨hquiet, happlied⟩ := h.quiet.next hne
  have hsame (hg : (Watchdog.Model.next s.controller.watchdog ev).controlGeneration =
        s.controller.watchdog.controlGeneration)
      (ho : (Watchdog.Model.next s.controller.watchdog ev).overrideValue =
        s.controller.watchdog.overrideValue) :
      StaysCalm generation s.controller.watchdog (Watchdog.Model.next s.controller.watchdog ev) :=
    Or.inr ⟨⟨hg.trans h.generation, ho.trans h.override, hquiet.forced, hquiet.valid⟩, happlied⟩
  by_cases howner : Op.isOwners ev.op = false
  · have hown := next_owner howner s.controller.watchdog
    exact hsame (congrArg Owner.controlGeneration hown) (congrArg Owner.overrideValue hown)
  · obtain ⟨op, env⟩ := ev
    cases operates hop with
    | gate i _ hgate =>
      rcases hgate with hgate | hgate | hgate <;> exact absurd (by rw [hgate]; rfl) howner
    | write i k current x _ _ _ hev => exact absurd (by rw [hev]; rfl) howner
    | thread op' env' _ hev => exact absurd (by rw [hev]; cases op' <;> rfl) howner
    | override arg requestId env' _ hev =>
      obtain ⟨rfl, rfl⟩ := Watchdog.Model.Event.mk.inj hev
      rcases setSetpointOverride_cases (watchdogEnv env' s.controller) s.controller.watchdog arg
          requestId with
        heq | ⟨err, rej, req, heq⟩
      · refine Or.inl ?_
        simp only [Watchdog.Model.next, Watchdog.Model.perform, heq]
        exact h.generation ▸ Nat.lt_succ_self _
      · refine hsame ?_ ?_
        · simp only [Watchdog.Model.next, Watchdog.Model.perform, heq]
        · simp only [Watchdog.Model.next, Watchdog.Model.perform, heq]
    | dryRun enabled _ hev =>
      obtain ⟨rfl, rfl⟩ := Watchdog.Model.Event.mk.inj hev
      exact hsame rfl rfl

/-- The cycle of that generation is obsolete, or nobody has interfered with it: an applied fallback
is the baseline already. -/
def Undisturbed (generation : ℕ) (s : System) : Prop :=
  generation < s.controller.watchdog.controlGeneration ∨
    (Calm generation s.controller.watchdog ∧
      (s.controller.watchdog.gridLossFallbackApplied = true →
        s.controller.previousSetpoint = gridLossFallbackSetpoint))

theorem controlGeneration_le (s : System) (e : Event) :
    s.controller.watchdog.controlGeneration ≤
      (Threads.next s e).controller.watchdog.controlGeneration := by
  have hstep := watchdog_next s e
  rw [hstep]
  cases operation s e with
  | none => exact Nat.le_refl _
  | some ev => exact Watchdog.Override.controlGeneration_mono _ ev

/-- The state of a meter loss repeats an applied fallback. -/
theorem updateGridLossState_of_calm {c : InverterController} (ho : c.watchdog.overrideValue = none)
    (ha : c.watchdog.gridLossFallbackApplied = true → c.previousSetpoint = gridLossFallbackSetpoint) :
    updateGridLossState c = c := by
  unfold updateGridLossState
  rw [ho]
  simp only
  split
  · next happlied => rw [← ha happlied]
  · rfl

/-- What a step does to the baseline of a cycle that nobody interferes with. -/
structure Keeps (generation : ℕ) (s s' : System) : Prop where
  undisturbed : Undisturbed generation s'
  previous : generation < s'.controller.watchdog.controlGeneration ∨
    s'.controller.previousSetpoint = s.controller.previousSetpoint

/-- **One event** keeps an undisturbed cycle so, with its baseline, when it neither reads an invalid
grid nor ends the cycle with an accepted write. -/
theorem Undisturbed.next {generation : ℕ} (h : Undisturbed generation s)
    (hop : ∀ ev, operation s e = some ev → ev.op ≠ .markDbusInvalid) (hno : accepted s e = none) :
    Keeps generation s (Threads.next s e) := by
  rcases h with hlt | ⟨hcalm, hfallback⟩
  · have hlt' := hlt.trans_le (controlGeneration_le s e)
    exact ⟨Or.inl hlt', Or.inl hlt'⟩
  · have hprevious := next_previous (updateGridLossState_of_calm hcalm.override hfallback) hno
    have hstep := watchdog_next s e
    have hstays : StaysCalm generation s.controller.watchdog (Threads.next s e).controller.watchdog := by
      rw [hstep]
      cases hev : operation s e with
      | none => exact Or.inr ⟨hcalm, id⟩
      | some ev => exact hcalm.operate hev (hop ev hev)
    rcases hstays with hlt | ⟨hcalm', happlied⟩
    · exact ⟨Or.inl hlt, Or.inl hlt⟩
    · exact ⟨Or.inr ⟨hcalm', fun ha => hprevious.trans (hfallback (happlied ha))⟩, Or.inr hprevious⟩

/-! ### From the gate to the write -/

/-- The generation of a cycle that is past its first gate, and not held up by its second one. -/
def passed : ControlPc → Option ℕ
  | .ready generation _ => some generation
  | .trimming k _ _ | .calculated k | .writing k _ => some k.generation
  | .gate (.second k) _ .start | .gate (.second k) _ .readTriggered |
    .gate (.second k) _ (.update true) =>
    some k.generation
  | _ => none

/-- The cycle of that generation is obsolete, or there is no override. -/
def Open (generation : ℕ) (w : HardwareWatchdog) : Prop :=
  generation < w.controlGeneration ∨ (w.controlGeneration = generation ∧ w.overrideValue = none)

theorem Open.next {generation : ℕ} (h : Open generation s.controller.watchdog) (e : Event) :
    Open generation (Threads.next s e).controller.watchdog := by
  rcases h with hlt | ⟨hg, ho⟩
  · exact Or.inl (hlt.trans_le (controlGeneration_le s e))
  · by_cases he : ∃ arg requestId env, e = .mqtt arg requestId env
    · obtain ⟨arg, requestId, env, rfl⟩ := he
      simp only [Threads.next, perform, stepMqtt]
      cases s.mqtt with
      | idle =>
        rcases setSetpointOverride_cases (watchdogEnv env s.controller) s.controller.watchdog arg
            requestId with
          heq | ⟨err, rej, req, heq⟩
        · simp only [stepOther, stepWatchdog, heq]
          exact Or.inl (hg ▸ Nat.lt_succ_self _)
        · simp only [stepOther, stepWatchdog, heq]
          exact Or.inr ⟨hg, ho⟩
      | clearing => exact Or.inr ⟨hg, ho⟩
      | updating =>
        simp only [updateGridLossState_watchdog]
        exact Or.inr ⟨hg, ho⟩
    · have hkept := next_override (s := s) (e := e) fun arg requestId env heq =>
        he ⟨arg, requestId, env, heq⟩
      exact Or.inr ⟨hkept.2.trans hg, hkept.1.trans ho⟩

/-- What the first gate has seen of the override, and of the latch when it is about to answer. -/
def GateWatched (generation : ℕ) (stage : GateStage) (w : HardwareWatchdog) : Prop :=
  Open generation w ∧ (stage = .update true → generation < w.controlGeneration ∨ Calm generation w)

/-- What a cycle has seen of the override and the latch. -/
def Watched (s : System) : Prop :=
  match s.pc with
  | .begun generation => generation ≤ s.controller.watchdog.controlGeneration
  | .gate (.first generation) _ stage => GateWatched generation stage s.controller.watchdog
  | pc => ∀ generation, passed pc = some generation → Undisturbed generation s

theorem Watched.undisturbed {generation : ℕ} (h : Watched s) (hp : passed s.pc = some generation) :
    Undisturbed generation s := by
  unfold Watched at h
  split at h
  case h_1 heq => rw [heq] at hp; cases hp
  case h_2 heq => rw [heq] at hp; cases hp
  case h_3 => exact h generation hp

/-- Past the first gate only the passed cycles are watched. -/
theorem watched_of {s' : System} (hbegun : ∀ generation, s'.pc ≠ .begun generation)
    (hgate : ∀ generation g stage, s'.pc ≠ .gate (.first generation) g stage)
    (h : ∀ generation, passed s'.pc = some generation → Undisturbed generation s') : Watched s' := by
  unfold Watched
  split
  case h_1 generation heq => exact absurd heq (hbegun generation)
  case h_2 generation g stage heq => exact absurd heq (hgate generation g stage)
  case h_3 => exact h

theorem watched_of_not_passed {s' : System} (hbegun : ∀ generation, s'.pc ≠ .begun generation)
    (hgate : ∀ generation g stage, s'.pc ≠ .gate (.first generation) g stage) (h : passed s'.pc = none) :
    Watched s' :=
  watched_of hbegun hgate fun generation hp => (Option.some_ne_none generation (hp.symm.trans h)).elim

theorem watched_of_idle {s' : System} (h : s'.pc = .idle) : Watched s' :=
  watched_of_not_passed (fun _ => by rw [h]; exact ControlPc.noConfusion)
    (fun _ _ _ => by rw [h]; exact ControlPc.noConfusion) (by rw [h]; rfl)

theorem Calm.next {generation : ℕ} (h : Calm generation s.controller.watchdog)
    (hop : ∀ ev, operation s e = some ev → ev.op ≠ .markDbusInvalid) :
    StaysCalm generation s.controller.watchdog (Threads.next s e).controller.watchdog := by
  have hstep := watchdog_next s e
  rw [hstep]
  cases hev : operation s e with
  | none => exact Or.inr ⟨h, id⟩
  | some ev => exact h.operate hev (hop ev hev)

theorem GateWatched.next {generation : ℕ} {stage : GateStage}
    (h : GateWatched generation stage s.controller.watchdog)
    (hop : ∀ ev, operation s e = some ev → ev.op ≠ .markDbusInvalid) :
    GateWatched generation stage (Threads.next s e).controller.watchdog := by
  refine ⟨h.1.next e, fun hstage => ?_⟩
  rcases h.2 hstage with hlt | hcalm
  · exact Or.inl (hlt.trans_le (controlGeneration_le s e))
  · exact (hcalm.next hop).imp_right And.left

/-- Another thread does not read the grid. -/
theorem operation_other (he : ∀ i, e ≠ .control i) {ev : Watchdog.Model.Event}
    (hev : operation s e = some ev) :
    ev.op ≠ .markDbusInvalid := by
  cases operates hev with
  | gate i he' => exact absurd he' (he i)
  | write i k current x he' => exact absurd he' (he i)
  | thread op env he' hev' =>
    subst hev'
    cases op <;> exact Watchdog.Model.Op.noConfusion
  | override arg requestId env he' hev' =>
    subst hev'
    exact Watchdog.Model.Op.noConfusion
  | dryRun enabled he' hev' =>
    subst hev'
    exact Watchdog.Model.Op.noConfusion

/-- Another thread accepts no write of a cycle. -/
theorem accepted_other (he : ∀ i, e ≠ .control i) : accepted s e = none := by
  unfold accepted
  split
  · next i _ _ _ _ _ => exact absurd rfl (he i)
  · rfl

/-- Another thread's event. -/
theorem Watched.next_other (h : Watched s) (he : ∀ i, e ≠ .control i) : Watched (Threads.next s e) := by
  have hop : ∀ ev, operation s e = some ev → ev.op ≠ .markDbusInvalid :=
    fun ev hev => operation_other he hev
  have hno : accepted s e = none := accepted_other he
  rcases next_pc (s := s) he with hpc | hpc
  · unfold Watched
    rw [hpc]
    split
    case h_1 generation heq =>
      simp only [Watched, heq] at h
      exact h.trans (controlGeneration_le s e)
    case h_2 generation g stage heq =>
      simp only [Watched, heq] at h
      exact h.next hop
    case h_3 =>
      intro generation hp
      exact ((h.undisturbed hp).next hop hno).undisturbed
  · exact watched_of_idle hpc

/-- A passed cycle was passed before, or has come through its first gate. -/
theorem passed_of_stepControl {i : Inputs} {generation : ℕ}
    (h : passed (stepControl i s).1.pc = some generation) :
    (passed s.pc = some generation ∧ ∀ ev, controlOperation i s = some ev → ev.op ≠ .markDbusInvalid) ∨
      ∃ g, s.pc = .gate (.first generation) g (.update true) := by
  have hleads := stepControl_leads i s
  generalize (stepControl i s).1.pc = pc at hleads h
  unfold controlOperation
  cases hleads with
  | rests => cases h
  | begins generation' hpc hcurrent => cases h
  | readsOverride generation' hpc => cases h
  | readsFirst generation' hpc hoverride => cases h
  | invalid caller g hpc => cases caller <;> cases h
  | valid caller g hpc hvalid =>
    cases caller with
    | second k => exact Or.inl ⟨by rw [hpc]; exact h, by simp [hpc, hvalid]⟩
    | override => cases h
    | first generation' => cases h
  | triggered caller g hpc => cases caller <;> cases h
  | calm caller g hpc hcalm =>
    cases caller with
    | second k => exact Or.inl ⟨by rw [hpc]; exact h, by simp [hpc]⟩
    | override => cases h
    | first generation' => cases h
  | held caller g stage hpc => cases caller <;> cases h
  | answersOverride g stage hpc => cases h
  | answersFirst generation' g hpc =>
    obtain rfl := Option.some.inj h
    exact Or.inr ⟨g, hpc⟩
  | answersSecond k g hpc => exact Or.inl ⟨by rw [hpc]; exact h, by simp [hpc]⟩
  | checksOverride hpc => cases h
  | regulates generation' sys k chargeBattery result hpc hk =>
    subst hk
    exact Or.inl ⟨by rw [hpc]; exact h, by simp [hpc]⟩
  | decides generation' sys k hpc hk =>
    subst hk
    exact Or.inl ⟨by rw [hpc]; exact h, by simp [hpc]⟩
  | trims k chargeBattery result command hpc => exact Or.inl ⟨by rw [hpc]; exact h, by simp [hpc]⟩
  | readsSecond k hpc => exact Or.inl ⟨by rw [hpc]; exact h, by simp [hpc]⟩
  | writes k current command ok hpc => cases h
  | ends k ok hpc => cases h

/-- The first gate lets the cycle pass with the baseline of an applied fallback. -/
theorem GateWatched.ready {generation : ℕ} {g : GridStatus} {i : Inputs}
    (hpc : s.pc = .gate (.first generation) g (.update true))
    (h : GateWatched generation (.update true) s.controller.watchdog) :
    Undisturbed generation (stepControl i s).1 := by
  have hstep : (stepControl i s).1.controller = updateGridLossState s.controller := by
    simp only [stepControl, hpc, stepGate, answerGate_controller]
  have hwatchdog := updateGridLossState_watchdog s.controller
  unfold Undisturbed
  rw [hstep, hwatchdog]
  refine (h.2 rfl).imp_right fun hcalm => ⟨hcalm, fun happlied => ?_⟩
  unfold updateGridLossState
  simp only [hcalm.override, happlied, if_true]

theorem accepted_eq_none {e : Event} (h : ∀ k, (Threads.next s e).pc ≠ .written k true) :
    accepted s e = none := by
  unfold accepted
  split
  · next k _ hnext => exact absurd hnext (h k)
  · rfl

/-- A cycle begins from rest. -/
theorem begun_of_stepControl {i : Inputs} {generation : ℕ}
    (h : (stepControl i s).1.pc = .begun generation) :
    generation = (stepControl i s).1.controller.watchdog.controlGeneration := by
  have hleads := stepControl_leads i s
  rw [h] at hleads
  cases hleads with
  | begins generation' hpc hcurrent => exact hcurrent

/-- The first gate of a cycle is entered without an override, and answers when nothing is triggered. -/
theorem first_of_stepControl {i : Inputs} {generation : ℕ} {g : GridStatus} {stage : GateStage}
    (h : (stepControl i s).1.pc = .gate (.first generation) g stage) :
    (s.pc = .begun generation ∧ s.controller.watchdog.overrideValue = none ∧ stage = .start) ∨
      ∃ stage', s.pc = .gate (.first generation) g stage' ∧
        (stage = .update true → stage' = .readTriggered ∧ s.controller.watchdog.triggered = false) := by
  have hleads := stepControl_leads i s
  rw [h] at hleads
  cases hleads with
  | readsFirst generation' hpc hoverride => exact Or.inl ⟨hpc, hoverride, rfl⟩
  | invalid caller g' hpc => exact Or.inr ⟨.start, hpc, fun hstage => by cases hstage⟩
  | valid caller g' hpc hvalid => exact Or.inr ⟨.start, hpc, fun hstage => by cases hstage⟩
  | triggered caller g' hpc => exact Or.inr ⟨.readTriggered, hpc, fun hstage => by cases hstage⟩
  | calm caller g' hpc hcalm => exact Or.inr ⟨.readTriggered, hpc, fun _ => ⟨rfl, hcalm⟩⟩
  | held caller g' stage' hpc => exact Or.inr ⟨stage', hpc, fun hstage => by cases hstage⟩

/-- **One step of the control thread.** -/
theorem Watched.stepControl (h : Watched s) (hheard : Heard s)
    (hsound : Watchdog.MeterLoss.Sound s.controller.watchdog) (i : Inputs) :
    Watched (Threads.next s (.control i)) := by
  unfold Watched
  split
  case h_1 generation heq => exact (begun_of_stepControl heq).le
  case h_2 generation g stage heq =>
    rcases first_of_stepControl heq with ⟨hpc, hoverride, rfl⟩ | ⟨stage', hpc, hanswer⟩
    · simp only [Watched, hpc] at h
      have hopen : Open generation s.controller.watchdog :=
        h.lt_or_eq.imp_right fun hg => ⟨hg.symm, hoverride⟩
      exact ⟨hopen.next _, fun hstage => by cases hstage⟩
    · simp only [Watched, hpc] at h
      refine ⟨h.1.next _, fun hstage => ?_⟩
      obtain ⟨rfl, htriggered⟩ := hanswer hstage
      have hwatchdog : (Threads.next s (.control i)).controller.watchdog = s.controller.watchdog := by
        simp only [Threads.next, perform, Threads.stepControl, hpc, stepGate, htriggered]
        rfl
      rw [hwatchdog]
      rcases h.1 with hlt | ⟨hg, ho⟩
      · exact Or.inl hlt
      · refine Or.inr ⟨hg, ho, Bool.eq_false_iff.mpr fun hforced => ?_, ?_⟩
        · rw [hsound.triggered_of_forced hforced] at htriggered
          cases htriggered
        · exact hheard (by rw [hpc]; rfl)
  case h_3 =>
    intro generation hp
    rcases passed_of_stepControl hp with ⟨hbefore, hop⟩ | ⟨g, hpc⟩
    · refine ((h.undisturbed hbefore).next (e := .control i) hop (accepted_eq_none fun k hk =>
        ?_)).undisturbed
      rw [hk] at hp
      cases hp
    · simp only [Watched, hpc] at h
      exact h.ready hpc

/-- The watchdog of a run is in one of its own reachable states. -/
theorem sound_exec (p : Setup) (now : ℚ) (es : List Event) :
    Watchdog.MeterLoss.Sound (exec Threads.next (Threads.init p now) es).controller.watchdog := by
  rw [watchdog_exec]
  refine Watchdog.MeterLoss.Sound.exec ?_ _
  exact (Watchdog.MeterLoss.Sound.init p.timeoutSeconds p.dryRun p.gridLossHoldSeconds).next
    ⟨.start, { noEnv with now := now }⟩

/-- **Run.**  From its first gate to its write a cycle is obsolete or undisturbed. -/
theorem watched_exec (p : Setup) (now : ℚ) (es : List Event) :
    Watched (exec Threads.next (Threads.init p now) es) := by
  refine exec_invariant (P := fun t : System => Watched t) (watched_of_idle rfl) fun x hx hwatched => ?_
  obtain ⟨before, -, -, hb⟩ := (mem_trace Threads.next).mp hx
  by_cases he : ∃ i, x.input = .control i
  · obtain ⟨i, hi⟩ := he
    rw [hi]
    refine hwatched.stepControl ?_ ?_ i
    · rw [hb]
      exact heard_exec p now before
    · rw [hb]
      exact sound_exec p now before
  · exact hwatched.next_other fun i hi => he ⟨i, hi⟩

end InverterControl.Controller.Baseline
