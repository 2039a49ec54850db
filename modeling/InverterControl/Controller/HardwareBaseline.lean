import InverterControl.Controller.Baseline

/-!
# The baseline is the value on the hardware

Five writers on three threads set the hardware, and each copies its value to `previous_setpoint` at
another place: an accepted write of the control thread at once, an override and a fallback when the
state of a meter loss is updated, a restoration by writing the baseline itself.  `Followed` says
what is left to copy at every point of a run; when a calculation starts without an override and a
triggered watchdog, nothing is.
-/

namespace InverterControl.Controller.HardwareBaseline

open InverterControl.Lib.Runs InverterControl.Python InverterControl.Logic.Model
open InverterControl.Controller.Model InverterControl.Controller.Threads
open InverterControl.Controller.Steps InverterControl.Controller.Baseline
open InverterControl.Backup.Model (GridStatus)
open InverterControl.Watchdog.Model (Env HardwareWatchdog HwCall OverrideArg gridLossFallbackSetpoint)
open InverterControl.Watchdog.Steps (Owner Op.isOwners next_owner setSetpointOverride_cases)
open InverterControl.Watchdog.Hardware

/-- The last value that the hardware has accepted. -/
def onHardware (past : List (Taken System Event)) : Option ℤ :=
  hardwareValue none (past.flatMap fun x => Threads.calls x.before x.input)

/-- The event changes the DRY mode. -/
def isDryToggle : Event → Bool
  | .setDryRun _ => true
  | _ => false

/-- `calculate_setpoint` starts: the gate has passed, and no manual setpoint is pending. -/
def startsCalculation (s : System) : Event → Bool
  | .control _ =>
    match s.pc with
    | .ready _ _ => s.controller.manualSetpoint = none
    | _ => false
  | _ => false

/-- The control thread has seen a watchdog that was not triggered. -/
def seen : ControlPc → Bool
  | .gate (.first _) _ (.update true) => true
  | pc => (passed pc).isSome

theorem seen_of_passed {pc : ControlPc} (h : (passed pc).isSome) : seen pc = true := by
  unfold seen
  split
  · rfl
  · exact h

variable {s : System} {e : Event} {i : Inputs} {v : Option ℤ}

theorem seen_of_stepControl (h : seen (stepControl i s).1.pc = true) :
    (seen s.pc = true ∧ ∀ ev, controlOperation i s = some ev → ev.op ≠ .markDbusInvalid) ∨
      ∃ caller g, s.pc = .gate caller g .readTriggered ∧ s.controller.watchdog.triggered = false := by
  unfold seen at h
  split at h
  · next generation g hpc =>
    rcases first_of_stepControl hpc with ⟨-, -, hstage⟩ | ⟨stage, hbefore, hanswer⟩
    · cases hstage
    · obtain ⟨rfl, htriggered⟩ := hanswer rfl
      exact Or.inr ⟨_, g, hbefore, htriggered⟩
  · obtain ⟨generation, hp⟩ := Option.isSome_iff_exists.mp h
    rcases passed_of_stepControl hp with ⟨hbefore, hop⟩ | ⟨g, hbefore⟩
    · exact Or.inl ⟨seen_of_passed (by rw [hbefore]; rfl), hop⟩
    · refine Or.inl ⟨by rw [hbefore]; rfl, fun ev hev => ?_⟩
      simp [controlOperation, hbefore] at hev

/-! ### The DRY mode -/

theorem next_dryRun (he : isDryToggle e = false) :
    (Threads.next s e).controller.dryRun = s.controller.dryRun := by
  cases e with
  | control i =>
    have hnext : Threads.next s (.control i) = (stepControl i s).1 := rfl
    rw [hnext]
    cases hq : isQuiet s.pc with
    | true =>
      obtain ⟨watchdog, previous, h⟩ := stepControl_quiet (i := i) hq
      exact congrArg Core.dryRun h
    | false =>
      unfold stepControl
      cases hpc : s.pc with
      | ready generation sys =>
        simp only [Threads.calculate, calculateSetpoint]
        split
        · rfl
        · split_ifs <;> rfl
      | writing k current =>
        obtain ⟨watchdog, previous, charge, last, h⟩ := write_core k current i.write s
        exact congrArg Core.dryRun h
      | written k ok =>
        simp only [finish]
        split_ifs <;> rfl
      | _ => rw [hpc] at hq; cases hq
  | abort =>
    simp only [Threads.next, perform, abort]
    cases s.pc <;> rfl
  | mqtt arg requestId env =>
    simp only [Threads.next, perform, stepMqtt]
    cases s.mqtt with
    | idle => rfl
    | clearing => rfl
    | updating =>
      obtain ⟨previous, h⟩ := updateGridLossState_core s.controller
      exact congrArg Core.dryRun h
  | setPowerLimits min max =>
    simp only [Threads.next, perform, stepSetter, setPowerLimits]
    split_ifs <;> rfl
  | selectEssMode =>
    simp only [Threads.next, perform, stepSetter, selectEssMode]
    split_ifs <;> rfl
  | setDryRun enabled => cases he
  | _ => rfl

theorem next_watchdogDryRun (he : isDryToggle e = false) :
    (Threads.next s e).controller.watchdog.dryRun = s.controller.watchdog.dryRun := by
  rw [watchdog_next]
  cases hop : operation s e with
  | none => rfl
  | some ev =>
    by_cases howner : Op.isOwners ev.op = false
    · exact congrArg Owner.dryRun (next_owner howner s.controller.watchdog)
    · cases operates hop with
      | gate i _ hgate =>
        rcases hgate with hgate | hgate | hgate <;> exact absurd (by rw [hgate]; rfl) howner
      | write i k current x _ _ _ hev => exact absurd (by rw [hev]; rfl) howner
      | thread op env _ hev => exact absurd (by rw [hev]; cases op <;> rfl) howner
      | override arg requestId env _ hev =>
        subst hev
        rcases setSetpointOverride_cases (watchdogEnv env s.controller) s.controller.watchdog arg
            requestId with
          heq | ⟨err, rej, req, heq⟩
        · simp only [Steps.operate, Watchdog.Model.perform, heq]
          rfl
        · simp only [Steps.operate, Watchdog.Model.perform, heq]
      | dryRun enabled he' _ => subst he'; cases he

/-! ### What is left to copy -/

/-- The state of a run whose last accepted value is `v`. -/
structure Followed (v : Option ℤ) (s : System) : Prop where
  live : s.controller.dryRun = false ∧ s.controller.watchdog.dryRun = false
  tracks : Tracks s.controller.previousSetpoint v s.controller.watchdog
  /-- The MQTT thread copies its override before it takes up another command. -/
  copied : s.mqtt = .idle → ∀ n, s.controller.watchdog.overrideValue = some n →
    s.controller.previousSetpoint = n
  quiet : seen s.pc = true → Quiet s.controller.watchdog
  settled : (passed s.pc).isSome → s.controller.watchdog.gridLossFallbackApplied = true →
    s.controller.previousSetpoint = gridLossFallbackSetpoint

/-- The state of a meter loss copies what the watchdog claims. -/
theorem updateGridLossState_previous (c : InverterController) :
    (∀ n, c.watchdog.overrideValue = some n → (updateGridLossState c).previousSetpoint = n) ∧
    (c.watchdog.overrideValue = none → c.watchdog.gridLossFallbackApplied = true →
      (updateGridLossState c).previousSetpoint = gridLossFallbackSetpoint) ∧
    (c.watchdog.overrideValue = none → c.watchdog.gridLossFallbackApplied = false →
      (updateGridLossState c).previousSetpoint = c.previousSetpoint) := by
  unfold updateGridLossState
  refine ⟨fun n hn => by simp [hn], fun ho ha => by simp [ho, ha], fun ho ha => by simp [ho, ha]⟩

theorem tracks_updateGridLossState {c : InverterController}
    (h : Tracks c.previousSetpoint v c.watchdog) :
    Tracks (updateGridLossState c).previousSetpoint v c.watchdog := by
  obtain ⟨hoverride, -, hneither⟩ := updateGridLossState_previous c
  refine ⟨h.override, h.fallback, h.latched,
    fun hf => ⟨(h.forced hf).1, (h.forced hf).2.1, fun hg => ?_⟩,
    fun ho hg hf ha n hn => ?_⟩
  · -- a forced zero belongs to no override and to no fallback
    obtain ⟨happlied, hpre⟩ := (h.forced hf).2.2 hg
    cases ho : c.watchdog.overrideValue with
    | none => exact ⟨happlied, hpre.trans (hneither ho happlied).symm⟩
    | some n =>
      obtain ⟨-, -, -, hf', -⟩ := h.override n ho
      exact (Bool.false_ne_true (hf'.symm.trans hf)).elim
  · rw [hneither ho ha]
    exact h.free ho hg hf ha n hn

/-- **One operation of the watchdog**, but for an accepted write of a cycle. -/
theorem Followed.operate (h : Followed v s) (he : isDryToggle e = false) (hno : accepted s e = none) :
    Tracks s.controller.previousSetpoint (hardwareValue v (Threads.calls s e))
      (Threads.next s e).controller.watchdog := by
  have houtcome := perform_outcome s e
  have hwatchdog : (Threads.next s e).controller.watchdog =
      (Steps.operate s.controller.watchdog (operation s e)).1 := congrArg Prod.fst houtcome
  have hcalls : Threads.calls s e = (Steps.operate s.controller.watchdog (operation s e)).2 :=
    congrArg Prod.snd houtcome
  rw [hwatchdog, hcalls]
  cases hop : operation s e with
  | none => exact h.tracks
  | some ev =>
    obtain ⟨op, env⟩ := ev
    have hget (env' : Env) : (watchdogEnv env' s.controller).getSetpoint =
      some s.controller.previousSetpoint := rfl
    cases operates hop with
    | gate i _ hgate =>
      rcases hgate with hgate | hgate | hgate
      · obtain rfl : op = .markDbusInvalid := hgate
        exact h.tracks.markDbusInvalid env
      · obtain rfl : op = .markDbusUpdate := hgate
        exact h.tracks.markDbusUpdate env
      · obtain rfl : op = .checkGridLoss := hgate
        exact h.tracks.checkGridLossLocked env env.now
    | write i k current x he' hpc hx hev =>
      obtain ⟨rfl, rfl⟩ := Watchdog.Model.Event.mk.inj hev
      subst he'
      refine h.tracks.writeControlSetpoint i.write.env fun haccepted => ?_
      -- an accepted write would have ended the cycle
      cases write_cases k current i.write s with
      | notReady c hx' hcore heq => rw [hx] at hx'; cases hx'
      | accepted x' hx' hr heq =>
        have hnext : Threads.next s (.control i) = (write k current i.write s).1 := by
          simp only [Threads.next, perform, stepControl, hpc]
        simp only [accepted, hpc, hnext, heq, goTo_pc] at hno
        cases hno
      | refused x' hx' hr heq =>
        obtain rfl := Option.some.inj (hx.symm.trans hx')
        unfold answer at hr
        rw [haccepted] at hr
        cases hr
      | raised x' hx' hr heq =>
        obtain rfl := Option.some.inj (hx.symm.trans hx')
        unfold answer at hr
        rw [haccepted] at hr
        cases hr
    | thread op' env' _ hev =>
      obtain ⟨rfl, rfl⟩ := Watchdog.Model.Event.mk.inj hev
      cases op' with
      | checkHeartbeat => exact h.tracks.checkHeartbeat _ (hget env')
      | checkGridLoss => exact h.tracks.checkGridLossLocked _ _
    | override arg requestId env' he' hev =>
      obtain ⟨rfl, rfl⟩ := Watchdog.Model.Event.mk.inj hev
      subst he'
      have hidle : s.mqtt = .idle := by
        simp only [operation] at hop
        split_ifs at hop with hidle
        exact hidle
      exact h.tracks.setSetpointOverride _ (h.copied hidle) arg requestId
    | dryRun enabled he' _ => subst he'; cases he

/-- **An accepted write of a cycle.** -/
theorem Followed.accepts (h : Followed v s) (hheard : Heard s) {k : Locals} {current : GridStatus}
    {x : Command × InverterController} (haccepts : Accepts s i k current x) :
    Tracks (Threads.next s (.control i)).controller.previousSetpoint
      (hardwareValue v (Threads.calls s (.control i)))
        (Threads.next s (.control i)).controller.watchdog := by
  have hanswered := haccepts.answered
  rw [haccepts.next, haccepts.calls]
  unfold answer at hanswered
  rw [h.live.1] at hanswered
  show Tracks x.1.1 (hardwareValue v (answer k i.write x.1.1 s.controller).1.2)
    (answer k i.write x.1.1 s.controller).1.1
  unfold answer
  rw [h.live.1]
  exact h.tracks.of_accepted i.write.env h.live.2 (hheard (by rw [haccepts.pc]; rfl)) hanswered

theorem answerGate_mqtt (caller : Caller) (g : GridStatus) (ready : Bool) (c : InverterController)
    (s : System) :
    (answerGate caller g ready c s).mqtt = s.mqtt := by
  cases caller <;> rfl

theorem stepControl_mqtt (i : Inputs) (s : System) : (stepControl i s).1.mqtt = s.mqtt := by
  unfold stepControl
  cases s.pc with
  | begun generation =>
    simp only [readSystem]
    split_ifs <;> rfl
  | gate caller g stage =>
    cases stage with
    | start =>
      simp only [stepGate, startGate, checkSelection]
      split_ifs
      · rfl
      · exact answerGate_mqtt _ _ _ _ _
      · rfl
    | readTriggered =>
      simp only [stepGate]
      split_ifs <;> rfl
    | update ready => exact answerGate_mqtt _ _ _ _ _
    | _ => rfl
  | ready generation sys =>
    simp only [Threads.calculate, calculateSetpoint]
    split
    · rfl
    · split_ifs <;> rfl
  | trimming k chargeBattery result =>
    simp only [applyTrim]
    split <;> rfl
  | calculated k =>
    simp only [readGrid]
    split_ifs <;> rfl
  | writing k current =>
    have hend (y : WriteEnd × InverterController × List HwCall) : (endWrite k s y).1.mqtt = s.mqtt := by
      unfold endWrite
      split <;> rfl
    exact hend _
  | written k ok =>
    simp only [finish]
    split_ifs <;> rfl
  | _ => rfl

/-- Only the MQTT thread moves its program counter. -/
theorem next_mqtt (he : ∀ arg requestId env, e ≠ .mqtt arg requestId env) :
    (Threads.next s e).mqtt = s.mqtt := by
  cases e with
  | control i => exact stepControl_mqtt i s
  | abort =>
    simp only [Threads.next, perform, abort]
    cases s.pc <;> rfl
  | mqtt arg requestId env => exact absurd rfl (he arg requestId env)
  | _ => rfl

/-- An accepted write of a cycle has no override. -/
theorem override_of_accepted {k' : Locals} (h : accepted s e = some k') :
    s.controller.watchdog.overrideValue = none := by
  obtain ⟨i, k, current, x, rfl, haccepts, -⟩ := accepted_eq_some h
  by_contra ho
  exact haccepts.free (Or.inl ho)

/-- Until the MQTT thread takes up another command the override's value has been copied. -/
theorem copied_next (h : s.mqtt = .idle → ∀ n, s.controller.watchdog.overrideValue = some n →
      s.controller.previousSetpoint = n)
    (hmqtt : (Threads.next s e).mqtt = .idle) {n : ℤ}
    (hn : (Threads.next s e).controller.watchdog.overrideValue = some n) :
    (Threads.next s e).controller.previousSetpoint = n := by
  by_cases he : ∃ arg requestId env, e = .mqtt arg requestId env
  · obtain ⟨arg, requestId, env, rfl⟩ := he
    simp only [Threads.next, perform, stepMqtt] at hmqtt hn ⊢
    cases hpc : s.mqtt with
    | idle =>
      -- the command has not been copied yet
      rw [hpc] at hmqtt
      simp only [stepOther, answerMqtt] at hmqtt
      split_ifs at hmqtt
    | clearing =>
      rw [hpc] at hmqtt
      cases hmqtt
    | updating =>
      rw [hpc] at hn
      simp only [updateGridLossState_watchdog] at hn
      exact (updateGridLossState_previous s.controller).1 n hn
  · have he' : ∀ arg requestId env, e ≠ .mqtt arg requestId env := fun arg requestId env heq =>
      he ⟨arg, requestId, env, heq⟩
    rw [next_mqtt he'] at hmqtt
    rw [(next_override he').1] at hn
    cases haccepted : accepted s e with
    | some k' => exact (Option.some_ne_none n (hn.symm.trans (override_of_accepted haccepted))).elim
    | none =>
      rcases next_previous_cases haccepted with hsame | ⟨-, hset⟩
      · exact hsame.trans (h hmqtt n hn)
      · exact hset.trans ((updateGridLossState_previous s.controller).1 n hn)

theorem Followed.quiet_next (h : Followed v s) (hheard : Heard s)
    (hseen : seen (Threads.next s e).pc = true) :
    Quiet (Threads.next s e).controller.watchdog := by
  have hkept (hpc : seen s.pc = true) (hop : ∀ ev, operation s e = some ev → ev.op ≠ .markDbusInvalid) :
      Quiet (Threads.next s e).controller.watchdog := by
    rw [watchdog_next]
    cases hev : operation s e with
    | none => exact h.quiet hpc
    | some ev => exact ((h.quiet hpc).next (hop ev hev)).1
  by_cases he : ∃ i, e = .control i
  · obtain ⟨i, rfl⟩ := he
    rcases seen_of_stepControl hseen with ⟨hpc, hop⟩ | ⟨caller, g, hpc, htriggered⟩
    · exact hkept hpc hop
    · have hwatchdog : (Threads.next s (.control i)).controller.watchdog = s.controller.watchdog := by
        simp only [Threads.next, perform, stepControl, hpc, stepGate, htriggered]
        rfl
      rw [hwatchdog]
      refine ⟨Bool.eq_false_iff.mpr fun hforced => ?_, hheard (by rw [hpc]; rfl)⟩
      exact Bool.false_ne_true (htriggered.symm.trans (h.tracks.latched hforced))
  · have he' : ∀ i, e ≠ .control i := fun i hi => he ⟨i, hi⟩
    rcases next_pc (s := s) he' with hpc | hpc
    · rw [hpc] at hseen
      exact hkept hseen fun ev hev => operation_other he' hev
    · rw [hpc] at hseen
      cases hseen

/-- The fallback that was applied before the first gate answered is the baseline. -/
theorem Followed.settled_next (h : Followed v s) (hp : (passed (Threads.next s e).pc).isSome)
    (ha : (Threads.next s e).controller.watchdog.gridLossFallbackApplied = true) :
    (Threads.next s e).controller.previousSetpoint = gridLossFallbackSetpoint := by
  have hno : accepted s e = none := by
    refine accepted_eq_none fun k hk => ?_
    rw [hk] at hp
    cases hp
  have hunclaimed (happlied : s.controller.watchdog.gridLossFallbackApplied = true) :
      s.controller.watchdog.overrideValue = none := by
    by_contra ho
    obtain ⟨n, hn⟩ := Option.ne_none_iff_exists'.mp ho
    obtain ⟨-, -, happlied', -, -⟩ := h.tracks.override n hn
    exact Bool.false_ne_true (happlied'.symm.trans happlied)
  have hkept (hpc : (passed s.pc).isSome)
      (hop : ∀ ev, operation s e = some ev → ev.op ≠ .markDbusInvalid) :
      (Threads.next s e).controller.previousSetpoint = gridLossFallbackSetpoint := by
    have happlied : s.controller.watchdog.gridLossFallbackApplied = true := by
      rw [watchdog_next] at ha
      cases hev : operation s e with
      | none =>
        rw [hev] at ha
        exact ha
      | some ev =>
        rw [hev] at ha
        exact ((h.quiet (seen_of_passed hpc)).next (hop ev hev)).2 ha
    rcases next_previous_cases hno with hsame | ⟨-, hset⟩
    · exact hsame.trans (h.settled hpc happlied)
    · exact hset.trans ((updateGridLossState_previous s.controller).2.1 (hunclaimed happlied) happlied)
  by_cases he : ∃ i, e = .control i
  · obtain ⟨i, rfl⟩ := he
    obtain ⟨generation, hp'⟩ := Option.isSome_iff_exists.mp hp
    rcases passed_of_stepControl hp' with ⟨hbefore, hop⟩ | ⟨g, hpc⟩
    · exact hkept (by rw [hbefore]; rfl) hop
    · have hstep : (Threads.next s (.control i)).controller = updateGridLossState s.controller := by
        simp only [Threads.next, perform, stepControl, hpc, stepGate, answerGate_controller]
      rw [hstep] at ha ⊢
      rw [updateGridLossState_watchdog] at ha
      exact (updateGridLossState_previous s.controller).2.1 (hunclaimed ha) ha
  · have he' : ∀ i, e ≠ .control i := fun i hi => he ⟨i, hi⟩
    rcases next_pc (s := s) he' with hpc | hpc
    · rw [hpc] at hp
      exact hkept hp fun ev hev => operation_other he' hev
    · rw [hpc] at hp
      cases hp

/-- **One event.** -/
theorem Followed.next (h : Followed v s) (hheard : Heard s) (he : isDryToggle e = false) :
    Followed (hardwareValue v (Threads.calls s e)) (Threads.next s e) := by
  refine ⟨⟨(next_dryRun he).trans h.live.1, (next_watchdogDryRun he).trans h.live.2⟩, ?_,
    fun hmqtt n hn => copied_next h.copied hmqtt hn, h.quiet_next hheard, h.settled_next⟩
  cases haccepted : accepted s e with
  | some k' =>
    obtain ⟨i, k, current, x, rfl, haccepts, -⟩ := accepted_eq_some haccepted
    exact h.accepts hheard haccepts
  | none =>
    have hoperate := h.operate he haccepted
    rcases next_previous_cases haccepted with hsame | ⟨hop, hset⟩
    · rw [hsame]
      exact hoperate
    · have hwatchdog : (Threads.next s e).controller.watchdog = s.controller.watchdog := by
        rw [watchdog_next, hop]
        rfl
      rw [hset, hwatchdog]
      rw [hwatchdog] at hoperate
      have hcalls : hardwareValue v (Threads.calls s e) = v := by
        rw [calls_eq, hop]
        rfl
      rw [hcalls]
      exact tracks_updateGridLossState h.tracks

/-- **Run.** -/
theorem followed_exec (p : Setup) (now : ℚ) (hlive : p.dryRun = false) (es : List Event)
    (hes : ∀ e ∈ es, isDryToggle e = false) :
    Followed (onHardware (trace Threads.next (Threads.init p now) es))
      (exec Threads.next (Threads.init p now) es) := by
  revert hes
  refine history_induction (P := fun is (t : System) => (∀ e ∈ is, isDryToggle e = false) →
    Followed (onHardware (trace Threads.next (Threads.init p now) is)) t)
    (fun _ => ?_) (fun is e ih hes => ?_) es
  · refine ⟨⟨hlive, hlive⟩, ⟨fun n hn => ?_, fun ha => ?_, fun hg => ?_, fun hf => ?_,
      fun _ _ _ _ n hn => ?_⟩, fun _ n hn => ?_, fun hseen => ?_, fun hp => ?_⟩
    · cases hn
    · cases ha
    · cases hg
    · cases hf
    · cases hn
    · cases hn
    · cases hseen
    · cases hp
  · have hbefore := ih fun e' he' => hes e' (List.mem_append_left _ he')
    have hnext := hbefore.next (heard_exec p now is)
      (hes e (List.mem_append_right _ (List.mem_singleton.mpr rfl)))
    have hcalls : onHardware (trace Threads.next (Threads.init p now) (is ++ [e])) =
        hardwareValue (onHardware (trace Threads.next (Threads.init p now) is))
          (Threads.calls (exec Threads.next (Threads.init p now) is) e) := by
      rw [trace_snoc, onHardware, onHardware, List.flatMap_append, hardwareValue_append]
      simp
    rw [hcalls]
    exact hnext

/-! ### A calculation that starts -/

/-- **The control baseline is the hardware's value** whenever a calculation starts in a live run
without an override and with a watchdog that is not triggered. -/
theorem baseline_on_hardware (p : Setup) (now : ℚ) (hlive : p.dryRun = false) (es : List Event)
    (hes : ∀ e ∈ es, isDryToggle e = false) (e : Event)
    (hstarts : startsCalculation (exec Threads.next (Threads.init p now) es) e = true)
    (hoverride : (exec Threads.next (Threads.init p now) es).controller.watchdog.overrideValue = none)
    (htriggered : (exec Threads.next (Threads.init p now) es).controller.watchdog.triggered = false)
    {n : ℤ} (hn : onHardware (trace Threads.next (Threads.init p now) es) = some n) :
    (exec Threads.next (Threads.init p now) es).controller.previousSetpoint = n := by
  have h := followed_exec p now hlive es hes
  have hp : (passed (exec Threads.next (Threads.init p now) es).pc).isSome := by
    unfold startsCalculation at hstarts
    split at hstarts
    · split at hstarts
      · next hpc =>
        rw [hpc]
        rfl
      · cases hstarts
    · cases hstarts
  have hforced : (exec Threads.next (Threads.init p now) es).controller.watchdog.hardwareForced =
    false :=
    Bool.eq_false_iff.mpr fun hf => Bool.false_ne_true (htriggered.symm.trans (h.tracks.forced hf).1)
  have hlatched : (exec Threads.next (Threads.init p now) es).controller.watchdog.gridLossForced =
    false :=
    Bool.eq_false_iff.mpr fun hg => Bool.false_ne_true (htriggered.symm.trans (h.tracks.latched hg))
  cases happlied :
    (exec Threads.next (Threads.init p now) es).controller.watchdog.gridLossFallbackApplied with
  | true =>
    have hfallback := h.tracks.fallback happlied
    rw [hn] at hfallback
    exact (h.settled hp happlied).trans (Option.some.inj hfallback).symm
  | false => exact (h.tracks.free hoverride hlatched hforced happlied n hn).symm

/-- A cycle writes -1890 W and stalls, the failsafe forces zero and restores, and the next cycle
comes to its calculation. -/
def restored : List Event :=
  quietSteps 3 1 3000 ++ quietSteps 13 2 3000 ++ [heartbeat 40, heartbeat 41, heartbeat 42] ++
  quietSteps 6 43 3000 ++
    [heartbeat 44, heartbeat 45] ++ quietSteps 5 46 3000

theorem baseline_on_hardware_restored :
    (trace Threads.next (Threads.init plainSetup 0) restored).flatMap
      (fun x => (Threads.calls x.before x.input).map (·.value)) =
        [-1890, 0, -1890] ∧
      (exec Threads.next (Threads.init plainSetup 0) restored).controller.previousSetpoint = -1890 :=
  ⟨by decide +kernel,
    baseline_on_hardware plainSetup 0 rfl restored (by decide) (.control (quietInputs 46 3000))
    (by decide +kernel) (by decide +kernel) (by decide +kernel) (by decide +kernel)⟩

end InverterControl.Controller.HardwareBaseline
