import InverterControl.Controller.Steps

/-!
# The limits at the moment of writing

Every hardware call of a run without an operator is within the power limits in force, or has one of
the reasons that the code documents: the failsafe's 0 W, the -10 W of a meter loss, the floor for an
unknown EV, the ceiling of the expensive window.  The one exception is the restoration of the
setpoint that the failsafe saved: it is written as it was saved, and the limits may have changed
since (`writes_within_limits`).
-/

namespace InverterControl.Controller.Limits

open InverterControl.Lib.Runs InverterControl.Python InverterControl.Logic.Model
open InverterControl.Controller.Model InverterControl.Controller.Threads
open InverterControl.Controller.Steps
open InverterControl.Backup.Model (BackupStatus GridStatus)
open InverterControl.Watchdog.Model hiding Event next calls perform init
open InverterControl.Watchdog.Steps

/-! ### The restoration of a saved setpoint -/

/-- The heartbeat restores the setpoint that the generic failsafe saved. -/
def restoreDue (e : Env) (w : HardwareWatchdog) : Prop :=
  w.overrideValue = none ∧ w.dryRun = false ∧ w.gridLossForced = false ∧
    w.telemetryInvalid = false ∧ w.triggered = true ∧ w.hardwareForced = true ∧ ¬ stale e.now w ∧
    w.successThreshold ≤ w.successCount + 1

instance (e : Env) (w : HardwareWatchdog) : Decidable (restoreDue e w) := by
  unfold restoreDue; infer_instance

section Heartbeat

variable (e : Env) {w : HardwareWatchdog}

theorem countHeartbeat_of_fresh (hs : ¬ stale e.now w) (ht : w.telemetryInvalid = false) :
    countHeartbeat e.now w = { w with successCount := w.successCount + 1, failCount := 0 } := by
  simp [countHeartbeat, hs, ht]

/-- Only fresh and valid telemetry counts as a success. -/
theorem fresh_of_successCount (h : 0 < (countHeartbeat e.now w).successCount) :
    ¬ stale e.now w ∧ w.telemetryInvalid = false := by
  unfold countHeartbeat at h
  split_ifs at h with hs ht
  · exact absurd h (lt_irrefl 0)
  · exact absurd h (lt_irrefl 0)
  · exact ⟨hs, by simpa using ht⟩

/-- A restoration writes what was saved, and only that. -/
theorem checkHeartbeat_of_restoreDue (h : restoreDue e w) (hfail : 0 < w.failThreshold) :
    (checkHeartbeat e w).2 = [⟨w.preForcedSetpoint, e.hardware,
      { w with successCount := w.successCount + 1, failCount := 0 }⟩] := by
  obtain ⟨ho, hd, hg, ht, htr, hf, hs, hcount⟩ := h
  rcases checkHeartbeat_cases e ho hd with ⟨-, -, hbeat⟩ | ⟨hlatched, -⟩
  · rw [hbeat, finishHeartbeat, if_neg (by simp [hg]), countHeartbeat_of_fresh e hs ht,
      actOnHeartbeat]
    simp only
    rw [if_neg (by omega), if_pos ⟨hcount, htr⟩]
    simp [recoverFromFailsafe, releaseGridLoss, ho, ht, hg, hf]
  · exfalso
    rcases checkGridLossLocked_cases e e.now ho with h | ⟨-, hold, -, hl, -⟩
    · rw [h, hg] at hlatched
      cases hlatched
    · rcases (latchIfExpired_forced e.now w hold).mp hl with hl | hl
      · rw [hg] at hl
        cases hl
      · rw [hl.1] at ht
        cases ht

/-- **The calls of a heartbeat**: the fallback, the failsafe's zero, or a restoration. -/
theorem checkHeartbeat_calls (ho : w.overrideValue = none) (hsuccess : 0 < w.successThreshold)
    {c : HwCall} (hc : c ∈ (checkHeartbeat e w).2) :
    (c.watchdog.gridLossForced = true ∧ c.value = gridLossFallbackSetpoint) ∨
    (c.watchdog.hardwareForced = false ∧ c.value = 0) ∨
    (restoreDue e w ∧ c.value = w.preForcedSetpoint) := by
  cases hd : w.dryRun
  swap
  · simp [checkHeartbeat, ho, hd] at hc
  rcases checkHeartbeat_cases e ho hd with ⟨hg, -, hbeat⟩ | ⟨-, hbeat⟩
  · rw [hbeat, finishHeartbeat, if_neg (by simp [hg])] at hc
    obtain ⟨f, n, hcount⟩ := countHeartbeat_state e.now w
    unfold actOnHeartbeat at hc
    split_ifs at hc with hfail hforced hrec
    · cases hc
    · rw [hcount] at hforced hc
      rw [applyFailsafe_live e (w := trigger { w with failCount := f, successCount := n }) ho hd hg]
        at hc
      obtain rfl := List.mem_singleton.mp hc
      obtain ⟨pre, hsave⟩ := saveSetpoint_state e
        (trigger { w with failCount := f, successCount := n })
      refine Or.inr (Or.inl ⟨?_, rfl⟩)
      rw [hsave]
      simpa [trigger] using hforced
    · obtain ⟨hs, ht⟩ := fresh_of_successCount e (lt_of_lt_of_le (by rw [hcount]; exact hsuccess) hrec.1)
      rw [countHeartbeat_of_fresh e hs ht] at hrec hc
      obtain ⟨rfl, -, -, hf, -⟩ := recoverFromFailsafe_calls e _ hc
      exact Or.inr (Or.inr ⟨⟨ho, hd, hg, ht, hrec.2, hf, hs, hrec.1⟩, rfl⟩)
    · cases hc
  · rw [hbeat] at hc
    rcases checkGridLossLocked_cases e e.now ho with h | ⟨-, hold, -, hf, h⟩
    · rw [h] at hc
      cases hc
    · rw [h] at hc
      obtain rfl := maintainGridLossFallback_calls e e.now _ hc
      exact Or.inl ⟨hf, rfl⟩

end Heartbeat

/-! ### What may be written -/

/-- A value is within the limits. -/
def holds (l : PowerLimits) (value : ℤ) : Prop := l.min ≤ value ∧ value ≤ l.max

instance (l : PowerLimits) (value : ℤ) : Decidable (holds l value) := by
  unfold holds; infer_instance

theorem holds_bounded (setpoint : ℤ) (c : InverterController) :
    holds c.powerLimits (bounded setpoint c) :=
  ⟨le_max_left _ _, max_le c.powerLimits.ordered (min_le_left _ _)⟩

/-- The floor for an unknown EV applies at the write. -/
def floorApplies (w : WriteReadings) (c : InverterController) : Bool :=
  evFloor c.controlFlags.doNotSupplyCharger (validEvSitePower w.evPower) c.controlFlags.onlyCharging
    c.controlFlags.noFeed

/-- A hardware call is within the limits in force, or has a documented reason not to be. -/
inductive Lawful (s : System) (e : Event) (c : HwCall) : Prop
  | limits (h : holds s.controller.powerLimits c.value)
  /-- The generic failsafe: a heartbeat whose zero is not yet in place. -/
  | failsafe (env : Env) (he : e = .watchdog .checkHeartbeat env)
      (hf : c.watchdog.hardwareForced = false) (hv : c.value = 0)
  /-- The fallback of a meter loss. -/
  | fallback (hg : c.watchdog.gridLossForced = true) (hv : c.value = gridLossFallbackSetpoint)
  /-- The floor for an unknown EV, over a value within the limits. -/
  | evFloor (i : Inputs) (k : Locals) (current : GridStatus) (he : e = .control i)
      (hpc : s.pc = .writing k current) (hfloor : floorApplies i.write s.controller = true)
      (hv : c.value = max 0 (bounded k.command.1 s.controller))
  /-- The ceiling of the expensive window, over what the floor left. -/
  | touCeiling (i : Inputs) (k : Locals) (current : GridStatus) (he : e = .control i)
      (hpc : s.pc = .writing k current) (htou : touCeiling i.write.tou s.controller = true)
      (hv : c.value = min 0 (evGuarded i.write.evPower (bounded k.command.1 s.controller)
        s.controller).1)

/-- A heartbeat restores a setpoint outside the limits in force. -/
def restoresOutside (s : System) : Event → Prop
  | .watchdog .checkHeartbeat env =>
    restoreDue (watchdogEnv env s.controller) s.controller.watchdog ∧
      ¬ holds s.controller.powerLimits s.controller.watchdog.preForcedSetpoint
  | _ => False

instance (s : System) (e : Event) : Decidable (restoresOutside s e) := by
  unfold restoresOutside
  split <;> infer_instance

theorem evGuarded_cases (evPower : PyValue) (setpoint : ℤ) (c : InverterController) :
    (evGuarded evPower setpoint c).1 = setpoint ∨
    (evFloor c.controlFlags.doNotSupplyCharger (validEvSitePower evPower)
        c.controlFlags.onlyCharging c.controlFlags.noFeed = true ∧
      (evGuarded evPower setpoint c).1 = max 0 setpoint) := by
  unfold evGuarded guardUnknownEvPower
  split
  · exact Or.inl rfl
  · split
    · exact Or.inl rfl
    · next hfloor => exact Or.inr ⟨by simpa using hfloor, rfl⟩

/-- The value of an automatic write is within the limits, or has its reason. -/
theorem lawful_write {s : System} {i : Inputs} {k : Locals} {current : GridStatus} {c : HwCall}
    (hpc : s.pc = .writing k current)
    (hv : c.value = guardedSetpoint i.write k.command.1 s.controller) :
    Lawful s (.control i) c := by
  unfold guardedSetpoint at hv
  split_ifs at hv with htou
  · exact .touCeiling i k current rfl hpc htou hv
  · rcases evGuarded_cases i.write.evPower (bounded k.command.1 s.controller) s.controller with
      h | ⟨hfloor, h⟩
    · refine .limits ?_
      rw [hv, h]
      exact holds_bounded _ _
    · exact .evFloor i k current rfl hpc hfloor (hv.trans h)

/-! ### Runs without an operator -/

/-- The events of an operator: the override and the manual setpoint. -/
def isOperators : Event → Bool
  | .mqtt .. | .setManualSetpoint _ => true
  | _ => false

/-- No operator has been there. -/
structure Unattended (s : System) : Prop where
  manual : s.controller.manualSetpoint = none
  override : s.controller.watchdog.overrideValue = none
  cycle : ∀ k, cycleOf s.pc = some k → k.pendingManual = none

variable {s : System} {e : Event}

theorem calculate_pendingManual {generation : ℕ} {sys : GridStatus} {r : Readings} {k : Locals}
    (hs : s.controller.manualSetpoint = none)
    (hk : cycleOf (Threads.calculate generation sys r s).pc = some k) : k.pendingManual = none := by
  simp only [Threads.calculate, hs, calculateSetpoint] at hk
  split_ifs at hk
  · obtain rfl := Option.some.inj hk
    rfl
  · obtain rfl := Option.some.inj hk
    rfl

theorem manual_next (h : s.controller.manualSetpoint = none) (he : isOperators e = false) :
    (Threads.next s e).controller.manualSetpoint = none := by
  cases e with
  | control i =>
    rcases stepControl_manual i s with h' | ⟨h', -⟩
    · exact h'.trans h
    · exact h'
  | abort =>
    simp only [Threads.next, perform, abort]
    cases s.pc <;> exact h
  | watchdog op env => exact h
  | setControlFlag key value => exact h
  | setPowerLimits min max =>
    simp only [Threads.next, perform, stepSetter, setPowerLimits]
    split_ifs <;> exact h
  | setDryRun enabled => exact h
  | acceptPrecharge expiresAt => exact h
  | selectEssMode =>
    simp only [Threads.next, perform, stepSetter, selectEssMode]
    split_ifs <;> exact h
  | mqtt arg requestId env => cases he
  | setManualSetpoint value => cases he

theorem Unattended.next (h : Unattended s) (he : isOperators e = false) :
    Unattended (Threads.next s e) := by
  have hover : ∀ arg requestId env, e ≠ .mqtt arg requestId env := by
    rintro arg requestId env rfl
    cases he
  refine ⟨manual_next h.manual he, (next_override hover).1.trans h.override, ?_⟩
  intro k hk
  cases e with
  | control i =>
    rcases stepControl_cycle hk with ⟨k', command, hk', rfl⟩ | ⟨generation, sys, -, hcalc⟩
    · exact h.cycle k' hk'
    · exact calculate_pendingManual h.manual hcalc
  | abort => exact h.cycle k (abort_cycle hk)
  | mqtt arg requestId env => cases he
  | _ => exact h.cycle k hk

theorem Unattended.init (p : Setup) (now : ℚ) : Unattended (Threads.init p now) :=
  ⟨rfl, rfl, fun _ hk => nomatch hk⟩

/-- The thresholds are those of `__init__`. -/
theorem thresholds_run (p : Setup) (now : ℚ) (es : List Event) :
    thresholds (exec Threads.next (Threads.init p now) es).controller.watchdog =
      ⟨p.gridLossHoldSeconds, 2, 3⟩ := by
  rw [watchdog_exec, exec_thresholds]
  exact start_thresholds now _

/-! ### The law -/

/-- A heartbeat's calls. -/
theorem lawful_heartbeat (hs : Unattended s)
    (hsuccess : 0 < s.controller.watchdog.successThreshold) (env : Env)
    (hout : ¬ restoresOutside s (.watchdog .checkHeartbeat env)) {c : HwCall}
    (hc : c ∈ (checkHeartbeat (watchdogEnv env s.controller) s.controller.watchdog).2) :
    Lawful s (.watchdog .checkHeartbeat env) c := by
  rcases checkHeartbeat_calls _ hs.override hsuccess hc with ⟨hg, hv⟩ | ⟨hf, hv⟩ | ⟨hdue, hv⟩
  · exact .fallback hg hv
  · exact .failsafe env rfl hf hv
  · refine .limits ?_
    rw [hv]
    by_contra hrange
    exact hout ⟨hdue, hrange⟩

/-- A check of the deadline only maintains the fallback. -/
theorem lawful_check (hs : Unattended s) {ev : Watchdog.Model.Event}
    (hop : ev.op = .markDbusInvalid ∨ ev.op = .markDbusUpdate ∨ ev.op = .checkGridLoss)
    {c : HwCall} (hc : c ∈ Watchdog.Model.calls s.controller.watchdog ev) : Lawful s e c := by
  cases calls_madeBy hc with
  | refresh hv hg hown =>
    rw [hs.override] at hv
    cases hv
  | fallback ho hd hv hg hown => exact .fallback hg hv
  | manual requestId h hw => rw [h] at hop; simp at hop
  | normal generation h hfree hd hw => rw [h] at hop; simp at hop
  | failsafe h ho hd hlive hv hg hown => rw [h] at hop; simp at hop
  | restore h ho hd hlive hv htr hf hg hown => rw [h] at hop; simp at hop

/-- **One step**: every call is lawful, but for a restoration outside the limits. -/
theorem lawful_step (hs : Unattended s) (hsuccess : 0 < s.controller.watchdog.successThreshold)
    (he : isOperators e = false) (hout : ¬ restoresOutside s e) {c : HwCall}
    (hc : c ∈ Threads.calls s e) : Lawful s e c := by
  obtain ⟨ev, hop, hcall⟩ := mem_calls hc
  cases operates hop with
  | gate i _ hgate => exact lawful_check hs hgate hcall
  | write i k current x he hpc hx hev =>
    subst hev he
    obtain ⟨-, -, -, rfl⟩ := writeControlSetpoint_calls _ hcall
    refine lawful_write hpc (attempt_setpoint hx (hs.cycle k ?_))
    rw [hpc]
    rfl
  | thread op env he hev =>
    subst hev he
    cases op with
    | checkHeartbeat => exact lawful_heartbeat hs hsuccess env hout hcall
    | checkGridLoss => exact lawful_check hs (Or.inr (Or.inr rfl)) hcall
  | override arg requestId env h hev =>
    subst h
    cases he
  | dryRun enabled h hev =>
    subst hev
    cases hcall

/-- A restoration outside the limits has no reason. -/
theorem unlawful_of_restoresOutside (hfail : 0 < s.controller.watchdog.failThreshold)
    (hout : restoresOutside s e) : ∃ c ∈ Threads.calls s e,
      c.value = s.controller.watchdog.preForcedSetpoint ∧ ¬ Lawful s e c := by
  unfold restoresOutside at hout
  split at hout
  · next env =>
    obtain ⟨hdue, hrange⟩ := hout
    have hcalls : Threads.calls s (.watchdog .checkHeartbeat env) =
        [⟨s.controller.watchdog.preForcedSetpoint, env.hardware, { s.controller.watchdog with
          successCount := s.controller.watchdog.successCount + 1, failCount := 0 }⟩] :=
      checkHeartbeat_of_restoreDue (watchdogEnv env s.controller) hdue hfail
    obtain ⟨-, -, hg, -, -, hf, -, -⟩ := hdue
    refine ⟨_, by rw [hcalls]; exact List.mem_singleton.mpr rfl, rfl, fun h => ?_⟩
    cases h with
    | limits h => exact hrange h
    | failsafe env' he hf' hv =>
      rw [show s.controller.watchdog.hardwareForced = false from hf'] at hf
      cases hf
    | fallback hg' hv =>
      rw [show s.controller.watchdog.gridLossForced = true from hg'] at hg
      cases hg
    | evFloor i k current he hpc hfloor hv => cases he
    | touCeiling i k current he hpc htou hv => cases he
  · exact hout.elim

/-- **The limits at the moment of writing.**  In a run without an operator every hardware call respects
the limits in force, or has its documented reason, exactly when no heartbeat restores a saved setpoint
that is outside the limits by then. -/
theorem writes_within_limits (p : Setup) (now : ℚ) (es : List Event)
    (hes : ∀ e ∈ es, isOperators e = false) :
    (∀ x ∈ trace Threads.next (Threads.init p now) es, ∀ c ∈ Threads.calls x.before x.input,
      Lawful x.before x.input c) ↔
    ∀ x ∈ trace Threads.next (Threads.init p now) es, ¬ restoresOutside x.before x.input := by
  have hinput : ∀ x ∈ trace Threads.next (Threads.init p now) es, isOperators x.input = false := by
    intro x hx
    obtain ⟨a, b, rfl, -⟩ := (mem_trace Threads.next).mp hx
    exact hes x.input (by simp)
  have hthresholds : ∀ x ∈ trace Threads.next (Threads.init p now) es,
      thresholds x.before.controller.watchdog = ⟨p.gridLossHoldSeconds, 2, 3⟩ := by
    intro x hx
    obtain ⟨a, b, rfl, hb⟩ := (mem_trace Threads.next).mp hx
    rw [hb]
    exact thresholds_run p now a
  constructor
  · intro hlaw x hx hout
    have hfail : x.before.controller.watchdog.failThreshold = 3 :=
      congrArg Thresholds.failThreshold (hthresholds x hx)
    obtain ⟨c, hc, -, hnot⟩ := unlawful_of_restoresOutside (by rw [hfail]; decide) hout
    exact hnot (hlaw x hx c hc)
  · intro hout x hx c hc
    have hsuccess : x.before.controller.watchdog.successThreshold = 2 :=
      congrArg Thresholds.successThreshold (hthresholds x hx)
    have hs : Unattended x.before := trace_invariant (Unattended.init p now)
      (fun y hy h => h.next (hinput y hy)) x hx
    exact lawful_step hs (by rw [hsuccess]; decide) (hinput x hx) (hout x hx) hc

/-- A forced charge of 1980 W is accepted, the control thread stalls, and the failsafe writes its
zero. -/
def stalledCharge : List Event :=
  .setControlFlag .chargeBattery true :: quietSteps 3 1 0 ++ quietSteps 13 2 0 ++
    [heartbeat 40, heartbeat 41, heartbeat 42]

/-- The control thread returns, and the watchdog restores. -/
def returned : List Event := quietSteps 3 43 0 ++ [heartbeat 44, heartbeat 45]

theorem writes_within_limits_stalled :
    (∀ e ∈ stalledCharge ++ returned, isOperators e = false) ∧
      ∀ x ∈ trace Threads.next (Threads.init plainSetup 0) (stalledCharge ++ returned),
        ∀ c ∈ Threads.calls x.before x.input, Lawful x.before x.input c :=
  ⟨by decide, (writes_within_limits plainSetup 0 (stalledCharge ++ returned) (by decide)).mpr
    (by decide +kernel)⟩

/-- The state before the last heartbeat of `returned`, when the upper limit was lowered to 500 W
during the stall. -/
def loweredLimit : System :=
  exec Threads.next (Threads.init plainSetup 0)
    (stalledCharge ++ .setPowerLimits (-2300) 500 :: quietSteps 3 43 0 ++ [heartbeat 44])

/-- 1980 W are written under a limit of 500 W. -/
theorem restores_above_limit :
    (∀ e ∈ stalledCharge ++ .setPowerLimits (-2300) 500 :: returned, isOperators e = false) ∧
    loweredLimit.controller.powerLimits.max = 500 ∧
    ∃ c ∈ Threads.calls loweredLimit (heartbeat 45), c.value = 1980 ∧
      ¬ Lawful loweredLimit (heartbeat 45) c := by
  refine ⟨by decide, by decide +kernel, ?_⟩
  obtain ⟨c, hc, hv, hnot⟩ := unlawful_of_restoresOutside (s := loweredLimit)
    (e := heartbeat 45) (by decide +kernel) (by decide +kernel)
  exact ⟨c, hc, hv.trans (by decide +kernel), hnot⟩

end InverterControl.Controller.Limits
