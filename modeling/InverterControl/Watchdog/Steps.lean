import InverterControl.Watchdog.Model

/-!
# What one step of the watchdog can do

One lemma for each function of `Model`: the fields it may change (`…_state`) and the hardware calls
it may make (`…_calls`).  Put together, `calls_madeBy` names the writer behind every hardware call of
every entry point, with what entitled it to write.
-/

namespace InverterControl.Watchdog.Steps

open InverterControl.Lib.Runs InverterControl.Watchdog.Model

variable (e : Env) (now : ℚ) (w : HardwareWatchdog)

/-! ### The override's refresh -/

theorem finishRefresh_state : ∃ f m lw u, finishRefresh e w =
    { w with overrideRefreshFailed := f, overrideError := m, overrideLastWrite := lw,
             lastSetpointUpdate := u } := by
  unfold finishRefresh
  split_ifs
  · exact ⟨_, _, _, _, rfl⟩
  · exact ⟨_, _, _, _, rfl⟩

theorem maintainOverride_state : ∃ a f m lw u, (maintainOverride e now w).1 =
    { w with overrideLastAttempt := a, overrideRefreshFailed := f, overrideError := m,
             overrideLastWrite := lw, lastSetpointUpdate := u } := by
  unfold maintainOverride
  split
  · exact ⟨_, _, _, _, _, rfl⟩
  · split_ifs
    · exact ⟨_, _, _, _, _, rfl⟩
    · obtain ⟨f, m, lw, u, h⟩ := finishRefresh_state e (noteRefreshAttempt now w)
      exact ⟨_, f, m, lw, u, h⟩

theorem maintainOverride_calls {c : HwCall} (hc : c ∈ (maintainOverride e now w).2) :
    w.overrideValue = some c.value ∧ c.outcome = e.hardware ∧
      c.watchdog = noteRefreshAttempt now w := by
  unfold maintainOverride at hc
  split at hc
  · simp at hc
  · next v hv =>
    split_ifs at hc
    · simp at hc
    · obtain rfl := List.mem_singleton.mp hc
      exact ⟨hv, rfl, rfl⟩

/-- An operator's command fails, changes nothing but its message, or takes effect. -/
theorem setSetpointOverride_cases (arg : OverrideArg) (requestId : Option String) :
    (setSetpointOverride arg requestId e w).1 = installOverride e.after (match arg with
      | .int n => some n
      | _ => none) requestId w ∨
    ∃ err rej req, (setSetpointOverride arg requestId e w).1 =
      { w with overrideError := err, overrideRejectionError := rej, overrideRequestId := req } := by
  unfold setSetpointOverride
  split
  · exact Or.inr ⟨_, _, _, rfl⟩
  · split_ifs
    · exact Or.inr ⟨_, _, _, rfl⟩
    · exact Or.inl rfl
  · split_ifs
    · split
      · exact Or.inl rfl
      · exact Or.inr ⟨_, _, _, rfl⟩
      · exact Or.inr ⟨_, _, _, rfl⟩
    · exact Or.inr ⟨_, _, _, rfl⟩

/-! ### The meter-loss fallback -/

theorem finishFallback_state : ∃ p hf ap lw, finishFallback e w =
    { w with gridLossRefreshPending := p, hardwareForced := hf, gridLossFallbackApplied := ap,
             lastGridLossWrite := lw } := by
  unfold finishFallback
  split_ifs
  · exact ⟨_, _, _, _, rfl⟩
  · exact ⟨_, _, _, _, rfl⟩

theorem maintainGridLossFallback_state : ∃ a p hf ap lw, (maintainGridLossFallback e now w).1 =
    { w with lastGridLossAttempt := a, gridLossRefreshPending := p, hardwareForced := hf,
             gridLossFallbackApplied := ap, lastGridLossWrite := lw } := by
  unfold maintainGridLossFallback
  split_ifs
  · exact ⟨_, _, _, _, _, rfl⟩
  · obtain ⟨p, hf, ap, lw, h⟩ := finishFallback_state e (noteFallbackAttempt now w)
    exact ⟨_, p, hf, ap, lw, h⟩

theorem maintainGridLossFallback_calls {c : HwCall}
    (hc : c ∈ (maintainGridLossFallback e now w).2) :
    c = ⟨gridLossFallbackSetpoint, e.hardware, noteFallbackAttempt now w⟩ := by
  unfold maintainGridLossFallback at hc
  split_ifs at hc
  · simp at hc
  · exact List.mem_singleton.mp hc

/-- The fallback counts as applied from the first accepted -10 W on. -/
theorem maintainGridLossFallback_applied :
    ((maintainGridLossFallback e now w).1.hardwareForced = w.hardwareForced ∧
      (maintainGridLossFallback e now w).1.gridLossFallbackApplied = w.gridLossFallbackApplied ∧
      ∀ c ∈ (maintainGridLossFallback e now w).2, c.outcome ≠ .accepted) ∨
    ((maintainGridLossFallback e now w).1.hardwareForced = true ∧
      (maintainGridLossFallback e now w).1.gridLossFallbackApplied = true ∧
      (maintainGridLossFallback e now w).2 =
        [⟨gridLossFallbackSetpoint, .accepted, noteFallbackAttempt now w⟩]) := by
  unfold maintainGridLossFallback finishFallback
  split_ifs with hdue hacc
  · exact Or.inl ⟨rfl, rfl, by simp⟩
  · exact Or.inr ⟨rfl, rfl, by rw [hacc]⟩
  · exact Or.inl ⟨rfl, rfl, by simpa using hacc⟩

/-! ### The check of the outage's deadline -/

theorem latchGridLoss_state : ∃ hf p lw a, latchGridLoss w =
    { w with hardwareForced := hf, gridLossRefreshPending := p, lastGridLossWrite := lw,
             lastGridLossAttempt := a, gridLossForced := true, triggered := true,
             preForcedSetpoint := 0 } := by
  unfold latchGridLoss startGridLoss
  split_ifs
  · exact ⟨_, _, _, _, rfl⟩
  · exact ⟨_, _, _, _, rfl⟩

/-- A first latch starts without an accepted fallback; a second one changes nothing of it. -/
theorem latchGridLoss_hardwareForced :
    (latchGridLoss w).hardwareForced = (w.gridLossForced && w.hardwareForced) := by
  unfold latchGridLoss startGridLoss
  cases w.gridLossForced <;> rfl

theorem latchIfExpired_state (hold : ℚ) : ∃ hf p lw a gf tr pre, latchIfExpired now hold w =
    { w with hardwareForced := hf, gridLossRefreshPending := p, lastGridLossWrite := lw,
             lastGridLossAttempt := a, gridLossForced := gf, triggered := tr,
             preForcedSetpoint := pre } := by
  unfold latchIfExpired
  split_ifs
  · obtain ⟨hf, p, lw, a, h⟩ := latchGridLoss_state w
    exact ⟨hf, p, lw, a, _, _, _, h⟩
  · exact ⟨_, _, _, _, _, _, _, rfl⟩

theorem latchIfExpired_forced (hold : ℚ) : (latchIfExpired now hold w).gridLossForced = true ↔
    w.gridLossForced = true ∨ holdExpired now hold w := by
  unfold latchIfExpired
  split_ifs with h
  · simp [latchGridLoss, h]
  · simp [h]

theorem latchIfExpired_not_forced {hold : ℚ}
    (h : (latchIfExpired now hold w).gridLossForced = false) : latchIfExpired now hold w = w := by
  unfold latchIfExpired at h ⊢
  split_ifs at h ⊢
  · simp [latchGridLoss] at h
  · rfl

variable {w}

theorem checkGridLossLocked_of_override (h : w.overrideValue ≠ none) :
    checkGridLossLocked e now w = maintainOverride e now w := by
  simp [checkGridLossLocked, h]

theorem checkGridLossLocked_of_dryRun (h : w.overrideValue = none) (hd : w.dryRun = true) :
    checkGridLossLocked e now w = (w, []) := by
  simp [checkGridLossLocked, h, hd]

theorem checkGridLossLocked_of_no_hold (h : w.overrideValue = none)
    (hh : w.gridLossHoldSeconds = none) : checkGridLossLocked e now w = (w, []) := by
  simp [checkGridLossLocked, h, hh]

theorem checkGridLossLocked_live (h : w.overrideValue = none) (hd : w.dryRun = false) {hold : ℚ}
    (hh : w.gridLossHoldSeconds = some hold) : checkGridLossLocked e now w =
      if (latchIfExpired now hold w).gridLossForced then
        maintainGridLossFallback e now (latchIfExpired now hold w)
      else (latchIfExpired now hold w, []) := by
  simp [checkGridLossLocked, h, hd, hh]

/-- **The check, without an override**: nothing, or the fallback is maintained on a latched
watchdog. -/
theorem checkGridLossLocked_cases (h : w.overrideValue = none) :
    checkGridLossLocked e now w = (w, []) ∨
    (w.dryRun = false ∧ ∃ hold, w.gridLossHoldSeconds = some hold ∧
      (latchIfExpired now hold w).gridLossForced = true ∧
      checkGridLossLocked e now w =
        maintainGridLossFallback e now (latchIfExpired now hold w)) := by
  cases hd : w.dryRun
  swap; · exact Or.inl (checkGridLossLocked_of_dryRun e now h hd)
  cases hh : w.gridLossHoldSeconds with
  | none => exact Or.inl (checkGridLossLocked_of_no_hold e now h hh)
  | some hold =>
    rw [checkGridLossLocked_live e now h hd hh]
    cases hf : (latchIfExpired now hold w).gridLossForced
    · left; simp [latchIfExpired_not_forced now w hf]
    · exact Or.inr ⟨rfl, hold, rfl, hf, by simp⟩

theorem checkGridLossLocked_not_forced (h : w.overrideValue = none)
    (hf : (checkGridLossLocked e now w).1.gridLossForced = false) :
    w.gridLossForced = false ∧ checkGridLossLocked e now w = (w, []) := by
  rcases checkGridLossLocked_cases e now h with h' | ⟨-, hold, -, hlatch, h'⟩
  · rw [h'] at hf
    exact ⟨hf, h'⟩
  · obtain ⟨a, p, hf', ap, lw, hm⟩ :=
      maintainGridLossFallback_state e now (latchIfExpired now hold w)
    rw [h', hm] at hf
    rw [hlatch] at hf
    cases hf

/-- What the check may change, without an override. -/
theorem checkGridLossLocked_state (h : w.overrideValue = none) : ∃ hf p lw a gf tr pre ap,
    (checkGridLossLocked e now w).1 =
      { w with hardwareForced := hf, gridLossRefreshPending := p, lastGridLossWrite := lw,
               lastGridLossAttempt := a, gridLossForced := gf, triggered := tr,
               preForcedSetpoint := pre, gridLossFallbackApplied := ap } := by
  rcases checkGridLossLocked_cases e now h with h' | ⟨-, hold, -, -, h'⟩
  · exact ⟨_, _, _, _, _, _, _, _, by rw [h']⟩
  · obtain ⟨a, p, hf, ap, lw, hm⟩ :=
      maintainGridLossFallback_state e now (latchIfExpired now hold w)
    obtain ⟨hf', p', lw', a', gf, tr, pre, hl⟩ := latchIfExpired_state now w hold
    rw [h', hm, hl]
    exact ⟨hf, p, lw, a, gf, tr, pre, ap, rfl⟩

/-- What no check of the watchdog changes: all but the records of the refresh, the fallback and the
failsafe, and the counters. -/
def bare (w : HardwareWatchdog) : HardwareWatchdog :=
  { w with
    overrideLastAttempt := none
    overrideRefreshFailed := false
    overrideError := none
    overrideLastWrite := none
    lastSetpointUpdate := 0
    hardwareForced := false
    gridLossRefreshPending := false
    lastGridLossWrite := none
    lastGridLossAttempt := none
    gridLossForced := false
    gridInvalidSince := none
    triggered := false
    preForcedSetpoint := 0
    gridLossFallbackApplied := false
    failCount := 0
    successCount := 0 }

/-- The fields that are the operator's and the configuration's. -/
structure Owner where
  overrideValue : Option ℤ
  controlGeneration : ℕ
  dryRun : Bool
  timeoutSeconds : ℚ
  gridLossHoldSeconds : Option ℚ
  failThreshold : ℕ
  successThreshold : ℕ
  enabled : Bool

/-- The owner's part of the state. -/
def owner (w : HardwareWatchdog) : Owner :=
  ⟨w.overrideValue, w.controlGeneration, w.dryRun, w.timeoutSeconds, w.gridLossHoldSeconds,
    w.failThreshold, w.successThreshold, w.enabled⟩

theorem owner_of_bare {w w' : HardwareWatchdog} (h : bare w' = bare w) : owner w' = owner w := by
  have h' := congrArg owner h
  exact h'

variable (w)

theorem maintainOverride_bare : bare (maintainOverride e now w).1 = bare w := by
  obtain ⟨a, f, m, lw, u, h⟩ := maintainOverride_state e now w
  rw [h]
  rfl

theorem latchIfExpired_bare (hold : ℚ) : bare (latchIfExpired now hold w) = bare w := by
  obtain ⟨hf, p, lw, a, gf, tr, pre, h⟩ := latchIfExpired_state now w hold
  rw [h]
  rfl

theorem checkGridLossLocked_bare : bare (checkGridLossLocked e now w).1 = bare w := by
  by_cases ho : w.overrideValue = none
  · obtain ⟨hf, p, lw, a, gf, tr, pre, ap, h⟩ := checkGridLossLocked_state e now ho
    rw [h]
    rfl
  · rw [checkGridLossLocked_of_override e now ho]
    exact maintainOverride_bare e now w

/-! ### Recovery and the generic failsafe -/

theorem releaseGridLoss_state : ∃ gf since hf, releaseGridLoss w =
    { w with gridLossForced := gf, gridInvalidSince := since, hardwareForced := hf } := by
  unfold releaseGridLoss
  split_ifs
  · exact ⟨_, _, _, rfl⟩
  · exact ⟨_, _, _, rfl⟩

/-- **Recovery**: nothing changes, or the watchdog is armed again; a meter loss only after its
fallback was accepted. -/
theorem recoverFromFailsafe_cases : (recoverFromFailsafe e w).1 = w ∨
    ((recoverFromFailsafe e w).1 = rearm (releaseGridLoss w) ∧ w.telemetryInvalid = false ∧
      (w.gridLossForced = true →
        w.hardwareForced = true ∧ w.gridLossRefreshPending = false)) := by
  unfold recoverFromFailsafe
  split_ifs with ho ht hp hh
  · exact Or.inl rfl
  · exact Or.inl rfl
  · exact Or.inl rfl
  · cases hg : w.gridLossForced
    · have hrel : releaseGridLoss w = w := by simp [releaseGridLoss, hg]
      unfold finishRestore
      split_ifs
      · exact Or.inr ⟨rfl, by simpa using ht, by simp⟩
      · exact Or.inl hrel
    · simp [releaseGridLoss, hg] at hh
  · refine Or.inr ⟨rfl, by simpa using ht, fun hg => ?_⟩
    simpa [hg] using hp

theorem rearm_releaseGridLoss_state : ∃ gf since hf tr pre, rearm (releaseGridLoss w) =
    { w with gridLossForced := gf, gridInvalidSince := since, hardwareForced := hf,
             triggered := tr, preForcedSetpoint := pre } := by
  obtain ⟨gf, since, hf, h⟩ := releaseGridLoss_state w
  rw [h]
  exact ⟨_, _, _, _, _, rfl⟩

theorem recoverFromFailsafe_bare : bare (recoverFromFailsafe e w).1 = bare w := by
  rcases recoverFromFailsafe_cases e w with h | ⟨h, -⟩
  · rw [h]
  · obtain ⟨gf, since, hf, tr, pre, h'⟩ := rearm_releaseGridLoss_state w
    rw [h, h']
    rfl

/-- Only a generic failsafe is restored, never a meter loss. -/
theorem recoverFromFailsafe_calls {c : HwCall} (hc : c ∈ (recoverFromFailsafe e w).2) :
    c = ⟨w.preForcedSetpoint, e.hardware, w⟩ ∧ w.overrideValue = none ∧
      w.gridLossForced = false ∧ w.hardwareForced = true ∧ w.telemetryInvalid = false := by
  unfold recoverFromFailsafe at hc
  split_ifs at hc with ho ht hp hh
  · simp at hc
  · simp at hc
  · simp at hc
  · cases hg : w.gridLossForced
    · have hrel : releaseGridLoss w = w := by simp [releaseGridLoss, hg]
      rw [hrel] at hh hc
      exact ⟨List.mem_singleton.mp hc, not_not.mp ho, rfl, hh, by simpa using ht⟩
    · simp [releaseGridLoss, hg] at hh
  · simp at hc

theorem recoverGridLoss_bare : bare (recoverGridLoss e now w).1 = bare w := by
  unfold recoverGridLoss
  split_ifs
  · rw [recoverFromFailsafe_bare]
    rfl
  · rfl

/-- The recovery of a meter loss writes nothing. -/
theorem recoverGridLoss_calls (h : w.gridLossForced = true) : (recoverGridLoss e now w).2 = [] := by
  unfold recoverGridLoss
  split_ifs
  · refine List.eq_nil_iff_forall_not_mem.mpr fun c hc => ?_
    have := (recoverFromFailsafe_calls e _ hc).2.2.1
    simp [countRecovery, h] at this
  · rfl

theorem saveSetpoint_state : ∃ pre, saveSetpoint e w = { w with preForcedSetpoint := pre } := by
  unfold saveSetpoint
  split_ifs
  · exact ⟨_, rfl⟩
  · exact ⟨_, rfl⟩
  · exact ⟨_, rfl⟩

theorem finishFailsafe_state : ∃ hf ap, finishFailsafe e w =
    { w with hardwareForced := hf, gridLossFallbackApplied := ap } := by
  unfold finishFailsafe
  split_ifs
  · exact ⟨_, _, rfl⟩
  · exact ⟨_, _, rfl⟩

variable {w}

/-- The failsafe, without an override and without a meter loss. -/
theorem applyFailsafe_live (ho : w.overrideValue = none) (hd : w.dryRun = false)
    (hg : w.gridLossForced = false) : applyFailsafe e w =
      (finishFailsafe e (saveSetpoint e w), [⟨0, e.hardware, saveSetpoint e w⟩]) := by
  simp [applyFailsafe, ho, hd, hg]

theorem countHeartbeat_state (w : HardwareWatchdog) : ∃ f s, countHeartbeat now w =
    { w with failCount := f, successCount := s } := by
  unfold countHeartbeat
  split_ifs
  · exact ⟨_, _, rfl⟩
  · exact ⟨_, _, rfl⟩
  · exact ⟨_, _, rfl⟩

/-- **A heartbeat without a meter loss**: it only counts, triggers with the failsafe, or recovers. -/
theorem finishHeartbeat_cases (ho : w.overrideValue = none) (hd : w.dryRun = false)
    (hg : w.gridLossForced = false) : ∃ f s tr,
      (finishHeartbeat e now w = ({ w with failCount := f, successCount := s, triggered := tr }, [])
        ∧ (tr = w.triggered ∨ (tr = true ∧ w.hardwareForced = true))) ∨
      (w.hardwareForced = false ∧ tr = true ∧ finishHeartbeat e now w =
        (finishFailsafe e
            (saveSetpoint e { w with failCount := f, successCount := s, triggered := tr }),
          [⟨0, e.hardware,
            saveSetpoint e { w with failCount := f, successCount := s, triggered := tr }⟩])) ∨
      (w.triggered = true ∧ tr = true ∧ finishHeartbeat e now w =
        recoverFromFailsafe e { w with failCount := f, successCount := s, triggered := tr }) := by
  obtain ⟨f, s, hcount⟩ := countHeartbeat_state now w
  unfold finishHeartbeat actOnHeartbeat
  rw [if_neg (by simp [hg])]
  split_ifs with hfail hforced hrec
  · refine ⟨f, s, true, Or.inl ⟨by rw [hcount]; rfl, Or.inr ⟨rfl, ?_⟩⟩⟩
    rw [hcount] at hforced
    exact hforced
  · refine ⟨f, s, true, Or.inr (Or.inl ⟨?_, rfl, ?_⟩)⟩
    · rw [hcount] at hforced
      simpa using hforced
    · rw [hcount]
      exact applyFailsafe_live e ho hd hg
  · have htr : w.triggered = true := by
      have := hrec.2
      rw [hcount] at this
      exact this
    exact ⟨f, s, true, Or.inr (Or.inr ⟨htr, rfl, by rw [hcount, ← htr]⟩)⟩
  · exact ⟨f, s, w.triggered, Or.inl ⟨by rw [hcount], Or.inl rfl⟩⟩

/-- What a heartbeat without a meter loss may change. -/
theorem finishHeartbeat_state (ho : w.overrideValue = none) (hd : w.dryRun = false)
    (hg : w.gridLossForced = false) : ∃ f s tr hf pre ap, (finishHeartbeat e now w).1 =
      { w with failCount := f, successCount := s, triggered := tr, hardwareForced := hf,
               preForcedSetpoint := pre, gridLossFallbackApplied := ap } := by
  obtain ⟨f, s, tr, ⟨h, -⟩ | ⟨-, -, h⟩ | ⟨-, -, h⟩⟩ := finishHeartbeat_cases e now ho hd hg
  · rw [h]
    exact ⟨f, s, tr, _, _, _, rfl⟩
  · obtain ⟨pre, h2⟩ := saveSetpoint_state e
      { w with failCount := f, successCount := s, triggered := tr }
    obtain ⟨hf, ap, h3⟩ := finishFailsafe_state e (saveSetpoint e
      { w with failCount := f, successCount := s, triggered := tr })
    rw [h, h3, h2]
    exact ⟨f, s, tr, hf, pre, ap, rfl⟩
  · rw [h]
    rcases recoverFromFailsafe_cases e
      { w with failCount := f, successCount := s, triggered := tr } with h2 | ⟨h2, -, -⟩
    · rw [h2]
      exact ⟨f, s, tr, _, _, _, rfl⟩
    · rw [h2, releaseGridLoss, if_neg (by simp [hg])]
      exact ⟨f, s, _, _, _, _, rfl⟩

/-- A heartbeat is the check of the deadline, and then either the hysteresis on an unchanged
watchdog or the recovery of a latched one. -/
theorem checkHeartbeat_cases (ho : w.overrideValue = none) (hd : w.dryRun = false) :
    (w.gridLossForced = false ∧ checkGridLossLocked e e.now w = (w, []) ∧
      checkHeartbeat e w = finishHeartbeat e e.now w) ∨
    ((checkGridLossLocked e e.now w).1.gridLossForced = true ∧
      checkHeartbeat e w =
        ((recoverGridLoss e e.now (checkGridLossLocked e e.now w).1).1,
          (checkGridLossLocked e e.now w).2)) := by
  have hbeat : checkHeartbeat e w =
      ((finishHeartbeat e e.now (checkGridLossLocked e e.now w).1).1,
        (checkGridLossLocked e e.now w).2 ++
          (finishHeartbeat e e.now (checkGridLossLocked e e.now w).1).2) := by
    simp [checkHeartbeat, ho, hd]
  cases hf : (checkGridLossLocked e e.now w).1.gridLossForced
  · obtain ⟨hg, h⟩ := checkGridLossLocked_not_forced e e.now ho hf
    rw [h] at hbeat
    exact Or.inl ⟨hg, h, by simpa using hbeat⟩
  · rw [finishHeartbeat, if_pos hf, recoverGridLoss_calls e e.now _ hf] at hbeat
    exact Or.inr ⟨rfl, by simpa using hbeat⟩

/-! ### The writer behind a hardware call -/

/-- The writers of `watchdog.py`, each with what entitles it to write `c` in this step. -/
inductive MadeBy (w : HardwareWatchdog) (ev : Event) (c : HwCall) : Prop
  | manual (requestId : Option String)
      (hop : ev.op = .setSetpointOverride (.int c.value) requestId) (hw : c.watchdog = w)
  | refresh (hv : w.overrideValue = some c.value)
      (hg : c.watchdog.gridLossForced = w.gridLossForced) (hown : owner c.watchdog = owner w)
  | normal (generation : ℕ) (hop : ev.op = .writeControlSetpoint c.value generation false)
      (hfree : ¬ writeBlocked generation w) (hd : w.dryRun = false) (hw : c.watchdog = w)
  | fallback (ho : w.overrideValue = none) (hd : w.dryRun = false)
      (hv : c.value = gridLossFallbackSetpoint) (hg : c.watchdog.gridLossForced = true)
      (hown : owner c.watchdog = owner w)
  | failsafe (hop : ev.op = .checkHeartbeat) (ho : w.overrideValue = none) (hd : w.dryRun = false)
      (hlive : w.gridLossForced = false) (hv : c.value = 0)
      (hg : c.watchdog.gridLossForced = w.gridLossForced) (hown : owner c.watchdog = owner w)
  | restore (hop : ev.op = .checkHeartbeat) (ho : w.overrideValue = none) (hd : w.dryRun = false)
      (hlive : w.gridLossForced = false) (hv : c.value = w.preForcedSetpoint)
      (htr : w.triggered = true) (hf : w.hardwareForced = true)
      (hg : c.watchdog.gridLossForced = w.gridLossForced) (hown : owner c.watchdog = owner w)

/-- The owner's part of the state is the same when the call is made. -/
theorem MadeBy.owner_eq {w : HardwareWatchdog} {ev : Event} {c : HwCall} (h : MadeBy w ev c) :
    owner c.watchdog = owner w := by
  cases h with
  | manual requestId hop hw => rw [hw]
  | normal generation hop hfree hd hw => rw [hw]
  | refresh hv hg hown => exact hown
  | fallback ho hd hv hg hown => exact hown
  | failsafe hop ho hd hlive hv hg hown => exact hown
  | restore hop ho hd hlive hv htr hf hg hown => exact hown

section MadeBy

variable {ev : Event} {c : HwCall}

theorem setSetpointOverride_calls {arg : OverrideArg} {requestId : Option String}
    (hc : c ∈ (setSetpointOverride arg requestId e w).2) :
    ∃ n, arg = .int n ∧ isInt32 n ∧ c = ⟨n, e.hardware, w⟩ := by
  unfold setSetpointOverride at hc
  split at hc
  · simp at hc
  · split_ifs at hc <;> simp at hc
  · next n =>
    split_ifs at hc with hn
    · refine ⟨n, rfl, hn, ?_⟩
      split at hc
      · next h => rw [h]; exact List.mem_singleton.mp hc
      · next h => rw [h]; exact List.mem_singleton.mp hc
      · next h => rw [h]; exact List.mem_singleton.mp hc
    · simp at hc

theorem writeControlSetpoint_calls {value : ℤ} {generation : ℕ} {dryRun : Bool}
    (hc : c ∈ (writeControlSetpoint value generation dryRun e w).1.2) :
    ¬ writeBlocked generation w ∧ dryRun = false ∧ w.dryRun = false ∧
      c = ⟨value, e.hardware, w⟩ := by
  unfold writeControlSetpoint at hc
  split_ifs at hc with hb hd
  · simp at hc
  · simp at hc
  · rw [Bool.or_eq_true, not_or, Bool.not_eq_true, Bool.not_eq_true] at hd
    refine ⟨hb, hd.1, hd.2, ?_⟩
    split at hc
    · next h => rw [h]; exact List.mem_singleton.mp hc
    · next h => rw [h]; exact List.mem_singleton.mp hc
    · next h => rw [h]; exact List.mem_singleton.mp hc

theorem writeControlSetpoint_of_blocked {generation : ℕ}
    (h : writeBlocked generation w) (value : ℤ) (dryRun : Bool) :
    writeControlSetpoint value generation dryRun e w = ((w, []), .refused) := by
  rw [writeControlSetpoint, if_pos h]

theorem maintainOverride_madeBy (hc : c ∈ (maintainOverride e now w).2) : MadeBy w ev c := by
  obtain ⟨hv, -, hw⟩ := maintainOverride_calls e now w hc
  exact .refresh hv (by rw [hw]; rfl) (by rw [hw]; rfl)

theorem checkGridLossLocked_madeBy (hc : c ∈ (checkGridLossLocked e now w).2) :
    MadeBy w ev c := by
  by_cases ho : w.overrideValue = none
  · rcases checkGridLossLocked_cases e now ho with h | ⟨hd, hold, -, hf, h⟩
    · simp [h] at hc
    · rw [h] at hc
      obtain rfl := maintainGridLossFallback_calls e now _ hc
      exact .fallback ho hd rfl hf (owner_of_bare (latchIfExpired_bare now w hold))
  · rw [checkGridLossLocked_of_override e now ho] at hc
    exact maintainOverride_madeBy e now hc

theorem finishHeartbeat_madeBy (hop : ev.op = .checkHeartbeat) (ho : w.overrideValue = none)
    (hd : w.dryRun = false) (hc : c ∈ (finishHeartbeat e now w).2) : MadeBy w ev c := by
  cases hg : w.gridLossForced
  swap
  · simp [finishHeartbeat, hg, recoverGridLoss_calls e now w hg] at hc
  obtain ⟨f, s, tr, ⟨h, -⟩ | ⟨-, -, h⟩ | ⟨htr, -, h⟩⟩ := finishHeartbeat_cases e now ho hd hg
  · simp [h] at hc
  · rw [h] at hc
    obtain rfl := List.mem_singleton.mp hc
    obtain ⟨pre, h'⟩ := saveSetpoint_state e
      { w with failCount := f, successCount := s, triggered := tr }
    refine .failsafe hop ho hd hg rfl ?_ ?_
    · rw [h']
    · rw [h']; rfl
  · rw [h] at hc
    obtain ⟨rfl, -, -, hf, -⟩ := recoverFromFailsafe_calls e _ hc
    exact .restore hop ho hd hg rfl htr hf rfl rfl

theorem checkHeartbeat_madeBy (hop : ev.op = .checkHeartbeat)
    (hc : c ∈ (checkHeartbeat e w).2) : MadeBy w ev c := by
  by_cases ho : w.overrideValue = none
  swap
  · simp only [checkHeartbeat, if_pos (show w.overrideValue ≠ none from ho)] at hc
    exact maintainOverride_madeBy e e.now hc
  cases hd : w.dryRun
  swap
  · simp [checkHeartbeat, ho, hd] at hc
  rcases checkHeartbeat_cases e ho hd with ⟨-, -, h⟩ | ⟨-, h⟩
  · rw [h] at hc
    exact finishHeartbeat_madeBy e e.now hop ho hd hc
  · rw [h] at hc
    exact checkGridLossLocked_madeBy e e.now hc

end MadeBy

/-- **The writer behind every hardware call of every entry point.** -/
theorem calls_madeBy {ev : Event} {c : HwCall} (hc : c ∈ calls w ev) : MadeBy w ev c := by
  obtain ⟨op, e⟩ := ev
  cases op with
  | setSetpointOverride arg requestId =>
    obtain ⟨n, rfl, -, rfl⟩ := setSetpointOverride_calls e hc
    exact .manual requestId rfl rfl
  | writeControlSetpoint value generation dryRun =>
    obtain ⟨hb, rfl, hd, rfl⟩ := writeControlSetpoint_calls e hc
    exact .normal generation rfl hb hd rfl
  | markDbusUpdate => exact checkGridLossLocked_madeBy e e.now hc
  | checkGridLoss => exact checkGridLossLocked_madeBy e e.now hc
  | checkHeartbeat => exact checkHeartbeat_madeBy e rfl hc
  | rejectSetpointOverride error requestId => cases hc
  | markDbusInvalid => cases hc
  | markMqttUpdate => cases hc
  | markSetpointUpdate => cases hc
  | start => cases hc
  | setDryRun enabled => cases hc

/-! ### What the owner decides -/

theorem finishHeartbeat_bare (ho : w.overrideValue = none) (hd : w.dryRun = false) :
    bare (finishHeartbeat e now w).1 = bare w := by
  cases hg : w.gridLossForced
  · obtain ⟨f, s, tr, hf, pre, ap, h⟩ := finishHeartbeat_state e now ho hd hg
    rw [h]
    rfl
  · rw [finishHeartbeat, if_pos hg]
    exact recoverGridLoss_bare e now w

theorem checkHeartbeat_bare (w : HardwareWatchdog) : bare (checkHeartbeat e w).1 = bare w := by
  unfold checkHeartbeat
  split_ifs with ho hd
  · exact maintainOverride_bare e e.now w
  · rfl
  · have h := checkGridLossLocked_bare e e.now w
    have ho' : (checkGridLossLocked e e.now w).1.overrideValue = w.overrideValue :=
      congrArg Owner.overrideValue (owner_of_bare h)
    have hd' : (checkGridLossLocked e e.now w).1.dryRun = w.dryRun :=
      congrArg Owner.dryRun (owner_of_bare h)
    exact (finishHeartbeat_bare e e.now (ho'.trans (not_not.mp ho))
      (hd'.trans (Bool.eq_false_iff.mpr hd))).trans h

theorem writeControlSetpoint_owner (value : ℤ) (generation : ℕ) (dryRun : Bool)
    (w : HardwareWatchdog) :
    owner (writeControlSetpoint value generation dryRun e w).1.1 = owner w := by
  unfold writeControlSetpoint
  split_ifs
  · rfl
  · rfl
  · cases e.hardware <;> rfl

/-- The entry points that are the owner's: the override, the thread's start, the dry-run mode. -/
def Op.isOwners : Op → Bool
  | .setSetpointOverride .. | .start | .setDryRun _ => true
  | _ => false

/-- **No other entry point changes what the owner decides.** -/
theorem next_owner {ev : Event} (hop : Op.isOwners ev.op = false) (w : HardwareWatchdog) :
    owner (next w ev) = owner w := by
  obtain ⟨op, e⟩ := ev
  cases op with
  | setSetpointOverride arg requestId => cases hop
  | start => cases hop
  | setDryRun enabled => cases hop
  | writeControlSetpoint value generation dryRun =>
    exact writeControlSetpoint_owner e value generation dryRun w
  | markDbusUpdate =>
    have h := owner_of_bare (checkGridLossLocked_bare e e.now w)
    exact h
  | checkGridLoss => exact owner_of_bare (checkGridLossLocked_bare e e.now w)
  | checkHeartbeat => exact owner_of_bare (checkHeartbeat_bare e w)
  | rejectSetpointOverride error requestId => rfl
  | markDbusInvalid => rfl
  | markMqttUpdate => rfl
  | markSetpointUpdate => rfl

/-- The part of the configuration that no entry point changes. -/
structure Thresholds where
  gridLossHoldSeconds : Option ℚ
  successThreshold : ℕ
  failThreshold : ℕ

def thresholds (w : HardwareWatchdog) : Thresholds :=
  ⟨w.gridLossHoldSeconds, w.successThreshold, w.failThreshold⟩

theorem thresholds_of_owner {w w' : HardwareWatchdog} (h : owner w' = owner w) :
    thresholds w' = thresholds w := by
  have h' := congrArg (fun o : Owner =>
    (⟨o.gridLossHoldSeconds, o.successThreshold, o.failThreshold⟩ : Thresholds)) h
  exact h'

theorem start_thresholds (w : HardwareWatchdog) : thresholds (start now w) = thresholds w := by
  unfold start
  split_ifs <;> rfl

theorem next_thresholds (w : HardwareWatchdog) (ev : Event) :
    thresholds (next w ev) = thresholds w := by
  cases hop : ev.op with
  | setSetpointOverride arg requestId =>
    rw [next, perform, hop]
    rcases setSetpointOverride_cases ev.env w arg requestId with h | ⟨err, rej, req, h⟩
    · rw [h]; rfl
    · rw [h]; rfl
  | start => rw [next, perform, hop]; exact start_thresholds ev.env.now w
  | setDryRun enabled => rw [next, perform, hop]; rfl
  | _ => exact thresholds_of_owner (next_owner (by rw [hop]; rfl) w)

/-- The configuration never changes. -/
theorem exec_thresholds (w : HardwareWatchdog) (evs : List Event) :
    thresholds (exec next w evs) = thresholds w :=
  exec_invariant (P := fun w' => thresholds w' = thresholds w) rfl fun x _ h =>
    (next_thresholds x.before x.input).trans h

end InverterControl.Watchdog.Steps
