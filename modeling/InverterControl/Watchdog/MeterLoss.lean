import InverterControl.Watchdog.Steps

/-!
# The meter-loss episode

An outage begins with the first `mark_dbus_invalid` and has one deadline.  At the deadline the
watchdog latches, every write is the -10 W fallback, and only heartbeats with fresh telemetry after
an accepted fallback release it.  `Sound` is what every reachable state keeps; what a latched
watchdog remembers of its past (an accepted fallback, a good heartbeat) is stated with `Since`.
-/

namespace InverterControl.Watchdog.MeterLoss

open InverterControl.Lib.Runs InverterControl.Watchdog.Model InverterControl.Watchdog.Steps

variable (e : Env) (now : ℚ) {w : HardwareWatchdog}

/-! ### What every reachable state keeps -/

/-- The latch belongs to no override, has triggered the watchdog and left nothing to restore; an
invalid telemetry has a deadline and no success counted. -/
structure Sound (w : HardwareWatchdog) : Prop where
  override_of_forced : w.gridLossForced = true → w.overrideValue = none
  triggered_of_forced : w.gridLossForced = true → w.triggered = true
  saved_of_forced : w.gridLossForced = true → w.preForcedSetpoint = 0
  count_of_invalid : w.telemetryInvalid = true → w.successCount = 0
  since_of_invalid : w.telemetryInvalid = true → w.gridInvalidSince ≠ none

theorem Sound.init (timeoutSeconds : ℚ) (dryRun : Bool) (hold : Option ℚ) :
    Sound (init timeoutSeconds dryRun hold) := by
  constructor <;> intro h <;> cases h

theorem Sound.maintainOverride (hw : Sound w) : Sound (maintainOverride e now w).1 := by
  obtain ⟨a, f, m, lw, u, h⟩ := maintainOverride_state e now w
  rw [h]
  exact ⟨hw.1, hw.2, hw.3, hw.4, hw.5⟩

theorem Sound.maintainGridLossFallback (hw : Sound w) :
    Sound (maintainGridLossFallback e now w).1 := by
  obtain ⟨a, p, hf, ap, lw, h⟩ := maintainGridLossFallback_state e now w
  rw [h]
  exact ⟨hw.1, hw.2, hw.3, hw.4, hw.5⟩

theorem Sound.latchIfExpired (hw : Sound w) (ho : w.overrideValue = none) (hold : ℚ) :
    Sound (latchIfExpired now hold w) := by
  unfold Model.latchIfExpired
  split_ifs
  · obtain ⟨hf, p, lw, a, h⟩ := latchGridLoss_state w
    rw [h]
    exact ⟨fun _ => ho, fun _ => rfl, fun _ => rfl, hw.4, hw.5⟩
  · exact hw

theorem Sound.checkGridLossLocked (hw : Sound w) : Sound (checkGridLossLocked e now w).1 := by
  by_cases ho : w.overrideValue = none
  · rcases checkGridLossLocked_cases e now ho with h | ⟨-, hold, -, -, h⟩
    · rw [h]; exact hw
    · rw [h]; exact (hw.latchIfExpired now ho hold).maintainGridLossFallback e now
  · rw [checkGridLossLocked_of_override e now ho]
    exact hw.maintainOverride e now

theorem Sound.noteTelemetry (hw : Sound w) : Sound (noteTelemetry now w) :=
  ⟨hw.1, hw.2, hw.3, fun h => (by cases h), fun h => (by cases h)⟩

theorem Sound.recoverFromFailsafe (hw : Sound w) : Sound (recoverFromFailsafe e w).1 := by
  rcases recoverFromFailsafe_cases e w with h | ⟨h, ht, -⟩
  · rw [h]; exact hw
  · rw [h]
    unfold rearm releaseGridLoss
    split_ifs with hg
    · exact ⟨fun h => (by cases h), fun h => (by cases h), fun _ => rfl, hw.4,
        fun h => by rw [ht] at h; cases h⟩
    · exact ⟨fun h => absurd h hg, fun h => absurd h hg, fun _ => rfl, hw.4, hw.5⟩

theorem Sound.countRecovery (hw : Sound w) : Sound (countRecovery now w) := by
  refine ⟨hw.1, hw.2, hw.3, fun h => ?_, hw.5⟩
  have : ¬ recoveryCheckPasses now w := fun hp => by
    have := hp.2.2.1
    rw [show w.telemetryInvalid = true from h] at this
    cases this
  simp [Model.countRecovery, this]

theorem Sound.recoverGridLoss (hw : Sound w) : Sound (recoverGridLoss e now w).1 := by
  unfold Model.recoverGridLoss
  split_ifs
  · exact (hw.countRecovery now).recoverFromFailsafe e
  · exact hw.countRecovery now

theorem Sound.countHeartbeat (hw : Sound w) : Sound (countHeartbeat now w) := by
  unfold Model.countHeartbeat
  split_ifs with hs ht
  · exact ⟨hw.1, hw.2, hw.3, fun _ => rfl, hw.5⟩
  · exact ⟨hw.1, hw.2, hw.3, fun _ => rfl, hw.5⟩
  · exact ⟨hw.1, hw.2, hw.3, fun h => absurd h ht, hw.5⟩

theorem Sound.trigger (hw : Sound w) : Sound (trigger w) :=
  ⟨hw.1, fun _ => rfl, hw.3, hw.4, hw.5⟩

theorem Sound.applyFailsafe (hw : Sound w) : Sound (applyFailsafe e w).1 := by
  unfold Model.applyFailsafe
  split_ifs with ho hd hg
  · exact hw.maintainOverride e e.after
  · exact hw
  · exact hw.maintainGridLossFallback e e.after
  · obtain ⟨pre, h⟩ := saveSetpoint_state e w
    obtain ⟨hf, ap, h'⟩ := finishFailsafe_state e (saveSetpoint e w)
    rw [h', h]
    exact ⟨hw.1, hw.2, fun h => absurd h hg, hw.4, hw.5⟩

theorem Sound.checkHeartbeat (hw : Sound w) : Sound (checkHeartbeat e w).1 := by
  unfold Model.checkHeartbeat
  split_ifs
  · exact hw.maintainOverride e e.now
  · exact hw
  · have hw' := hw.checkGridLossLocked e e.now
    unfold finishHeartbeat actOnHeartbeat
    split_ifs
    · exact hw'.recoverGridLoss e e.now
    · exact (hw'.countHeartbeat e.now).trigger
    · exact (hw'.countHeartbeat e.now).trigger.applyFailsafe e
    · exact (hw'.countHeartbeat e.now).recoverFromFailsafe e
    · exact hw'.countHeartbeat e.now

theorem Sound.setSetpointOverride (hw : Sound w) (arg : OverrideArg) (requestId : Option String) :
    Sound (setSetpointOverride arg requestId e w).1 := by
  rcases setSetpointOverride_cases e w arg requestId with h | ⟨err, rej, req, h⟩
  · rw [h]
    exact ⟨fun h => (by cases h), fun h => (by cases h), fun _ => rfl, fun _ => rfl, hw.5⟩
  · rw [h]
    exact ⟨hw.1, hw.2, hw.3, hw.4, hw.5⟩

theorem Sound.writeControlSetpoint (hw : Sound w) (value : ℤ) (generation : ℕ) (dryRun : Bool) :
    Sound (writeControlSetpoint value generation dryRun e w).1.1 := by
  unfold Model.writeControlSetpoint
  split_ifs
  · exact hw
  · exact hw
  · cases e.hardware
    · exact ⟨hw.1, hw.2, hw.3, hw.4, hw.5⟩
    · exact hw
    · exact hw

/-- **Every step keeps `Sound`.** -/
theorem Sound.next (hw : Sound w) (ev : Event) : Sound (next w ev) := by
  obtain ⟨op, e⟩ := ev
  cases op with
  | setSetpointOverride arg requestId => exact hw.setSetpointOverride e arg requestId
  | rejectSetpointOverride error requestId => exact ⟨hw.1, hw.2, hw.3, hw.4, hw.5⟩
  | writeControlSetpoint value generation dryRun =>
    exact hw.writeControlSetpoint e value generation dryRun
  | markDbusUpdate => exact (hw.checkGridLossLocked e e.now).noteTelemetry e.now
  | markDbusInvalid =>
    refine ⟨hw.1, hw.2, hw.3, fun _ => rfl, fun _ => ?_⟩
    simp only [Model.next, perform, markDbusInvalid]
    split_ifs with h
    · exact Option.some_ne_none _
    · exact h
  | markMqttUpdate => exact ⟨hw.1, hw.2, hw.3, hw.4, hw.5⟩
  | markSetpointUpdate => exact ⟨hw.1, hw.2, hw.3, hw.4, hw.5⟩
  | checkGridLoss => exact hw.checkGridLossLocked e e.now
  | checkHeartbeat => exact hw.checkHeartbeat e
  | start =>
    simp only [Model.next, perform, start]
    split_ifs
    · exact hw
    · constructor <;> intro h <;> cases h
  | setDryRun enabled => exact ⟨hw.1, hw.2, hw.3, hw.4, hw.5⟩

theorem Sound.exec (hw : Sound w) (evs : List Event) : Sound (exec Model.next w evs) :=
  exec_invariant hw fun x _ h => h.next x.input

/-! ### While the watchdog is latched -/

/-- An operator's command. -/
def isCommand (op : Op) : Prop := ∃ arg requestId, op = .setSetpointOverride arg requestId

/-- **A latched watchdog writes the fallback and nothing else**, and so does every step that begins
latched. -/
theorem value_of_forced {ev : Event} {c : HwCall} (hw : Sound w) (hc : c ∈ calls w ev)
    (hg : w.gridLossForced = true ∨ c.watchdog.gridLossForced = true) (hop : ¬ isCommand ev.op) :
    c.value = gridLossFallbackSetpoint := by
  cases calls_madeBy hc with
  | manual requestId hop' hw' => exact absurd ⟨_, _, hop'⟩ hop
  | refresh hv hg' hown =>
    rw [hg', or_self] at hg
    rw [hw.override_of_forced hg] at hv
    cases hv
  | normal generation hop' hfree hd hw' =>
    rw [hw', or_self] at hg
    exact absurd (Or.inr (Or.inr (hw.triggered_of_forced hg))) hfree
  | fallback ho hd hv hg' hown => exact hv
  | failsafe hop' ho hd hlive hv hg' hown => rw [hg', or_self, hlive] at hg; cases hg
  | restore hop' ho hd hlive hv htr hf hg' hown => rw [hg', or_self, hlive] at hg; cases hg

/-! ### The outage and its deadline -/

/-- The telemetry's part of the state. -/
structure Telemetry where
  invalid : Bool
  since : Option ℚ
  lastUpdate : ℚ

def telemetry (w : HardwareWatchdog) : Telemetry :=
  ⟨w.telemetryInvalid, w.gridInvalidSince, w.lastDbusUpdate⟩

theorem checkGridLossLocked_telemetry (w : HardwareWatchdog) :
    telemetry (checkGridLossLocked e now w).1 = telemetry w := by
  by_cases ho : w.overrideValue = none
  · obtain ⟨hf, p, lw, a, gf, tr, pre, ap, h⟩ := checkGridLossLocked_state e now ho
    rw [h]
    rfl
  · rw [checkGridLossLocked_of_override e now ho]
    obtain ⟨a, f, m, lw, u, h⟩ := maintainOverride_state e now w
    rw [h]
    rfl

theorem recoverFromFailsafe_of_invalid (ht : w.telemetryInvalid = true) :
    (recoverFromFailsafe e w).1 = w := by
  rcases recoverFromFailsafe_cases e w with h | ⟨-, ht', -⟩
  · exact h
  · rw [ht] at ht'
    cases ht'

/-- The recovery is not offered while the telemetry is invalid. -/
theorem recoverGridLoss_of_invalid (ht : w.telemetryInvalid = true) :
    (recoverGridLoss e now w).1 = countRecovery now w := by
  unfold recoverGridLoss
  split_ifs
  · exact recoverFromFailsafe_of_invalid e ht
  · rfl

theorem finishHeartbeat_telemetry (ho : w.overrideValue = none) (hd : w.dryRun = false)
    (ht : w.telemetryInvalid = true) : telemetry (finishHeartbeat e now w).1 = telemetry w := by
  cases hg : w.gridLossForced
  · obtain ⟨f, s, tr, hf, pre, ap, h⟩ := finishHeartbeat_state e now ho hd hg
    rw [h]
    rfl
  · rw [finishHeartbeat, if_pos hg, recoverGridLoss_of_invalid e now ht]
    rfl

/-- An operation that is none of the owner's: no override, no change of the dry-run mode, and no
`start` but of a started watchdog. -/
def quiet (x : Taken HardwareWatchdog Event) : Prop :=
  Op.isOwners x.input.op = false ∨ (x.input.op = .start ∧ x.before.enabled = true)

theorem next_of_start {ev : Event} (hop : ev.op = .start) (hen : w.enabled = true) :
    next w ev = w := by
  simp [next, perform, hop, start, hen]

/-- In an outage that began at `since`, live and without an override. -/
structure InOutage (since : ℚ) (w : HardwareWatchdog) : Prop where
  no_override : w.overrideValue = none
  live : w.dryRun = false
  invalid : w.telemetryInvalid = true
  began : w.gridInvalidSince = some since

theorem InOutage.of_eq {since : ℚ} {w' : HardwareWatchdog} (h : InOutage since w)
    (hown : owner w' = owner w) (htel : telemetry w' = telemetry w) : InOutage since w' :=
  ⟨(congrArg Owner.overrideValue hown).trans h.no_override,
    (congrArg Owner.dryRun hown).trans h.live,
    (congrArg Telemetry.invalid htel).trans h.invalid,
    (congrArg Telemetry.since htel).trans h.began⟩

theorem InOutage.checkGridLossLocked {since : ℚ} (h : InOutage since w) :
    InOutage since (checkGridLossLocked e now w).1 :=
  h.of_eq (owner_of_bare (checkGridLossLocked_bare e now w)) (checkGridLossLocked_telemetry e now w)

theorem checkHeartbeat_live (ho : w.overrideValue = none) (hd : w.dryRun = false) :
    (checkHeartbeat e w).1 = (finishHeartbeat e e.now (checkGridLossLocked e e.now w).1).1 := by
  simp [checkHeartbeat, ho, hd]

/-- **Nothing but a good reading ends an outage or moves its deadline.** -/
theorem InOutage.next {since : ℚ} (h : InOutage since w) {ev : Event} (hq : quiet ⟨w, ev⟩)
    (hop : ev.op ≠ .markDbusUpdate) : InOutage since (next w ev) := by
  rcases hq with hq | ⟨hstart, hen⟩
  swap
  · rw [next_of_start hstart hen]; exact h
  refine h.of_eq (next_owner hq w) ?_
  obtain ⟨op, e⟩ := ev
  cases op with
  | setSetpointOverride arg requestId => cases hq
  | start => cases hq
  | setDryRun enabled => cases hq
  | markDbusUpdate => exact absurd rfl hop
  | rejectSetpointOverride error requestId => rfl
  | writeControlSetpoint value generation dryRun =>
    simp only [Model.next, perform, writeControlSetpoint]
    split_ifs
    · rfl
    · rfl
    · cases e.hardware <;> rfl
  | markDbusInvalid => simp [Model.next, perform, markDbusInvalid, telemetry, h.invalid, h.began]
  | markMqttUpdate => rfl
  | markSetpointUpdate => rfl
  | checkGridLoss => exact checkGridLossLocked_telemetry e e.now w
  | checkHeartbeat =>
    have h' := h.checkGridLossLocked e e.now
    simp only [Model.next, perform]
    rw [checkHeartbeat_live e h.no_override h.live,
      finishHeartbeat_telemetry e e.now h'.no_override h'.live h'.invalid]
    exact checkGridLossLocked_telemetry e e.now w

/-- The operations that check the deadline. -/
def checksDeadline (op : Op) : Prop :=
  op = .checkGridLoss ∨ op = .markDbusUpdate ∨ op = .checkHeartbeat

/-- The check of the deadline latches when it has passed, and not before. -/
theorem checkGridLossLocked_forced (ho : w.overrideValue = none) (hd : w.dryRun = false) {hold : ℚ}
    (hh : w.gridLossHoldSeconds = some hold) :
    (checkGridLossLocked e now w).1.gridLossForced = true ↔
      w.gridLossForced = true ∨ holdExpired now hold w := by
  rw [← latchIfExpired_forced, checkGridLossLocked_live e now ho hd hh]
  split_ifs with hf
  · obtain ⟨a, p, hf', ap, lw, hm⟩ :=
      maintainGridLossFallback_state e now (latchIfExpired now hold w)
    rw [hm]
  · rfl

/-- After an operation that checks the deadline the watchdog is latched if the check latched it: in
an outage nothing else of the operation releases it. -/
theorem InOutage.next_forced {since : ℚ} (h : InOutage since w) {ev : Event}
    (hop : checksDeadline ev.op) : (Model.next w ev).gridLossForced =
      (Model.checkGridLossLocked ev.env ev.env.now w).1.gridLossForced := by
  obtain ⟨op, e⟩ := ev
  rcases hop with rfl | rfl | rfl
  · rfl
  · rfl
  · simp only [Model.next, perform]
    rcases checkHeartbeat_cases e h.no_override h.live with ⟨hg, h1, h2⟩ | ⟨hf, h2⟩
    · obtain ⟨f, s, tr, hf, pre, ap, h3⟩ :=
        finishHeartbeat_state e e.now h.no_override h.live hg
      rw [h2, h1, h3]
    · rw [h2, hf, recoverGridLoss_of_invalid e e.now (h.checkGridLossLocked e e.now).invalid]
      exact hf

/-- **The deadline.**  In an outage an operation that checks the deadline latches the watchdog exactly
when it is latched already, had nothing to hold, was triggered, or the hold is over. -/
theorem InOutage.forced_iff {since hold : ℚ} (h : InOutage since w)
    (hh : w.gridLossHoldSeconds = some hold) {ev : Event} (hop : checksDeadline ev.op) :
    (Model.next w ev).gridLossForced = true ↔ w.gridLossForced = true ∨
      w.hasValidSetpoint = false ∨ w.triggered = true ∨ hold ≤ ev.env.now - since := by
  rw [h.next_forced hop, checkGridLossLocked_forced _ _ h.no_override h.live hh]
  simp [holdExpired, h.invalid, h.began]

/-! ### Where the deadline comes from -/

/-- A setpoint is accepted under valid telemetry, or by an override. -/
def acceptsSetpoint (x : Taken HardwareWatchdog Event) : Prop :=
  (∃ n requestId, x.input.op = .setSetpointOverride (.int n) requestId ∧
    x.input.env.hardware = .accepted) ∨
  (x.before.telemetryInvalid = false ∧ (x.input.op = .markSetpointUpdate ∨
    ∃ c ∈ calls x.before x.input, c.outcome = .accepted ∧
      ∃ generation dryRun, x.input.op = .writeControlSetpoint c.value generation dryRun))

/-- A setpoint to hold comes from an accepted one. -/
theorem hasValidSetpoint_of_next {ev : Event} (h : (next w ev).hasValidSetpoint = true) :
    w.hasValidSetpoint = true ∨ acceptsSetpoint ⟨w, ev⟩ := by
  obtain ⟨op, e⟩ := ev
  have hv : ∀ {w'}, bare w' = bare w → w'.hasValidSetpoint = w.hasValidSetpoint := fun h' => by
    have h'' := congrArg HardwareWatchdog.hasValidSetpoint h'
    exact h''
  cases op with
  | setSetpointOverride arg requestId =>
    cases arg with
    | other => exact Or.inl h
    | none =>
      simp only [next, perform, setSetpointOverride] at h
      split_ifs at h <;> exact Or.inl h
    | int n =>
      simp only [next, perform, setSetpointOverride] at h
      split_ifs at h
      · cases hh : e.hardware with
        | accepted => exact Or.inr (Or.inl ⟨n, requestId, rfl, hh⟩)
        | rejected => rw [hh] at h; exact Or.inl h
        | raised m => rw [hh] at h; exact Or.inl h
      · exact Or.inl h
  | writeControlSetpoint value generation dryRun =>
    cases ht : w.telemetryInvalid
    swap
    · left
      simp only [next, perform, writeControlSetpoint] at h
      split_ifs at h
      · exact h
      · exact h
      · cases hh : e.hardware <;> rw [hh] at h <;> simpa [markSetpointUpdate, ht] using h
    · by_cases hv : w.hasValidSetpoint = true
      · exact Or.inl hv
      refine Or.inr (Or.inr ⟨ht, Or.inr ⟨⟨value, .accepted, w⟩, ?_, rfl, generation, dryRun, rfl⟩⟩)
      simp only [calls, next, perform, writeControlSetpoint] at h ⊢
      split_ifs at h ⊢
      · exact absurd h hv
      · exact absurd h hv
      · cases hh : e.hardware with
        | accepted => exact List.mem_singleton_self _
        | rejected => rw [hh] at h; exact absurd h hv
        | raised m => rw [hh] at h; exact absurd h hv
  | markSetpointUpdate =>
    cases ht : w.telemetryInvalid
    · exact Or.inr (Or.inr ⟨ht, Or.inl rfl⟩)
    · simp only [next, perform, markSetpointUpdate, ht] at h
      exact Or.inl h
  | markDbusUpdate => exact Or.inl ((hv (checkGridLossLocked_bare e e.now w)).symm.trans h)
  | checkGridLoss => exact Or.inl ((hv (checkGridLossLocked_bare e e.now w)).symm.trans h)
  | checkHeartbeat => exact Or.inl ((hv (checkHeartbeat_bare e w)).symm.trans h)
  | start =>
    simp only [next, perform, start] at h
    split_ifs at h
    exact Or.inl h
  | rejectSetpointOverride error requestId => exact Or.inl h
  | markDbusInvalid => exact Or.inl h
  | markMqttUpdate => exact Or.inl h
  | setDryRun enabled => exact Or.inl h

theorem gridInvalidSince_of_recover {t : ℚ}
    (h : (recoverFromFailsafe e w).1.gridInvalidSince = some t) : w.gridInvalidSince = some t := by
  rcases recoverFromFailsafe_cases e w with h' | ⟨h', -, -⟩
  · rwa [h'] at h
  · rw [h'] at h
    unfold rearm releaseGridLoss at h
    split_ifs at h
    exact h

theorem gridInvalidSince_of_finishHeartbeat (ho : w.overrideValue = none) (hd : w.dryRun = false)
    {t : ℚ} (h : (finishHeartbeat e now w).1.gridInvalidSince = some t) :
    w.gridInvalidSince = some t := by
  cases hg : w.gridLossForced
  · obtain ⟨f, s, tr, hf, pre, ap, h'⟩ := finishHeartbeat_state e now ho hd hg
    rwa [h'] at h
  · rw [finishHeartbeat, if_pos hg] at h
    unfold recoverGridLoss at h
    split_ifs at h
    · have h2 := gridInvalidSince_of_recover e h
      exact h2
    · exact h

/-- **A deadline is only ever set by the first `mark_dbus_invalid`**, at its clock reading. -/
theorem gridInvalidSince_of_next {ev : Event} {t : ℚ}
    (h : (next w ev).gridInvalidSince = some t) :
    w.gridInvalidSince = some t ∨ (ev.op = .markDbusInvalid ∧ t = ev.env.now) := by
  obtain ⟨op, e⟩ := ev
  have hcheck : (checkGridLossLocked e e.now w).1.gridInvalidSince = w.gridInvalidSince :=
    congrArg Telemetry.since (checkGridLossLocked_telemetry e e.now w)
  cases op with
  | setSetpointOverride arg requestId =>
    left
    rw [next, perform] at h
    rcases setSetpointOverride_cases e w arg requestId with h' | ⟨err, rej, req, h'⟩
    · rwa [h'] at h
    · rwa [h'] at h
  | writeControlSetpoint value generation dryRun =>
    left
    simp only [next, perform, writeControlSetpoint] at h
    split_ifs at h
    · exact h
    · exact h
    · cases hh : e.hardware <;> rw [hh] at h <;> exact h
  | markDbusUpdate =>
    left
    simp only [next, perform, markDbusUpdate, noteTelemetry] at h
    split_ifs at h
    exact hcheck.symm.trans h
  | markDbusInvalid =>
    simp only [next, perform, markDbusInvalid] at h
    split_ifs at h
    · exact Or.inr ⟨rfl, (Option.some.inj h).symm⟩
    · exact Or.inl h
  | checkGridLoss => exact Or.inl (hcheck.symm.trans h)
  | checkHeartbeat =>
    left
    simp only [next, perform, checkHeartbeat] at h
    split_ifs at h with ho hd
    · obtain ⟨a, f, m, lw, u, h'⟩ := maintainOverride_state e e.now w
      rwa [h'] at h
    · exact h
    · have hown := owner_of_bare (checkGridLossLocked_bare e e.now w)
      refine hcheck.symm.trans (gridInvalidSince_of_finishHeartbeat e e.now ?_ ?_ h)
      · exact (congrArg Owner.overrideValue hown).trans (not_not.mp ho)
      · exact (congrArg Owner.dryRun hown).trans (Bool.eq_false_iff.mpr hd)
  | start =>
    simp only [next, perform, start] at h
    split_ifs at h
    exact Or.inl h
  | rejectSetpointOverride error requestId => exact Or.inl h
  | markMqttUpdate => exact Or.inl h
  | markSetpointUpdate => exact Or.inl h
  | setDryRun enabled => exact Or.inl h

/-- A valid telemetry that is not latched has no deadline left over. -/
def NoStale (w : HardwareWatchdog) : Prop :=
  w.telemetryInvalid = false → w.gridLossForced = false → w.gridInvalidSince = none

theorem checkGridLossLocked_keeps (hg : w.gridLossForced = true) :
    (checkGridLossLocked e now w).1.gridLossForced = true := by
  by_cases ho : w.overrideValue = none
  · cases hf : (checkGridLossLocked e now w).1.gridLossForced
    · rw [(checkGridLossLocked_not_forced e now ho hf).1] at hg
      cases hg
    · rfl
  · rw [checkGridLossLocked_of_override e now ho]
    obtain ⟨a, f, m, lw, u, h⟩ := maintainOverride_state e now w
    rw [h]
    exact hg

/-- The recovery of a latched watchdog counts, or releases it. -/
theorem recoverGridLoss_cases (w : HardwareWatchdog) :
    (recoverGridLoss e now w).1 = countRecovery now w ∨
    (recoveryCheckPasses now w ∧ w.successThreshold ≤ w.successCount + 1 ∧
      (recoverGridLoss e now w).1 = rearm (releaseGridLoss (countRecovery now w))) := by
  unfold recoverGridLoss
  split_ifs with h
  · rcases recoverFromFailsafe_cases e (countRecovery now w) with h' | ⟨h', -, -⟩
    · exact Or.inl h'
    · exact Or.inr ⟨h.1, h.2, h'⟩
  · exact Or.inl rfl

theorem NoStale.checkHeartbeat (h : NoStale w) : NoStale (checkHeartbeat e w).1 := by
  by_cases ho : w.overrideValue = none
  swap
  · obtain ⟨a, f, m, lw, u, h'⟩ := maintainOverride_state e e.now w
    rw [Model.checkHeartbeat, if_pos ho, h']
    exact h
  cases hd : w.dryRun
  swap
  · simpa [Model.checkHeartbeat, ho, hd] using h
  rcases checkHeartbeat_cases e ho hd with ⟨hg, -, h'⟩ | ⟨hf, h'⟩
  · obtain ⟨f, s, tr, hf, pre, ap, h2⟩ := finishHeartbeat_state e e.now ho hd hg
    rw [h', h2]
    exact h
  · rw [h']
    rcases recoverGridLoss_cases e e.now (checkGridLossLocked e e.now w).1 with h2 | ⟨-, -, h2⟩
    · rw [h2]
      intro _ hg
      rw [show (countRecovery e.now (checkGridLossLocked e e.now w).1).gridLossForced = true from hf]
        at hg
      cases hg
    · rw [h2]
      intro _ _
      rw [releaseGridLoss, if_pos (by exact hf)]
      rfl

/-- **Only an operator's command leaves an old deadline behind.** -/
theorem NoStale.next (h : NoStale w) {ev : Event} (hcmd : ¬ isCommand ev.op) :
    NoStale (next w ev) := by
  obtain ⟨op, e⟩ := ev
  cases op with
  | setSetpointOverride arg requestId => exact absurd ⟨_, _, rfl⟩ hcmd
  | writeControlSetpoint value generation dryRun =>
    simp only [Model.next, perform, writeControlSetpoint]
    split_ifs
    · exact h
    · exact h
    · cases e.hardware <;> exact h
  | markDbusUpdate =>
    intro _ hg
    simp only [Model.next, perform, markDbusUpdate, noteTelemetry] at hg ⊢
    simp [hg]
  | markDbusInvalid => intro ht; cases ht
  | checkGridLoss =>
    intro ht hg
    have htel := checkGridLossLocked_telemetry e e.now w
    refine (congrArg Telemetry.since htel).trans (h ?_ ?_)
    · exact (congrArg Telemetry.invalid htel).symm.trans ht
    · cases hf : w.gridLossForced
      · rfl
      · exact (checkGridLossLocked_keeps e e.now hf).symm.trans hg
  | checkHeartbeat => exact h.checkHeartbeat e
  | start =>
    simp only [Model.next, perform, start]
    split_ifs
    · exact h
    · exact fun _ _ => rfl
  | rejectSetpointOverride error requestId => exact h
  | markMqttUpdate => exact h
  | markSetpointUpdate => exact h
  | setDryRun enabled => exact h

/-! ### What a latched watchdog remembers -/

/-- A step that begins latched. -/
def latched (x : Taken HardwareWatchdog Event) : Prop := x.before.gridLossForced = true

/-- The hardware accepts a -10 W of a latched watchdog. -/
def acceptsFallback (x : Taken HardwareWatchdog Event) : Prop :=
  ∃ c ∈ calls x.before x.input, c.value = gridLossFallbackSetpoint ∧ c.outcome = .accepted ∧
    c.watchdog.gridLossForced = true

/-- A heartbeat that sees valid telemetry, no older than the timeout. -/
def goodHeartbeat (x : Taken HardwareWatchdog Event) : Prop :=
  x.input.op = .checkHeartbeat ∧ x.before.telemetryInvalid = false ∧
    x.input.env.now - x.before.lastDbusUpdate ≤ x.before.timeoutSeconds

/-- A latched step that is no heartbeat and no loss of the telemetry.  In dry-run mode a heartbeat
checks nothing. -/
def between (x : Taken HardwareWatchdog Event) : Prop :=
  latched x ∧ x.input.op ≠ .markDbusInvalid ∧
    (x.input.op = .checkHeartbeat → x.before.dryRun = true)

theorem Sound.valid_of_count (hw : Sound w) (hc : 1 ≤ w.successCount) :
    w.telemetryInvalid = false := by
  cases ht : w.telemetryInvalid
  · rfl
  · rw [hw.count_of_invalid ht] at hc
    cases hc

theorem checkGridLossLocked_successCount (w : HardwareWatchdog) :
    (checkGridLossLocked e now w).1.successCount = w.successCount := by
  by_cases ho : w.overrideValue = none
  · obtain ⟨hf, p, lw, a, gf, tr, pre, ap, h⟩ := checkGridLossLocked_state e now ho
    rw [h]
  · obtain ⟨a, f, m, lw, u, h⟩ := maintainOverride_state e now w
    rw [checkGridLossLocked_of_override e now ho, h]

/-- The check latches only while the telemetry is invalid. -/
theorem forced_of_check (ht : w.telemetryInvalid = false)
    (hg : (checkGridLossLocked e now w).1.gridLossForced = true) : w.gridLossForced = true := by
  by_cases ho : w.overrideValue = none
  · rcases checkGridLossLocked_cases e now ho with h | ⟨-, hold, -, hf, -⟩
    · rwa [h] at hg
    · rcases (latchIfExpired_forced now w hold).mp hf with h | h
      · exact h
      · rw [h.1] at ht
        cases ht
  · obtain ⟨a, f, m, lw, u, h⟩ := maintainOverride_state e now w
    rw [checkGridLossLocked_of_override e now ho, h] at hg
    exact hg

/-- Once the check leaves a latched watchdog with a forced output, the hardware accepted its
fallback, now or earlier in the same latch. -/
theorem checkGridLossLocked_accepted (hg : (checkGridLossLocked e now w).1.gridLossForced = true)
    (hf : (checkGridLossLocked e now w).1.hardwareForced = true) :
    (∃ c ∈ (checkGridLossLocked e now w).2, c.value = gridLossFallbackSetpoint ∧
      c.outcome = .accepted ∧ c.watchdog.gridLossForced = true) ∨
    (w.gridLossForced = true ∧ w.hardwareForced = true) := by
  by_cases ho : w.overrideValue = none
  · rcases checkGridLossLocked_cases e now ho with h | ⟨-, hold, -, hlatch, h⟩
    · rw [h] at hg hf
      exact Or.inr ⟨hg, hf⟩
    · rw [h] at hf ⊢
      rcases maintainGridLossFallback_applied e now (latchIfExpired now hold w) with
        ⟨hforced, -, -⟩ | ⟨-, -, hcalls⟩
      · right
        rw [hforced] at hf
        unfold latchIfExpired at hf hlatch
        split_ifs at hf hlatch
        · rw [latchGridLoss_hardwareForced, Bool.and_eq_true] at hf
          exact hf
        · exact ⟨hlatch, hf⟩
      · left
        rw [hcalls]
        exact ⟨_, List.mem_singleton_self _, rfl, rfl, hlatch⟩
  · right
    rw [checkGridLossLocked_of_override e now ho] at hg hf
    obtain ⟨a, f, m, lw, u, h⟩ := maintainOverride_state e now w
    rw [h] at hg hf
    exact ⟨hg, hf⟩

/-- What the recovery's check sees is the telemetry the heartbeat found. -/
theorem valid_of_recoveryCheck (h : recoveryCheckPasses e.now (checkGridLossLocked e e.now w).1) :
    w.telemetryInvalid = false ∧ e.now - w.lastDbusUpdate ≤ w.timeoutSeconds := by
  have htel := checkGridLossLocked_telemetry e e.now w
  have hinv : (checkGridLossLocked e e.now w).1.telemetryInvalid = w.telemetryInvalid :=
    congrArg Telemetry.invalid htel
  have hlast : (checkGridLossLocked e e.now w).1.lastDbusUpdate = w.lastDbusUpdate :=
    congrArg Telemetry.lastUpdate htel
  have htime : (checkGridLossLocked e e.now w).1.timeoutSeconds = w.timeoutSeconds :=
    congrArg Owner.timeoutSeconds (owner_of_bare (checkGridLossLocked_bare e e.now w))
  obtain ⟨-, -, ht, hage⟩ := h
  exact ⟨hinv.symm.trans ht, by rwa [hlast, htime] at hage⟩

theorem rearm_releaseGridLoss_forced : (rearm (releaseGridLoss w)).gridLossForced = false := by
  unfold rearm releaseGridLoss
  split_ifs with h
  · rfl
  · simpa using h

/-- A heartbeat of a live watchdog without an override leaves it latched only by the recovery's
count. -/
theorem checkHeartbeat_forced (ho : w.overrideValue = none) (hd : w.dryRun = false)
    (h : (checkHeartbeat e w).1.gridLossForced = true) :
    (checkGridLossLocked e e.now w).1.gridLossForced = true ∧
      checkHeartbeat e w = (countRecovery e.now (checkGridLossLocked e e.now w).1,
        (checkGridLossLocked e e.now w).2) := by
  rcases checkHeartbeat_cases e ho hd with ⟨hg, -, h'⟩ | ⟨hf, h'⟩
  · exfalso
    rw [h'] at h
    obtain ⟨f, s, tr, hf, pre, ap, h2⟩ := finishHeartbeat_state e e.now ho hd hg
    rw [h2] at h
    simp only [hg] at h
    cases h
  · refine ⟨hf, ?_⟩
    rw [h'] at h ⊢
    rcases recoverGridLoss_cases e e.now (checkGridLossLocked e e.now w).1 with h2 | ⟨-, -, h2⟩
    · rw [h2]
    · rw [h2, rearm_releaseGridLoss_forced] at h
      cases h

/-- A write of the control loop changes nothing of the latch. -/
theorem writeControlSetpoint_state (value : ℤ) (generation : ℕ) (dryRun : Bool)
    (w : HardwareWatchdog) : ∃ u v ap, (writeControlSetpoint value generation dryRun e w).1.1 =
      { w with lastSetpointUpdate := u, hasValidSetpoint := v, gridLossFallbackApplied := ap } := by
  unfold writeControlSetpoint
  split_ifs
  · exact ⟨_, _, _, rfl⟩
  · exact ⟨_, _, _, rfl⟩
  · cases e.hardware <;> exact ⟨_, _, _, rfl⟩

/-- **The step of the accepted fallback.**  A watchdog that is latched with a forced output after a
step was so before it, or the hardware accepted a fallback in it. -/
theorem accepted_of_next {ev : Event} (hg : (next w ev).gridLossForced = true)
    (hf : (next w ev).hardwareForced = true) : acceptsFallback ⟨w, ev⟩ ∨
      (w.gridLossForced = true ∧ w.hardwareForced = true) := by
  obtain ⟨op, e⟩ := ev
  cases op with
  | setSetpointOverride arg requestId =>
    rw [next, perform] at hg hf
    rcases setSetpointOverride_cases e w arg requestId with h | ⟨err, rej, req, h⟩
    · rw [h] at hg; cases hg
    · rw [h] at hg hf; exact Or.inr ⟨hg, hf⟩
  | writeControlSetpoint value generation dryRun =>
    obtain ⟨u, v, ap, h⟩ := writeControlSetpoint_state e value generation dryRun w
    rw [next, perform, h] at hg hf
    exact Or.inr ⟨hg, hf⟩
  | markDbusUpdate => exact checkGridLossLocked_accepted e e.now hg hf
  | checkGridLoss => exact checkGridLossLocked_accepted e e.now hg hf
  | checkHeartbeat =>
    simp only [next, perform] at hg hf
    by_cases ho : w.overrideValue = none
    swap
    · obtain ⟨a, f, m, lw, u, h⟩ := maintainOverride_state e e.now w
      rw [checkHeartbeat, if_pos ho, h] at hg hf
      exact Or.inr ⟨hg, hf⟩
    cases hd : w.dryRun
    swap
    · simp only [checkHeartbeat, ho, hd] at hg hf
      exact Or.inr ⟨hg, hf⟩
    obtain ⟨hg', h⟩ := checkHeartbeat_forced e ho hd hg
    rw [h] at hf
    rcases checkGridLossLocked_accepted e e.now hg' hf with ⟨c, hc, h'⟩ | h'
    · refine Or.inl ⟨c, ?_, h'⟩
      simp only [calls, perform, h]
      exact hc
    · exact Or.inr h'
  | start =>
    simp only [next, perform, start] at hg hf
    split_ifs at hg hf
    exact Or.inr ⟨hg, hf⟩
  | rejectSetpointOverride error requestId => exact Or.inr ⟨hg, hf⟩
  | markDbusInvalid => exact Or.inr ⟨hg, hf⟩
  | markMqttUpdate => exact Or.inr ⟨hg, hf⟩
  | markSetpointUpdate => exact Or.inr ⟨hg, hf⟩
  | setDryRun enabled => exact Or.inr ⟨hg, hf⟩

/-- **The step of the recovery's count.**  A latched watchdog that has counted a success after a step
counted it in a good heartbeat, now or before. -/
theorem counted_of_next (hw : Sound w) {ev : Event} (hg : (next w ev).gridLossForced = true)
    (hc : 1 ≤ (next w ev).successCount) : (latched ⟨w, ev⟩ ∧ goodHeartbeat ⟨w, ev⟩) ∨
      (between ⟨w, ev⟩ ∧ 1 ≤ w.successCount) := by
  obtain ⟨op, e⟩ := ev
  cases op with
  | setSetpointOverride arg requestId =>
    rw [next, perform] at hg hc
    rcases setSetpointOverride_cases e w arg requestId with h | ⟨err, rej, req, h⟩
    · rw [h] at hg; cases hg
    · rw [h] at hg hc
      exact Or.inr ⟨⟨hg, by simp, by simp⟩, hc⟩
  | writeControlSetpoint value generation dryRun =>
    obtain ⟨u, v, ap, h⟩ := writeControlSetpoint_state e value generation dryRun w
    rw [next, perform, h] at hg hc
    exact Or.inr ⟨⟨hg, by simp, by simp⟩, hc⟩
  | markDbusUpdate =>
    have hc' : 1 ≤ w.successCount := checkGridLossLocked_successCount e e.now w ▸ hc
    have hg' := forced_of_check e e.now (hw.valid_of_count hc') hg
    exact Or.inr ⟨⟨hg', by simp, by simp⟩, hc'⟩
  | checkGridLoss =>
    have hc' : 1 ≤ w.successCount := checkGridLossLocked_successCount e e.now w ▸ hc
    have hg' := forced_of_check e e.now (hw.valid_of_count hc') hg
    exact Or.inr ⟨⟨hg', by simp, by simp⟩, hc'⟩
  | checkHeartbeat =>
    simp only [next, perform] at hg hc
    by_cases ho : w.overrideValue = none
    swap
    · exfalso
      obtain ⟨a, f, m, lw, u, h⟩ := maintainOverride_state e e.now w
      rw [checkHeartbeat, if_pos ho, h] at hg
      exact ho (hw.override_of_forced hg)
    cases hd : w.dryRun
    swap
    · simp only [checkHeartbeat, ho, hd] at hg hc
      exact Or.inr ⟨⟨hg, by simp, fun _ => hd⟩, hc⟩
    obtain ⟨hg', h⟩ := checkHeartbeat_forced e ho hd hg
    rw [h] at hc
    simp only [countRecovery] at hc
    split_ifs at hc with hpass
    · obtain ⟨ht, hage⟩ := valid_of_recoveryCheck e hpass
      exact Or.inl ⟨forced_of_check e e.now ht hg', rfl, ht, hage⟩
    · cases hc
  | markDbusInvalid => cases hc
  | start =>
    simp only [next, perform, start] at hg hc
    split_ifs at hg hc
    exact Or.inr ⟨⟨hg, by simp, by simp⟩, hc⟩
  | rejectSetpointOverride error requestId => exact Or.inr ⟨⟨hg, by simp, by simp⟩, hc⟩
  | markMqttUpdate => exact Or.inr ⟨⟨hg, by simp, by simp⟩, hc⟩
  | markSetpointUpdate => exact Or.inr ⟨⟨hg, by simp, by simp⟩, hc⟩
  | setDryRun enabled => exact Or.inr ⟨⟨hg, by simp, by simp⟩, hc⟩

end InverterControl.Watchdog.MeterLoss
