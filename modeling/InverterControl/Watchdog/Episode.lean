import InverterControl.Watchdog.MeterLoss

/-!
# Runs through a meter loss

The step lemmas of `MeterLoss` over whole runs: what a latched watchdog has behind it, how long an
outage has lasted, and what a release requires.
-/

namespace InverterControl.Watchdog.Episode

open InverterControl.Lib.Runs InverterControl.Watchdog.Model InverterControl.Watchdog.Steps
open InverterControl.Watchdog.MeterLoss

variable {w : HardwareWatchdog} {ev : Event}

/-! ### The release -/

/-- Only a heartbeat can release the latch, the owner's operations apart. -/
theorem forced_of_next (hg : w.gridLossForced = true) (hq : quiet ⟨w, ev⟩)
    (hop : ev.op ≠ .checkHeartbeat) : (next w ev).gridLossForced = true := by
  rcases hq with hq | ⟨hstart, hen⟩
  swap
  · rw [next_of_start hstart hen]; exact hg
  obtain ⟨op, e⟩ := ev
  cases op with
  | checkHeartbeat => exact absurd rfl hop
  | setSetpointOverride arg requestId => cases hq
  | start => cases hq
  | setDryRun enabled => cases hq
  | writeControlSetpoint value generation dryRun =>
    obtain ⟨u, v, ap, h⟩ := writeControlSetpoint_state e value generation dryRun w
    rw [next, perform, h]
    exact hg
  | markDbusUpdate => exact checkGridLossLocked_keeps e e.now hg
  | checkGridLoss => exact checkGridLossLocked_keeps e e.now hg
  | rejectSetpointOverride error requestId => exact hg
  | markDbusInvalid => exact hg
  | markMqttUpdate => exact hg
  | markSetpointUpdate => exact hg

/-- **The step of the release**: a good heartbeat, after a success was counted, with an accepted
fallback in place; it arms the watchdog again and leaves nothing to restore. -/
theorem release_step (hw : Sound w) (hthr : w.successThreshold = 2) (hg : w.gridLossForced = true)
    (hr : (next w ev).gridLossForced = false) (hq : quiet ⟨w, ev⟩) :
    goodHeartbeat ⟨w, ev⟩ ∧ 1 ≤ w.successCount ∧
      calls w ev = (checkGridLossLocked ev.env ev.env.now w).2 ∧
      recoveryCheckPasses ev.env.now (checkGridLossLocked ev.env ev.env.now w).1 ∧
      next w ev = rearm (releaseGridLoss
        (countRecovery ev.env.now (checkGridLossLocked ev.env ev.env.now w).1)) := by
  have hop : ev.op = .checkHeartbeat := by
    by_contra hop
    rw [forced_of_next hg hq hop] at hr
    cases hr
  obtain ⟨op, e⟩ := ev
  simp only at hop
  subst hop
  have ho := hw.override_of_forced hg
  have hd : w.dryRun = false := by
    cases hd : w.dryRun
    · rfl
    · simp [next, perform, checkHeartbeat, ho, hd, hg] at hr
  rcases checkHeartbeat_cases e ho hd with ⟨hg', -, -⟩ | ⟨hf, h⟩
  · rw [hg'] at hg
    cases hg
  simp only [next, calls, perform, h] at hr ⊢
  rcases recoverGridLoss_cases e e.now (checkGridLossLocked e e.now w).1 with h2 | ⟨hpass, hn, h2⟩
  · rw [h2] at hr
    rw [show (countRecovery e.now (checkGridLossLocked e e.now w).1).gridLossForced = true from hf]
      at hr
    cases hr
  · obtain ⟨ht, hage⟩ := valid_of_recoveryCheck e hpass
    have hthr' : (checkGridLossLocked e e.now w).1.successThreshold = 2 :=
      (congrArg Owner.successThreshold
        (owner_of_bare (checkGridLossLocked_bare e e.now w))).trans hthr
    rw [hthr', checkGridLossLocked_successCount] at hn
    exact ⟨⟨rfl, ht, hage⟩, by omega, trivial, hpass, h2⟩

/-! ### What a latched watchdog has behind it -/

/-- A latched watchdog with a forced output has an accepted fallback behind it, and one that has
counted a success a good heartbeat, both since it latched. -/
structure Remembers (past : List (Taken HardwareWatchdog Event)) (w : HardwareWatchdog) : Prop where
  sound : Sound w
  accepted : w.gridLossForced = true → w.hardwareForced = true → Since latched acceptsFallback past
  counted : w.gridLossForced = true → 1 ≤ w.successCount →
    Since between (fun x => latched x ∧ goodHeartbeat x) past

theorem Remembers.next {past : List (Taken HardwareWatchdog Event)} (h : Remembers past w) :
    Remembers (past ++ [⟨w, ev⟩]) (next w ev) where
  sound := h.sound.next ev
  accepted := fun hg hf => by
    rw [since_snoc]
    rcases accepted_of_next hg hf with hacc | ⟨hg', hf'⟩
    · exact Or.inl hacc
    · exact Or.inr ⟨hg', h.accepted hg' hf'⟩
  counted := fun hg hc => by
    rw [since_snoc]
    rcases counted_of_next h.sound hg hc with hgood | ⟨hbetween, hc'⟩
    · exact Or.inl hgood
    · exact Or.inr ⟨hbetween, h.counted hbetween.1 hc'⟩

theorem Remembers.run {w₀ : HardwareWatchdog} (hw : Sound w₀) (hg : w₀.gridLossForced = false)
    (evs : List Event) : Remembers (trace Model.next w₀ evs) (exec Model.next w₀ evs) := by
  refine history_induction (P := fun is s => Remembers (trace Model.next w₀ is) s) ?_ ?_ evs
  · exact ⟨hw, fun h => (by rw [hg] at h; cases h), fun h => (by rw [hg] at h; cases h)⟩
  · intro is ev h
    rw [trace_snoc]
    exact h.next

/-! ### How long an outage has lasted -/

/-- A step of an outage: nothing of the owner's, and no good reading. -/
def outageStep (x : Taken HardwareWatchdog Event) : Prop :=
  quiet x ∧ x.input.op ≠ .markDbusUpdate

/-- The first `mark_dbus_invalid` of an outage, at `t0`, live and without an override; the deadline
runs from `since`. -/
structure OutageBegins (t0 since : ℚ) (x : Taken HardwareWatchdog Event) : Prop where
  op : x.input.op = .markDbusInvalid
  now : x.input.env.now = t0
  valid : x.before.telemetryInvalid = false
  no_override : x.before.overrideValue = none
  live : x.before.dryRun = false
  since_eq : x.before.gridInvalidSince.getD t0 = since

theorem OutageBegins.inOutage {t0 since : ℚ} (h : OutageBegins t0 since ⟨w, ev⟩) :
    InOutage since (next w ev) := by
  obtain ⟨op, e⟩ := ev
  obtain ⟨hop, hnow, -, ho, hd, hs⟩ := h
  simp only at hop hnow ho hd hs
  subst hop hnow
  refine ⟨ho, hd, rfl, ?_⟩
  simp only [next, perform, markDbusInvalid]
  cases hsince : w.gridInvalidSince with
  | none => rw [hsince] at hs; simpa using hs
  | some t => rw [hsince] at hs; simpa using hs

/-- **The deadline stays where the outage put it.** -/
theorem inOutage_run {w₀ : HardwareWatchdog} {t0 since : ℚ} {evs : List Event}
    (h : Since outageStep (OutageBegins t0 since) (trace next w₀ evs)) :
    InOutage since (exec next w₀ evs) := by
  revert h
  refine history_induction (P := fun is s =>
    Since outageStep (OutageBegins t0 since) (trace next w₀ is) → InOutage since s) ?_ ?_ evs
  · exact fun h => absurd h not_since_nil
  · intro is ev ih h
    rw [trace_snoc, since_snoc] at h
    rcases h with h | ⟨⟨hq, hop⟩, h⟩
    · exact h.inOutage
    · exact (ih h).next hq hop

/-- A deadline is the clock reading of some earlier step. -/
theorem since_mem_run {w₀ : HardwareWatchdog} (h₀ : w₀.gridInvalidSince = none) (evs : List Event)
    {t : ℚ} (h : (exec next w₀ evs).gridInvalidSince = some t) : ∃ ev ∈ evs, ev.env.now = t := by
  revert h
  refine history_induction (P := fun is (s : HardwareWatchdog) => s.gridInvalidSince = some t →
    ∃ ev ∈ is, ev.env.now = t) ?_ ?_ evs
  · intro h
    rw [h₀] at h
    cases h
  · intro is ev ih h
    rcases gridInvalidSince_of_next h with h' | ⟨-, rfl⟩
    · obtain ⟨ev', hmem, hnow⟩ := ih h'
      exact ⟨ev', List.mem_append_left _ hmem, hnow⟩
    · exact ⟨ev, by simp, rfl⟩

theorem hasValidSetpoint_run {w₀ : HardwareWatchdog} (h₀ : w₀.hasValidSetpoint = false)
    (evs : List Event) (hacc : ∀ x ∈ trace next w₀ evs, ¬ acceptsSetpoint x) :
    (exec next w₀ evs).hasValidSetpoint = false := by
  refine exec_invariant (P := fun s : HardwareWatchdog => s.hasValidSetpoint = false) h₀ fun x hx h => ?_
  by_contra hv
  rcases hasValidSetpoint_of_next (Bool.of_not_eq_false hv) with h' | h'
  · rw [h] at h'
    cases h'
  · exact hacc x hx h'

/-! ### The meter-loss episode -/

/-- The watchdog after `evs`, with a meter-loss hold. -/
abbrev after (timeoutSeconds : ℚ) (dryRun : Bool) (hold : ℚ) (evs : List Event) : HardwareWatchdog :=
  exec next (init timeoutSeconds dryRun (some hold)) evs

/-- The steps that led there. -/
abbrev history (timeoutSeconds : ℚ) (dryRun : Bool) (hold : ℚ) (evs : List Event) :
    List (Taken HardwareWatchdog Event) :=
  trace next (init timeoutSeconds dryRun (some hold)) evs

/-- In an outage that began at `t0`: the deadline is in place, and an operation that checks it
latches the watchdog when it has passed, when there is nothing to hold or it was triggered. -/
structure LatchesAtDeadline (hold t0 since : ℚ) (w : HardwareWatchdog) : Prop where
  deadline : w.gridInvalidSince = some since
  not_later : since ≤ t0
  forced_iff : ∀ ev, checksDeadline ev.op → ((next w ev).gridLossForced = true ↔
    w.gridLossForced = true ∨ w.hasValidSetpoint = false ∨ w.triggered = true ∨
      since + hold ≤ ev.env.now)

/-- A latched watchdog is triggered, refuses the control loop and writes nothing but the fallback. -/
structure WritesOnlyFallback (x : Taken HardwareWatchdog Event) : Prop where
  triggered : latched x → x.before.triggered = true
  refused : latched x → ∀ value generation dryRun e,
    writeControlSetpoint value generation dryRun e x.before = ((x.before, []), .refused)
  value : ∀ c ∈ calls x.before x.input, latched x ∨ c.watchdog.gridLossForced = true →
    ¬ isCommand x.input.op → c.value = gridLossFallbackSetpoint

/-- The release in step `x`: the second good heartbeat in a row of the latched watchdog, after an
accepted fallback that is not due again; nothing but a fallback is written, nothing is left to
restore. -/
structure ReleasedProperly (past : List (Taken HardwareWatchdog Event))
    (x : Taken HardwareWatchdog Event) : Prop where
  heartbeat : goodHeartbeat x
  heartbeat_before : Since between (fun y => latched y ∧ goodHeartbeat y) past
  accepted : Since latched acceptsFallback (past ++ [x])
  not_pending : (next x.before x.input).gridLossRefreshPending = false
  rearmed : (next x.before x.input).triggered = false
  not_forced : (next x.before x.input).hardwareForced = false
  nothing_saved : (next x.before x.input).preForcedSetpoint = 0
  value : ∀ c ∈ calls x.before x.input, c.value = gridLossFallbackSetpoint

theorem writesOnlyFallback (hw : Sound w) : WritesOnlyFallback ⟨w, ev⟩ where
  triggered := hw.triggered_of_forced
  refused := fun hg value _ dryRun e =>
    writeControlSetpoint_of_blocked e (Or.inr (Or.inr (hw.triggered_of_forced hg))) value dryRun
  value := fun _ hc hg hop => value_of_forced hw hc hg hop

theorem rearm_releaseGridLoss_pending (w : HardwareWatchdog) :
    (rearm (releaseGridLoss w)).gridLossRefreshPending = w.gridLossRefreshPending := by
  unfold rearm releaseGridLoss
  split_ifs <;> rfl

theorem releasedProperly {past : List (Taken HardwareWatchdog Event)} (h : Remembers past w)
    (hthr : w.successThreshold = 2) (hg : w.gridLossForced = true)
    (hr : (next w ev).gridLossForced = false) (hq : quiet ⟨w, ev⟩) :
    ReleasedProperly past ⟨w, ev⟩ := by
  obtain ⟨hgood, hcount, hcalls, hpass, hnext⟩ := release_step h.sound hthr hg hr hq
  have hcmd : ¬ isCommand ev.op := by
    rintro ⟨arg, requestId, hop⟩
    rw [hgood.1] at hop
    cases hop
  refine
    { heartbeat := hgood
      heartbeat_before := h.counted hg hcount
      accepted := ?_
      not_pending := ?_
      rearmed := by rw [hnext]; rfl
      not_forced := by rw [hnext]; rfl
      nothing_saved := by rw [hnext]; rfl
      value := fun c hc => value_of_forced h.sound hc (Or.inl hg) hcmd }
  · rw [since_snoc]
    have hkeep := checkGridLossLocked_keeps ev.env ev.env.now hg
    rcases checkGridLossLocked_accepted ev.env ev.env.now hkeep hpass.1 with ⟨c, hc, hacc⟩ | h'
    · exact Or.inl ⟨c, hcalls ▸ hc, hacc⟩
    · exact Or.inr ⟨hg, h.accepted hg h'.2⟩
  · simp only
    rw [hnext, rearm_releaseGridLoss_pending]
    exact hpass.2.1

theorem since_le_of_begins {w₀ : HardwareWatchdog} (h₀ : w₀.gridInvalidSince = none)
    {evs : List Event} (hclock : evs.Pairwise fun a b => a.env.now ≤ b.env.now) {t0 since : ℚ}
    (h : Since outageStep (OutageBegins t0 since) (trace next w₀ evs)) : since ≤ t0 := by
  obtain ⟨a, x, b, htr, hx, -⟩ := h
  obtain ⟨pre, post, rfl, hb⟩ := (mem_trace next).mp
    (show x ∈ trace next w₀ evs by rw [htr]; simp)
  have hs := hx.since_eq
  cases hsince : x.before.gridInvalidSince with
  | none =>
    rw [hsince] at hs
    exact le_of_eq hs.symm
  | some t =>
    rw [hsince] at hs
    simp only [Option.getD_some] at hs
    subst hs
    obtain ⟨ev, hmem, hnow⟩ := since_mem_run h₀ pre (hb ▸ hsince)
    rw [← hnow, ← hx.now]
    exact (List.pairwise_append.mp hclock).2.2 ev hmem x.input (by simp)

/-- An outage of a watchdog that is not latched has its own deadline, unless an operator's command
left an old one behind. -/
theorem since_eq_of_begins {w₀ : HardwareWatchdog} (h₀ : NoStale w₀) {evs : List Event}
    (hcmd : ∀ ev ∈ evs, ¬ isCommand ev.op) {t0 since : ℚ}
    (h : Since outageStep (fun x => OutageBegins t0 since x ∧ ¬ latched x) (trace next w₀ evs)) :
    since = t0 := by
  obtain ⟨a, x, b, htr, ⟨hx, hg⟩, -⟩ := h
  obtain ⟨pre, post, rfl, hb⟩ := (mem_trace next).mp
    (show x ∈ trace next w₀ evs by rw [htr]; simp)
  have hns : NoStale x.before := by
    rw [hb]
    refine exec_invariant h₀ fun y hy h => h.next (hcmd y.input ?_)
    obtain ⟨p, q, rfl, -⟩ := (mem_trace next).mp hy
    simp
  have hs := hx.since_eq
  rw [hns hx.valid (by simpa [latched] using hg)] at hs
  exact hs.symm

/-- **The meter-loss episode**, in every run from `__init__` with a hold and a clock that does not go
back. -/
theorem meter_loss_episode (timeoutSeconds : ℚ) (dryRun : Bool) (hold : ℚ) (evs : List Event)
    (hclock : evs.Pairwise fun a b => a.env.now ≤ b.env.now) :
    (∀ t0 since,
      Since outageStep (OutageBegins t0 since) (history timeoutSeconds dryRun hold evs) →
      LatchesAtDeadline hold t0 since (after timeoutSeconds dryRun hold evs)) ∧
    ((∀ ev ∈ evs, ¬ isCommand ev.op) → ∀ t0 since,
      Since outageStep (fun x => OutageBegins t0 since x ∧ ¬ latched x)
        (history timeoutSeconds dryRun hold evs) → since = t0) ∧
    ((∀ x ∈ history timeoutSeconds dryRun hold evs, ¬ acceptsSetpoint x) →
      (after timeoutSeconds dryRun hold evs).hasValidSetpoint = false) ∧
    (∀ x ∈ history timeoutSeconds dryRun hold evs, WritesOnlyFallback x) ∧
    ∀ ev, (after timeoutSeconds dryRun hold evs).gridLossForced = true →
      (next (after timeoutSeconds dryRun hold evs) ev).gridLossForced = false →
      quiet ⟨after timeoutSeconds dryRun hold evs, ev⟩ →
      ReleasedProperly (history timeoutSeconds dryRun hold evs)
        ⟨after timeoutSeconds dryRun hold evs, ev⟩ := by
  have hsound := Sound.init timeoutSeconds dryRun (some hold)
  have hconfig := exec_thresholds (init timeoutSeconds dryRun (some hold)) evs
  refine ⟨fun t0 since h => ?_, fun hcmd t0 since h => since_eq_of_begins (fun _ _ => rfl) hcmd h,
    fun h => hasValidSetpoint_run rfl evs h, fun x hx => ?_, fun ev hg hr hq => ?_⟩
  · have hout := inOutage_run h
    refine ⟨hout.began, since_le_of_begins rfl hclock h, fun ev hop => ?_⟩
    rw [hout.forced_iff (congrArg Thresholds.gridLossHoldSeconds hconfig) hop, le_sub_iff_add_le']
  · exact writesOnlyFallback (trace_invariant hsound (fun y _ hy => hy.next y.input) x hx)
  · exact releasedProperly (Remembers.run hsound rfl evs)
      (congrArg Thresholds.successThreshold hconfig) hg hr hq

/-- A setpoint is accepted at 0 s and the meter is lost at 1 s, with a hold of 5 s. -/
def lossAtOne : List Event :=
  [⟨.start, ⟨0, 0, .accepted, none⟩⟩, ⟨.writeControlSetpoint 800 0 false, ⟨0, 0, .accepted, none⟩⟩,
    ⟨.markDbusInvalid, ⟨1, 1, .accepted, none⟩⟩]

theorem meter_loss_episode_at_six :
    (next (after 30 false 5 lossAtOne) ⟨.checkGridLoss, ⟨6, 6, .accepted, none⟩⟩).gridLossForced =
      true ∧
    (next (after 30 false 5 lossAtOne) ⟨.checkGridLoss, ⟨5, 5, .accepted, none⟩⟩).gridLossForced =
      false := by
  have hbegins : Since outageStep (OutageBegins 1 1) (history 30 false 5 lossAtOne) :=
    ⟨history 30 false 5 (lossAtOne.take 2),
      ⟨after 30 false 5 (lossAtOne.take 2), ⟨.markDbusInvalid, ⟨1, 1, .accepted, none⟩⟩⟩, [], rfl,
      ⟨rfl, rfl, rfl, rfl, rfl, rfl⟩, by simp⟩
  have h := (meter_loss_episode 30 false 5 lossAtOne (by decide +kernel)).1 1 1 hbegins
  constructor
  · exact (h.forced_iff _ (Or.inl rfl)).mpr (by decide +kernel)
  · refine Bool.eq_false_iff.mpr fun hf => absurd ((h.forced_iff _ (Or.inl rfl)).mp hf) ?_
    decide +kernel

end InverterControl.Watchdog.Episode
