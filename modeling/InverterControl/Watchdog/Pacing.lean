import InverterControl.Watchdog.MeterLoss

/-!
# The pace of the safety writes

The distances between the attempts of the fallback, and between the refreshes of the override, come
from the timestamps alone: `fallbackStep` and `overrideStep` say what one entry point can do to
them, `Covers` and `OverrideCovers` are what the rest of a run keeps, and `fallbackSpaced` and
`overrideSpaced` put them together.
-/

namespace InverterControl.Watchdog.Pacing

open InverterControl.Lib.Runs InverterControl.Watchdog.Model InverterControl.Watchdog.Steps
open InverterControl.Watchdog.MeterLoss

variable (e : Env) (now : ℚ) {w : HardwareWatchdog} {ev : Event}

/-! ### What one entry point does to the fallback's timestamps -/

/-- The timestamps of the fallback. -/
structure Pace where
  attempt : Option ℚ
  write : Option ℚ
  pending : Bool

def pace (w : HardwareWatchdog) : Pace :=
  ⟨w.lastGridLossAttempt, w.lastGridLossWrite, w.gridLossRefreshPending⟩

/-- The timestamps after an attempt at `now`; `write` is the last accepted one before it. -/
def answered (e : Env) (now : ℚ) (write : Option ℚ) : Pace :=
  if e.hardware = .accepted then ⟨some now, some e.after, false⟩ else ⟨some now, write, true⟩

/-- The last accepted fallback of the outage that is latched. -/
def episodeWrite (w : HardwareWatchdog) : Option ℚ :=
  if w.gridLossForced then w.lastGridLossWrite else none

/-- An attempt of the fallback: a hardware call of a latched outage that is no operator's command. -/
def fallbackAttempt (ev : Event) (c : HwCall) : Prop :=
  c.watchdog.gridLossForced = true ∧ ¬ isCommand ev.op

theorem maintainGridLossFallback_pace (h : ¬ fallbackNotDue now w) :
    pace (maintainGridLossFallback e now w).1 = answered e now w.lastGridLossWrite := by
  rw [maintainGridLossFallback, if_neg h]
  unfold finishFallback answered
  split_ifs
  · rfl
  · rfl

/-- A first latch starts a new episode; in a latched outage it changes none of the timestamps. -/
theorem latchIfExpired_pace {hold : ℚ} (h : (latchIfExpired now hold w).gridLossForced = true) :
    (w.gridLossForced = true ∧ pace (latchIfExpired now hold w) = pace w) ∨
    (w.gridLossForced = false ∧ pace (latchIfExpired now hold w) = ⟨none, none, true⟩) := by
  unfold latchIfExpired latchGridLoss at h ⊢
  split_ifs at h ⊢ with hx hf
  · exact Or.inl ⟨hf, rfl⟩
  · exact Or.inr ⟨by simpa using hf, rfl⟩
  · exact Or.inl ⟨h, rfl⟩

/-- What the check does to the timestamps, without an override. -/
theorem checkGridLossLocked_pace (ho : w.overrideValue = none) :
    (pace (checkGridLossLocked e now w).1 = pace w ∧
      (checkGridLossLocked e now w).1.gridLossForced = w.gridLossForced ∧
      (checkGridLossLocked e now w).2 = []) ∨
    (w.gridLossHoldSeconds ≠ none ∧
      (w.gridLossForced = true → ¬ fallbackNotDue now w) ∧
      (checkGridLossLocked e now w).1.gridLossForced = true ∧
      pace (checkGridLossLocked e now w).1 = answered e now (episodeWrite w) ∧
      ∀ c ∈ (checkGridLossLocked e now w).2, c.outcome = e.hardware) := by
  rcases checkGridLossLocked_cases e now ho with h | ⟨-, hold, hh, hlatch, h⟩
  · exact Or.inl (by rw [h]; exact ⟨rfl, rfl, rfl⟩)
  have hforced : (checkGridLossLocked e now w).1.gridLossForced = true := by
    obtain ⟨a, p, hf, ap, lw, hm⟩ := maintainGridLossFallback_state e now (latchIfExpired now hold w)
    rw [h, hm]
    exact hlatch
  have hhold : w.gridLossHoldSeconds ≠ none := by rw [hh]; exact Option.some_ne_none hold
  have hcalls : ∀ c ∈ (checkGridLossLocked e now w).2, c.outcome = e.hardware := by
    intro c hc
    rw [h] at hc
    rw [maintainGridLossFallback_calls e now _ hc]
  rcases latchIfExpired_pace now hlatch with ⟨hf, hp⟩ | ⟨hf, hp⟩
  · have hdue : fallbackNotDue now (latchIfExpired now hold w) ↔ fallbackNotDue now w := by
      have ha : (latchIfExpired now hold w).lastGridLossAttempt = w.lastGridLossAttempt :=
        congrArg Pace.attempt hp
      have hw : (latchIfExpired now hold w).lastGridLossWrite = w.lastGridLossWrite :=
        congrArg Pace.write hp
      have hpend : (latchIfExpired now hold w).gridLossRefreshPending = w.gridLossRefreshPending :=
        congrArg Pace.pending hp
      unfold fallbackNotDue
      rw [ha, hw, hpend]
    by_cases hnot : fallbackNotDue now w
    · left
      have hm : maintainGridLossFallback e now (latchIfExpired now hold w) =
          (latchIfExpired now hold w, []) := by
        rw [maintainGridLossFallback, if_pos (hdue.mpr hnot)]
      rw [h, hm]
      exact ⟨hp, hlatch.trans hf.symm, rfl⟩
    · right
      refine ⟨hhold, fun _ => hnot, hforced, ?_, hcalls⟩
      rw [h, maintainGridLossFallback_pace e now (mt hdue.mp hnot), episodeWrite, if_pos hf]
      exact congrArg (answered e now) (congrArg Pace.write hp)
  · right
    refine ⟨hhold, fun h' => (by rw [hf] at h'; cases h'), hforced, ?_, hcalls⟩
    have ha : (latchIfExpired now hold w).lastGridLossAttempt = none := congrArg Pace.attempt hp
    rw [h, maintainGridLossFallback_pace e now (fun hn => hn.1 ha), episodeWrite,
      if_neg (by simp [hf])]
    exact congrArg (answered e now) (congrArg Pace.write hp)

/-- **What one entry point can do to the fallback's timestamps**: keep them, end the episode, or
attempt a write that is due. -/
inductive FallbackStep (w : HardwareWatchdog) (ev : Event) : Prop
  | kept (hpace : pace (next w ev) = pace w)
      (hforced : (next w ev).gridLossForced = true → w.gridLossForced = true)
      (hcalls : ∀ c ∈ calls w ev, ¬ fallbackAttempt ev c)
  | reset (hpace : pace (next w ev) = ⟨none, none, false⟩)
      (hforced : (next w ev).gridLossForced = false)
      (hcalls : ∀ c ∈ calls w ev, ¬ fallbackAttempt ev c)
  | attempted (hhold : w.gridLossHoldSeconds ≠ none)
      (hdue : w.gridLossForced = true → ¬ fallbackNotDue ev.env.now w)
      (hpace : pace (next w ev) = answered ev.env ev.env.now (episodeWrite w))
      (hcalls : ∀ c ∈ calls w ev, c.outcome = ev.env.hardware)

theorem maintainOverride_pace : pace (maintainOverride e now w).1 = pace w ∧
    (maintainOverride e now w).1.gridLossForced = w.gridLossForced := by
  obtain ⟨a, f, m, lw, u, h⟩ := maintainOverride_state e now w
  rw [h]
  exact ⟨rfl, rfl⟩

theorem recoverGridLoss_pace (w : HardwareWatchdog) :
    pace (recoverGridLoss e now w).1 = pace w ∧
      ((recoverGridLoss e now w).1.gridLossForced = true → w.gridLossForced = true) := by
  rcases recoverGridLoss_cases e now w with h | ⟨-, -, h⟩
  · rw [h]
    exact ⟨rfl, id⟩
  · obtain ⟨gf, since, hf, tr, pre, h'⟩ := rearm_releaseGridLoss_state (countRecovery now w)
    have hreleased := rearm_releaseGridLoss_forced (w := countRecovery now w)
    rw [h]
    refine ⟨by rw [h']; rfl, fun hg => ?_⟩
    rw [hreleased] at hg
    cases hg

/-- While an override is active no outage is latched, and no call is an attempt of the fallback. -/
theorem no_fallbackAttempt_of_override (hs : Sound w) (ho : w.overrideValue ≠ none) {c : HwCall}
    (hc : c ∈ calls w ev) : ¬ fallbackAttempt ev c := by
  rintro ⟨hg, hcmd⟩
  have hlatched : w.gridLossForced = false := by
    refine Bool.eq_false_iff.mpr fun hf => ho (hs.override_of_forced hf)
  cases calls_madeBy hc with
  | manual requestId hop hw => exact hcmd ⟨_, requestId, hop⟩
  | refresh hv hg' hown =>
    rw [hg', hlatched] at hg
    cases hg
  | normal generation hop hfree hd hw => exact hfree (Or.inl ho)
  | fallback ho' hd hv hg' hown => exact ho ho'
  | failsafe hop ho' hd hlive hv hg' hown => exact ho ho'
  | restore hop ho' hd hlive hv htr hf hg' hown => exact ho ho'

/-- Outside the checks of the deadline no call is an attempt of the fallback. -/
theorem no_fallbackAttempt_of_write (hs : Sound w) {value : ℤ} {generation : ℕ} {dryRun : Bool}
    {c : HwCall} (hc : c ∈ (writeControlSetpoint value generation dryRun e w).1.2) :
    c.watchdog.gridLossForced = false := by
  obtain ⟨hfree, -, -, rfl⟩ := writeControlSetpoint_calls e hc
  exact Bool.eq_false_iff.mpr fun hg => hfree (Or.inr (Or.inr (hs.triggered_of_forced hg)))

/-- A heartbeat without a latched outage makes its calls without one. -/
theorem finishHeartbeat_not_latched (ho : w.overrideValue = none) (hd : w.dryRun = false)
    (hg : w.gridLossForced = false) {c : HwCall} (hc : c ∈ (finishHeartbeat e now w).2) :
    c.watchdog.gridLossForced = false := by
  obtain ⟨f, s, tr, ⟨h, -⟩ | ⟨-, -, h⟩ | ⟨-, -, h⟩⟩ := finishHeartbeat_cases e now ho hd hg
  · rw [h] at hc
    cases hc
  · rw [h] at hc
    obtain rfl := List.mem_singleton.mp hc
    obtain ⟨pre, hs⟩ := saveSetpoint_state e
      { w with failCount := f, successCount := s, triggered := tr }
    rw [hs]
    exact hg
  · rw [h] at hc
    obtain ⟨rfl, -, hlive, -, -⟩ := recoverFromFailsafe_calls e _ hc
    exact hlive

theorem fallbackStep_of_check (ho : w.overrideValue = none)
    (hcalls : calls w ev = (checkGridLossLocked ev.env ev.env.now w).2)
    (hpace : pace (next w ev) = pace (checkGridLossLocked ev.env ev.env.now w).1)
    (hforced : (next w ev).gridLossForced = true →
      (checkGridLossLocked ev.env ev.env.now w).1.gridLossForced = true) : FallbackStep w ev := by
  rcases checkGridLossLocked_pace ev.env ev.env.now ho with ⟨hp, hf, hc⟩ | ⟨hh, hdue, -, hp, hc⟩
  · refine .kept (hpace.trans hp) (fun h => hf ▸ hforced h) fun c hmem => ?_
    rw [hcalls, hc] at hmem
    cases hmem
  · exact .attempted hh hdue (hpace.trans hp) (fun c hmem => hc c (hcalls ▸ hmem))

theorem fallbackStep_of_override (hs : Sound w) (ho : w.overrideValue ≠ none)
    (hpace : pace (next w ev) = pace (maintainOverride ev.env ev.env.now w).1)
    (hforced : (next w ev).gridLossForced =
      (maintainOverride ev.env ev.env.now w).1.gridLossForced) : FallbackStep w ev := by
  obtain ⟨hp, hf⟩ := maintainOverride_pace ev.env ev.env.now (w := w)
  refine .kept (hpace.trans hp) (fun h => ?_) fun c hc => no_fallbackAttempt_of_override hs ho hc
  rwa [hforced, hf] at h

theorem fallbackStep_heartbeat (hs : Sound w) : FallbackStep w ⟨.checkHeartbeat, e⟩ := by
  by_cases ho : w.overrideValue = none
  swap
  · have h : next w ⟨.checkHeartbeat, e⟩ = (maintainOverride e e.now w).1 := by
      simp [next, perform, checkHeartbeat, ho]
    exact fallbackStep_of_override hs ho (congrArg pace h) (congrArg _ h)
  cases hd : w.dryRun
  swap
  · have h : perform w ⟨.checkHeartbeat, e⟩ = (w, []) := by simp [perform, checkHeartbeat, ho, hd]
    refine .kept (by rw [next, h]) (by rw [next, h]; exact id) fun c hc => ?_
    rw [calls, h] at hc
    cases hc
  rcases checkHeartbeat_cases e ho hd with ⟨hg, -, h⟩ | ⟨-, h⟩
  · obtain ⟨f, s, tr, hf, pre, ap, h'⟩ := finishHeartbeat_state e e.now ho hd hg
    have hnext : next w ⟨.checkHeartbeat, e⟩ = (finishHeartbeat e e.now w).1 :=
      congrArg (fun x : Step => x.1) h
    refine .kept (by rw [hnext, h']; rfl) (by rw [hnext, h']; exact id) fun c hc hatt => ?_
    rw [calls, show perform w ⟨.checkHeartbeat, e⟩ = _ from h] at hc
    have hno := finishHeartbeat_not_latched e e.now ho hd hg hc
    rw [hatt.1] at hno
    cases hno
  · obtain ⟨hp, hf⟩ := recoverGridLoss_pace e e.now (checkGridLossLocked e e.now w).1
    have hnext : next w ⟨.checkHeartbeat, e⟩ =
        (recoverGridLoss e e.now (checkGridLossLocked e e.now w).1).1 := by
      simp only [next, perform, h]
    have hcalls : calls w ⟨.checkHeartbeat, e⟩ = (checkGridLossLocked e e.now w).2 := by
      simp only [calls, perform, h]
    exact fallbackStep_of_check ho hcalls (by rw [hnext]; exact hp)
      (by rw [hnext]; exact hf)

/-- **Every step is one of the three.** -/
theorem fallbackStep (hs : Sound w) (ev : Event) : FallbackStep w ev := by
  obtain ⟨op, e⟩ := ev
  cases op with
  | setSetpointOverride arg requestId =>
    have hcmd : ∀ c ∈ calls w ⟨.setSetpointOverride arg requestId, e⟩,
        ¬ fallbackAttempt ⟨.setSetpointOverride arg requestId, e⟩ c :=
      fun c _ h => h.2 ⟨arg, requestId, rfl⟩
    rcases setSetpointOverride_cases e w arg requestId with h | ⟨err, rej, req, h⟩
    · have hnext : next w ⟨.setSetpointOverride arg requestId, e⟩ = _ := h
      exact .reset (by rw [hnext]; rfl) (by rw [hnext]; rfl) hcmd
    · have hnext : next w ⟨.setSetpointOverride arg requestId, e⟩ = _ := h
      exact .kept (by rw [hnext]; rfl) (by rw [hnext]; exact id) hcmd
  | writeControlSetpoint value generation dryRun =>
    obtain ⟨u, v, ap, h⟩ := writeControlSetpoint_state e value generation dryRun w
    have hnext : next w ⟨.writeControlSetpoint value generation dryRun, e⟩ = _ := h
    refine .kept (by rw [hnext]; rfl) (by rw [hnext]; exact id) fun c hc hatt => ?_
    have := no_fallbackAttempt_of_write e hs hc
    rw [hatt.1] at this
    cases this
  | markDbusUpdate =>
    by_cases ho : w.overrideValue = none
    · exact fallbackStep_of_check ho rfl rfl id
    · have h := checkGridLossLocked_of_override e e.now ho
      have hnext : next w ⟨.markDbusUpdate, e⟩ =
          noteTelemetry e.now (maintainOverride e e.now w).1 :=
        congrArg (fun x : Step => noteTelemetry e.now x.1) h
      exact fallbackStep_of_override hs ho (by rw [hnext]; rfl) (by rw [hnext]; rfl)
  | checkGridLoss =>
    by_cases ho : w.overrideValue = none
    · exact fallbackStep_of_check ho rfl rfl id
    · have h := checkGridLossLocked_of_override e e.now ho
      have hnext : next w ⟨.checkGridLoss, e⟩ = (maintainOverride e e.now w).1 :=
        congrArg (fun x : Step => x.1) h
      exact fallbackStep_of_override hs ho (by rw [hnext]) (by rw [hnext])
  | checkHeartbeat => exact fallbackStep_heartbeat e hs
  | start =>
    by_cases hen : w.enabled = true
    · have h : next w ⟨.start, e⟩ = w := next_of_start rfl hen
      exact .kept (by rw [h]) (by rw [h]; exact id) fun c hc => by cases hc
    · have h : next w ⟨.start, e⟩ = start e.now w := rfl
      rw [start, if_neg hen] at h
      exact .reset (by rw [h]; rfl) (by rw [h]) fun c hc => by cases hc
  | rejectSetpointOverride error requestId => exact .kept rfl id fun c hc => by cases hc
  | markDbusInvalid => exact .kept rfl id fun c hc => by cases hc
  | markMqttUpdate => exact .kept rfl id fun c hc => by cases hc
  | markSetpointUpdate => exact .kept rfl id fun c hc => by cases hc
  | setDryRun enabled => exact .kept rfl id fun c hc => by cases hc

theorem answered_attempt (e : Env) (now : ℚ) (write : Option ℚ) :
    (answered e now write).attempt = some now := by
  unfold answered
  split_ifs
  · rfl
  · rfl

/-- What every reachable state keeps of the timestamps: a latched outage has a hold, and a write of
the fallback had its attempt. -/
structure Timed (w : HardwareWatchdog) : Prop where
  hold_of_forced : w.gridLossForced = true → w.gridLossHoldSeconds ≠ none
  attempt_of_write : w.lastGridLossWrite ≠ none → w.lastGridLossAttempt ≠ none

/-- **Every step keeps `Timed`.** -/
theorem Timed.next (hw : Timed w) (hs : Sound w) (ev : Event) : Timed (next w ev) := by
  have hold : (Model.next w ev).gridLossHoldSeconds = w.gridLossHoldSeconds :=
    congrArg Thresholds.gridLossHoldSeconds (next_thresholds w ev)
  cases fallbackStep hs ev with
  | kept hpace hforced hcalls =>
    have ha : (Model.next w ev).lastGridLossAttempt = w.lastGridLossAttempt :=
      congrArg Pace.attempt hpace
    have hwr : (Model.next w ev).lastGridLossWrite = w.lastGridLossWrite :=
      congrArg Pace.write hpace
    constructor
    · intro hf
      rw [hold]
      exact hw.hold_of_forced (hforced hf)
    · rw [ha, hwr]
      exact hw.attempt_of_write
  | reset hpace hforced hcalls =>
    have hwr : (Model.next w ev).lastGridLossWrite = none := congrArg Pace.write hpace
    constructor
    · intro hf
      rw [hforced] at hf
      cases hf
    · exact fun h => absurd hwr h
  | attempted hhold hdue hpace hcalls =>
    have ha : (Model.next w ev).lastGridLossAttempt = some ev.env.now :=
      (congrArg Pace.attempt hpace).trans (answered_attempt _ _ _)
    constructor
    · intro _
      rwa [hold]
    · intro _
      rw [ha]
      exact Option.some_ne_none _

theorem Timed.init (timeoutSeconds : ℚ) (dryRun : Bool) (hold : Option ℚ) :
    Timed (init timeoutSeconds dryRun hold) := by
  constructor
  · intro h
    cases h
  · exact fun h => absurd rfl h

/-- Every reachable watchdog is sound and timed. -/
theorem reachable_timed (h : Reachable w) : Sound w ∧ Timed w := by
  obtain ⟨timeoutSeconds, dryRun, hold, evs, rfl⟩ := h
  refine exec_invariant (P := fun w => Sound w ∧ Timed w) ?_ fun x _ hx => ?_
  · exact ⟨Sound.init _ _ _, Timed.init _ _ _⟩
  · exact ⟨hx.1.next x.input, hx.2.next hx.1 x.input⟩

/-! ### The distances of the fallback's attempts -/

/-- A clock that does not go back: no reading of a call lies before an earlier one. -/
structure Monotonic (evs : List Event) : Prop where
  within : ∀ ev ∈ evs, ev.env.now ≤ ev.env.after
  order : evs.Pairwise fun a b => a.env.after ≤ b.env.now

/-- The timestamps lie behind an attempt at `attempt` and, if it was accepted, behind the write at
`write`. -/
structure Covers (attempt : ℚ) (write : Option ℚ) (p : Pace) : Prop where
  tried : ∃ t, p.attempt = some t ∧ attempt ≤ t ∧
    (p.pending = true → ∀ r ∈ write, r + gridLossRefreshInterval ≤ t)
  written : p.pending = false → ∃ s, p.write = some s ∧ attempt ≤ s ∧ ∀ r ∈ write, r ≤ s

variable {attempt : ℚ} {write : Option ℚ}

/-- An attempt that is due comes after the intervals. -/
theorem Covers.due (h : Covers attempt write (pace w)) (hdue : ¬ fallbackNotDue now w) :
    attempt + gridLossRetryInterval ≤ now ∧ ∀ r ∈ write, r + gridLossRefreshInterval ≤ now := by
  obtain ⟨t, ht, hle, hpend⟩ := h.tried
  have ha : w.lastGridLossAttempt = some t := ht
  rw [fallbackNotDue, ha] at hdue
  cases hp : w.gridLossRefreshPending
  · obtain ⟨s, hs, hle', hr⟩ := h.written hp
    have hs' : w.lastGridLossWrite = some s := hs
    have hge : gridLossRefreshInterval ≤ now - s := by
      simpa [hp, within, hs'] using hdue
    simp only [gridLossRefreshInterval, gridLossRetryInterval] at hge ⊢
    refine ⟨by linarith, fun r hmem => ?_⟩
    have := hr r hmem
    linarith
  · have hge : gridLossRetryInterval ≤ now - t := by
      simpa [hp, within] using hdue
    simp only [gridLossRefreshInterval, gridLossRetryInterval] at hge hpend ⊢
    refine ⟨by linarith, fun r hmem => ?_⟩
    have := hpend hp r hmem
    linarith

/-- A later attempt lies behind the same attempt and write. -/
theorem Covers.answered (hnow : attempt ≤ now)
    (hwrite : ∀ r ∈ write, r + gridLossRefreshInterval ≤ now) (hafter : now ≤ e.after)
    (last : Option ℚ) : Covers attempt write (answered e now last) := by
  unfold Pacing.answered
  split_ifs
  · refine ⟨⟨now, rfl, hnow, fun h => (by cases h)⟩, fun _ => ⟨e.after, rfl, hnow.trans hafter, ?_⟩⟩
    intro r hr
    have := hwrite r hr
    simp only [gridLossRefreshInterval] at this
    linarith
  · exact ⟨⟨now, rfl, hnow, fun _ => hwrite⟩, fun h => (by cases h)⟩

/-- The attempt itself. -/
theorem Covers.first (hafter : e.now ≤ e.after) (last : Option ℚ) :
    Covers e.now (if e.hardware = .accepted then some e.after else none)
      (Pacing.answered e e.now last) := by
  unfold Pacing.answered
  split_ifs
  · exact ⟨⟨e.now, rfl, le_rfl, fun h => (by cases h)⟩,
      fun _ => ⟨e.after, rfl, hafter, fun r hr => (Option.some.inj hr).ge⟩⟩
  · exact ⟨⟨e.now, rfl, le_rfl, fun _ r hr => by cases hr⟩, fun h => (by cases h)⟩

/-- **A step of the episode keeps `Covers`.** -/
theorem Covers.next (h : Covers attempt write (pace w)) (hs : Sound w) (hg : w.gridLossForced = true)
    (hg' : (next w ev).gridLossForced = true) (hnow : attempt ≤ ev.env.now)
    (hafter : ev.env.now ≤ ev.env.after) : Covers attempt write (pace (Model.next w ev)) := by
  cases fallbackStep hs ev with
  | kept hpace hforced hcalls => rwa [hpace]
  | reset hpace hforced hcalls =>
    rw [hforced] at hg'
    cases hg'
  | attempted hhold hdue hpace hcalls =>
    rw [hpace]
    exact Covers.answered ev.env ev.env.now hnow (h.due ev.env.now (hdue hg)).2 hafter _

/-! ### The distances of the override's refreshes -/

/-- **What one entry point can do to the override's timestamp**: keep it, set it by a command that
takes effect, or refresh an override that is due. -/
inductive OverrideStep (w : HardwareWatchdog) (ev : Event) : Prop
  | kept (hvalue : (next w ev).overrideValue = w.overrideValue)
      (hlast : w.overrideValue ≠ none → overrideLast (next w ev) = overrideLast w)
      (hcalls : ∀ c ∈ calls w ev, w.overrideValue = none ∨
        isCommand ev.op ∧ c.outcome ≠ .accepted)
  | commanded (hcmd : isCommand ev.op)
      (hlast : (next w ev).overrideValue ≠ none → overrideLast (next w ev) = some ev.env.after)
  | refreshed (hcmd : ¬ isCommand ev.op) (ho : w.overrideValue ≠ none)
      (hdue : ¬ within (overrideLast w) ev.env.now setpointOverrideInterval)
      (hlast : overrideLast (next w ev) =
        some (if ev.env.hardware = .accepted then ev.env.after else ev.env.now))
      (hcalls : ∀ c ∈ calls w ev, c.outcome = ev.env.hardware)

theorem not_isCommand {op : Op} (h : Op.isOwners op = false) : ¬ isCommand op := by
  rintro ⟨arg, requestId, rfl⟩
  cases h

/-- Without an override, an entry point that is not the owner's leaves none. -/
theorem overrideStep_of_none (ho : w.overrideValue = none) (hop : Op.isOwners ev.op = false) :
    OverrideStep w ev :=
  .kept (congrArg Owner.overrideValue (next_owner hop w)) (fun h => absurd ho h)
    fun _ _ => Or.inl ho

theorem overrideLast_refreshed {v : ℤ} (hv : w.overrideValue = some v)
    (hdue : ¬ within (overrideLast w) now setpointOverrideInterval) :
    overrideLast (maintainOverride e now w).1 =
      some (if e.hardware = .accepted then e.after else now) := by
  simp only [maintainOverride, hv, if_neg hdue]
  unfold finishRefresh
  split_ifs
  · rfl
  · rfl

/-- An entry point that maintains the override and nothing else of it. -/
theorem overrideStep_of_maintain (ho : w.overrideValue ≠ none) (hop : Op.isOwners ev.op = false)
    (hlast : overrideLast (next w ev) = overrideLast (maintainOverride ev.env ev.env.now w).1)
    (hcalls : calls w ev = (maintainOverride ev.env ev.env.now w).2) : OverrideStep w ev := by
  obtain ⟨v, hv⟩ := Option.ne_none_iff_exists'.mp ho
  by_cases hdue : within (overrideLast w) ev.env.now setpointOverrideInterval
  · have hm : maintainOverride ev.env ev.env.now w = (w, []) := by
      simp only [maintainOverride, hv, if_pos hdue]
    rw [hm] at hlast hcalls
    refine .kept (congrArg Owner.overrideValue (next_owner hop w)) (fun _ => hlast) fun c hc => ?_
    rw [hcalls] at hc
    cases hc
  · refine .refreshed (not_isCommand hop) ho hdue
      (hlast.trans (overrideLast_refreshed ev.env ev.env.now hv hdue)) fun c hc => ?_
    rw [hcalls] at hc
    exact (maintainOverride_calls ev.env ev.env.now w hc).2.1

theorem overrideStep_command (arg : OverrideArg) (requestId : Option String) :
    OverrideStep w ⟨.setSetpointOverride arg requestId, e⟩ := by
  have hcmd : isCommand (Op.setSetpointOverride arg requestId) := ⟨arg, requestId, rfl⟩
  rcases arg with _ | n | _
  · by_cases ho : w.overrideValue = none
    · have h : perform w ⟨.setSetpointOverride .none requestId, e⟩ = ({ w with
          overrideError := none, overrideRejectionError := none,
          overrideRequestId := requestId }, []) := by
        simp [perform, setSetpointOverride, ho]
      exact .kept (by rw [next, h]) (fun h' => absurd ho h') fun c _ => Or.inl ho
    · have h : perform w ⟨.setSetpointOverride .none requestId, e⟩ =
          (installOverride e.after none requestId w, []) := by
        simp [perform, setSetpointOverride, ho]
      refine .commanded hcmd fun h' => ?_
      rw [next, h] at h'
      exact absurd rfl h'
  · by_cases hacc : isInt32 n ∧ e.hardware = .accepted
    · have h : next w ⟨.setSetpointOverride (.int n) requestId, e⟩ =
          installOverride e.after (some n) requestId w := by
        simp [next, perform, setSetpointOverride, hacc]
      exact .commanded hcmd fun _ => by rw [h]; rfl
    · have h : ∃ err req, next w ⟨.setSetpointOverride (.int n) requestId, e⟩ =
          rejectSetpointOverride err req w := by
        simp only [next, perform, setSetpointOverride]
        split_ifs with hn
        · cases hh : e.hardware with
          | accepted => exact absurd ⟨hn, hh⟩ hacc
          | rejected => exact ⟨_, _, rfl⟩
          | raised m => exact ⟨_, _, rfl⟩
        · exact ⟨_, _, rfl⟩
      obtain ⟨err, req, h⟩ := h
      refine .kept (by rw [h]; rfl) (fun _ => by rw [h]; rfl) fun c hc => Or.inr ⟨hcmd, ?_⟩
      obtain ⟨m, hm, hint, rfl⟩ := setSetpointOverride_calls e hc
      obtain rfl := OverrideArg.int.inj hm
      exact fun h' => hacc ⟨hint, h'⟩
  · exact .kept rfl (fun _ => rfl) fun c hc => by cases hc

/-- **Every step is one of the three.** -/
theorem overrideStep (w : HardwareWatchdog) (ev : Event) : OverrideStep w ev := by
  obtain ⟨op, e⟩ := ev
  cases op with
  | setSetpointOverride arg requestId => exact overrideStep_command e arg requestId
  | writeControlSetpoint value generation dryRun =>
    by_cases ho : w.overrideValue = none
    · exact overrideStep_of_none ho rfl
    · have hblocked : writeBlocked generation w := Or.inl ho
      have h := writeControlSetpoint_of_blocked e hblocked value dryRun
      refine .kept (by simp only [next, perform, h]) (fun _ => by simp only [next, perform, h])
        fun c hc => ?_
      simp only [calls, perform, h] at hc
      cases hc
  | markDbusUpdate =>
    by_cases ho : w.overrideValue = none
    · exact overrideStep_of_none ho rfl
    · have h := checkGridLossLocked_of_override e e.now ho
      refine overrideStep_of_maintain ho rfl ?_ ?_
      · simp only [next, perform, markDbusUpdate, h]
        rfl
      · simp only [calls, perform, markDbusUpdate, h]
  | checkGridLoss =>
    by_cases ho : w.overrideValue = none
    · exact overrideStep_of_none ho rfl
    · have h := checkGridLossLocked_of_override e e.now ho
      refine overrideStep_of_maintain ho rfl ?_ ?_
      · simp only [next, perform, checkGridLoss, h]
      · simp only [calls, perform, checkGridLoss, h]
  | checkHeartbeat =>
    by_cases ho : w.overrideValue = none
    · exact overrideStep_of_none ho rfl
    · have h : checkHeartbeat e w = maintainOverride e e.now w := by simp [checkHeartbeat, ho]
      refine overrideStep_of_maintain ho rfl ?_ ?_
      · simp only [next, perform, h]
      · simp only [calls, perform, h]
  | start =>
    have h : (start e.now w).overrideValue = w.overrideValue ∧
        overrideLast (start e.now w) = overrideLast w := by
      unfold start
      split_ifs
      · exact ⟨rfl, rfl⟩
      · exact ⟨rfl, rfl⟩
    exact .kept h.1 (fun _ => h.2) fun c hc => by cases hc
  | rejectSetpointOverride error requestId =>
    exact .kept rfl (fun _ => rfl) fun c hc => by cases hc
  | markDbusInvalid => exact .kept rfl (fun _ => rfl) fun c hc => by cases hc
  | markMqttUpdate => exact .kept rfl (fun _ => rfl) fun c hc => by cases hc
  | markSetpointUpdate => exact .kept rfl (fun _ => rfl) fun c hc => by cases hc
  | setDryRun enabled => exact .kept rfl (fun _ => rfl) fun c hc => by cases hc

/-- The timestamp of an active override lies behind `r`. -/
def OverrideCovers (r : ℚ) (w : HardwareWatchdog) : Prop :=
  w.overrideValue ≠ none → ∃ s, overrideLast w = some s ∧ r ≤ s

/-- An automatic refresh of the override. -/
def overrideRefresh (w : HardwareWatchdog) (ev : Event) : Prop :=
  w.overrideValue ≠ none ∧ ¬ isCommand ev.op

variable {r : ℚ} {c : HwCall}

/-- **Every later step keeps the override's timestamp behind `r`.** -/
theorem OverrideCovers.next (h : OverrideCovers r w) (hnow : r ≤ ev.env.now)
    (hafter : ev.env.now ≤ ev.env.after) : OverrideCovers r (next w ev) := by
  intro ho
  cases overrideStep w ev with
  | kept hvalue hlast hcalls =>
    have ho' : w.overrideValue ≠ none := by rwa [hvalue] at ho
    rw [hlast ho']
    exact h ho'
  | commanded hcmd hlast => exact ⟨_, hlast ho, hnow.trans hafter⟩
  | refreshed hcmd ho' hdue hlast hcalls =>
    refine ⟨_, hlast, ?_⟩
    split_ifs
    · exact hnow.trans hafter
    · exact hnow

/-- Every accepted hardware write: an override that is active after it was written by it. -/
theorem OverrideCovers.of_accepted (hc : c ∈ calls w ev) (hacc : c.outcome = .accepted) :
    OverrideCovers ev.env.after (Model.next w ev) := by
  intro ho
  cases overrideStep w ev with
  | kept hvalue hlast hcalls =>
    rcases hcalls c hc with hnone | ⟨-, hne⟩
    · rw [hvalue] at ho
      exact absurd hnone ho
    · exact absurd hacc hne
  | commanded hcmd hlast => exact ⟨_, hlast ho, le_rfl⟩
  | refreshed hcmd ho' hdue hlast hcalls =>
    have hhw : ev.env.hardware = .accepted := (hcalls c hc).symm.trans hacc
    rw [if_pos hhw] at hlast
    exact ⟨_, hlast, le_rfl⟩

/-- A refresh that failed. -/
theorem OverrideCovers.of_failed (hc : c ∈ calls w ev) (hr : overrideRefresh w ev)
    (hfail : c.outcome ≠ .accepted) : OverrideCovers ev.env.now (Model.next w ev) := by
  intro _
  cases overrideStep w ev with
  | kept hvalue hlast hcalls =>
    rcases hcalls c hc with hnone | ⟨hcmd, -⟩
    · exact absurd hnone hr.1
    · exact absurd hcmd hr.2
  | commanded hcmd hlast => exact absurd hcmd hr.2
  | refreshed hcmd ho' hdue hlast hcalls =>
    rw [if_neg (fun h => hfail ((hcalls c hc).trans h))] at hlast
    exact ⟨_, hlast, le_rfl⟩

/-- A refresh comes after the interval. -/
theorem OverrideCovers.due (h : OverrideCovers r w) (hc : c ∈ calls w ev)
    (hr : overrideRefresh w ev) : r + setpointOverrideInterval ≤ ev.env.now := by
  cases overrideStep w ev with
  | kept hvalue hlast hcalls =>
    rcases hcalls c hc with hnone | ⟨hcmd, -⟩
    · exact absurd hnone hr.1
    · exact absurd hcmd hr.2
  | commanded hcmd hlast => exact absurd hcmd hr.2
  | refreshed hcmd ho' hdue hlast hcalls =>
    obtain ⟨s, hs, hle⟩ := h hr.1
    have hge : setpointOverrideInterval ≤ ev.env.now - s := by
      simpa [within, hs] using hdue
    linarith

/-! ### Over whole runs -/

theorem maintainOverride_length : (maintainOverride e now w).2.length ≤ 1 := by
  unfold maintainOverride
  split
  · exact Nat.zero_le 1
  · split_ifs
    · exact Nat.zero_le 1
    · exact le_rfl

theorem checkGridLossLocked_length : (checkGridLossLocked e now w).2.length ≤ 1 := by
  by_cases ho : w.overrideValue = none
  · rcases checkGridLossLocked_cases e now ho with h | ⟨-, hold, -, -, h⟩
    · rw [h]
      exact Nat.zero_le 1
    · rw [h, maintainGridLossFallback]
      split_ifs
      · exact Nat.zero_le 1
      · exact le_rfl
  · rw [checkGridLossLocked_of_override e now ho]
    exact maintainOverride_length e now

theorem recoverFromFailsafe_length : (recoverFromFailsafe e w).2.length ≤ 1 := by
  unfold recoverFromFailsafe
  split_ifs
  · exact Nat.zero_le 1
  · exact Nat.zero_le 1
  · exact Nat.zero_le 1
  · exact le_rfl
  · exact Nat.zero_le 1

theorem checkHeartbeat_length : (checkHeartbeat e w).2.length ≤ 1 := by
  by_cases ho : w.overrideValue = none
  swap
  · rw [checkHeartbeat, if_pos ho]
    exact maintainOverride_length e e.now
  cases hd : w.dryRun
  swap
  · simp [checkHeartbeat, ho, hd]
  rcases checkHeartbeat_cases e ho hd with ⟨hg, -, h⟩ | ⟨-, h⟩
  · rw [h]
    obtain ⟨f, s, tr, ⟨h', -⟩ | ⟨-, -, h'⟩ | ⟨-, -, h'⟩⟩ := finishHeartbeat_cases e e.now ho hd hg
    · rw [h']
      exact Nat.zero_le 1
    · rw [h']
      exact le_rfl
    · rw [h']
      exact recoverFromFailsafe_length e
  · rw [h]
    exact checkGridLossLocked_length e e.now

/-- **One entry point writes at most once.** -/
theorem calls_length (w : HardwareWatchdog) (ev : Event) : (calls w ev).length ≤ 1 := by
  obtain ⟨op, e⟩ := ev
  cases op with
  | setSetpointOverride arg requestId =>
    simp only [calls, perform]
    unfold setSetpointOverride
    split
    · exact Nat.zero_le 1
    · split_ifs
      · exact Nat.zero_le 1
      · exact Nat.zero_le 1
    · split_ifs
      · cases e.hardware <;> exact le_rfl
      · exact Nat.zero_le 1
  | writeControlSetpoint value generation dryRun =>
    simp only [calls, perform]
    unfold writeControlSetpoint
    split_ifs
    · exact Nat.zero_le 1
    · exact Nat.zero_le 1
    · cases e.hardware <;> exact le_rfl
  | markDbusUpdate => exact checkGridLossLocked_length e e.now
  | checkGridLoss => exact checkGridLossLocked_length e e.now
  | checkHeartbeat => exact checkHeartbeat_length e
  | rejectSetpointOverride error requestId => exact Nat.zero_le 1
  | markDbusInvalid => exact Nat.zero_le 1
  | markMqttUpdate => exact Nat.zero_le 1
  | markSetpointUpdate => exact Nat.zero_le 1
  | start => exact Nat.zero_le 1
  | setDryRun enabled => exact Nat.zero_le 1

/-- Two attempts of the fallback within one episode, `x` from `w` and `y` after the steps `mid`. -/
def FallbackSpaced (w : HardwareWatchdog) (x : Event) (mid : List Event) (y : Event) : Prop :=
  Throughout next (fun w => w.gridLossForced = true) (next w x) mid →
    ∀ c ∈ calls w x, fallbackAttempt x c →
    ∀ d ∈ calls (exec next (next w x) mid) y, fallbackAttempt y d →
      x.env.now + gridLossRetryInterval ≤ y.env.now ∧
        (c.outcome = .accepted → x.env.after + gridLossRefreshInterval ≤ y.env.now)

/-- A hardware write at `x` from `w`, and a refresh of the override at `y` after the steps `mid`. -/
def OverrideSpaced (w : HardwareWatchdog) (x : Event) (mid : List Event) (y : Event) : Prop :=
  ∀ c ∈ calls w x, ∀ d ∈ calls (exec next (next w x) mid) y,
    overrideRefresh (exec next (next w x) mid) y →
      (c.outcome = .accepted → x.env.after + setpointOverrideInterval ≤ y.env.now) ∧
        (overrideRefresh w x → c.outcome ≠ .accepted →
          x.env.now + setpointOverrideInterval ≤ y.env.now)

theorem Monotonic.of_append {a b : List Event} (h : Monotonic (a ++ b)) : Monotonic b where
  within ev hev := h.within ev (List.mem_append_right _ hev)
  order := (List.pairwise_append.mp h.order).2.1

/-- Within a run of a clock that does not go back, the attempts of one episode are spaced. -/
theorem fallbackSpaced (hs : Sound w) {x y : Event} {mid rest : List Event}
    (hclock : Monotonic (x :: (mid ++ y :: rest))) : FallbackSpaced w x mid y := by
  intro hforced c hc hatt d hd hatt'
  have hlater : ∀ {z}, z ∈ mid ++ y :: rest → x.env.after ≤ z.env.now :=
    List.rel_of_pairwise_cons hclock.order
  have hxy : x.env.after ≤ y.env.now := hlater (by simp)
  have hx := hclock.within x (by simp)
  -- `x` itself
  have hfirst : Covers x.env.now (if x.env.hardware = .accepted then some x.env.after else none)
      (pace (next w x)) ∧ c.outcome = x.env.hardware := by
    cases fallbackStep hs x with
    | kept hpace hforced' hcalls => exact absurd hatt (hcalls c hc)
    | reset hpace hforced' hcalls => exact absurd hatt (hcalls c hc)
    | attempted hhold hdue hpace hcalls =>
      rw [hpace]
      exact ⟨Covers.first x.env hx _, hcalls c hc⟩
  -- every step of the episode after it
  have hmid : Sound (exec next (next w x) mid) ∧
      Covers x.env.now (if x.env.hardware = .accepted then some x.env.after else none)
        (pace (exec next (next w x) mid)) := by
    refine exec_invariant (P := fun w' => Sound w' ∧
      Covers x.env.now (if x.env.hardware = .accepted then some x.env.after else none) (pace w'))
      ⟨hs.next x, hfirst.1⟩ fun z hz hP => ⟨hP.1.next z.input, ?_⟩
    obtain ⟨hg, hg'⟩ := hforced.of_mem_trace hz
    obtain ⟨p, q, rfl, -⟩ := (mem_trace next).mp hz
    have hxz : x.env.after ≤ z.input.env.now := hlater (by simp)
    exact hP.2.next hP.1 hg hg' (hx.trans hxz) (hclock.within z.input (by simp))
  -- `y`
  cases fallbackStep hmid.1 y with
  | kept hpace hforced' hcalls => exact absurd hatt' (hcalls d hd)
  | reset hpace hforced' hcalls => exact absurd hatt' (hcalls d hd)
  | attempted hhold hdue hpace hcalls =>
    obtain ⟨hretry, hrefresh⟩ := hmid.2.due y.env.now (hdue hforced.end)
    refine ⟨hretry, fun hacc => ?_⟩
    rw [if_pos (hfirst.2.symm.trans hacc)] at hrefresh
    exact hrefresh _ rfl

/-- Within a run of a clock that does not go back, the refreshes of the override are spaced. -/
theorem overrideSpaced {x y : Event} {mid rest : List Event}
    (hclock : Monotonic (x :: (mid ++ y :: rest))) : OverrideSpaced w x mid y := by
  intro c hc d hd hr
  have hlater : ∀ {z}, z ∈ mid ++ y :: rest → x.env.after ≤ z.env.now :=
    List.rel_of_pairwise_cons hclock.order
  have hx := hclock.within x (by simp)
  have hrun : ∀ r ≤ x.env.after, OverrideCovers r (next w x) →
      r + setpointOverrideInterval ≤ y.env.now := by
    intro r hle h
    have hmid : OverrideCovers r (exec next (next w x) mid) := by
      refine exec_invariant h fun z hz hP => ?_
      obtain ⟨p, q, rfl, -⟩ := (mem_trace next).mp hz
      have hxz : x.env.after ≤ z.input.env.now := hlater (by simp)
      exact hP.next (hle.trans hxz) (hclock.within z.input (by simp))
    exact hmid.due hd hr
  constructor
  · exact fun hacc => hrun _ le_rfl (OverrideCovers.of_accepted hc hacc)
  · exact fun hr' hfail => hrun _ hx (OverrideCovers.of_failed hc hr' hfail)

end InverterControl.Watchdog.Pacing
