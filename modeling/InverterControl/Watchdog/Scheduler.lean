import InverterControl.Watchdog.Pacing

/-!
# The scheduler of the safety writes

The condition for a refresh is coded twice: as the guard of the two maintain functions, and as the
deadline `_run` sleeps to.  `due_iff` is the one arithmetic fact that makes them agree;
`deadlineAgrees` says so for every reachable live watchdog, and `loopActs` what it means for a turn
of `_run`.
-/

namespace InverterControl.Watchdog.Scheduler

open InverterControl.Lib.Runs InverterControl.Watchdog.Model InverterControl.Watchdog.Steps
open InverterControl.Watchdog.MeterLoss InverterControl.Watchdog.Pacing

/-! ### The scheduler -/

/-- `now if last is None else last + interval`. -/
def dueAt (last : Option ℚ) (interval now : ℚ) : ℚ :=
  match last with
  | none => now
  | some t => t + interval

/-- `_grid_loss_deadline_locked`. -/
def gridLossDeadlineLocked (now : ℚ) (w : HardwareWatchdog) : ℚ :=
  if w.gridLossForced then
    if w.gridLossRefreshPending then dueAt w.lastGridLossAttempt gridLossRetryInterval now
    else dueAt w.lastGridLossWrite gridLossRefreshInterval now
  else now + gridLossRefreshInterval

/-- The override's part of `_next_fallback_deadline_locked`. -/
def overrideDeadline (now : ℚ) (w : HardwareWatchdog) : ℚ :=
  dueAt (overrideLast w) setpointOverrideInterval now

/-- `_next_fallback_deadline_locked`, at the clock reading `now`. -/
def nextFallbackDeadlineLocked (now deadline : ℚ) (w : HardwareWatchdog) : ℚ :=
  if w.overrideValue ≠ none then min deadline (overrideDeadline now w)
  else if w.gridLossHoldSeconds ≠ none ∧ w.dryRun = false then
    min deadline (gridLossDeadlineLocked now w)
  else deadline

/-- The thread of `_run`: when the next heartbeat is due, and the watchdog. -/
structure Loop where
  nextHeartbeat : ℚ
  watchdog : HardwareWatchdog

/-- What the surroundings decide during one turn of `_run`: its clock readings, and the steps the
other threads take before the deadline is computed, during the wait and after the check. -/
structure Turn where
  before : List Event
  deadlineNow : ℚ
  waitNow : ℚ
  during : List Event
  check : Env
  afterwards : List Event
  heartbeatNow : ℚ
  heartbeat : Env
  heartbeatAfter : ℚ

/-- The deadline of a turn. -/
def turnDeadline (l : Loop) (t : Turn) : ℚ :=
  nextFallbackDeadlineLocked t.deadlineNow l.nextHeartbeat (exec next l.watchdog t.before)

/-- When the turn's `wait` ends, unless it is woken. -/
def waitEnd (l : Loop) (t : Turn) : ℚ := t.waitNow + max 0 (turnDeadline l t - t.waitNow)

/-- The watchdog that the turn's `check_grid_loss` finds. -/
def checked (l : Loop) (t : Turn) : HardwareWatchdog :=
  exec next (exec next l.watchdog t.before) t.during

/-- The steps of one turn of `_run`, with those of the other threads. -/
def turnEvents (l : Loop) (t : Turn) : List Event :=
  t.before ++ t.during ++ ⟨.checkGridLoss, t.check⟩ :: t.afterwards ++
    if l.nextHeartbeat ≤ t.heartbeatNow then [⟨.checkHeartbeat, t.heartbeat⟩] else []

/-- One turn of `_run`, of a thread that is not stopped. -/
def turn (checkInterval : ℚ) (l : Loop) (t : Turn) : Loop where
  nextHeartbeat :=
    if l.nextHeartbeat ≤ t.heartbeatNow then t.heartbeatAfter + checkInterval else l.nextHeartbeat
  watchdog := exec next l.watchdog (turnEvents l t)

/-! ### The guard and the deadline -/

/-- **The two codings of one condition.** -/
theorem due_iff {last : Option ℚ} {interval now t : ℚ} (h : now ≤ t) :
    dueAt last interval now ≤ t ↔ ¬ within last t interval := by
  cases last with
  | none => simpa [dueAt, within] using h
  | some s => simp [dueAt, within, le_sub_iff_add_le']

/-- What is not due yet has a deadline of its own, later than now. -/
theorem lt_dueAt {last : Option ℚ} {interval t : ℚ} (h : within last t interval) (now : ℚ) :
    t < dueAt last interval now := by
  obtain ⟨s, rfl, hs⟩ := h
  simpa [dueAt, sub_lt_iff_lt_add'] using hs

variable (e : Env) (now : ℚ) {w : HardwareWatchdog} {ev : Event}

/-- The override, or a latched outage of a watchdog that may write. -/
def Live (w : HardwareWatchdog) : Prop :=
  w.overrideValue ≠ none ∨ w.gridLossForced = true ∧ w.dryRun = false

/-- The part of the deadline that is not the heartbeat's. -/
def fallbackPart (now : ℚ) (w : HardwareWatchdog) : ℚ :=
  if w.overrideValue ≠ none then overrideDeadline now w else gridLossDeadlineLocked now w

/-- The maintain function that is in charge. -/
def maintain (w : HardwareWatchdog) : Step :=
  if w.overrideValue ≠ none then maintainOverride e now w else maintainGridLossFallback e now w

theorem deadline_live (hw : Timed w) (hl : Live w) (deadline : ℚ) :
    nextFallbackDeadlineLocked now deadline w = min deadline (fallbackPart now w) := by
  unfold nextFallbackDeadlineLocked fallbackPart
  split_ifs with ho hg
  · rfl
  · rfl
  · obtain ⟨hf, hd⟩ := hl.resolve_left ho
    exact absurd ⟨hw.hold_of_forced hf, hd⟩ hg

theorem fallbackNotDue_iff (hw : Timed w) : fallbackNotDue now w ↔
    if w.gridLossRefreshPending then within w.lastGridLossAttempt now gridLossRetryInterval
    else within w.lastGridLossWrite now gridLossRefreshInterval := by
  unfold fallbackNotDue
  constructor
  · exact fun h => h.2
  · intro h
    refine ⟨?_, h⟩
    split_ifs at h
    · obtain ⟨t, ht, -⟩ := h
      rw [ht]
      exact Option.some_ne_none t
    · obtain ⟨t, ht, -⟩ := h
      exact hw.attempt_of_write (by rw [ht]; exact Option.some_ne_none t)

theorem maintainOverride_writes (h : w.overrideValue ≠ none) :
    (maintainOverride e now w).2 ≠ [] ↔ ¬ within (overrideLast w) now setpointOverrideInterval := by
  obtain ⟨v, hv⟩ := Option.ne_none_iff_exists'.mp h
  simp only [maintainOverride, hv]
  split_ifs with hw
  · simp [hw]
  · simp [hw]

theorem maintainGridLossFallback_writes :
    (maintainGridLossFallback e now w).2 ≠ [] ↔ ¬ fallbackNotDue now w := by
  unfold maintainGridLossFallback
  split_ifs with hw
  · simp [hw]
  · simp [hw]

/-- **The maintain function writes from its part of the deadline on, and not before.** -/
theorem maintain_writes (hw : Timed w) (hl : Live w) {t : ℚ} (ht : now ≤ t) :
    (maintain e t w).2 ≠ [] ↔ fallbackPart now w ≤ t := by
  unfold maintain fallbackPart
  split_ifs with ho
  · rw [maintainOverride_writes e t ho, overrideDeadline, due_iff ht]
  · obtain ⟨hf, -⟩ := hl.resolve_left ho
    rw [maintainGridLossFallback_writes, fallbackNotDue_iff t hw, gridLossDeadlineLocked, if_pos hf]
    split_ifs
    · exact (due_iff ht).symm
    · exact (due_iff ht).symm

/-- What is not written yet has its part of the deadline still ahead, whenever it is computed. -/
theorem lt_fallbackPart (hw : Timed w) (hl : Live w) {t : ℚ} (h : (maintain e t w).2 = []) :
    t < fallbackPart now w := by
  rw [← not_not (a := (maintain e t w).2 = [])] at h
  unfold maintain at h
  unfold fallbackPart
  split_ifs at h ⊢ with ho
  · have h' := mt (maintainOverride_writes e t ho).mpr h
    exact lt_dueAt (not_not.mp h') now
  · obtain ⟨hf, -⟩ := hl.resolve_left ho
    have h' := not_not.mp (mt (maintainGridLossFallback_writes e t).mpr h)
    rw [fallbackNotDue_iff t hw] at h'
    rw [gridLossDeadlineLocked, if_pos hf]
    split_ifs at h' ⊢
    · exact lt_dueAt h' now
    · exact lt_dueAt h' now

theorem latchIfExpired_of_forced (hs : Sound w) (hf : w.gridLossForced = true) (hold : ℚ) :
    latchIfExpired now hold w = w := by
  have htriggered := hs.triggered_of_forced hf
  have hsaved := hs.saved_of_forced hf
  unfold latchIfExpired latchGridLoss
  split_ifs
  · cases w
    simp_all
  · rfl

/-- In a live watchdog the check is the maintain function in charge. -/
theorem checkGridLossLocked_maintain (hs : Sound w) (hw : Timed w) (hl : Live w) :
    checkGridLossLocked e now w = maintain e now w := by
  unfold maintain
  split_ifs with ho
  · exact checkGridLossLocked_of_override e now ho
  · obtain ⟨hf, hd⟩ := hl.resolve_left ho
    obtain ⟨hold, hh⟩ := Option.ne_none_iff_exists'.mp (hw.hold_of_forced hf)
    rw [checkGridLossLocked_live e now (not_not.mp ho) hd hh, latchIfExpired_of_forced now hs hf,
      if_pos hf]

/-! ### The deadline and the loop -/

/-- The guard and the deadline agree in `w`. -/
structure DeadlineAgrees (w : HardwareWatchdog) : Prop where
  part : ∀ now deadline,
    nextFallbackDeadlineLocked now deadline w = min deadline (fallbackPart now w)
  not_late : ∀ e now deadline t, now ≤ t → (maintain e t w).2 ≠ [] →
    nextFallbackDeadlineLocked now deadline w ≤ t
  acts : ∀ e now, now ≤ e.now → fallbackPart now w ≤ e.now →
    (checkGridLoss e w).2.map (·.value) = [w.overrideValue.getD gridLossFallbackSetpoint]
  moves_on : ∀ e now, e.now ≤ e.after → e.now < fallbackPart now (next w ⟨.checkGridLoss, e⟩)

/-- A turn of `_run` that finds a live watchdog: the wait ends no later than the write is owed, and a
turn that nobody disturbs writes or reaches the heartbeat. -/
structure LoopActs (l : Loop) (t : Turn) : Prop where
  not_late : ∀ e s, t.deadlineNow ≤ s → t.waitNow ≤ s →
    (maintain e s (exec next l.watchdog t.before)).2 ≠ [] → waitEnd l t ≤ s
  acts : t.during = [] → t.deadlineNow ≤ t.check.now → waitEnd l t ≤ t.check.now →
    t.check.now ≤ t.heartbeatNow → calls (checked l t) ⟨.checkGridLoss, t.check⟩ ≠ [] ∨
      ⟨.checkHeartbeat, t.heartbeat⟩ ∈ turnEvents l t

theorem maintain_values (h : (maintain e now w).2 ≠ []) :
    (maintain e now w).2.map (·.value) = [w.overrideValue.getD gridLossFallbackSetpoint] := by
  unfold maintain at h ⊢
  split_ifs at h ⊢ with ho
  · obtain ⟨v, hv⟩ := Option.ne_none_iff_exists'.mp ho
    simp only [maintainOverride, hv] at h ⊢
    split_ifs at h ⊢
    · exact absurd rfl h
    · rfl
  · unfold maintainGridLossFallback at h ⊢
    split_ifs at h ⊢
    · exact absurd rfl h
    · rw [not_not.mp ho]
      rfl

theorem maintain_of_nil (h : (maintain e now w).2 = []) : (maintain e now w).1 = w := by
  unfold maintain at h ⊢
  split_ifs at h ⊢ with ho
  · obtain ⟨v, hv⟩ := Option.ne_none_iff_exists'.mp ho
    simp only [maintainOverride, hv] at h ⊢
    split_ifs at h ⊢
    rfl
  · unfold maintainGridLossFallback at h ⊢
    split_ifs at h ⊢
    rfl

/-- After a refresh the next one is an interval ahead. -/
theorem lt_overrideDeadline (ho : w.overrideValue ≠ none) (hafter : e.now ≤ e.after)
    (hdue : ¬ within (overrideLast w) e.now setpointOverrideInterval) :
    e.now < overrideDeadline now (maintainOverride e e.now w).1 := by
  obtain ⟨v, hv⟩ := Option.ne_none_iff_exists'.mp ho
  rw [overrideDeadline, overrideLast_refreshed e e.now hv hdue]
  simp only [dueAt, setpointOverrideInterval]
  split_ifs
  · linarith
  · linarith

/-- After an attempt of the fallback the next one is an interval ahead. -/
theorem lt_gridLossDeadline (hf : w.gridLossForced = true) (hafter : e.now ≤ e.after)
    (hdue : ¬ fallbackNotDue e.now w) :
    e.now < gridLossDeadlineLocked now (maintainGridLossFallback e e.now w).1 := by
  have hp := maintainGridLossFallback_pace e e.now hdue
  obtain ⟨a, p, hf', ap, lw, hst⟩ := maintainGridLossFallback_state e e.now w
  have hg : (maintainGridLossFallback e e.now w).1.gridLossForced = true := by
    rw [hst]
    exact hf
  rw [gridLossDeadlineLocked, if_pos hg]
  by_cases hacc : e.hardware = .accepted
  · rw [answered, if_pos hacc] at hp
    have hpending : (maintainGridLossFallback e e.now w).1.gridLossRefreshPending = false :=
      congrArg Pace.pending hp
    have hwrite : (maintainGridLossFallback e e.now w).1.lastGridLossWrite = some e.after :=
      congrArg Pace.write hp
    rw [if_neg (by simp [hpending]), hwrite]
    simp only [dueAt, gridLossRefreshInterval]
    linarith
  · rw [answered, if_neg hacc] at hp
    have hpending : (maintainGridLossFallback e e.now w).1.gridLossRefreshPending = true :=
      congrArg Pace.pending hp
    have hattempt : (maintainGridLossFallback e e.now w).1.lastGridLossAttempt = some e.now :=
      congrArg Pace.attempt hp
    rw [if_pos hpending, hattempt]
    simp only [dueAt, gridLossRetryInterval]
    linarith

/-- **After a maintenance the next deadline lies ahead.** -/
theorem lt_fallbackPart_maintain (hw : Timed w) (hl : Live w) (hafter : e.now ≤ e.after) :
    e.now < fallbackPart now (maintain e e.now w).1 := by
  by_cases h : (maintain e e.now w).2 = []
  · rw [maintain_of_nil e e.now h]
    exact lt_fallbackPart e now hw hl h
  by_cases ho : w.overrideValue ≠ none
  · rw [maintain, if_pos ho] at h ⊢
    obtain ⟨a, f, m, lw, u, hst⟩ := maintainOverride_state e e.now w
    have ho' : (maintainOverride e e.now w).1.overrideValue ≠ none := by
      rw [hst]
      exact ho
    rw [fallbackPart, if_pos ho']
    exact lt_overrideDeadline e now ho hafter ((maintainOverride_writes e e.now ho).mp h)
  · rw [maintain, if_neg ho] at h ⊢
    obtain ⟨a, p, hf', ap, lw, hst⟩ := maintainGridLossFallback_state e e.now w
    have ho' : ¬ (maintainGridLossFallback e e.now w).1.overrideValue ≠ none := by
      rw [hst]
      exact ho
    rw [fallbackPart, if_neg ho']
    exact lt_gridLossDeadline e now (hl.resolve_left ho).1 hafter
      ((maintainGridLossFallback_writes e e.now).mp h)

theorem deadlineAgrees (hs : Sound w) (hw : Timed w) (hl : Live w) : DeadlineAgrees w where
  part now deadline := deadline_live now hw hl deadline
  not_late e now deadline t ht h := by
    rw [deadline_live now hw hl deadline]
    exact (min_le_right _ _).trans ((maintain_writes e now hw hl ht).mp h)
  acts e now hnow hdue := by
    have h := (maintain_writes e now hw hl hnow).mpr hdue
    rw [checkGridLoss, checkGridLossLocked_maintain e e.now hs hw hl]
    exact maintain_values e e.now h
  moves_on e now hafter := by
    have h : next w ⟨.checkGridLoss, e⟩ = (maintain e e.now w).1 := by
      simp only [next, perform, checkGridLoss, checkGridLossLocked_maintain e e.now hs hw hl]
    rw [h]
    exact lt_fallbackPart_maintain e now hw hl hafter

theorem loopActs {l : Loop} {t : Turn} (h : DeadlineAgrees (exec next l.watchdog t.before)) :
    LoopActs l t where
  not_late e s hs hwait hwrites := by
    have hdeadline := h.not_late e t.deadlineNow l.nextHeartbeat s hs hwrites
    unfold waitEnd turnDeadline
    rcases le_total (nextFallbackDeadlineLocked t.deadlineNow l.nextHeartbeat
      (exec next l.watchdog t.before)) t.waitNow with hle | hle
    · rw [max_eq_left (by linarith)]
      linarith
    · rw [max_eq_right (by linarith)]
      linarith
  acts hduring hnow hwait hbeat := by
    have hend : turnDeadline l t ≤ t.check.now := by
      have := le_max_right (0 : ℚ) (turnDeadline l t - t.waitNow)
      unfold waitEnd at hwait
      linarith
    rw [turnDeadline, h.part, min_le_iff] at hend
    rcases hend with hheart | hpart
    · right
      unfold turnEvents
      rw [if_pos (hheart.trans hbeat)]
      exact List.mem_append_right _ (List.mem_singleton.mpr rfl)
    · left
      have hacts := h.acts t.check t.deadlineNow hnow hpart
      intro hnil
      have hchecked : checked l t = exec next l.watchdog t.before := by
        rw [checked, hduring]
        rfl
      rw [hchecked] at hnil
      rw [show (checkGridLoss t.check (exec next l.watchdog t.before)).2 = [] from hnil] at hacts
      cases hacts

theorem reachable_exec (h : Reachable w) (evs : List Event) : Reachable (exec next w evs) := by
  obtain ⟨timeoutSeconds, dryRun, hold, before, rfl⟩ := h
  exact ⟨timeoutSeconds, dryRun, hold, before ++ evs, (exec_append next _ _ _).symm⟩

/-- The turns of the loop are steps of the watchdog. -/
theorem turn_reachable (checkInterval : ℚ) {l : Loop} (h : Reachable l.watchdog) (turns : List Turn) :
    Reachable (exec (turn checkInterval) l turns).watchdog := by
  refine exec_invariant (P := fun l : Loop => Reachable l.watchdog) h fun x _ hx => ?_
  exact reachable_exec hx (turnEvents x.before x.input)

/-- **The pace of the safety writes**, in every run with a clock that does not go back: every entry
point writes at most once; the attempts of one meter-loss episode and the refreshes of the override
keep their distances; and in the state reached, if it is live, the deadline `_run` sleeps to agrees
with the guard, as it does after any further turns of `_run`. -/
theorem safety_write_pacing (timeoutSeconds : ℚ) (dryRun : Bool) (hold : Option ℚ)
    (evs : List Event) (hclock : Monotonic evs) :
    (∀ x ∈ trace next (init timeoutSeconds dryRun hold) evs,
      (calls x.before x.input).length ≤ 1) ∧
    (∀ a x mid y b, evs = a ++ x :: (mid ++ y :: b) →
      FallbackSpaced (exec next (init timeoutSeconds dryRun hold) a) x mid y ∧
      OverrideSpaced (exec next (init timeoutSeconds dryRun hold) a) x mid y) ∧
    (Live (exec next (init timeoutSeconds dryRun hold) evs) →
      DeadlineAgrees (exec next (init timeoutSeconds dryRun hold) evs)) ∧
    ∀ checkInterval nextHeartbeat turns t,
      Live (exec next (exec (turn checkInterval)
        ⟨nextHeartbeat, exec next (init timeoutSeconds dryRun hold) evs⟩ turns).watchdog t.before) →
      LoopActs (exec (turn checkInterval)
        ⟨nextHeartbeat, exec next (init timeoutSeconds dryRun hold) evs⟩ turns) t := by
  have hreach : Reachable (exec next (init timeoutSeconds dryRun hold) evs) :=
    ⟨timeoutSeconds, dryRun, hold, evs, rfl⟩
  refine ⟨fun x _ => calls_length x.before x.input, ?_, fun hl => ?_, ?_⟩
  · rintro a x mid y b rfl
    have hs := (Sound.init timeoutSeconds dryRun hold).exec a
    exact ⟨fallbackSpaced hs hclock.of_append, overrideSpaced hclock.of_append⟩
  · obtain ⟨hs, hw⟩ := reachable_timed hreach
    exact deadlineAgrees hs hw hl
  · intro checkInterval nextHeartbeat turns t hl
    have hreach' := reachable_exec (turn_reachable checkInterval
      (l := ⟨nextHeartbeat, exec next (init timeoutSeconds dryRun hold) evs⟩) hreach turns) t.before
    obtain ⟨hs, hw⟩ := reachable_timed hreach'
    exact loopActs (deadlineAgrees hs hw hl)

/-- The meter is lost from the start; the first -10 W, at 2 s, is rejected, the next one, at 3 s, is
accepted. -/
def lossRejectedOnce : List Event :=
  [⟨.start, ⟨0, 0, .accepted, none⟩⟩, ⟨.markDbusInvalid, ⟨1, 1, .accepted, none⟩⟩,
    ⟨.checkGridLoss, ⟨2, 2, .rejected, none⟩⟩, ⟨.checkGridLoss, ⟨3, 3, .accepted, none⟩⟩]

theorem safety_write_pacing_rejected_once :
    (2 : ℚ) + gridLossRetryInterval ≤ 3 ∧
      nextFallbackDeadlineLocked 4 100 (exec next (init 30 false (some 5)) lossRejectedOnce) ≤ 5 := by
  obtain ⟨-, hspaced, hagrees, -⟩ := safety_write_pacing 30 false (some 5) lossRejectedOnce
    ⟨by decide +kernel, by decide +kernel⟩
  constructor
  · have h := (hspaced (lossRejectedOnce.take 2) ⟨.checkGridLoss, ⟨2, 2, .rejected, none⟩⟩ []
      ⟨.checkGridLoss, ⟨3, 3, .accepted, none⟩⟩ [] rfl).1
      (throughout_nil (by decide +kernel))
    have hx : (⟨-10, .rejected, noteFallbackAttempt 2 (latchGridLoss
        (exec next (init 30 false (some 5)) (lossRejectedOnce.take 2)))⟩ : HwCall) ∈
        calls (exec next (init 30 false (some 5)) (lossRejectedOnce.take 2))
          ⟨.checkGridLoss, ⟨2, 2, .rejected, none⟩⟩ := by decide +kernel
    have hy : (⟨-10, .accepted, noteFallbackAttempt 3
        (exec next (init 30 false (some 5)) (lossRejectedOnce.take 3))⟩ : HwCall) ∈
        calls (exec next (init 30 false (some 5)) (lossRejectedOnce.take 3))
          ⟨.checkGridLoss, ⟨3, 3, .accepted, none⟩⟩ := by decide +kernel
    exact (h _ hx ⟨rfl, not_isCommand rfl⟩ _ hy ⟨by decide +kernel, not_isCommand rfl⟩).1
  · have hlive : Live (exec next (init 30 false (some 5)) lossRejectedOnce) :=
      Or.inr ⟨by decide +kernel, by decide +kernel⟩
    exact (hagrees hlive).not_late ⟨5, 5, .accepted, none⟩ 4 100 5 (by decide +kernel)
      (by decide +kernel)

end InverterControl.Watchdog.Scheduler
