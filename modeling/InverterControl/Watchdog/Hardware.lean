import InverterControl.Watchdog.Steps

/-!
# The value on the hardware

`hardwareValue` follows the calls: it is the last value that was accepted.  `Tracks p v w` says what
a watchdog in the state `w` knows of it when the control baseline is `p`: the override's value is on
the hardware, so is an applied fallback, a forced zero has saved the baseline for its restoration,
and otherwise the hardware has the baseline.  Every operation but the normal write keeps it
(`Tracks.next`).
-/

namespace InverterControl.Watchdog.Hardware

open InverterControl.Watchdog.Model InverterControl.Watchdog.Steps

/-- The value on the hardware after a call. -/
def acceptedValue (v : Option ℤ) (c : HwCall) :
    Option ℤ := if c.outcome = .accepted then some c.value else v

/-- The value on the hardware after the calls. -/
def hardwareValue (v : Option ℤ) (calls : List HwCall) : Option ℤ := calls.foldl acceptedValue v

variable {p : ℤ} {v : Option ℤ} {w : HardwareWatchdog}

@[simp] theorem hardwareValue_nil : hardwareValue v [] = v := rfl

theorem hardwareValue_append (cs cs' : List HwCall) :
    hardwareValue v (cs ++ cs') = hardwareValue (hardwareValue v cs) cs' := List.foldl_append

theorem hardwareValue_accepted (n : ℤ) (w : HardwareWatchdog) :
    hardwareValue v [⟨n, .accepted, w⟩] = some n := rfl

theorem hardwareValue_of_not_accepted {n : ℤ} {o : WriteOutcome} (h : o ≠ .accepted)
    (w : HardwareWatchdog) :
    hardwareValue v [⟨n, o, w⟩] = v := by
  show acceptedValue v ⟨n, o, w⟩ = v
  rw [acceptedValue, if_neg h]

/-- What the watchdog knows of the value `v` on the hardware, when the baseline is `p`. -/
structure Tracks (p : ℤ) (v : Option ℤ) (w : HardwareWatchdog) : Prop where
  override : ∀ n, w.overrideValue = some n → v = some n ∧ w.gridLossForced = false ∧
    w.gridLossFallbackApplied = false ∧ w.hardwareForced = false ∧ w.triggered = false
  fallback : w.gridLossFallbackApplied = true → v = some gridLossFallbackSetpoint
  latched : w.gridLossForced = true → w.triggered = true
  forced : w.hardwareForced = true → w.triggered = true ∧
    (w.gridLossForced = true → w.gridLossFallbackApplied = true) ∧
    (w.gridLossForced = false → w.gridLossFallbackApplied = false ∧ w.preForcedSetpoint = p)
  free : w.overrideValue = none → w.gridLossForced = false → w.hardwareForced = false →
    w.gridLossFallbackApplied = false → ∀ n ∈ v, n = p

/-- A step keeps track of the hardware. -/
def KeepsTrack (p : ℤ) (v : Option ℤ) (x : Step) : Prop := Tracks p (hardwareValue v x.2) x.1

section Operations

variable (e : Env) (now : ℚ)

theorem Tracks.maintainOverride (h : Tracks p v w) : KeepsTrack p v (maintainOverride e now w) := by
  unfold Model.maintainOverride
  split
  · exact h
  · next n hn =>
    split_ifs
    · exact h
    · have hv : hardwareValue v [⟨n, e.hardware, noteRefreshAttempt now w⟩] = v := by
        by_cases hacc : e.hardware = .accepted
        · rw [hacc, hardwareValue_accepted, (h.override n hn).1]
        · exact hardwareValue_of_not_accepted hacc _
      obtain ⟨f, m, lw, u, heq⟩ := finishRefresh_state e (noteRefreshAttempt now w)
      unfold KeepsTrack
      rw [hv, heq]
      exact ⟨h.override, h.fallback, h.latched, h.forced, h.free⟩

theorem Tracks.latchIfExpired (h : Tracks p v w) (ho : w.overrideValue = none) (hold : ℚ) :
    Tracks p v (latchIfExpired now hold w) := by
  unfold Model.latchIfExpired
  split_ifs
  swap
  · exact h
  have hforced := latchGridLoss_hardwareForced w
  obtain ⟨hf, pending, lw, a, heq⟩ := latchGridLoss_state w
  rw [heq] at hforced ⊢
  refine ⟨fun n hn => ?_, h.fallback, fun _ => rfl, fun hf' => ?_, fun _ hg => by cases hg⟩
  · rw [ho] at hn
    cases hn
  · -- only a latched watchdog keeps what it has forced
    obtain ⟨hg, hw⟩ : w.gridLossForced = true ∧ w.hardwareForced = true := by
      rw [← Bool.and_eq_true, ← hforced]
      exact hf'
    exact ⟨rfl, fun _ => (h.forced hw).2.1 hg, fun hg' => by cases hg'⟩

theorem Tracks.maintainGridLossFallback (h : Tracks p v w) (ho : w.overrideValue = none)
    (hg : w.gridLossForced = true) : KeepsTrack p v (maintainGridLossFallback e now w) := by
  unfold Model.maintainGridLossFallback
  split_ifs
  · exact h
  · unfold finishFallback KeepsTrack
    by_cases hacc : e.hardware = .accepted
    · simp only [hacc, hardwareValue_accepted]
      have hlatched (hg' : w.gridLossForced = false) : False := Bool.false_ne_true (hg'.symm.trans hg)
      exact ⟨fun n hn => (Option.some_ne_none n (hn.symm.trans ho)).elim, fun _ => rfl, h.latched,
        fun _ => ⟨h.latched hg, fun _ => rfl, fun hg' => (hlatched hg').elim⟩, fun _ hg' =>
          (hlatched hg').elim⟩
    · rw [if_neg hacc, hardwareValue_of_not_accepted hacc]
      exact ⟨h.override, h.fallback, h.latched, h.forced, h.free⟩

theorem Tracks.checkGridLossLocked (h : Tracks p v w) :
    KeepsTrack p v (checkGridLossLocked e now w) := by
  by_cases ho : w.overrideValue = none
  · rcases checkGridLossLocked_cases e now ho with heq | ⟨-, hold, -, hlatch, heq⟩
    · rw [heq]
      exact h
    · rw [heq]
      refine (h.latchIfExpired now ho hold).maintainGridLossFallback e now ?_ hlatch
      obtain ⟨hf, pending, lw, a, gf, tr, pre, hstate⟩ := latchIfExpired_state now w hold
      rw [hstate]
      exact ho
  · rw [checkGridLossLocked_of_override e now ho]
    exact h.maintainOverride e now

/-- The watchdog is armed again: whatever it had forced is the fallback, or was restored. -/
theorem Tracks.rearm (h : Tracks p v w) (ho : w.overrideValue = none) (hf : w.hardwareForced = false)
    (hg : w.gridLossForced = false) : Tracks p v (rearm w) :=
  ⟨fun n hn => (Option.some_ne_none n (hn.symm.trans ho)).elim, h.fallback,
    fun hg' => (Bool.false_ne_true (hg.symm.trans hg')).elim, fun hf' => (Bool.false_ne_true hf').elim,
    fun _ _ _ ha => h.free ho hg hf ha⟩

theorem Tracks.recoverFromFailsafe (h : Tracks p v w) : KeepsTrack p v (recoverFromFailsafe e w) := by
  unfold Model.recoverFromFailsafe
  split_ifs with ho ht hlatched hforced
  · exact h
  · exact h
  · exact h
  · -- the forced zero is followed by the baseline that was saved
    have hg : w.gridLossForced = false := by
      cases hg : w.gridLossForced
      · rfl
      · simp [releaseGridLoss, hg] at hforced
    have hrel : releaseGridLoss w = w := by simp [releaseGridLoss, hg]
    rw [hrel] at hforced ⊢
    obtain ⟨-, -, hsaved⟩ := h.forced hforced
    obtain ⟨happlied, hpre⟩ := hsaved hg
    unfold finishRestore KeepsTrack
    by_cases hacc : e.hardware = .accepted
    · simp only [hacc, hardwareValue_accepted, hpre]
      exact ⟨fun n hn => (Option.some_ne_none n (hn.symm.trans (not_not.mp ho))).elim,
        fun ha => (Bool.false_ne_true (happlied.symm.trans ha)).elim,
        fun hg' => (Bool.false_ne_true (hg.symm.trans hg')).elim, fun hf => (Bool.false_ne_true hf).elim,
        fun _ _ _ _ n hn => (Option.some.inj hn).symm⟩
    · rw [if_neg hacc, hardwareValue_of_not_accepted hacc]
      exact h
  · have ho' : w.overrideValue = none := not_not.mp ho
    cases hg : w.gridLossForced
    · have hrel : releaseGridLoss w = w := by simp [releaseGridLoss, hg]
      rw [hrel] at hforced ⊢
      exact h.rearm ho' (Bool.eq_false_iff.mpr hforced) hg
    · -- the fallback of the latch was accepted
      have hw : w.hardwareForced = true := by
        by_contra hno
        exact hlatched ⟨hg, Or.inl (Bool.eq_false_iff.mpr hno)⟩
      have happlied := (h.forced hw).2.1 hg
      have hrel : releaseGridLoss w =
          { w with gridLossForced := false, gridInvalidSince := none, hardwareForced := false } := by
        simp [releaseGridLoss, hg]
      rw [hrel]
      exact ⟨fun n hn => (Option.some_ne_none n (hn.symm.trans ho')).elim, h.fallback,
        fun hg' => (Bool.false_ne_true hg').elim, fun hf => (Bool.false_ne_true hf).elim,
        fun _ _ _ ha => (Bool.false_ne_true (ha.symm.trans happlied)).elim⟩

theorem Tracks.recoverGridLoss (h : Tracks p v w) : KeepsTrack p v (recoverGridLoss e now w) := by
  have hcount : Tracks p v (countRecovery now w) := ⟨h.override, h.fallback, h.latched, h.forced, h.free⟩
  unfold Model.recoverGridLoss
  split_ifs
  · exact hcount.recoverFromFailsafe e
  · exact hcount

/-- The generic failsafe saves the baseline, and forces zero. -/
theorem Tracks.failsafe (h : Tracks p v w) (ho : w.overrideValue = none) (hg : w.gridLossForced = false)
    (hf : w.hardwareForced = false) (htriggered : w.triggered = true) (hget : e.getSetpoint = some p) :
    Tracks p (hardwareValue v [⟨0, e.hardware, saveSetpoint e w⟩])
      (finishFailsafe e (saveSetpoint e w)) := by
  have hsave : saveSetpoint e w = { w with preForcedSetpoint := p } := by
    simp [saveSetpoint, hf, hg, hget]
  rw [hsave]
  unfold finishFailsafe
  by_cases hacc : e.hardware = .accepted
  · simp only [hacc, hardwareValue_accepted]
    exact ⟨fun n hn => (Option.some_ne_none n (hn.symm.trans ho)).elim,
      fun ha => (Bool.false_ne_true ha).elim,
      h.latched, fun _ => ⟨htriggered, fun hg' => (Bool.false_ne_true (hg.symm.trans hg')).elim,
        fun _ => ⟨rfl, rfl⟩⟩,
      fun _ _ hf' => (Bool.false_ne_true hf'.symm).elim⟩
  · rw [if_neg hacc, hardwareValue_of_not_accepted hacc]
    exact ⟨h.override, h.fallback, h.latched,
      fun hf' => (Bool.false_ne_true (hf.symm.trans hf')).elim, h.free⟩

theorem Tracks.finishHeartbeat (h : Tracks p v w) (ho : w.overrideValue = none) (hd : w.dryRun = false)
    (hg : w.gridLossForced = false) (hget : e.getSetpoint = some p) :
    KeepsTrack p v (finishHeartbeat e now w) := by
  have hno (n : ℤ) (hn : w.overrideValue = some n) : False := Option.some_ne_none n (hn.symm.trans ho)
  have hunlatched (hg' : w.gridLossForced = true) : False := Bool.false_ne_true (hg.symm.trans hg')
  obtain ⟨f, n, tr, ⟨heq, htr⟩ | ⟨hf, htr, heq⟩ | ⟨-, htr, heq⟩⟩ := finishHeartbeat_cases e now ho hd hg
  · rw [heq]
    refine ⟨fun n hn => (hno n hn).elim, h.fallback, fun hg' => (hunlatched hg').elim,
      fun hf => ⟨?_, (h.forced hf).2⟩, h.free⟩
    rcases htr with htr | ⟨htr, -⟩
    · exact htr.trans (h.forced hf).1
    · exact htr
  · rw [heq]
    refine Tracks.failsafe e ?_ ho hg hf htr hget
    exact ⟨fun n hn => (hno n hn).elim, h.fallback, fun hg' => (hunlatched hg').elim,
      fun hf' => (Bool.false_ne_true (hf.symm.trans hf')).elim, h.free⟩
  · rw [heq]
    refine Tracks.recoverFromFailsafe e ?_
    exact ⟨fun n hn => (hno n hn).elim, h.fallback, fun hg' => (hunlatched hg').elim,
      fun hf => ⟨htr, (h.forced hf).2⟩, h.free⟩

theorem Tracks.checkHeartbeat (h : Tracks p v w) (hget : e.getSetpoint = some p) :
    KeepsTrack p v (checkHeartbeat e w) := by
  by_cases ho : w.overrideValue = none
  swap
  · rw [show Model.checkHeartbeat e w = Model.maintainOverride e e.now w from if_pos ho]
    exact h.maintainOverride e e.now
  cases hd : w.dryRun
  swap
  · simpa [Model.checkHeartbeat, ho, hd, KeepsTrack] using h
  rcases checkHeartbeat_cases e ho hd with ⟨hg, -, heq⟩ | ⟨hg, heq⟩
  · rw [heq]
    exact h.finishHeartbeat e e.now ho hd hg hget
  · rw [heq]
    have hchecked := Tracks.recoverGridLoss e e.now (h.checkGridLossLocked e e.now)
    unfold KeepsTrack at hchecked
    rw [recoverGridLoss_calls e e.now _ hg] at hchecked
    exact hchecked

/-- A command of the operator, who begins from the baseline of the override. -/
theorem Tracks.setSetpointOverride (h : Tracks p v w) (hcopied : ∀ n, w.overrideValue = some n → p = n)
    (arg : OverrideArg)
    (requestId : Option String) : KeepsTrack p v (setSetpointOverride arg requestId e w) := by
  have hrejected (error : String) : Tracks p v (rejectSetpointOverride error requestId w) :=
    ⟨h.override, h.fallback, h.latched, h.forced, h.free⟩
  unfold Model.setSetpointOverride
  split
  · exact hrejected _
  · split_ifs with ho
    · exact ⟨h.override, h.fallback, h.latched, h.forced, h.free⟩
    · obtain ⟨n, hn⟩ := Option.ne_none_iff_exists'.mp ho
      obtain ⟨hv, -⟩ := h.override n hn
      refine ⟨fun m hm => (Option.some_ne_none m hm.symm).elim, fun ha => (Bool.false_ne_true ha).elim,
        fun hg => (Bool.false_ne_true hg).elim, fun hf => (Bool.false_ne_true hf).elim,
        fun _ _ _ _ m hm => ?_⟩
      rw [hardwareValue_nil, hv] at hm
      exact (Option.some.inj hm).symm.trans (hcopied n hn).symm
  · split_ifs
    · split
      · exact ⟨fun m hm => ⟨hm, rfl, rfl, rfl, rfl⟩, fun ha => (Bool.false_ne_true ha).elim,
          fun hg => (Bool.false_ne_true hg).elim, fun hf => (Bool.false_ne_true hf).elim,
          fun ho => (Option.some_ne_none _ ho).elim⟩
      · exact hrejected _
      · exact hrejected _
    · exact hrejected _

theorem Tracks.markDbusUpdate (h : Tracks p v w) : KeepsTrack p v (markDbusUpdate e w) :=
  have hchecked := h.checkGridLossLocked e e.now
  ⟨hchecked.override, hchecked.fallback, hchecked.latched, hchecked.forced, hchecked.free⟩

theorem Tracks.markDbusInvalid (h : Tracks p v w) : Tracks p v (markDbusInvalid e w) :=
  ⟨h.override, h.fallback, h.latched, h.forced, h.free⟩

/-- A normal write that is not accepted. -/
theorem Tracks.writeControlSetpoint (h : Tracks p v w) {value : ℤ} {generation : ℕ} {dryRun : Bool}
    (hno : (writeControlSetpoint value generation dryRun e w).2 ≠ .accepted) :
    KeepsTrack p v (writeControlSetpoint value generation dryRun e w).1 := by
  unfold Model.writeControlSetpoint at hno ⊢
  split
  · exact h
  · next hfree =>
    rw [if_neg hfree] at hno
    split
    · exact h
    · next hlive =>
      rw [if_neg hlive] at hno
      split
      · next hacc =>
        rw [hacc] at hno
        exact absurd rfl hno
      · exact h
      · exact h

/-- **An accepted normal write** has the baseline on the hardware. -/
theorem Tracks.of_accepted (h : Tracks p v w) {value : ℤ} {generation : ℕ} (hd : w.dryRun = false)
    (hvalid : w.telemetryInvalid = false)
    (haccepted : (Model.writeControlSetpoint value generation false e w).2 = .accepted) :
    KeepsTrack value v (Model.writeControlSetpoint value generation false e w).1 := by
  unfold Model.writeControlSetpoint at haccepted ⊢
  split at haccepted
  · cases haccepted
  · next hfree =>
    rw [if_neg hfree, if_neg (by simp [hd])] at *
    obtain ⟨ho, -, htriggered⟩ : w.overrideValue = none ∧ generation = w.controlGeneration ∧
      w.triggered = false := by
      simpa [writeBlocked] using hfree
    have hlatched (hg : w.gridLossForced = true) : False :=
      Bool.false_ne_true (htriggered.symm.trans (h.latched hg))
    have hforced (hf : w.hardwareForced = true) : False :=
      Bool.false_ne_true (htriggered.symm.trans (h.forced hf).1)
    split at haccepted
    · exact ⟨fun n hn => (Option.some_ne_none n (hn.symm.trans ho)).elim,
        fun ha => by simp [markSetpointUpdate, hvalid] at ha, fun hg => (hlatched hg).elim,
        fun hf => (hforced hf).elim, fun _ _ _ _ n hn => (Option.some.inj hn).symm⟩
    · cases haccepted
    · cases haccepted

end Operations

/-! ### Valid telemetry without a latch -/

/-- The telemetry is valid, and no meter loss is latched. -/
structure Quiet (w : HardwareWatchdog) : Prop where
  forced : w.gridLossForced = false
  valid : w.telemetryInvalid = false

/-- What a step leaves of it: a quiet watchdog with no new fallback. -/
def StaysQuiet (w w' : HardwareWatchdog) : Prop :=
  Quiet w' ∧ (w'.gridLossFallbackApplied = true → w.gridLossFallbackApplied = true)

section Quiet

variable (e : Env) (now : ℚ) {w' : HardwareWatchdog}

theorem Quiet.stays (h : Quiet w) (hf : w'.gridLossForced = w.gridLossForced)
    (ht : w'.telemetryInvalid = w.telemetryInvalid)
    (ha : w'.gridLossFallbackApplied = true → w.gridLossFallbackApplied = true) : StaysQuiet w w' :=
  ⟨⟨hf.trans h.forced, ht.trans h.valid⟩, ha⟩

theorem Quiet.checkGridLossLocked (h : Quiet w) : StaysQuiet w (checkGridLossLocked e now w).1 := by
  by_cases ho : w.overrideValue = none
  · rcases checkGridLossLocked_cases e now ho with heq | ⟨-, hold, -, hlatch, -⟩
    · rw [heq]
      exact h.stays rfl rfl id
    · rcases (latchIfExpired_forced now w hold).mp hlatch with hforced | hexpired
      · exact (Bool.false_ne_true (h.forced.symm.trans hforced)).elim
      · exact (Bool.false_ne_true (h.valid.symm.trans hexpired.1)).elim
  · obtain ⟨a, f, m, lw, u, heq⟩ := maintainOverride_state e now w
    rw [checkGridLossLocked_of_override e now ho, heq]
    exact h.stays rfl rfl id

theorem Quiet.checkHeartbeat (h : Quiet w) : StaysQuiet w (checkHeartbeat e w).1 := by
  by_cases ho : w.overrideValue = none
  swap
  · obtain ⟨a, f, m, lw, u, heq⟩ := maintainOverride_state e e.now w
    rw [show Model.checkHeartbeat e w = Model.maintainOverride e e.now w from if_pos ho, heq]
    exact h.stays rfl rfl id
  cases hd : w.dryRun
  swap
  · simp only [Model.checkHeartbeat, ho, hd]
    exact h.stays rfl rfl id
  rcases checkHeartbeat_cases e ho hd with ⟨hg, -, heq⟩ | ⟨hforced, -⟩
  · rw [heq]
    obtain ⟨f, n, tr, ⟨hbeat, -⟩ | ⟨-, -, hbeat⟩ | ⟨-, -, hbeat⟩⟩ :=
      finishHeartbeat_cases e e.now ho hd hg
    · rw [hbeat]
      exact h.stays rfl rfl id
    · obtain ⟨pre, hsave⟩ :=
        saveSetpoint_state e { w with failCount := f, successCount := n, triggered := tr }
      rw [hbeat, hsave]
      unfold finishFailsafe
      split
      · exact h.stays rfl rfl fun ha => (Bool.false_ne_true ha).elim
      · exact h.stays rfl rfl id
    · rw [hbeat]
      rcases recoverFromFailsafe_cases e { w with
        failCount := f, successCount := n, triggered := tr } with
        hrec | ⟨hrec, -, -⟩
      · rw [hrec]
        exact h.stays rfl rfl id
      · rw [hrec, releaseGridLoss, if_neg (by simp [hg])]
        exact h.stays rfl rfl id
  · exact (Bool.false_ne_true ((h.checkGridLossLocked e e.now).1.forced.symm.trans hforced)).elim

/-- **Every operation** but an invalid reading. -/
theorem Quiet.next (h : Quiet w) {ev : Event} (hne : ev.op ≠ .markDbusInvalid) :
    StaysQuiet w (next w ev) := by
  obtain ⟨op, env⟩ := ev
  cases op with
  | setSetpointOverride arg requestId =>
    simp only [Model.next, perform]
    rcases setSetpointOverride_cases env w arg requestId with heq | ⟨err, rej, req, heq⟩
    · rw [heq]
      exact ⟨⟨rfl, h.valid⟩, fun ha => (Bool.false_ne_true ha).elim⟩
    · rw [heq]
      exact h.stays rfl rfl id
  | writeControlSetpoint value generation dryRun =>
    simp only [Model.next, perform, writeControlSetpoint]
    split
    · exact h.stays rfl rfl id
    · split
      · exact h.stays rfl rfl id
      · split
        · refine h.stays rfl rfl fun ha => ?_
          simp [markSetpointUpdate, h.valid] at ha
        · exact h.stays rfl rfl id
        · exact h.stays rfl rfl id
  | markDbusUpdate =>
    obtain ⟨hchecked, ha⟩ := h.checkGridLossLocked env env.now
    exact ⟨⟨hchecked.forced, rfl⟩, ha⟩
  | markDbusInvalid => exact absurd rfl hne
  | markSetpointUpdate =>
    refine h.stays rfl rfl fun ha => ?_
    simp [Model.next, perform, markSetpointUpdate, h.valid] at ha
  | checkGridLoss => exact h.checkGridLossLocked env env.now
  | checkHeartbeat => exact h.checkHeartbeat env
  | start =>
    simp only [Model.next, perform, start]
    split
    · exact h.stays rfl rfl id
    · exact ⟨⟨rfl, rfl⟩, fun ha => (Bool.false_ne_true ha).elim⟩
  | _ => exact h.stays rfl rfl id

end Quiet

end InverterControl.Watchdog.Hardware
