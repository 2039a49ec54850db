import InverterControl.Logic.Modes

/-!
# The deadband

Inside the deadband the normal strategy asks for the previous setpoint less the creep.  A request
that the convergence rounds to nothing holds the setpoint, whatever the derivative (`next_hold`).
The creep accumulator is one integrator for import and export, so what one side left can push the
setpoint the wrong way when the sign changes (`creep_direction`).
-/

namespace InverterControl.Logic.Deadband

open InverterControl.Lib.Runs InverterControl.Python
open InverterControl.Logic.Model InverterControl.Logic.Pipeline InverterControl.Logic.Modes Set Interval

variable {c : SetpointCalculator} {s : SystemState} {r : Regulation}

/-- No operating mode is active. -/
def NoMode (config : Config) (s : SystemState) : Prop :=
  s.onlyCharging = false ∧ modeTarget config s = none

instance (config : Config) (s : SystemState) : Decidable (NoMode config s) := by
  unfold NoMode; infer_instance

/-- The filtered value is inside the deadband. -/
def Inside (c : SetpointCalculator) (s : SystemState) : Prop := inDeadband c.config (newFilteredGt c s)

instance (c : SetpointCalculator) (s : SystemState) : Decidable (Inside c s) := by
  unfold Inside; infer_instance

/-- The grid value is no further from its filtered reference than the burst threshold. -/
def Quiet (c : SetpointCalculator) (s : SystemState) : Prop :=
  ∀ old ∈ oldFilteredGt c s, |effectiveGt c s - old| ≤ c.config.burstThreshold

instance (c : SetpointCalculator) (s : SystemState) : Decidable (Quiet c s) := by
  unfold Quiet; infer_instance

/-- The creep that the normal strategy takes off the setpoint in this cycle. -/
def creepRequest (c : SetpointCalculator) (s : SystemState) : ℚ :=
  creep c.config c.creepAccumulator (newFilteredGt c s) * damping c.config (newFilteredGt c s)

/-! ### One cycle -/

theorem NoMode.not_floored {config : Config} (h : NoMode config s) : ¬ Floored s := by
  rintro ⟨-, -, hcharging | hfeed⟩
  · exact absurd (h.1.symm.trans hcharging) Bool.false_ne_true
  · have hnone := h.2
    unfold modeTarget at hnone
    simp [hfeed] at hnone
    split_ifs at hnone

theorem rawCommand_of_noMode (h : NoMode c.config s) :
    (rawCommand c s).1.1 = (normalCommand c s).1.1 := by
  rw [rawCommand_none h.2, if_neg (by rw [h.1]; exact Bool.false_ne_true)]

theorem normalStrategy_inside (h : Inside c s) :
    (normalStrategy c (filteredState c s)).1 = s.previousSetpoint - truncate (creepRequest c s) := by
  have hinside : inDeadband c.config (smoothedGt (filteredState c s)) := h
  rw [normalStrategy_fst, if_pos hinside]
  rfl

/-- Without a burst, the correction of the normal strategy leaves its value. -/
theorem burstNormal_quiet (h : Quiet c s) :
    burstNormal c (filteredState c s) (effectiveGt c s) (oldFilteredGt c s) =
      (((normalStrategy c (filteredState c s)).1, []), false) := by
  unfold Quiet at h
  rw [burstNormal]
  generalize oldFilteredGt c s = reference at *
  cases reference with
  | none => rfl
  | some old =>
    simp only [applyBurstCorrection]
    rw [if_pos (h old rfl)]

/-- **A hold.**  A creep request that the convergence rounds to nothing leaves the clamped setpoint,
whatever the derivative. -/
theorem calculate_hold (hmode : NoMode c.config s) (hinside : Inside c s) (hquiet : Quiet c s)
    (hdelta : 0 ≤ deltaLimit c)
    (hzero : truncate ((-truncate (creepRequest c s) : ℤ) * (9 / 10 : ℚ)) = 0) :
    (calculate c s).1.setpoint = clampTo c.powerLimitMin c.powerLimitMax s.previousSetpoint := by
  have hburst := burstNormal_quiet hquiet
  have hchange : (normalStrategy c (filteredState c s)).1 - (filteredState c s).previousSetpoint =
      -truncate (creepRequest c s) := by
    rw [normalStrategy_inside hinside]
    exact sub_sub_cancel_left _ _
  have hholds : normalHolds c (filteredState c s) := by
    refine ⟨hinside, ?_⟩
    rw [hchange]
    exact hzero
  have hraw : (rawCommand c s).1.1 = s.previousSetpoint - truncate (creepRequest c s) := by
    rw [rawCommand_of_noMode hmode, normalCommand, correctedNormal, brakedNormal, if_pos hholds, hburst]
    exact normalStrategy_inside hinside
  have hfired : (rawCommand c s).2 = false := by
    rw [rawCommand_snd, normalCommand, correctedNormal, hburst]
  have hconverged : converged c s = s.previousSetpoint := by
    rw [converged, hraw, hfired, converge, if_neg Bool.false_ne_true, sub_sub_cancel_left, hzero,
      add_zero]
  have hmem := limitSetpoint_mem s.previousSetpoint s.previousSetpoint hdelta
  rw [uIcc_self, mem_singleton_iff] at hmem
  rw [calculate_setpoint_of_not_floored hmode.not_floored, hconverged, hmem]

/-! ### Runs -/

theorem creep_mem {config : Config} (hrate : 0 ≤ config.creepRate) (hmax : 0 ≤ config.creepMax)
    {accumulator smoothed : ℚ} (h : |accumulator| ≤ config.creepMax) :
    |creep config accumulator smoothed| ≤ config.creepMax := by
  rw [abs_le] at h ⊢
  unfold creep
  split_ifs
  · exact ⟨neg_nonpos.mpr hmax, hmax⟩
  · exact ⟨le_min (by linarith) (by linarith), min_le_left _ _⟩
  · exact ⟨le_max_left _ _, max_le (by linarith) (by linarith)⟩

/-- Without a creep rate nothing is accumulated. -/
theorem creep_of_rate_zero {config : Config} (hrate : config.creepRate = 0) (hmax : 0 ≤ config.creepMax)
    (smoothed : ℚ) : creep config 0 smoothed = 0 := by
  unfold creep
  split_ifs
  · rfl
  · rw [hrate, add_zero, min_eq_right hmax]
  · rw [hrate, zero_mul, sub_zero, max_eq_right (neg_nonpos.mpr hmax)]

theorem after_accumulator : (after c s).creepAccumulator =
    if Inside c s then creep c.config c.creepAccumulator (newFilteredGt c s) else 0 := rfl

variable {config : Config} {low high : ℤ}

/-- What every call leaves as it was. -/
theorem exec_after_config (states : List SystemState) (c : SetpointCalculator) :
    (exec after c states).config = c.config ∧ (exec after c states).powerLimitMin = c.powerLimitMin ∧
      (exec after c states).powerLimitMax = c.powerLimitMax :=
  exec_invariant (P := fun c' : SetpointCalculator => c'.config = c.config ∧
    c'.powerLimitMin = c.powerLimitMin ∧
    c'.powerLimitMax = c.powerLimitMax) ⟨rfl, rfl, rfl⟩ fun _ _ h => h

/-- **The accumulator stays within its bounds.** -/
theorem accumulator_mem (hrate : 0 ≤ config.creepRate) (hmax : 0 ≤ config.creepMax)
    (states : List SystemState) :
    |(exec after (fresh config low high) states).creepAccumulator| ≤ config.creepMax := by
  have h : (exec after (fresh config low high) states).config = config ∧
      |(exec after (fresh config low high) states).creepAccumulator| ≤ config.creepMax := by
    refine exec_invariant (P := fun c : SetpointCalculator => c.config = config ∧
      |c.creepAccumulator| ≤ config.creepMax)
      ⟨rfl, by rw [fresh, abs_zero]; exact hmax⟩ fun x _ hx => ⟨hx.1, ?_⟩
    rw [after_accumulator, hx.1]
    split_ifs
    · exact creep_mem hrate hmax hx.2
    · rw [abs_zero]
      exact hmax
  exact h.2

/-- Nothing is accumulated without a creep rate. -/
theorem accumulator_eq_zero (hrate : config.creepRate = 0) (hmax : 0 ≤ config.creepMax)
    (states : List SystemState) : (exec after (fresh config low high) states).creepAccumulator = 0 := by
  have h : (exec after (fresh config low high) states).config = config ∧
      (exec after (fresh config low high) states).creepAccumulator = 0 := by
    refine exec_invariant (P := fun c : SetpointCalculator => c.config = config ∧
      c.creepAccumulator = 0) ⟨rfl, rfl⟩
      fun x _ hx => ⟨hx.1, ?_⟩
    rw [after_accumulator, hx.1, hx.2]
    split_ifs
    · exact creep_of_rate_zero hrate hmax _
    · rfl
  exact h.2

/-- A cycle that is inside the deadband, without a burst. -/
def Holding (r : Regulation) (s : SystemState) : Prop :=
  NoMode r.calculator.config s ∧ Inside r.calculator (r.state s) ∧ Quiet r.calculator (r.state s)

instance (r : Regulation) (s : SystemState) : Decidable (Holding r s) := by
  unfold Holding; infer_instance

/-- Without a creep rate, a cycle inside the deadband leaves the clamped setpoint. -/
theorem next_hold (hrate : r.calculator.config.creepRate = 0) (hmax : 0 ≤ r.calculator.config.creepMax)
    (hzero : r.calculator.creepAccumulator = 0) (hdelta : 0 ≤ deltaLimit r.calculator)
    (hhold : Holding r s) :
    (r.next s).setpoint = r.goal r.setpoint ∧ (r.next s).calculator.creepAccumulator = 0 := by
  obtain ⟨hmode, hinside, hquiet⟩ := hhold
  have hmode' : NoMode r.calculator.config (r.state s) := hmode
  have hcreep := creep_of_rate_zero hrate hmax (newFilteredGt r.calculator (r.state s))
  have hrequest : creepRequest r.calculator (r.state s) = 0 := by
    rw [creepRequest, hzero, hcreep, zero_mul]
  refine ⟨calculate_hold hmode' hinside hquiet hdelta ?_, ?_⟩
  · rw [hrequest, truncate_zero, neg_zero, Int.cast_zero, zero_mul, truncate_zero]
  · have hafter := after_accumulator (c := r.calculator) (s := r.state s)
    rw [if_pos hinside, hzero, hcreep] at hafter
    exact hafter

/-- A run inside the deadband leaves the clamped setpoint that it started from. -/
theorem exec_hold {states : List SystemState} (hrate : r.calculator.config.creepRate = 0)
    (hmax : 0 ≤ r.calculator.config.creepMax) (hzero : r.calculator.creepAccumulator = 0)
    (hdelta : 0 ≤ deltaLimit r.calculator)
    (hhold : ∀ x ∈ trace Regulation.next r states, Holding x.before x.input) :
    ∀ x ∈ trace Regulation.next r states, (x.before.next x.input).setpoint = r.goal r.setpoint := by
  induction states generalizing r with
  | nil => exact fun x hx => absurd hx List.not_mem_nil
  | cons s states ih =>
    obtain ⟨hnext, hzero'⟩ := next_hold hrate hmax hzero hdelta (hhold ⟨r, s⟩ List.mem_cons_self)
    have hgoal : (r.next s).goal (r.next s).setpoint = r.goal r.setpoint := by
      rw [hnext]
      exact clampTo_clampTo
    intro x hx
    rcases List.mem_cons.mp hx with rfl | hx
    · exact hnext
    · rw [← hgoal]
      exact ih (r := r.next s) hrate hmax hzero' hdelta
        (fun y hy => hhold y (List.mem_cons_of_mem _ hy)) x hx

/-- **The deadband holds.**  After any calls of a new calculator: the accumulator is within its
bounds; a cycle inside the deadband whose creep request rounds to nothing leaves the clamped
setpoint; and without a creep rate, so does every run inside the deadband. -/
theorem deadband_hold (config : Config) (low high : ℤ) (earlier : List SystemState)
    (hrate : 0 ≤ config.creepRate) (hmax : 0 ≤ config.creepMax)
    (hdelta : 0 ≤ config.setpointDeltaLimit) :
    |(exec after (fresh config low high) earlier).creepAccumulator| ≤ config.creepMax ∧
    (∀ r : Regulation, r.calculator = exec after (fresh config low high) earlier →
      (∀ s, Holding r s →
        truncate ((-truncate (creepRequest r.calculator (r.state s)) : ℤ) * (9 / 10 : ℚ)) = 0 →
        (r.next s).setpoint = clampTo low high r.setpoint) ∧
      (config.creepRate = 0 → ∀ states : List SystemState,
        (∀ x ∈ trace Regulation.next r states, Holding x.before x.input) →
        ∀ x ∈ trace Regulation.next r states, (x.before.next x.input).setpoint =
          clampTo low high r.setpoint)) := by
  refine ⟨accumulator_mem hrate hmax earlier, fun r hr => ?_⟩
  obtain ⟨hconfig, hlow, hhigh⟩ := exec_after_config earlier (fresh config low high)
  rw [← hr] at hconfig hlow hhigh
  have hdelta' : 0 ≤ deltaLimit r.calculator := by
    rw [deltaLimit, hconfig]
    exact hdelta
  have hgoal : r.goal r.setpoint = clampTo low high r.setpoint := by
    rw [Regulation.goal, hlow, hhigh]
    rfl
  refine ⟨fun s hholding hzero => ?_, fun hnone states hhold => ?_⟩
  · obtain ⟨hmode, hinside, hquiet⟩ := hholding
    rw [← hgoal]
    exact calculate_hold (s := r.state s) hmode hinside hquiet hdelta' hzero
  · rw [← hgoal]
    refine exec_hold ?_ ?_ ?_ hdelta' hhold
    · rw [hconfig]
      exact hnone
    · rw [hconfig]
      exact hmax
    · rw [hr]
      exact accumulator_eq_zero hnone hmax earlier

/-- A raw reading that reverses while the filtered one stays inside. -/
def reversing : SystemState := { regulating 0 (-6) with prefilteredGt := some (-49) }

theorem deadband_hold_reversing :
    (Regulation.next ⟨exec after (fresh (defaultConfig none 0) (-2300) 2250) [regulating 162 (-60)], 162⟩
      reversing).setpoint = 162 :=
  ((deadband_hold (defaultConfig none 0) (-2300) 2250 [regulating 162 (-60)] (by decide) (by decide)
    (by decide)).2 ⟨_, 162⟩ rfl).2 rfl [reversing] (by decide +kernel) ⟨_, reversing⟩ List.mem_cons_self

/-! ### The direction of the creep -/

/-- Neither a burst nor the derivative corrects the normal strategy. -/
def Uncorrected (c : SetpointCalculator) (s : SystemState) : Prop :=
  (normalCommand c s).2 = false ∧
    (normalCommand c s).1.1 = (normalStrategy c (filteredState c s)).1

instance (c : SetpointCalculator) (s : SystemState) : Decidable (Uncorrected c s) := by
  unfold Uncorrected; infer_instance

/-- The previous setpoint is within the limits. -/
def WithinLimits (c : SetpointCalculator) (s : SystemState) : Prop :=
  c.powerLimitMin ≤ s.previousSetpoint ∧ s.previousSetpoint ≤ c.powerLimitMax

instance (c : SetpointCalculator) (s : SystemState) : Decidable (WithinLimits c s) := by
  unfold WithinLimits; infer_instance

/-- A call that only the deadband decides. -/
structure Creeping (c : SetpointCalculator) (s : SystemState) : Prop where
  mode : NoMode c.config s
  uncorrected : Uncorrected c s
  within : WithinLimits c s
  inside : Inside c s

theorem Creeping.converged_eq (h : Creeping c s) : converged c s =
    converge s.previousSetpoint (s.previousSetpoint - truncate (creepRequest c s)) false := by
  rw [converged, rawCommand_of_noMode h.mode, rawCommand_snd, h.uncorrected.1, h.uncorrected.2,
    normalStrategy_inside h.inside]

/-- A request of -2 W or less raises the setpoint. -/
theorem converge_sub_le_iff (previous : ℤ) (request : ℚ) :
    converge previous (previous - truncate request) false ≤ previous ↔ -2 < request := by
  have htwo : truncate request ≤ -2 ↔ request ≤ ((-2 : ℤ) : ℚ) := truncate_le (by decide)
  rw [converge_le_iff, ← not_le (a := request), show (-2 : ℚ) = ((-2 : ℤ) : ℚ) from rfl, ← htwo]
  omega

/-- A request of 2 W or more lowers it. -/
theorem le_converge_sub_iff (previous : ℤ) (request : ℚ) :
    previous ≤ converge previous (previous - truncate request) false ↔ request < 2 := by
  have htwo : 2 ≤ truncate request ↔ ((2 : ℤ) : ℚ) ≤ request := le_truncate (by decide)
  rw [le_converge_iff, ← not_le (b := request), show (2 : ℚ) = ((2 : ℤ) : ℚ) from rfl, ← htwo]
  omega

/-- A creeping call raises the setpoint only by a request of -2 W or less. -/
theorem Creeping.le_iff (h : Creeping c s) (hdelta : 0 ≤ deltaLimit c) :
    (calculate c s).1.setpoint ≤ s.previousSetpoint ↔
      s.previousSetpoint = c.powerLimitMax ∨ deltaLimit c = 0 ∨ -2 < creepRequest c s := by
  rw [calculate_setpoint_of_not_floored h.mode.not_floored, limitSetpoint_eq hdelta,
    slewed_le_iff hdelta h.within.1 h.within.2, h.converged_eq, converge_sub_le_iff]
  tauto

theorem Creeping.ge_iff (h : Creeping c s) (hdelta : 0 ≤ deltaLimit c) :
    s.previousSetpoint ≤ (calculate c s).1.setpoint ↔
      s.previousSetpoint = c.powerLimitMin ∨ deltaLimit c = 0 ∨ creepRequest c s < 2 := by
  rw [calculate_setpoint_of_not_floored h.mode.not_floored, limitSetpoint_eq hdelta,
    le_slewed_iff hdelta h.within.1 h.within.2, h.converged_eq, le_converge_sub_iff]
  tauto

theorem creepRequest_import (h : 0 < newFilteredGt c s) : creepRequest c s =
    min c.config.creepMax (c.creepAccumulator + c.config.creepRate) * c.config.dampingFactor := by
  rw [creepRequest, creep, if_neg h.ne', if_pos h, damping, if_neg h.le.not_gt]

theorem creepRequest_export (h : newFilteredGt c s < 0) : creepRequest c s =
    max (-c.config.creepMax) (c.creepAccumulator - c.config.creepRate * 2) * c.config.exportDamping := by
  rw [creepRequest, creep, if_neg h.ne, if_neg h.le.not_gt, damping, if_pos h]

/-- The creep pushes towards zero. -/
def PushesToZero (c : SetpointCalculator) (s : SystemState) : Prop :=
  (0 < newFilteredGt c s → (calculate c s).1.setpoint ≤ s.previousSetpoint) ∧
    (newFilteredGt c s < 0 → s.previousSetpoint ≤ (calculate c s).1.setpoint)

instance (c : SetpointCalculator) (s : SystemState) : Decidable (PushesToZero c s) := by
  unfold PushesToZero; infer_instance

/-- What the other sign left in the accumulator is used up, or the setpoint cannot move that way. -/
def UsedUp (c : SetpointCalculator) (s : SystemState) : Prop :=
  (0 < newFilteredGt c s → s.previousSetpoint = c.powerLimitMax ∨ deltaLimit c = 0 ∨
    -2 < min c.config.creepMax (c.creepAccumulator + c.config.creepRate) * c.config.dampingFactor) ∧
  (newFilteredGt c s < 0 → s.previousSetpoint = c.powerLimitMin ∨ deltaLimit c = 0 ∨
    max (-c.config.creepMax) (c.creepAccumulator - c.config.creepRate * 2) * c.config.exportDamping < 2)

instance (c : SetpointCalculator) (s : SystemState) : Decidable (UsedUp c s) := by
  unfold UsedUp; infer_instance

theorem Creeping.pushesToZero_iff (h : Creeping c s) (hdelta : 0 ≤ deltaLimit c) :
    PushesToZero c s ↔ UsedUp c s := by
  refine and_congr (forall_congr' fun hpositive => ?_) (forall_congr' fun hnegative => ?_)
  · rw [h.le_iff hdelta, creepRequest_import hpositive]
  · rw [h.ge_iff hdelta, creepRequest_export hnegative]

/-- **The direction of the creep.**  After any calls of a new calculator, a call that only the deadband
decides pushes towards zero exactly where the accumulator has used up what the other sign left in it. -/
theorem creep_direction (config : Config) (low high : ℤ) (history : List SystemState) (s : SystemState)
    (hdelta : 0 ≤ config.setpointDeltaLimit)
    (hcreeping : Creeping (exec after (fresh config low high) history) s) :
    PushesToZero (exec after (fresh config low high) history) s ↔
      UsedUp (exec after (fresh config low high) history) s := by
  refine hcreeping.pushesToZero_iff ?_
  rw [deltaLimit, (exec_after_config history (fresh config low high)).1]
  exact hdelta

/-- Four cycles of export, and six of import: the last one no longer finds what the export has left. -/
theorem creep_direction_import :
    PushesToZero (exec after (fresh (defaultConfig none (1 / 2)) (-2300) 2250)
      (List.replicate 4 (regulating (-500) (-10)) ++ List.replicate 5 (regulating (-500) 10)))
      (regulating (-500) 10) :=
  (creep_direction (defaultConfig none (1 / 2)) (-2300) 2250
    (List.replicate 4 (regulating (-500) (-10)) ++ List.replicate 5 (regulating (-500) 10))
    (regulating (-500) 10) (by decide)
    ⟨by decide, by decide +kernel, by decide +kernel, by decide +kernel⟩).mpr (by decide +kernel)

/-- Four cycles of export, and one of import that raises the setpoint. -/
theorem creep_pushes_away :
    Creeping (exec after (fresh (defaultConfig none (1 / 2)) (-2300) 2250)
      (List.replicate 4 (regulating (-500) (-10)))) (regulating (-500) 10) ∧
    ¬ PushesToZero (exec after (fresh (defaultConfig none (1 / 2)) (-2300) 2250)
      (List.replicate 4 (regulating (-500) (-10)))) (regulating (-500) 10) :=
  ⟨⟨by decide, by decide +kernel, by decide, by decide +kernel⟩, by decide +kernel⟩

end InverterControl.Logic.Deadband
