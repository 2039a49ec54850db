import InverterControl.Logic.Model
import InverterControl.Lib.Approach

/-!
# What the pipeline does to a command

Convergence, the limits, the software fuse and the limits again all move the previous setpoint towards
the command (`limited_mem`), and the result is a closed form of three clamps (`limitSetpoint_eq`).  The
guard of an unknown EV comes last, and may leave the limits.
-/

namespace InverterControl.Logic.Pipeline

open InverterControl.Python InverterControl.Logic.Model Set Interval

variable {c : SetpointCalculator} {s : SystemState} {low high limit previous value vanew : ℤ}
  {fired : Bool}

/-! ### Clamps -/

theorem clampTo_cases (low high value : ℤ) :
    (clampTo low high value = low ∧ (value ≤ low ∨ high ≤ low)) ∨
    (clampTo low high value = high ∧ low ≤ high ∧ high ≤ value) ∨
    (clampTo low high value = value ∧ low ≤ value ∧ value ≤ high) := by
  unfold clampTo
  omega

theorem clampTo_mem (h : low ≤ high) (value : ℤ) :
    low ≤ clampTo low high value ∧ clampTo low high value ≤ high := by
  unfold clampTo
  omega

theorem clampTo_of_mem (hlow : low ≤ value) (hhigh : value ≤ high) : clampTo low high value = value := by
  unfold clampTo
  omega

@[simp] theorem clampTo_clampTo : clampTo low high (clampTo low high value) =
    clampTo low high value := by
  unfold clampTo
  omega

/-- A clamp keeps what is between two values between their clamps. -/
theorem clampTo_mem_uIcc (low high : ℤ) {x : ℤ} (h : x ∈ [[previous, vanew]]) :
    clampTo low high x ∈ [[clampTo low high previous, clampTo low high vanew]] := by
  rw [mem_uIcc] at h ⊢
  unfold clampTo
  omega

/-! ### Convergence -/

/-- Nine tenths of a change, or all of it. -/
theorem converge_mem (previous vanew : ℤ) (fired : Bool) :
    converge previous vanew fired ∈ [[previous, vanew]] := by
  have hmem : ∀ {factor : ℚ}, 0 ≤ factor → factor ≤ 1 →
      previous + truncate ((vanew - previous : ℤ) * factor) ∈ [[previous, vanew]] := by
    intro factor hnonneg hone
    rw [mem_uIcc]
    rcases le_total 0 (vanew - previous) with hd | hd
    · have hcast : (0 : ℚ) ≤ (vanew - previous : ℤ) := Int.cast_nonneg hd
      have hlow := truncate_nonneg (mul_nonneg hcast hnonneg)
      have hhigh : ¬ vanew - previous + 1 ≤ truncate ((vanew - previous : ℤ) * factor) := by
        rw [le_truncate (by omega), not_le]
        push_cast at hcast ⊢
        nlinarith
      omega
    · have hcast : ((vanew - previous : ℤ) : ℚ) ≤ 0 := Int.cast_nonpos.mpr hd
      have hhigh := truncate_nonpos (mul_nonpos_of_nonpos_of_nonneg hcast hnonneg)
      have hlow : ¬ truncate ((vanew - previous : ℤ) * factor) ≤ vanew - previous - 1 := by
        rw [truncate_le (by omega), not_le]
        push_cast at hcast ⊢
        nlinarith
      omega
  unfold converge
  cases fired
  · exact hmem (by norm_num) (by norm_num)
  · exact hmem (by norm_num) (by norm_num)

@[simp] theorem converge_fired (previous vanew : ℤ) : converge previous vanew true = vanew := by
  rw [converge, if_pos rfl, mul_one, truncate_intCast]
  omega

/-- A change of two or more is not lost in the truncation. -/
theorem converge_lt (h : previous + 2 ≤ vanew) (fired : Bool) :
    previous < converge previous vanew fired := by
  cases fired
  · have hone : 1 ≤ truncate ((vanew - previous : ℤ) * (9 / 10 : ℚ)) := by
      rw [le_truncate one_pos]
      have hcast : (2 : ℚ) ≤ (vanew - previous : ℤ) := by
        exact_mod_cast (by omega : 2 ≤ vanew - previous)
      push_cast at hcast ⊢
      linarith
    rw [converge, if_neg Bool.false_ne_true]
    omega
  · rw [converge_fired]
    omega

theorem lt_converge (h : vanew + 2 ≤ previous) (fired : Bool) :
    converge previous vanew fired < previous := by
  cases fired
  · have hone : truncate ((vanew - previous : ℤ) * (9 / 10 : ℚ)) ≤ -1 := by
      rw [truncate_le (by omega)]
      have hcast : ((vanew - previous : ℤ) : ℚ) ≤ (-2 : ℤ) := by
        exact_mod_cast (by omega : vanew - previous ≤ -2)
      push_cast at hcast ⊢
      linarith
    rw [converge, if_neg Bool.false_ne_true]
    omega
  · rw [converge_fired]
    omega

/-- One watt is lost. -/
theorem converge_one (h : |vanew - previous| ≤ 1) : converge previous vanew false = previous := by
  have hzero : truncate ((vanew - previous : ℤ) * (9 / 10 : ℚ)) = 0 := by
    rw [abs_le] at h
    have hlow : ((-1 : ℤ) : ℚ) ≤ (vanew - previous : ℤ) := Int.cast_le.mpr h.1
    have hhigh : ((vanew - previous : ℤ) : ℚ) ≤ (1 : ℤ) := Int.cast_le.mpr h.2
    have hnot : ¬ 1 ≤ truncate ((vanew - previous : ℤ) * (9 / 10 : ℚ)) := by
      rw [le_truncate one_pos, not_le]
      push_cast at hhigh ⊢
      linarith
    have hnot' : ¬ truncate ((vanew - previous : ℤ) * (9 / 10 : ℚ)) ≤ -1 := by
      rw [truncate_le (by omega), not_le]
      push_cast at hlow ⊢
      linarith
    omega
  rw [converge, if_neg Bool.false_ne_true, hzero, add_zero]

/-- The setpoint rises for a command that is two above it. -/
theorem converge_le_iff : converge previous vanew false ≤ previous ↔ vanew < previous + 2 := by
  constructor
  · intro hle
    by_contra hno
    have hlt := converge_lt (not_lt.mp hno) false
    omega
  · intro hlt
    rcases le_or_gt (previous - 1) vanew with hnear | hfar
    · rcases le_or_gt vanew (previous + 1) with hle | hgt
      · rw [converge_one (abs_le.mpr ⟨by omega, by omega⟩)]
      · omega
    · have hmem := mem_uIcc.mp (converge_mem previous vanew false)
      omega

theorem le_converge_iff : previous ≤ converge previous vanew false ↔ previous < vanew + 2 := by
  constructor
  · intro hle
    by_contra hno
    have hlt := lt_converge (not_lt.mp hno) false
    omega
  · intro hlt
    rcases le_or_gt vanew (previous + 1) with hnear | hfar
    · rcases le_or_gt (previous - 1) vanew with hle | hgt
      · rw [converge_one (abs_le.mpr ⟨by omega, by omega⟩)]
      · omega
    · have hmem := mem_uIcc.mp (converge_mem previous vanew false)
      omega

/-! ### The limits -/

/-- The software fuse is a clamp of the change. -/
theorem limitDelta_fst (h : 0 ≤ limit) :
    (limitDelta limit previous value).1 = previous + clampTo (-limit) limit (value - previous) := by
  have habs := abs_cases (value - previous)
  have hclamp := clampTo_cases (-limit) limit (value - previous)
  unfold limitDelta
  split_ifs <;> simp only <;> omega

/-- A command that is limited, slewed and limited again. -/
def slewed (low high limit previous vanew : ℤ) : ℤ :=
  clampTo low high (previous + clampTo (-limit) limit (clampTo low high vanew - previous))

theorem limitSetpoint_eq (h : 0 ≤ deltaLimit c) : (limitSetpoint c previous vanew).1 =
    slewed c.powerLimitMin c.powerLimitMax (deltaLimit c) previous vanew := by
  rw [limitSetpoint, andThen, limitDelta_fst h, slewed]

/-- **The limits move the clamped setpoint towards the clamped command.** -/
theorem limitSetpoint_mem (previous vanew : ℤ) (h : 0 ≤ deltaLimit c) :
    (limitSetpoint c previous vanew).1 ∈
    [[clampTo c.powerLimitMin c.powerLimitMax previous,
      clampTo c.powerLimitMin c.powerLimitMax vanew]] := by
  rw [limitSetpoint_eq h, slewed, mem_uIcc]
  have hcommand := clampTo_cases c.powerLimitMin c.powerLimitMax vanew
  have hprevious := clampTo_cases c.powerLimitMin c.powerLimitMax previous
  generalize clampTo c.powerLimitMin c.powerLimitMax vanew = command at *
  have hchange := clampTo_cases (-deltaLimit c) (deltaLimit c) (command - previous)
  generalize clampTo (-deltaLimit c) (deltaLimit c) (command - previous) = change at *
  have hlast := clampTo_cases c.powerLimitMin c.powerLimitMax (previous + change)
  omega

/-- They move a setpoint within the limits when the clamped command is another. -/
theorem limitSetpoint_ne (h : 1 ≤ deltaLimit c) (hlow : c.powerLimitMin ≤ previous)
    (hhigh : previous ≤ c.powerLimitMax)
    (hne : clampTo c.powerLimitMin c.powerLimitMax vanew ≠ previous) :
    (limitSetpoint c previous vanew).1 ≠ previous := by
  rw [limitSetpoint_eq (by omega), slewed]
  have hcommand := clampTo_mem (hlow.trans hhigh) vanew
  generalize clampTo c.powerLimitMin c.powerLimitMax vanew = command at *
  have hchange := clampTo_cases (-deltaLimit c) (deltaLimit c) (command - previous)
  generalize clampTo (-deltaLimit c) (deltaLimit c) (command - previous) = change at *
  have hlast := clampTo_cases c.powerLimitMin c.powerLimitMax (previous + change)
  omega

/-- A setpoint within the limits rises only for a command above it. -/
theorem slewed_le_iff (h : 0 ≤ limit) (hlow : low ≤ previous) (hhigh : previous ≤ high) :
    slewed low high limit previous vanew ≤ previous ↔ vanew ≤ previous ∨ previous = high ∨
    limit = 0 := by
  unfold slewed
  have hcommand := clampTo_cases low high vanew
  generalize clampTo low high vanew = command at *
  have hchange := clampTo_cases (-limit) limit (command - previous)
  generalize clampTo (-limit) limit (command - previous) = change at *
  have hlast := clampTo_cases low high (previous + change)
  omega

/-- It falls only for a command under it. -/
theorem le_slewed_iff (h : 0 ≤ limit) (hlow : low ≤ previous) (hhigh : previous ≤ high) :
    previous ≤ slewed low high limit previous vanew ↔ previous ≤ vanew ∨ previous = low ∨ limit = 0 := by
  unfold slewed
  have hcommand := clampTo_cases low high vanew
  generalize clampTo low high vanew = command at *
  have hchange := clampTo_cases (-limit) limit (command - previous)
  generalize clampTo (-limit) limit (command - previous) = change at *
  have hlast := clampTo_cases low high (previous + change)
  omega

/-- It moves by the limit at most. -/
theorem abs_slewed_sub_le (h : 0 ≤ limit) (hlow : low ≤ previous) (hhigh : previous ≤ high) :
    |slewed low high limit previous vanew - previous| ≤ limit := by
  unfold slewed
  have hcommand := clampTo_cases low high vanew
  generalize clampTo low high vanew = command at *
  have hchange := clampTo_cases (-limit) limit (command - previous)
  generalize clampTo (-limit) limit (command - previous) = change at *
  have hlast := clampTo_cases low high (previous + change)
  generalize clampTo low high (previous + change) = last at *
  rw [abs_le]
  omega

/-- A clamp does not lead away from a value within its bounds. -/
theorem abs_clampTo_sub_le (hlow : low ≤ previous) (hhigh : previous ≤ high) :
    |clampTo low high value - previous| ≤ |value - previous| := by
  have hclamp := clampTo_cases low high value
  have hvalue := abs_cases (value - previous)
  generalize clampTo low high value = clamped at *
  rw [abs_le]
  omega

/-! ### The guard -/

/-- The guard of an unknown EV restricts the setpoint. -/
def Floored (s : SystemState) : Prop :=
  s.doNotSupplyCharger = true ∧ s.evPower = none ∧ (s.onlyCharging = true ∨ s.noFeed = true)

instance (s : SystemState) : Decidable (Floored s) := by unfold Floored; infer_instance

theorem guardUnknownEvPower_fst :
    (guardUnknownEvPower value s.doNotSupplyCharger s.evPower c.powerLimitMax
    s.onlyCharging s.noFeed).1 = if Floored s then max 0 value else value := by
  by_cases h : Floored s
  · obtain ⟨henabled, hunknown, hmode⟩ := h
    have hfloor : evFloor s.doNotSupplyCharger s.evPower s.onlyCharging s.noFeed = true := by
      rw [evFloor, henabled, hunknown, Bool.true_and, Option.isNone_none, Bool.true_and, Bool.or_eq_true]
      exact hmode
    rw [if_pos ⟨henabled, hunknown, hmode⟩, guardUnknownEvPower,
      if_neg (by simp [henabled, hunknown]), hfloor, if_neg (by decide)]
  · rw [if_neg h, guardUnknownEvPower]
    split
    · rfl
    · have hfloor : evFloor s.doNotSupplyCharger s.evPower s.onlyCharging s.noFeed = false := by
        refine Bool.eq_false_iff.mpr fun hfloor => h ?_
        rw [evFloor, Bool.and_eq_true, Bool.or_eq_true, Bool.and_eq_true] at hfloor
        exact ⟨hfloor.1.1, Option.isNone_iff_eq_none.mp hfloor.1.2, hfloor.2⟩
      rw [if_pos hfloor]

/-- A calculator as it is made. -/
def fresh (config : Config) (powerLimitMin powerLimitMax : ℤ) : SetpointCalculator where
  config := config
  powerLimitMin := powerLimitMin
  powerLimitMax := powerLimitMax

/-- The calculator that a call of `calculate` leaves. -/
def after (c : SetpointCalculator) (s : SystemState) : SetpointCalculator := (calculate c s).2

/-- The value after the strategies and convergence. -/
def converged (c : SetpointCalculator) (s : SystemState) : ℤ :=
  converge s.previousSetpoint (rawCommand c s).1.1 (rawCommand c s).2

theorem limitedCommand_fst :
    (limitedCommand c s).1 = (limitSetpoint c s.previousSetpoint (converged c s)).1 := rfl

theorem calculate_setpoint : (calculate c s).1.setpoint =
    if Floored s then max 0 (limitedCommand c s).1 else (limitedCommand c s).1 :=
  guardUnknownEvPower_fst

theorem calculate_setpoint_of_not_floored (h : ¬ Floored s) :
    (calculate c s).1.setpoint = (limitSetpoint c s.previousSetpoint (converged c s)).1 := by
  rw [calculate_setpoint, if_neg h, limitedCommand_fst]

/-! ### The bounds of the pipeline -/

/-- **Bounds and slew of the setpoint.**  The value after strategies and convergence is limited, slewed
and limited again, and floored where the guard applies.  So the result is within the limits, unless that
floor is above them; it is no further from a previous setpoint within the limits than the slew limit; and
a previous setpoint that is further outside is left for the nearest limit. -/
theorem setpoint_pipeline (c : SetpointCalculator) (s : SystemState)
    (hlimits : c.powerLimitMin ≤ c.powerLimitMax) (hdelta : 0 ≤ deltaLimit c) :
    (calculate c s).1.setpoint =
      (if Floored s then
        max 0 (slewed c.powerLimitMin c.powerLimitMax (deltaLimit c) s.previousSetpoint (converged c s))
      else slewed c.powerLimitMin c.powerLimitMax (deltaLimit c) s.previousSetpoint (converged c s)) ∧
    (¬ (Floored s ∧ c.powerLimitMax < 0) →
      c.powerLimitMin ≤ (calculate c s).1.setpoint ∧ (calculate c s).1.setpoint ≤ c.powerLimitMax) ∧
    (¬ Floored s → c.powerLimitMin ≤ s.previousSetpoint → s.previousSetpoint ≤ c.powerLimitMax →
      |(calculate c s).1.setpoint - s.previousSetpoint| ≤ deltaLimit c) ∧
    (¬ Floored s → c.powerLimitMax + deltaLimit c ≤ s.previousSetpoint →
      (calculate c s).1.setpoint = c.powerLimitMax) ∧
    (¬ Floored s → s.previousSetpoint ≤ c.powerLimitMin - deltaLimit c →
      (calculate c s).1.setpoint = c.powerLimitMin) := by
  have hclosed : (calculate c s).1.setpoint = if Floored s then
      max 0 (slewed c.powerLimitMin c.powerLimitMax (deltaLimit c) s.previousSetpoint (converged c s))
      else slewed c.powerLimitMin c.powerLimitMax (deltaLimit c) s.previousSetpoint (converged c s) := by
    rw [calculate_setpoint, limitedCommand_fst, limitSetpoint_eq hdelta]
  refine ⟨hclosed, ?_⟩
  rw [hclosed, slewed]
  have hcommand := clampTo_cases c.powerLimitMin c.powerLimitMax (converged c s)
  generalize clampTo c.powerLimitMin c.powerLimitMax (converged c s) = command at *
  have hchange := clampTo_cases (-deltaLimit c) (deltaLimit c) (command - s.previousSetpoint)
  generalize clampTo (-deltaLimit c) (deltaLimit c) (command - s.previousSetpoint) = change at *
  have hlast := clampTo_cases c.powerLimitMin c.powerLimitMax (s.previousSetpoint + change)
  generalize clampTo c.powerLimitMin c.powerLimitMax (s.previousSetpoint + change) = last at *
  by_cases hfloor : Floored s
  · rw [if_pos hfloor]
    refine ⟨fun h => ?_, fun h => absurd hfloor h, fun h => absurd hfloor h, fun h => absurd hfloor h⟩
    have hnonneg : 0 ≤ c.powerLimitMax := not_lt.mp fun hlt => h ⟨hfloor, hlt⟩
    omega
  · rw [if_neg hfloor]
    refine ⟨fun _ => by omega, fun _ hlow hhigh => ?_, fun _ h => by omega, fun _ h => by omega⟩
    rw [abs_le]
    omega

/-- No mode, and the command of the last cycle holds. -/
def regulating (previousSetpoint : ℤ) (gt : ℚ) : SystemState where
  gt := gt
  invPower := previousSetpoint
  mpptTotal := 0
  pvInverterTotal := 0
  evPower := some 0
  garagePower := 0
  onlyCharging := false
  noFeed := false
  houseSupport := false
  chargeBattery := false
  chargeBatteryBlocked := false
  doNotSupplyCharger := false
  limitToEv := false
  previousSetpoint := previousSetpoint
  derivedGt := none
  filteredGt := none
  prefilteredGt := some gt

/-- A calculator of the values of `config.py`. -/
def newCalculator (creepRate : ℚ) (powerLimitMin powerLimitMax : ℤ) : SetpointCalculator :=
  fresh (defaultConfig none creepRate) powerLimitMin powerLimitMax

/-- A previous setpoint far above the limits. -/
theorem setpoint_pipeline_above :
    (calculate (newCalculator 0 (-2300) 2250) (regulating 5000 0)).1.setpoint = 2250 :=
  (setpoint_pipeline (newCalculator 0 (-2300) 2250) (regulating 5000 0) (by decide) (by decide)).2.2.2.1
    (by decide) (by decide)

end InverterControl.Logic.Pipeline
