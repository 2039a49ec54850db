import InverterControl.Logic.Pipeline

/-!
# Operating modes over whole runs

The mode of the highest priority replaces the command with its own target, whatever the normal strategy
and its corrections said (`rawCommand_target`); only-charging puts a floor under the command.  Everything
downstream moves the setpoint towards that command, so a run that holds a target approaches it, and one
that holds the floor does not fall under it.
-/

namespace InverterControl.Logic.Modes

open InverterControl.Lib.Runs InverterControl.Lib.Approach InverterControl.Python
open InverterControl.Logic.Model InverterControl.Logic.Pipeline Set Interval

variable {c : SetpointCalculator} {s : SystemState} {target : ℤ} {x : Command}

/-! ### What a mode asks for -/

/-- An EV is charging, for the mode that exports most of the solar power to it. -/
def limitsToEv (s : SystemState) : Prop :=
  s.limitToEv = true ∧ (1000 < s.garagePower ∨ s.evPower.any (1000 < ·) = true)

instance (s : SystemState) : Decidable (limitsToEv s) := by unfold limitsToEv; infer_instance

/-- The target of the active mode of the highest priority. -/
def modeTarget (config : Config) (s : SystemState) : Option ℤ :=
  if s.chargeBattery = true ∧ s.chargeBatteryBlocked = false then some 2200
  else if s.houseSupport = true then some (truncate (s.pvInverterTotal - 300))
  else if s.noFeed = true then some (truncate s.pvInverterTotal)
  else if limitsToEv s then some (-max 0
    (truncate (s.mpptTotal * config.inverterEfficiency) - evReserve))
  else none

/-- The setpoint under which `only_charging` lets no command fall. -/
def solarFloor (config : Config) (s : SystemState) : ℤ :=
  -max 0 (truncate (s.mpptTotal * config.inverterEfficiency) - config.solarOutputOffset)

theorem onlyChargingStrategy_fst (config : Config) (s : SystemState) (vanew : ℤ) :
    (onlyChargingStrategy config s vanew).1 =
      if s.onlyCharging = true then max (solarFloor config s) vanew else vanew := by
  unfold onlyChargingStrategy solarFloor
  cases s.onlyCharging
  · rfl
  · simp only [Bool.true_eq_false, if_false, if_true]
    split_ifs <;> simp only <;> omega

theorem limitToEvStrategy_fst (config : Config) (s : SystemState) (vanew : ℤ) :
    (limitToEvStrategy config s vanew).1 = if limitsToEv s then
      -max 0 (truncate (s.mpptTotal * config.inverterEfficiency) - evReserve) else vanew := by
  by_cases h : limitsToEv s
  · rw [if_pos h]
    rw [limitsToEv] at h
    rw [limitToEvStrategy, if_pos h]
  · rw [if_neg h]
    rw [limitsToEv] at h
    rw [limitToEvStrategy, if_neg h]

theorem noFeedStrategy_fst (s : SystemState) (vanew : ℤ) :
    (noFeedStrategy s vanew).1 = if s.noFeed = true then truncate s.pvInverterTotal else vanew := by
  unfold noFeedStrategy
  split_ifs <;> rfl

theorem houseSupportStrategy_fst (s : SystemState) (vanew : ℤ) : (houseSupportStrategy s vanew).1 =
    if s.houseSupport = true then truncate (s.pvInverterTotal - 300) else vanew := by
  unfold houseSupportStrategy
  split_ifs <;> rfl

theorem chargeBatteryStrategy_fst (s : SystemState) (vanew : ℤ) : (chargeBatteryStrategy s vanew).1 =
    if s.chargeBattery = true ∧ s.chargeBatteryBlocked = false then 2200 else vanew := by
  unfold chargeBatteryStrategy
  cases s.chargeBattery <;> cases s.chargeBatteryBlocked <;> rfl

/-- **The modes in one line**: the target of the highest one, or the floor of `only_charging`. -/
theorem applyModes_fst (config : Config) (s : SystemState) (x : Command) : (applyModes config s x).1 =
    (modeTarget config s).getD (onlyChargingStrategy config s x.1).1 := by
  unfold applyModes modeTarget
  simp only [andThen, chargeBatteryStrategy_fst, houseSupportStrategy_fst, noFeedStrategy_fst,
    limitToEvStrategy_fst]
  split_ifs <;> rfl

/-- **Corrections of the normal strategy do not reach a mode's target.** -/
theorem rawCommand_target (h : modeTarget c.config s = some target) : (rawCommand c s).1.1 = target := by
  have hstate : modeTarget c.config (filteredState c s) = some target := h
  rw [rawCommand, runStrategies, applyModes_fst, hstate, Option.getD_some]

/-- The normal strategy: the previous setpoint less the creep, or a correction of the inverter's
power. -/
theorem normalStrategy_fst (c : SetpointCalculator) (s : SystemState) : (normalStrategy c s).1 =
    if inDeadband c.config (smoothedGt s) then
      s.previousSetpoint -
        truncate (creep c.config c.creepAccumulator (smoothedGt s) * damping c.config (smoothedGt s))
    else truncate (s.invPower + -(smoothedGt s) * damping c.config (smoothedGt s)) := by
  unfold normalStrategy
  split_ifs with hinside hzero
  · rw [creep, if_pos hzero, zero_mul, truncate_zero, sub_zero]
  · rfl
  · rfl

/-- The command of the normal strategy, with its corrections. -/
def normalCommand (c : SetpointCalculator) (s : SystemState) : Command × Bool :=
  correctedNormal c (filteredState c s) (effectiveGt c s) (oldFilteredGt c s)

theorem rawCommand_snd : (rawCommand c s).2 = (normalCommand c s).2 := rfl

/-- Without a mode's target, the normal strategy decides. -/
theorem rawCommand_none (h : modeTarget c.config s = none) : (rawCommand c s).1.1 =
    if s.onlyCharging = true then max (solarFloor c.config s) (normalCommand c s).1.1
    else (normalCommand c s).1.1 := by
  have hstate : modeTarget c.config (filteredState c s) = none := h
  rw [rawCommand, runStrategies, applyModes_fst, hstate, Option.getD_none, onlyChargingStrategy_fst]
  rfl

/-! ### Runs -/

/-- The calculator, and the setpoint that it returned last. -/
structure Regulation where
  calculator : SetpointCalculator
  setpoint : ℤ
  deriving DecidableEq, Repr

/-- The last setpoint is the previous one of this cycle. -/
def Regulation.state (r : Regulation) (s : SystemState) : SystemState :=
  { s with previousSetpoint := r.setpoint }

def Regulation.next (r : Regulation) (s : SystemState) : Regulation where
  calculator := (calculate r.calculator (r.state s)).2
  setpoint := (calculate r.calculator (r.state s)).1.setpoint

variable {r : Regulation} {states : List SystemState}

/-- What a calculation leaves as it is. -/
structure SameLimits (r : Regulation) (c : SetpointCalculator) : Prop where
  config : r.calculator.config = c.config
  min : r.calculator.powerLimitMin = c.powerLimitMin
  max : r.calculator.powerLimitMax = c.powerLimitMax

theorem SameLimits.refl (r : Regulation) : SameLimits r r.calculator := ⟨rfl, rfl, rfl⟩

theorem SameLimits.next (h : SameLimits r c) (s : SystemState) : SameLimits (r.next s) c :=
  ⟨h.config, h.min, h.max⟩

theorem SameLimits.deltaLimit (h : SameLimits r c) : deltaLimit r.calculator = deltaLimit c := by
  rw [Model.deltaLimit, h.config, Model.deltaLimit]

theorem sameLimits (r : Regulation) (states : List SystemState) :
    ∀ x ∈ trace Regulation.next r states, SameLimits x.before r.calculator :=
  trace_invariant (P := fun r' => SameLimits r' r.calculator) (SameLimits.refl r)
    fun x _ h => h.next x.input

/-! ### Targets -/

/-- The setpoint that a target stands for. -/
def Regulation.goal (r : Regulation) (target : ℤ) : ℤ :=
  clampTo r.calculator.powerLimitMin r.calculator.powerLimitMax target

/-- The setpoint that one cycle makes of a target. -/
def Regulation.advance (r : Regulation) (target : ℤ) (fired : Bool) : ℤ :=
  slewed r.calculator.powerLimitMin r.calculator.powerLimitMax (deltaLimit r.calculator) r.setpoint
    (converge r.setpoint target fired)

/-- The setpoint is within the limits. -/
def Regulation.Within (r : Regulation) : Prop :=
  r.calculator.powerLimitMin ≤ r.setpoint ∧ r.setpoint ≤ r.calculator.powerLimitMax

instance (r : Regulation) : Decidable r.Within := by unfold Regulation.Within; infer_instance

theorem Regulation.Within.limitSetpoint_mem {vanew : ℤ} (h : r.Within)
    (hdelta : 0 ≤ deltaLimit r.calculator) :
    slewed r.calculator.powerLimitMin r.calculator.powerLimitMax
      (deltaLimit r.calculator) r.setpoint vanew ∈
      [[r.setpoint, r.goal vanew]] := by
  rw [← limitSetpoint_eq hdelta]
  have hmem := Pipeline.limitSetpoint_mem r.setpoint vanew hdelta
  rw [clampTo_of_mem h.1 h.2] at hmem
  exact hmem

/-- Whatever a burst decides, the setpoint goes towards the goal. -/
theorem Regulation.Within.advance_mem (h : r.Within) (hdelta : 0 ≤ deltaLimit r.calculator) (target : ℤ)
    (fired : Bool) : r.advance target fired ∈ [[r.setpoint, r.goal target]] := by
  have hclamp := clampTo_mem_uIcc r.calculator.powerLimitMin r.calculator.powerLimitMax
    (converge_mem r.setpoint target fired)
  rw [clampTo_of_mem h.1 h.2] at hclamp
  exact uIcc_subset_uIcc_left hclamp (h.limitSetpoint_mem hdelta)

/-- It stays where it is only one watt from the goal. -/
theorem Regulation.Within.advance_ne (h : r.Within) (hdelta : 1 ≤ deltaLimit r.calculator)
    (hfar : 1 < |r.goal target - r.setpoint|) (fired : Bool) : r.advance target fired ≠ r.setpoint := by
  obtain ⟨hlow, hhigh⟩ := h
  unfold Regulation.goal at hfar
  rw [Regulation.advance, ← limitSetpoint_eq (by omega)]
  refine limitSetpoint_ne hdelta hlow hhigh ?_
  -- two watts from the goal are two from the target itself, on the same side
  have hfar' :=
    abs_cases (clampTo r.calculator.powerLimitMin r.calculator.powerLimitMax target - r.setpoint)
  have htarget := clampTo_cases r.calculator.powerLimitMin r.calculator.powerLimitMax target
  have hclamp := clampTo_cases r.calculator.powerLimitMin r.calculator.powerLimitMax
    (converge r.setpoint target fired)
  rcases lt_or_ge r.setpoint target with hlt | hge
  · have hmoved := converge_lt (show r.setpoint + 2 ≤ target by omega) fired
    omega
  · have hmoved := lt_converge (show target + 2 ≤ r.setpoint by omega) fired
    omega

theorem next_setpoint (hmode : modeTarget r.calculator.config s = some target) (hfree : ¬ Floored s)
    (hdelta : 0 ≤ deltaLimit r.calculator) :
    (r.next s).setpoint = r.advance target (rawCommand r.calculator (r.state s)).2 := by
  have hfree' : ¬ Floored (r.state s) := hfree
  have hmode' : modeTarget r.calculator.config (r.state s) = some target := hmode
  have hcommand := calculate_setpoint_of_not_floored (c := r.calculator) hfree'
  rw [limitSetpoint_eq hdelta, converged, rawCommand_target hmode'] at hcommand
  exact hcommand

theorem within_of_mem (target : ℤ) (h : r.Within)
    (hnext : (r.next s).setpoint ∈ [[r.setpoint, r.goal target]]) :
    (r.next s).Within := by
  have hgoal := clampTo_mem (h.1.trans h.2) target
  have hbetween := mem_uIcc.mp hnext
  unfold Regulation.goal at hbetween
  unfold Regulation.Within at h ⊢
  exact ⟨show r.calculator.powerLimitMin ≤ _ by omega, show _ ≤ r.calculator.powerLimitMax by omega⟩

/-- **Targets are reached without overshoot.**  While the active mode of the highest priority asks
for one target, and the EV's power is known or not excluded, no cycle crosses the goal or goes away
from it, a burst decides only how much of the way is taken, and after as many cycles as the goal was
watts away the setpoint stays within one watt of it. -/
theorem mode_target_reached (r : Regulation) (states : List SystemState) (target : ℤ)
    (hdelta : 1 ≤ deltaLimit r.calculator) (hwithin : r.Within)
    (hmode : ∀ s ∈ states, modeTarget r.calculator.config s = some target ∧
      (s.evPower ≠ none ∨ s.doNotSupplyCharger = false)) :
    (∀ x ∈ trace Regulation.next r states,
      (x.before.next x.input).setpoint ∈ [[x.before.setpoint, r.goal target]] ∧
      |r.goal target - (x.before.next x.input).setpoint| ≤ |r.goal target - x.before.setpoint| ∧
      ∃ fired, (x.before.next x.input).setpoint = x.before.advance target fired) ∧
    (exec Regulation.next r states).setpoint ∈ [[r.setpoint, r.goal target]] ∧
    (|r.goal target - r.setpoint| ≤ states.length →
      |r.goal target - (exec Regulation.next r states).setpoint| ≤ 1) := by
  have hsame := sameLimits r states
  have hgoal : ∀ x ∈ trace Regulation.next r states, x.before.goal target = r.goal target :=
    fun x hx => by
    rw [Regulation.goal, (hsame x hx).min, (hsame x hx).max, Regulation.goal]
  have hdelta' : ∀ x ∈ trace Regulation.next r states, 1 ≤ deltaLimit x.before.calculator :=
    fun x hx => by
    rw [(hsame x hx).deltaLimit]
    exact hdelta
  have hnext : ∀ x ∈ trace Regulation.next r states, (x.before.next x.input).setpoint =
      x.before.advance target (rawCommand x.before.calculator (x.before.state x.input)).2 := by
    intro x hx
    obtain ⟨a, b, rfl, -⟩ := (mem_trace _).mp hx
    obtain ⟨htarget, hknown⟩ := hmode x.input (by simp)
    rw [← (hsame x hx).config] at htarget
    refine next_setpoint htarget ?_ (by have := hdelta' x hx; omega)
    rintro ⟨henabled, hunknown, -⟩
    rcases hknown with hknown | hoff
    · exact hknown hunknown
    · rw [hoff] at henabled
      cases henabled
  have hwithin' : ∀ x ∈ trace Regulation.next r states, x.before.Within := by
    refine trace_invariant (P := Regulation.Within) hwithin fun x hx h => within_of_mem target h ?_
    rw [hnext x hx]
    exact h.advance_mem (by have := hdelta' x hx; omega) target _
  have htowards : ∀ x ∈ trace Regulation.next r states,
      Towards Regulation.setpoint (r.goal target) x.before (x.before.next x.input) := by
    intro x hx
    rw [Towards, hnext x hx, ← hgoal x hx]
    exact (hwithin' x hx).advance_mem (by have := hdelta' x hx; omega) target _
  refine ⟨fun x hx => ⟨htowards x hx, (htowards x hx).dist_le, _, hnext x hx⟩, exec_mem_uIcc htowards,
    fun hlong => exec_near (by omega) (fun x hx => ⟨htowards x hx, fun hfar => ?_⟩) hlong⟩
  rw [hnext x hx]
  rw [← hgoal x hx] at hfar
  exact (hwithin' x hx).advance_ne (hdelta' x hx) hfar _

/-- A charge that starts from the lower limit. -/
theorem mode_target_reached_charging :
    (exec Regulation.next ⟨newCalculator 0 (-2300) 2250, -2300⟩
      (List.replicate 4500 { regulating 0 0 with chargeBattery := true })).setpoint ∈
      [[(2199 : ℤ), 2201]] := by
  have h := (mode_target_reached ⟨newCalculator 0 (-2300) 2250, -2300⟩
    (List.replicate 4500 { regulating 0 0 with chargeBattery := true }) 2200 (by decide) (by decide)
    fun s hs => by
      rw [List.eq_of_mem_replicate hs]
      exact ⟨by decide, by decide⟩).2.2 (by rw [List.length_replicate]; decide)
  have hgoal : (⟨newCalculator 0 (-2300) 2250, -2300⟩ : Regulation).goal 2200 = 2200 := by decide
  rw [hgoal, abs_le] at h
  rw [mem_uIcc]
  omega

/-! ### Only charging -/

/-- The command of `only_charging` is not under the floor. -/
theorem solarFloor_le_converged (hmode : modeTarget c.config s = none)
    (hcharging : s.onlyCharging = true) :
    min s.previousSetpoint (solarFloor c.config s) ≤ converged c s := by
  have hraw : solarFloor c.config s ≤ (rawCommand c s).1.1 := by
    rw [rawCommand_none hmode, if_pos hcharging]
    exact le_max_left _ _
  have hmem := mem_uIcc.mp (converge_mem s.previousSetpoint (rawCommand c s).1.1 (rawCommand c s).2)
  unfold converged
  omega

theorem min_le_calculate (hdelta : 0 ≤ deltaLimit c) {floor : ℤ} (hfloor : floor ≤ converged c s)
    (hprevious : floor ≤ s.previousSetpoint) : min floor c.powerLimitMax ≤
      (calculate c s).1.setpoint := by
  have hlimited : min floor c.powerLimitMax ≤ (limitedCommand c s).1 := by
    rw [limitedCommand_fst, limitSetpoint_eq hdelta, slewed]
    have hcommand := clampTo_cases c.powerLimitMin c.powerLimitMax (converged c s)
    generalize clampTo c.powerLimitMin c.powerLimitMax (converged c s) = command at *
    have hchange := clampTo_cases (-deltaLimit c) (deltaLimit c) (command - s.previousSetpoint)
    generalize clampTo (-deltaLimit c) (deltaLimit c) (command - s.previousSetpoint) = change at *
    have hlast := clampTo_cases c.powerLimitMin c.powerLimitMax (s.previousSetpoint + change)
    omega
  rw [calculate_setpoint]
  split_ifs
  · exact hlimited.trans (le_max_right _ _)
  · exact hlimited

/-- One cycle of only-charging. -/
theorem only_charging_next (floor : ℤ) (hdelta : 0 ≤ deltaLimit r.calculator)
    (hcharging : s.onlyCharging = true) (hmode : modeTarget r.calculator.config s = none)
    (hfloor : floor ≤ solarFloor r.calculator.config s)
    (hprevious : floor ≤ r.setpoint) : min floor r.calculator.powerLimitMax ≤ (r.next s).setpoint := by
  have hmode' : modeTarget r.calculator.config (r.state s) = none := hmode
  have hcharging' : (r.state s).onlyCharging = true := hcharging
  have hconverged : min r.setpoint (solarFloor r.calculator.config s) ≤
    converged r.calculator (r.state s) :=
    solarFloor_le_converged hmode' hcharging'
  exact min_le_calculate hdelta ((le_min hprevious hfloor).trans hconverged) hprevious

/-- Over a run whose floor does not rise, from a setpoint that is not under it. -/
theorem only_charging_run (hdelta : 0 ≤ deltaLimit r.calculator)
    (hmode : ∀ s ∈ states, s.onlyCharging = true ∧ modeTarget r.calculator.config s = none)
    (hfalling : (states.map (solarFloor r.calculator.config)).Pairwise (· ≥ ·))
    (hstart : ∀ s ∈ states.head?, min (solarFloor r.calculator.config s)
      r.calculator.powerLimitMax ≤ r.setpoint) :
    ∀ x ∈ trace Regulation.next r states,
      min (solarFloor r.calculator.config x.input) r.calculator.powerLimitMax ≤
        (x.before.next x.input).setpoint := by
  induction states generalizing r with
  | nil => exact fun x hx => absurd hx List.not_mem_nil
  | cons s states ih =>
    obtain ⟨hcharging, hnone⟩ := hmode s List.mem_cons_self
    have hbound := hstart s rfl
    have hnext := only_charging_next (min (solarFloor r.calculator.config s) r.calculator.powerLimitMax)
      hdelta hcharging hnone (min_le_left _ _) hbound
    rw [min_assoc, min_self] at hnext
    rw [List.map_cons, List.pairwise_cons] at hfalling
    have hrest := ih (r := r.next s) hdelta
      (fun t ht => hmode t (List.mem_cons_of_mem _ ht)) hfalling.2 fun t ht => by
      refine le_trans (min_le_min_right _ ?_) hnext
      exact hfalling.1 _ (List.mem_map_of_mem (List.mem_of_mem_head? ht))
    intro x hx
    rcases List.mem_cons.mp hx with rfl | hx
    · exact hnext
    · exact hrest x hx

/-- **Only-charging bounds the discharge.**  No setpoint is under the smallest of the previous one, the
floor and the upper limit; and while the floor does not rise, a setpoint that is not under it stays not
under the floor and the upper limit. -/
theorem only_charging_bounds (r : Regulation) (states : List SystemState)
    (hdelta : 0 ≤ deltaLimit r.calculator)
    (hmode : ∀ s ∈ states, s.onlyCharging = true ∧ modeTarget r.calculator.config s = none) :
    (∀ x ∈ trace Regulation.next r states,
      min x.before.setpoint (min (solarFloor r.calculator.config x.input) r.calculator.powerLimitMax) ≤
        (x.before.next x.input).setpoint) ∧
    ((states.map (solarFloor r.calculator.config)).Pairwise (· ≥ ·) →
      (∀ s ∈ states.head?, solarFloor r.calculator.config s ≤ r.setpoint) →
      ∀ x ∈ trace Regulation.next r states,
        min (solarFloor r.calculator.config x.input) r.calculator.powerLimitMax ≤
          (x.before.next x.input).setpoint) := by
  refine ⟨fun x hx => ?_, fun hfalling hstart => only_charging_run hdelta hmode hfalling fun s hs =>
    (min_le_left _ _).trans (hstart s hs)⟩
  have hsame := sameLimits r states x hx
  obtain ⟨a, b, rfl, -⟩ := (mem_trace _).mp hx
  obtain ⟨hcharging, hnone⟩ := hmode x.input (by simp)
  have hnext := only_charging_next (r := x.before)
    (min x.before.setpoint (solarFloor r.calculator.config x.input))
    (by rw [hsame.deltaLimit]; exact hdelta) hcharging (by rw [hsame.config]; exact hnone)
    (by rw [hsame.config]; exact min_le_right _ _) (min_le_left _ _)
  rw [hsame.max, min_assoc] at hnext
  exact hnext

/-- An import of 500 W, with no sun and a mode that may not discharge for it. -/
def importing : SystemState := { regulating 0 500 with onlyCharging := true }

theorem only_charging_bounds_importing :
    0 ≤ (Regulation.next ⟨newCalculator (1 / 2) (-2300) 2250, 0⟩ importing).setpoint := by
  have h :=
      (only_charging_bounds ⟨newCalculator (1 / 2) (-2300) 2250,
        0⟩ [importing] (by decide) fun s hs => by
    rw [List.mem_singleton.mp hs]
    exact ⟨rfl, by decide⟩).2 (List.pairwise_singleton _ _) (by decide +kernel) ⟨_, importing⟩ (by
      rw [trace_cons]
      exact List.mem_cons_self)
  have hfloor : min (solarFloor (newCalculator (1 / 2) (-2300) 2250).config importing) 2250 = 0 := by
    decide +kernel
  exact hfloor.symm.le.trans h

end InverterControl.Logic.Modes
