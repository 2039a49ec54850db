import InverterControl.Python

/-!
# The setpoint calculator

`SetpointCalculator` of `logic.py`: six strategies in the order of their priority, the last one that
applies wins; the change is slowed down, limited and guarded.  The display flags are data, because the
trim reads two of them.  The `stable_count` of the normal strategy is written and never read, and its
deadband is overridden by tests only: both are left out.
-/

namespace InverterControl.Logic.Model

open InverterControl.Python

/-- The configuration that the calculator and the controller read. -/
structure Config where
  dampingFactor : ℚ
  exportDamping : ℚ
  gridZeroDeadbandLow : ℚ
  gridZeroDeadbandHigh : ℚ
  creepRate : ℚ
  creepMax : ℚ
  setpointDeltaLimit : ℤ
  burstThreshold : ℚ
  burstGain : ℚ
  dBrakeZone : ℚ
  dThreshold : ℚ
  dGain : ℚ
  emaAlpha : ℚ
  inverterEfficiency : ℚ
  solarOutputOffset : ℤ
  gridSmoothingHomeWeight : ℚ
  gridSmoothingDerivedTau : ℚ
  gridSmoothingDerivedAlpha : ℚ
  gridBackupService : Option String
  deriving DecidableEq, Repr

/-- The values of `config.py`, with the service of the backup meter. -/
def defaultConfig (gridBackupService : Option String) (creepRate : ℚ) : Config where
  dampingFactor := 7 / 10
  exportDamping := 1
  gridZeroDeadbandLow := -50
  gridZeroDeadbandHigh := 30
  creepRate := creepRate
  creepMax := 100
  setpointDeltaLimit := 2000
  burstThreshold := 150
  burstGain := 8 / 10
  dBrakeZone := 100
  dThreshold := 50
  dGain := 3 / 10
  emaAlpha := 3 / 10
  inverterEfficiency := 94 / 100
  solarOutputOffset := 60
  gridSmoothingHomeWeight := 7 / 10
  gridSmoothingDerivedTau := 16 / 5
  gridSmoothingDerivedAlpha := 1 / 10
  gridBackupService := gridBackupService

/-- The fields of `SystemState` that a strategy reads. -/
structure SystemState where
  gt : ℚ
  invPower : ℚ
  mpptTotal : ℚ
  pvInverterTotal : ℚ
  evPower : Option ℚ
  garagePower : ℚ
  onlyCharging : Bool
  noFeed : Bool
  houseSupport : Bool
  chargeBattery : Bool
  chargeBatteryBlocked : Bool
  doNotSupplyCharger : Bool
  limitToEv : Bool
  previousSetpoint : ℤ
  derivedGt : Option ℚ
  filteredGt : Option ℚ
  prefilteredGt : Option ℚ
  deriving DecidableEq, Repr

/-- The display flags. -/
inductive Flag
  /-- `[EV:…]` -/
  | ev (power : ℤ)
  /-- `[~…]` -/
  | creep (accumulator : ℤ)
  /-- `[B:…]` -/
  | burst (correction : ℤ)
  /-- `[D:…]` -/
  | derivative (brake : ℤ)
  /-- `[OC:…]` -/
  | onlyCharging (maxAcOutput : ℤ)
  /-- `[OC~]` -/
  | onlyChargingIdle
  /-- `[LimEV:…]` -/
  | limitToEv (acOutput reserve : ℤ)
  /-- `[NF]` -/
  | noFeed
  /-- `[HS]` -/
  | houseSupport
  /-- `[CHG]` -/
  | charge
  /-- `[CHG:TOU]` -/
  | chargeTou
  /-- `[CHG:limits-conflict]` -/
  | chargeLimitsConflict
  /-- `[!Δ…]` -/
  | delta (size : ℤ)
  /-- `[NoEV:exclusion-unavailable]` -/
  | exclusionUnavailable
  /-- `[NoEV:site-unknown]` -/
  | siteUnknown
  /-- `[NoEV:limits-conflict]` -/
  | limitsConflict
  /-- `[TRIM:…]` -/
  | trim (delta : ℤ)
  /-- `[SUBMETER HOLD]` -/
  | submeterHold
  /-- `[MANUAL]` -/
  | manual
  /-- `[DRY]` -/
  | dry
  deriving DecidableEq, Repr

/-- A setpoint and its flags. -/
abbrev Command := ℤ × List Flag

structure ControlResult where
  setpoint : ℤ
  flags : List Flag
  filteredGt : ℚ
  deriving DecidableEq, Repr

structure SetpointCalculator where
  config : Config
  powerLimitMin : ℤ
  powerLimitMax : ℤ
  prevEffectiveGt : Option ℚ := none
  /-- `_normal_state["creep_accumulator"]`. -/
  creepAccumulator : ℚ := 0
  filteredDerivedGt : Option ℚ := none
  deriving DecidableEq, Repr

/-- `delta_limit`. -/
def deltaLimit (c : SetpointCalculator) : ℤ := c.config.setpointDeltaLimit

/-- `reset_measurement_history`. -/
def resetMeasurementHistory (c : SetpointCalculator) : SetpointCalculator :=
  { c with prevEffectiveGt := none, filteredDerivedGt := none }

/-- `valid_ev_site_power`. -/
def validEvSitePower (v : PyValue) : Option ℚ :=
  match number v with
  | some power => if 0 ≤ power then some power else none
  | none => none

/-- The unknown-EV guard puts a floor of 0 W under the setpoint. -/
def evFloor (enabled : Bool) (evPower : Option ℚ) (onlyCharging noFeed : Bool) : Bool :=
  enabled && evPower.isNone && (onlyCharging || noFeed)

/-- `guard_unknown_ev_power`. -/
def guardUnknownEvPower (setpoint : ℤ) (enabled : Bool) (evPower : Option ℚ) (powerLimitMax : ℤ)
    (onlyCharging noFeed : Bool) : Command :=
  if enabled = false ∨ evPower ≠ none then (setpoint, [])
  else if evFloor enabled evPower onlyCharging noFeed = false then (setpoint, [.exclusionUnavailable])
  else (max 0 setpoint, .siteUnknown :: if powerLimitMax < 0 then [.limitsConflict] else [])

/-! ### The strategies -/

/-- The EV's power that is left out of the grid's. -/
def evExclusion (s : SystemState) : ℚ :=
  match s.evPower with
  | some power => if s.doNotSupplyCharger = true ∧ 100 < power then power else 0
  | none => 0

/-- `[EV:…]`, when the EV's power is left out. -/
def evFlags (s : SystemState) : List Flag :=
  match s.evPower with
  | some power => if s.doNotSupplyCharger = true ∧ 100 < power then [.ev (truncate power)] else []
  | none => []

/-- The filtered grid value is inside the deadband. -/
def inDeadband (config : Config) (gt : ℚ) : Prop :=
  config.gridZeroDeadbandLow < gt ∧ gt < config.gridZeroDeadbandHigh

instance (config : Config) (gt : ℚ) : Decidable (inDeadband config gt) := by
  unfold inDeadband; infer_instance

/-- The creep accumulator after a value inside the deadband: export creeps twice as fast. -/
def creep (config : Config) (accumulator smoothed : ℚ) : ℚ :=
  if smoothed = 0 then 0
  else if 0 < smoothed then min config.creepMax (accumulator + config.creepRate)
  else max (-config.creepMax) (accumulator - config.creepRate * 2)

/-- The damping of a correction: export is corrected more aggressively. -/
def damping (config : Config) (smoothed : ℚ) : ℚ :=
  if smoothed < 0 then config.exportDamping else config.dampingFactor

/-- The smoothed grid value that `normal_strategy` regulates. -/
def smoothedGt (s : SystemState) : ℚ := s.filteredGt.getD (s.gt - evExclusion s)

/-- `normal_strategy`. -/
def normalStrategy (c : SetpointCalculator) (s : SystemState) : Command :=
  if inDeadband c.config (smoothedGt s) then
    if smoothedGt s = 0 then (s.previousSetpoint, evFlags s ++ [.creep 0])
    else
      (s.previousSetpoint -
          truncate (creep c.config c.creepAccumulator (smoothedGt s) *
            damping c.config (smoothedGt s)),
        evFlags s ++ [.creep (truncate (creep c.config c.creepAccumulator (smoothedGt s)))])
  else
    (truncate (s.invPower + -(smoothedGt s) * damping c.config (smoothedGt s)), evFlags s)

/-- The creep accumulator that `normal_strategy` leaves. -/
def normalCreep (c : SetpointCalculator) (s : SystemState) : ℚ :=
  if inDeadband c.config (smoothedGt s) then creep c.config c.creepAccumulator (smoothedGt s) else 0

/-- `only_charging_strategy`. -/
def onlyChargingStrategy (config : Config) (s : SystemState) (vanew : ℤ) : Command :=
  if s.onlyCharging = false then (vanew, [])
  else if vanew < -max 0 (truncate (s.mpptTotal * config.inverterEfficiency) -
      config.solarOutputOffset) then
    (-max 0 (truncate (s.mpptTotal * config.inverterEfficiency) - config.solarOutputOffset),
      [.onlyCharging (truncate (s.mpptTotal * config.inverterEfficiency) -
        config.solarOutputOffset)])
  else (vanew, [.onlyChargingIdle])

/-- The `reserve` of `limit_to_ev_strategy`. -/
def evReserve : ℤ := 500

/-- `limit_to_ev_strategy`. -/
def limitToEvStrategy (config : Config) (s : SystemState) (vanew : ℤ) : Command :=
  if s.limitToEv = true ∧ (1000 < s.garagePower ∨ s.evPower.any (1000 < ·) = true) then
    (-max 0 (truncate (s.mpptTotal * config.inverterEfficiency) - evReserve),
      [.limitToEv (truncate (s.mpptTotal * config.inverterEfficiency)) evReserve])
  else (vanew, [])

/-- `no_feed_strategy`. -/
def noFeedStrategy (s : SystemState) (vanew : ℤ) : Command :=
  if s.noFeed then (truncate s.pvInverterTotal, [.noFeed]) else (vanew, [])

/-- `house_support_strategy`. -/
def houseSupportStrategy (s : SystemState) (vanew : ℤ) : Command :=
  if s.houseSupport then (truncate (s.pvInverterTotal - 300), [.houseSupport]) else (vanew, [])

/-- `charge_battery_strategy`. -/
def chargeBatteryStrategy (s : SystemState) (vanew : ℤ) : Command :=
  if s.chargeBattery then
    if s.chargeBatteryBlocked then (vanew, [.chargeTou]) else (2200, [.charge])
  else (vanew, [])

/-! ### The calculator -/

/-- `_apply_burst_correction`, and whether it fired. -/
def applyBurstCorrection (config : Config) (vanew : ℤ) (effectiveGt : ℚ) (oldFilteredGt : Option ℚ) :
    Command × Bool :=
  match oldFilteredGt with
  | none => ((vanew, []), false)
  | some old =>
    if |effectiveGt - old| ≤ config.burstThreshold then ((vanew, []), false)
    else
      ((vanew + truncate (-(effectiveGt - old) * config.burstGain),
        [.burst (truncate (-(effectiveGt - old) * config.burstGain))]), true)

/-- `_apply_d_term`. -/
def applyDTerm (c : SetpointCalculator) (vanew : ℤ) (effectiveGt : ℚ) : Command :=
  match c.prevEffectiveGt with
  | none => (vanew, [])
  | some prev =>
    if c.config.dBrakeZone ≤ |effectiveGt| ∨ |effectiveGt - prev| ≤ c.config.dThreshold then
      (vanew, [])
    else
      (vanew + -truncate ((effectiveGt - prev) * c.config.dGain),
        [.derivative (-truncate ((effectiveGt - prev) * c.config.dGain))])

/-- The normal strategy holds the previous setpoint: no derivative may turn it into a new one. -/
def normalHolds (c : SetpointCalculator) (s : SystemState) : Prop :=
  inDeadband c.config (smoothedGt s) ∧
    truncate (((normalStrategy c s).1 - s.previousSetpoint : ℤ) * (9 / 10 : ℚ)) = 0

instance (c : SetpointCalculator) (s : SystemState) : Decidable (normalHolds c s) := by
  unfold normalHolds; infer_instance

/-- The normal strategy with its burst correction. -/
def burstNormal (c : SetpointCalculator) (s : SystemState) (effectiveGt : ℚ)
    (oldFilteredGt : Option ℚ) : Command × Bool :=
  applyBurstCorrection c.config (normalStrategy c s).1 effectiveGt oldFilteredGt

/-- The derivative correction after it, unless the normal strategy holds. -/
def brakedNormal (c : SetpointCalculator) (s : SystemState) (effectiveGt : ℚ)
    (oldFilteredGt : Option ℚ) : Command :=
  if normalHolds c s then ((burstNormal c s effectiveGt oldFilteredGt).1.1, [])
  else applyDTerm c (burstNormal c s effectiveGt oldFilteredGt).1.1 effectiveGt

/-- The normal strategy with both corrections, and whether the burst fired. -/
def correctedNormal (c : SetpointCalculator) (s : SystemState) (effectiveGt : ℚ)
    (oldFilteredGt : Option ℚ) : Command × Bool :=
  (((brakedNormal c s effectiveGt oldFilteredGt).1,
      (burstNormal c s effectiveGt oldFilteredGt).1.2 ++
        (brakedNormal c s effectiveGt oldFilteredGt).2 ++ (normalStrategy c s).2),
    (burstNormal c s effectiveGt oldFilteredGt).2)

/-- The next stage of the pipeline, whose flags come last. -/
def andThen (x : Command) (f : ℤ → Command) : Command := ((f x.1).1, x.2 ++ (f x.1).2)

/-- The operating modes, in the order of their priority. -/
def applyModes (config : Config) (s : SystemState) (x : Command) : Command :=
  andThen (andThen (andThen (andThen (andThen x (onlyChargingStrategy config s))
    (limitToEvStrategy config s)) (noFeedStrategy s)) (houseSupportStrategy s))
    (chargeBatteryStrategy s)

/-- `_run_strategies`, and whether the burst fired. -/
def runStrategies (c : SetpointCalculator) (s : SystemState) (effectiveGt : ℚ)
    (oldFilteredGt : Option ℚ) : Command × Bool :=
  (applyModes c.config s (correctedNormal c s effectiveGt oldFilteredGt).1,
    (correctedNormal c s effectiveGt oldFilteredGt).2)

/-- The smoothed value of `_blend_derived_grid`: smoothed already, or by the legacy average. -/
def filteredDerived (c : SetpointCalculator) (derived : ℚ) : ℚ :=
  if 0 < c.config.gridSmoothingDerivedTau then derived
  else match c.filteredDerivedGt with
    | none => derived
    | some old =>
      c.config.gridSmoothingDerivedAlpha * derived + (1 - c.config.gridSmoothingDerivedAlpha) * old

/-- `_blend_derived_grid` of one value. -/
def blendDerivedGrid (c : SetpointCalculator) (s : SystemState) (gt : ℚ) : ℚ :=
  match s.derivedGt with
  | none => gt
  | some derived =>
    c.config.gridSmoothingHomeWeight * (filteredDerived c derived - evExclusion s) +
      (1 - c.config.gridSmoothingHomeWeight) * gt

/-- The average of the legacy path that a calculation leaves. -/
def derivedAfter (c : SetpointCalculator) (s : SystemState) : Option ℚ :=
  match s.derivedGt with
  | none => c.filteredDerivedGt
  | some derived =>
    if 0 < c.config.gridSmoothingDerivedTau then c.filteredDerivedGt
    else some (filteredDerived c derived)

/-- The instantaneous grid value without the EV, blended. -/
def effectiveGt (c : SetpointCalculator) (s : SystemState) : ℚ :=
  blendDerivedGrid c s (s.gt - evExclusion s)

/-- The background average without the EV, blended. -/
def prefilteredGt (c : SetpointCalculator) (s : SystemState) : Option ℚ :=
  s.prefilteredGt.map fun gt => blendDerivedGrid c s (gt - evExclusion s)

/-- The value that a burst is measured against. -/
def oldFilteredGt (c : SetpointCalculator) (s : SystemState) : Option ℚ :=
  (prefilteredGt c s).or s.filteredGt

/-- The filtered value of this cycle. -/
def newFilteredGt (c : SetpointCalculator) (s : SystemState) : ℚ :=
  match prefilteredGt c s with
  | some gt => gt
  | none =>
    match s.filteredGt with
    | none => effectiveGt c s
    | some old => c.config.emaAlpha * effectiveGt c s + (1 - c.config.emaAlpha) * old

/-- `max(low, min(high, value))`. -/
def clampTo (low high value : ℤ) : ℤ := max low (min high value)

/-- The software fuse: no change is larger than the limit. -/
def limitDelta (limit previous value : ℤ) : Command :=
  if limit < |value - previous| then
    (previous + (if 0 < value - previous then limit else -limit), [.delta |value - previous|])
  else (value, [])

/-- Nine tenths of the change, or all of it after a burst. -/
def converge (previous vanew : ℤ) (fired : Bool) : ℤ :=
  previous + truncate ((vanew - previous : ℤ) * (if fired then 1 else 9 / 10 : ℚ))

/-- The limits of `calculate`. -/
def limitSetpoint (c : SetpointCalculator) (previous vanew : ℤ) : Command :=
  andThen (limitDelta (deltaLimit c) previous (clampTo c.powerLimitMin c.powerLimitMax vanew))
    fun value => (clampTo c.powerLimitMin c.powerLimitMax value, [])

/-- The state with the filtered value of this cycle. -/
def filteredState (c : SetpointCalculator) (s : SystemState) : SystemState :=
  { s with filteredGt := some (newFilteredGt c s) }

/-- The strategies' command. -/
def rawCommand (c : SetpointCalculator) (s : SystemState) : Command × Bool :=
  runStrategies c (filteredState c s) (effectiveGt c s) (oldFilteredGt c s)

/-- The command after convergence and the limits. -/
def limitedCommand (c : SetpointCalculator) (s : SystemState) : Command :=
  andThen (rawCommand c s).1 fun vanew =>
    limitSetpoint c s.previousSetpoint (converge s.previousSetpoint vanew (rawCommand c s).2)

/-- The command that `calculate` returns. -/
def guardedCommand (c : SetpointCalculator) (s : SystemState) : Command :=
  andThen (limitedCommand c s) fun vanew =>
    guardUnknownEvPower vanew s.doNotSupplyCharger s.evPower c.powerLimitMax s.onlyCharging s.noFeed

/-- `calculate`, of a state whose EV power is valid: the result, and the calculator it leaves. -/
def calculate (c : SetpointCalculator) (s : SystemState) : ControlResult × SetpointCalculator :=
  ({ setpoint := (guardedCommand c s).1
     flags := (guardedCommand c s).2
     filteredGt := newFilteredGt c s },
    { c with
      prevEffectiveGt := some (effectiveGt c s)
      creepAccumulator := normalCreep c (filteredState c s)
      filteredDerivedGt := derivedAfter c s })

end InverterControl.Logic.Model
