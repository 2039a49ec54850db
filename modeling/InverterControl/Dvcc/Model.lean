import InverterControl.Lib.Pieces
import InverterControl.Lib.Runs
import InverterControl.Python

/-!
# The DVCC calculator

`DvccCalculator` of `dvcc.py`: the curves, the minimum that is taken of them, and the rate limiter, with
the reading of the wall clock as its input.  The attributes that `calculate` only reads are the `Config`,
those that it writes are the `Limiter`.  The reasons are constructors; the number that a reason's text
shows is their argument.
-/

namespace InverterControl.Dvcc.Model

open InverterControl.Lib.Pieces InverterControl.Lib.Runs InverterControl.Python

/-! ### The configuration -/

/-- The parameters, with the defaults of `__init__`. -/
structure Config where
  cellCount : ℕ := 16
  maxChargeCurrent : ℚ := 100
  maxDischargeCurrent : ℚ := 120
  cellMaxVoltage : ℚ := 3.65
  cellFullCurrent : ℚ := 3.40
  cellStartLimit : ℚ := 3.45
  cellBalanceVoltage : ℚ := 3.50
  cellNearFull : ℚ := 3.55
  cellCutoff : ℚ := 3.60
  imbalanceStart : ℚ := 0.05
  imbalanceAggressive : ℚ := 0.10
  imbalanceCritical : ℚ := 0.20
  tempChargeMin : ℚ := 0
  tempChargeReduced : ℚ := 5
  tempChargeOptimal : ℚ := 10
  tempChargeLimit : ℚ := 40
  tempChargeStop : ℚ := 50
  tempDischargeMin : ℚ := -20
  tempDischargeReduced : ℚ := -10
  socReduceStart : ℚ := 95
  socReduceFactor : ℚ := 0.5
  socDischargeStop : ℚ := 5
  socDischargeReduced : ℚ := 15
  minChargeCurrent : ℚ := 2
  cclChangeRate : ℚ := 10
  dclChangeRate : ℚ := 15
  deriving DecidableEq, Repr

/-- `set_battery_limits`. -/
def setBatteryLimits (c : Config) (maxCharge maxDischarge : ℚ) : Config :=
  { c with maxChargeCurrent := maxCharge, maxDischargeCurrent := maxDischarge }

/-- The reasons of the limits. -/
inductive Reason
  | noCellData
  | cellOvervoltage (v : ℚ)
  | tailCharge (v : ℚ)
  | balancing (v : ℚ)
  | reducing (v : ℚ)
  | normal
  | noDelta
  | balanced
  | criticalImbalance (delta : ℚ)
  | imbalance (delta : ℚ)
  | slightImbalance (delta : ℚ)
  | noTempData
  | tooCold (temp : ℚ)
  | tooHot (temp : ℚ)
  | cold (temp : ℚ)
  | cool (temp : ℚ)
  | hot (temp : ℚ)
  | tempOk (temp : ℚ)
  | socOk
  | soc100
  | soc (soc : ℚ)
  | cellUndervoltage (v : ℚ)
  | lowCell (v : ℚ)
  | tooColdDischarge (temp : ℚ)
  | coldDischarge (temp : ℚ)
  | tempDischargeOk (temp : ℚ)
  | socDischargeOk
  | socDeepDischarge (soc : ℚ)
  | socLow (soc : ℚ)
  | bmsBlocked
  deriving DecidableEq, Repr

/-- A current and its reason. -/
abbrev Limit := ℚ × Reason

/-- `max(0.0, min(1.0, factor))`. -/
def clamp (factor : ℚ) : ℚ := max 0 (min 1 factor)

/-! ### The charge curves -/

/-- `calculate_ccl_from_cell_voltage`. -/
def calculateCclFromCellVoltage (c : Config) : Option ℚ → Limit
  | none => (c.maxChargeCurrent, .noCellData)
  | some v =>
    if c.cellCutoff ≤ v then (0, .cellOvervoltage v)
    else if c.cellNearFull ≤ v then
      (max 0 (c.minChargeCurrent * (1 - ramp c.cellNearFull c.cellCutoff v)), .tailCharge v)
    else if c.cellBalanceVoltage ≤ v then
      (c.minChargeCurrent + (c.maxChargeCurrent * 0.20 - c.minChargeCurrent) *
        (1 - ramp c.cellBalanceVoltage c.cellNearFull v), .balancing v)
    else if c.cellStartLimit ≤ v then
      (c.maxChargeCurrent *
        (0.20 + 0.80 * (1 - ramp c.cellStartLimit c.cellBalanceVoltage v)), .reducing v)
    else if c.cellFullCurrent ≤ v then (c.maxChargeCurrent, .normal)
    else (c.maxChargeCurrent, .normal)

/-- `calculate_ccl_from_imbalance`. -/
def calculateCclFromImbalance (c : Config) : Option ℚ → Limit
  | none => (c.maxChargeCurrent, .noDelta)
  | some delta =>
    if delta < 0 then (c.maxChargeCurrent, .noDelta)
    else if delta ≤ c.imbalanceStart then (c.maxChargeCurrent, .balanced)
    else if c.imbalanceCritical ≤ delta then (c.minChargeCurrent, .criticalImbalance delta)
    else if c.imbalanceAggressive ≤ delta then
      (c.minChargeCurrent + (c.maxChargeCurrent * 0.30 - c.minChargeCurrent) *
        (1 - ramp c.imbalanceAggressive c.imbalanceCritical delta), .imbalance delta)
    else
      (c.maxChargeCurrent *
        (0.30 + 0.70 * (1 - ramp c.imbalanceStart c.imbalanceAggressive delta)), .slightImbalance delta)

/-- The temperature that limits charging. -/
def chargeTemp (minTemp maxTemp : Option ℚ) : Option ℚ := maxTemp <|> minTemp

/-- The part of `calculate_ccl_from_temperature` after the choice of the temperature. -/
def cclAtTemperature (c : Config) (temp : ℚ) : Limit :=
  if temp ≤ c.tempChargeMin then (0, .tooCold temp)
  else if c.tempChargeStop ≤ temp then (0, .tooHot temp)
  else if temp < c.tempChargeReduced then
    (max (c.maxChargeCurrent * clamp (ramp c.tempChargeMin c.tempChargeReduced temp) * 0.5)
      c.minChargeCurrent, .cold temp)
  else if temp < c.tempChargeOptimal then
    (max (c.maxChargeCurrent *
      (0.1 + 0.4 * clamp (ramp c.tempChargeReduced c.tempChargeOptimal temp))) c.minChargeCurrent,
      .cool temp)
  else if c.tempChargeLimit < temp then
    (c.maxChargeCurrent * max 0.2 (clamp (1 - ramp c.tempChargeLimit c.tempChargeStop temp)), .hot temp)
  else (c.maxChargeCurrent, .tempOk temp)

/-- `calculate_ccl_from_temperature`. -/
def calculateCclFromTemperature (c : Config) (minTemp maxTemp : Option ℚ) : Limit :=
  match chargeTemp minTemp maxTemp with
  | none => (c.maxChargeCurrent, .noTempData)
  | some temp => cclAtTemperature c temp

/-- `calculate_ccl_from_soc`. -/
def calculateCclFromSoc (c : Config) : Option ℚ → Limit
  | none => (c.maxChargeCurrent, .socOk)
  | some soc =>
    if soc < c.socReduceStart then (c.maxChargeCurrent, .socOk)
    else if 100 ≤ soc then (c.maxChargeCurrent * c.socReduceFactor, .soc100)
    else
      (c.maxChargeCurrent * (1 - ramp c.socReduceStart 100 soc * (1 - c.socReduceFactor)), .soc soc)

/-! ### The discharge curves -/

/-- `calculate_dcl_from_cell_voltage`. -/
def calculateDclFromCellVoltage (c : Config) : Option ℚ → Limit
  | none => (c.maxDischargeCurrent, .noCellData)
  | some v =>
    if 3.0 ≤ v then (c.maxDischargeCurrent, .normal)
    else if v ≤ 2.7 then (0, .cellUndervoltage v)
    else if v ≤ 2.9 then (max (c.maxDischargeCurrent * ramp 2.7 2.9 v * 0.5) 0, .lowCell v)
    else (max (c.maxDischargeCurrent * (0.5 + 0.5 * ramp 2.9 3.0 v)) 0, .reducing v)

/-- The temperature that limits discharging. -/
def dischargeTemp (minTemp maxTemp : Option ℚ) : Option ℚ := minTemp <|> maxTemp

/-- The part of `calculate_dcl_from_temperature` after the choice of the temperature. -/
def dclAtTemperature (c : Config) (temp : ℚ) : Limit :=
  if temp ≤ c.tempDischargeMin then (0, .tooColdDischarge temp)
  else if temp < c.tempDischargeReduced then
    (max (c.maxDischargeCurrent * 0.3 *
      clamp (ramp c.tempDischargeMin c.tempDischargeReduced temp)) 0, .coldDischarge temp)
  else (c.maxDischargeCurrent, .tempDischargeOk temp)

/-- `calculate_dcl_from_temperature`. -/
def calculateDclFromTemperature (c : Config) (minTemp maxTemp : Option ℚ) : Limit :=
  match dischargeTemp minTemp maxTemp with
  | none => (c.maxDischargeCurrent, .noTempData)
  | some temp => dclAtTemperature c temp

/-- `calculate_dcl_from_soc`. -/
def calculateDclFromSoc (c : Config) : Option ℚ → Limit
  | none => (c.maxDischargeCurrent, .socDischargeOk)
  | some soc =>
    if c.socDischargeReduced < soc then (c.maxDischargeCurrent, .socDischargeOk)
    else if soc ≤ c.socDischargeStop then (0, .socDeepDischarge soc)
    else
      (max (c.maxDischargeCurrent * clamp (ramp c.socDischargeStop c.socDischargeReduced soc) * 0.5) 0,
        .socLow soc)

/-! ### The minimum -/

/-- `min` by the current: the first of the smallest. -/
def leastOf (first : Limit) (rest : List Limit) : Limit :=
  rest.foldl (fun best x => if x.1 < best.1 then x else best) first

/-- `_compute_ccl`. -/
def computeCcl (c : Config) (maxCell cellDelta minTemp maxTemp soc : Option ℚ) : Limit :=
  leastOf (calculateCclFromCellVoltage c maxCell)
    [calculateCclFromImbalance c cellDelta, calculateCclFromTemperature c minTemp maxTemp,
      calculateCclFromSoc c soc]

/-- `_compute_dcl`. -/
def computeDcl (c : Config) (minCell minTemp maxTemp soc : Option ℚ) : Limit :=
  leastOf (calculateDclFromCellVoltage c minCell)
    [calculateDclFromTemperature c minTemp maxTemp, calculateDclFromSoc c soc]

/-! ### The rate limiter -/

structure Limiter where
  lastCcl : ℚ
  lastDcl : ℚ
  lastUpdateTime : Option ℚ := none
  deriving DecidableEq, Repr

/-- The limiter of `__init__`. -/
def Limiter.init (c : Config) : Limiter :=
  { lastCcl := c.maxChargeCurrent, lastDcl := c.maxDischargeCurrent }

/-- `_rate_limit_value`. -/
def rateLimitValue (value lastValue maxChange : ℚ) : ℚ :=
  if lastValue < value then min value (lastValue + maxChange)
  else if value < lastValue then max value (lastValue - maxChange * 2)
  else value

/-- One current in `_rate_limit`: a cutoff or a block is applied at once. -/
def limited (value lastValue maxChange : ℚ) (allow : Bool) : ℚ :=
  if value ≤ 0 ∨ allow = false then value else rateLimitValue value lastValue maxChange

/-- `_rate_limit`: the currents that it returns are those that it remembers. -/
def rateLimit (c : Config) (s : Limiter) (now ccl dcl : ℚ) (allowCharge allowDischarge : Bool) :
    Limiter :=
  match s.lastUpdateTime with
  | none => { lastCcl := ccl, lastDcl := dcl, lastUpdateTime := some now }
  | some last =>
    { lastCcl := limited ccl s.lastCcl (c.cclChangeRate * (now - last)) allowCharge
      lastDcl := limited dcl s.lastDcl (c.dclChangeRate * (now - last)) allowDischarge
      lastUpdateTime := some now }

/-! ### A call -/

/-- The battery data. -/
structure Data where
  maxCell : Option ℚ := none
  maxCellId : Option ℤ := none
  minCell : Option ℚ := none
  minCellId : Option ℤ := none
  maxTemp : Option ℚ := none
  minTemp : Option ℚ := none
  soc : Option ℚ := none
  allowCharge : Bool := true
  allowDischarge : Bool := true
  deriving DecidableEq, Repr

/-- The difference of two cells, where both are there. -/
def delta : Option ℚ → Option ℚ → Option ℚ
  | some maxCell, some minCell => some (maxCell - minCell)
  | _, _ => none

/-- The charge limit before the rate limiter. -/
def Data.ccl (c : Config) (d : Data) : Limit :=
  if d.allowCharge then computeCcl c d.maxCell (delta d.maxCell d.minCell) d.minTemp d.maxTemp d.soc
  else (0, .bmsBlocked)

/-- The discharge limit before the rate limiter. -/
def Data.dcl (c : Config) (d : Data) : Limit :=
  if d.allowDischarge then computeDcl c d.minCell d.minTemp d.maxTemp d.soc else (0, .bmsBlocked)

/-- What `calculate` returns; the fields of the data are passed through. -/
structure Result where
  ccl : ℚ
  dcl : ℚ
  cclReason : Reason
  dclReason : Reason
  cvl : ℚ
  cellDelta : Option ℚ
  data : Data
  deriving DecidableEq, Repr

/-- The limiter after a call of `calculate`; it holds the currents before they are rounded. -/
def Limiter.next (c : Config) (s : Limiter) (now : ℚ) (d : Data) : Limiter :=
  rateLimit c s now (d.ccl c).1 (d.dcl c).1 d.allowCharge d.allowDischarge

/-- `calculate`. -/
def calculate (c : Config) (s : Limiter) (now : ℚ) (d : Data) : Limiter × Result :=
  (s.next c now d,
    { ccl := roundTo 1 (s.next c now d).lastCcl
      dcl := roundTo 1 (s.next c now d).lastDcl
      cclReason := (d.ccl c).2
      dclReason := (d.dcl c).2
      cvl := roundTo 2 (c.cellMaxVoltage * c.cellCount)
      cellDelta := delta d.maxCell d.minCell
      data := d })

/-! ### The minimum of the curves -/

theorem leastOf_cons (first x : Limit) (rest : List Limit) :
    leastOf first (x :: rest) = leastOf (if x.1 < first.1 then x else first) rest := rfl

/-- The current of the minimum. -/
theorem leastOf_fst (first : Limit) (rest : List Limit) :
    (leastOf first rest).1 = rest.foldl (fun m x => min m x.1) first.1 := by
  induction rest generalizing first with
  | nil => rfl
  | cons x rest ih =>
    rw [leastOf_cons, ih, List.foldl_cons]
    split
    · next h => rw [min_eq_right h.le]
    · next h => rw [min_eq_left (not_lt.mp h)]

/-- The limit of charging is the least of the four currents. -/
theorem computeCcl_fst (c : Config) (maxCell cellDelta minTemp maxTemp soc : Option ℚ) :
    (computeCcl c maxCell cellDelta minTemp maxTemp soc).1 =
      min (min (min (calculateCclFromCellVoltage c maxCell).1 (calculateCclFromImbalance c cellDelta).1)
        (calculateCclFromTemperature c minTemp maxTemp).1) (calculateCclFromSoc c soc).1 :=
  leastOf_fst _ _

theorem computeDcl_fst (c : Config) (minCell minTemp maxTemp soc : Option ℚ) :
    (computeDcl c minCell minTemp maxTemp soc).1 =
      min (min (calculateDclFromCellVoltage c minCell).1
        (calculateDclFromTemperature c minTemp maxTemp).1)
        (calculateDclFromSoc c soc).1 :=
  leastOf_fst _ _

end InverterControl.Dvcc.Model
