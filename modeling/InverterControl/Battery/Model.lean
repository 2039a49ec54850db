import InverterControl.Lib.Runs
import InverterControl.Python

/-!
# The daily energy of the battery

The accumulator of `victron.py`, which integrates the battery's power and keeps the totals of the day and
of the day before in a file.  The clocks, the local dates and the results of writing the file are the
inputs.  A file that cannot be read as JSON is no file.
-/

namespace InverterControl.Battery.Model

open InverterControl.Lib.Runs InverterControl.Python

/-- Charge and discharge, in kWh. -/
@[ext]
structure Totals where
  charge : ℚ := 0
  discharge : ℚ := 0
  deriving DecidableEq, Repr

/-- What the state file holds.  Older files lack some of the keys. -/
structure Saved where
  date : Option ℤ := none
  dateIso : Option String := none
  charge : Option ℚ := none
  discharge : Option ℚ := none
  yCharge : Option ℚ := none
  yDischarge : Option ℚ := none
  deriving DecidableEq, Repr

structure BatteryEnergy where
  cachedBatteryDailyEnergy : Totals := {}
  lastBatteryDailyEnergyTime : ℚ := 0
  batteryEnergyDate : ℤ := 0
  batteryEnergyLastTime : ℚ := 0
  batteryEnergyLastPersist : ℚ := 0
  batteryEnergyYesterday : Totals := {}
  file : Option Saved := none
  deriving DecidableEq, Repr

/-- How a write of the file ends: `truncated` is an `OSError` after the file was opened. -/
inductive WriteResult
  | written
  | truncated
  | notOpened
  deriving DecidableEq, Repr

/-- A write of the file, with the local date that it reads. -/
structure Write where
  date : ℤ
  result : WriteResult := .written
  deriving DecidableEq, Repr

/-- What one call of `_poll_battery_daily_energy` reads. -/
structure Tick where
  now : ℚ
  /-- The local date, as a day number. -/
  today : ℤ
  /-- `_system_data.get("bp")`. -/
  bp : Option ℚ
  rolloverWrite : Write := ⟨today, .written⟩
  periodicWrite : Write := ⟨today, .written⟩
  deriving DecidableEq, Repr

/-- `BATTERY_ENERGY_PERSIST_INTERVAL`. -/
def batteryEnergyPersistInterval : ℚ := 30

variable {s : BatteryEnergy} {x : Tick}

/-! ### The state file -/

/-- What `_persist_battery_daily_energy` dumps. -/
def saved (date : ℤ) (s : BatteryEnergy) : Saved where
  date := some s.batteryEnergyDate
  dateIso := some (isoformat date)
  charge := some s.cachedBatteryDailyEnergy.charge
  discharge := some s.cachedBatteryDailyEnergy.discharge
  yCharge := some s.batteryEnergyYesterday.charge
  yDischarge := some s.batteryEnergyYesterday.discharge

/-- `_persist_battery_daily_energy`. -/
def persistBatteryDailyEnergy (now : ℚ) (w : Write) (s : BatteryEnergy) : BatteryEnergy :=
  match w.result with
  | .written => { s with batteryEnergyLastPersist := now, file := some (saved w.date s) }
  | .truncated => { s with batteryEnergyLastPersist := now, file := none }
  | .notOpened => { s with batteryEnergyLastPersist := now }

def Saved.today (f : Saved) : Totals := ⟨f.charge.getD 0, f.discharge.getD 0⟩

def Saved.yesterday (f : Saved) : Totals := ⟨f.yCharge.getD 0, f.yDischarge.getD 0⟩

/-- The file is of the day: its totals go on. -/
def restore (date : ℤ) (f : Saved) (s : BatteryEnergy) : BatteryEnergy :=
  { s with
    cachedBatteryDailyEnergy := f.today
    batteryEnergyDate := date
    batteryEnergyYesterday := f.yesterday }

/-- The file is of the day before; the date is set, or the next call would lose its totals. -/
def promote (today : ℤ) (f : Saved) (s : BatteryEnergy) : BatteryEnergy :=
  { s with batteryEnergyYesterday := f.today, batteryEnergyDate := today }

/-- `_load_battery_daily_energy`, which reads the local date twice. -/
def loadBatteryDailyEnergy (date todayDate : ℤ) (s : BatteryEnergy) : BatteryEnergy :=
  match s.file with
  | none => s
  | some f =>
    match f.dateIso with
    | some dateIso =>
      if dateIso = isoformat todayDate then restore (tmYday date) f s
      else if dateIso = isoformat (todayDate - 1) then promote (tmYday date) f s
      else s
    | none =>
      -- a file of an older version has the day of the year only
      if f.date.getD 0 = tmYday date then restore (f.date.getD 0) f s
      else if f.date.getD 0 = tmYday (todayDate - 1) then promote (tmYday date) f s
      else s

/-! ### The integration -/

/-- A sample that is integrated: the power over the time since the sample before. -/
structure Sample where
  bp : ℚ
  dt : ℚ
  deriving DecidableEq, Repr

/-- Watt seconds to kWh. -/
def Sample.kwh (y : Sample) : ℚ := |y.bp| * y.dt / 3600000

/-- The sample of a call, after the sample at `lastTime`: no first one, none after a long gap. -/
def sample (lastTime : ℚ) (x : Tick) : Option Sample :=
  if lastTime ≠ 0 ∧ 0 < x.now - lastTime ∧ x.now - lastTime < 30 then
    some ⟨x.bp.getD 0, x.now - lastTime⟩
  else none

/-- The totals with a sample, both rounded. -/
def Totals.add (t : Totals) (y : Sample) : Totals :=
  if 0 < y.bp then ⟨roundTo 4 (t.charge + y.kwh), roundTo 4 t.discharge⟩
  else ⟨roundTo 4 t.charge, roundTo 4 (t.discharge + y.kwh)⟩

def integrate (x : Tick) (s : BatteryEnergy) : BatteryEnergy :=
  match sample s.batteryEnergyLastTime x with
  | some y => { s with cachedBatteryDailyEnergy := s.cachedBatteryDailyEnergy.add y }
  | none => s

/-- The totals of a day that is over become yesterday's. -/
def rollover (x : Tick) (s : BatteryEnergy) : BatteryEnergy :=
  if tmYday x.today = s.batteryEnergyDate then s
  else persistBatteryDailyEnergy x.now x.rolloverWrite
    { s with
      batteryEnergyYesterday := s.cachedBatteryDailyEnergy
      cachedBatteryDailyEnergy := {}
      batteryEnergyDate := tmYday x.today }

/-- The end of the call: its time, and the file every `BATTERY_ENERGY_PERSIST_INTERVAL` seconds. -/
def finish (x : Tick) (s : BatteryEnergy) : BatteryEnergy :=
  if batteryEnergyPersistInterval ≤ x.now - s.batteryEnergyLastPersist then
    { persistBatteryDailyEnergy x.now x.periodicWrite { s with batteryEnergyLastTime := x.now } with
      lastBatteryDailyEnergyTime := x.now }
  else { s with batteryEnergyLastTime := x.now, lastBatteryDailyEnergyTime := x.now }

/-- `_poll_battery_daily_energy`. -/
def pollBatteryDailyEnergy (s : BatteryEnergy) (x : Tick) : BatteryEnergy :=
  if x.now - s.lastBatteryDailyEnergyTime < 5 then s
  else finish x (integrate x (rollover x s))

/-! ### Runs -/

/-- What happens: a call, or a new process, which loads the file. -/
inductive Event
  | tick (x : Tick)
  | restart (date todayDate : ℤ)
  deriving DecidableEq, Repr

def next (s : BatteryEnergy) : Event → BatteryEnergy
  | .tick x => pollBatteryDailyEnergy s x
  | .restart date todayDate => loadBatteryDailyEnergy date todayDate { file := s.file }

/-! ### What each part leaves alone -/

@[simp] theorem persist_cached (now : ℚ) (w : Write) (s : BatteryEnergy) :
    (persistBatteryDailyEnergy now w s).cachedBatteryDailyEnergy = s.cachedBatteryDailyEnergy := by
  unfold persistBatteryDailyEnergy
  split <;> rfl

@[simp] theorem persist_yesterday (now : ℚ) (w : Write) (s : BatteryEnergy) :
    (persistBatteryDailyEnergy now w s).batteryEnergyYesterday = s.batteryEnergyYesterday := by
  unfold persistBatteryDailyEnergy
  split <;> rfl

@[simp] theorem persist_date (now : ℚ) (w : Write) (s : BatteryEnergy) :
    (persistBatteryDailyEnergy now w s).batteryEnergyDate = s.batteryEnergyDate := by
  unfold persistBatteryDailyEnergy
  split <;> rfl

@[simp] theorem persist_lastTime (now : ℚ) (w : Write) (s : BatteryEnergy) :
    (persistBatteryDailyEnergy now w s).batteryEnergyLastTime = s.batteryEnergyLastTime := by
  unfold persistBatteryDailyEnergy
  split <;> rfl

/-- The file after a write is the state's, none, or the one before. -/
theorem persist_file (now : ℚ) (w : Write) (s : BatteryEnergy) :
    (persistBatteryDailyEnergy now w s).file = some (saved w.date s) ∨
      (persistBatteryDailyEnergy now w s).file = none ∨
      (persistBatteryDailyEnergy now w s).file = s.file := by
  unfold persistBatteryDailyEnergy
  cases w.result with
  | written => exact Or.inl rfl
  | truncated => exact Or.inr (Or.inl rfl)
  | notOpened => exact Or.inr (Or.inr rfl)

@[simp] theorem rollover_date (x : Tick) (s : BatteryEnergy) :
    (rollover x s).batteryEnergyDate = tmYday x.today := by
  unfold rollover
  split
  · next h => exact h.symm
  · simp

@[simp] theorem rollover_lastTime (x : Tick) (s : BatteryEnergy) :
    (rollover x s).batteryEnergyLastTime = s.batteryEnergyLastTime := by
  unfold rollover
  split
  · rfl
  · simp

@[simp] theorem integrate_date (x : Tick) (s : BatteryEnergy) :
    (integrate x s).batteryEnergyDate = s.batteryEnergyDate := by
  unfold integrate
  split <;> rfl

@[simp] theorem finish_cached (x : Tick) (s : BatteryEnergy) :
    (finish x s).cachedBatteryDailyEnergy = s.cachedBatteryDailyEnergy := by
  unfold finish
  split
  · simp
  · rfl

@[simp] theorem finish_date (x : Tick) (s : BatteryEnergy) :
    (finish x s).batteryEnergyDate = s.batteryEnergyDate := by
  unfold finish
  split
  · simp
  · rfl

@[simp] theorem finish_lastTime (x : Tick) (s : BatteryEnergy) :
    (finish x s).batteryEnergyLastTime = x.now := by
  unfold finish
  split
  · simp
  · rfl

@[simp] theorem finish_lastTick (x : Tick) (s : BatteryEnergy) :
    (finish x s).lastBatteryDailyEnergyTime = x.now := by
  unfold finish
  split <;> rfl

end InverterControl.Battery.Model
