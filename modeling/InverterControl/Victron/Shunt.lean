import InverterControl.Lib.Runs
import InverterControl.Python

/-!
# The readings of the SmartShunt

The part of `VictronDBus` of `victron.py` that keeps bank voltage, current and power.  Signals, seed
reads, tree reads, owner changes and the discovery run on different threads; a section under
`_shunt_lock` is one step, and an operation that goes on after it is in flight (`Operation`) until
its next step.
-/

namespace InverterControl.Victron.Shunt

open InverterControl.Python

/-- `SHUNT_SIGNAL_PATHS.values()` -/
inductive Key
  | bv
  | bc
  | bp
  deriving DecidableEq, Repr

/-- `SHUNT_SIGNAL_PATHS.get(path)` -/
def shuntSignalPaths (path : String) : Option Key :=
  if path = "/Dc/0/Voltage" then some .bv
  else if path = "/Dc/0/Current" then some .bc
  else if path = "/Dc/0/Power" then some .bp
  else none

/-- `CONNECTED_PATH` -/
def connectedPath : String := "/Connected"

/-- `SYSTEM_SERVICE` -/
def systemService : String := "com.victronenergy.system"

/-- `SHUNT_READ_MAX_AGE` -/
def shuntReadMaxAge : ℚ := 70

/-- A value as it comes: none, or a text with the finite number that `float` makes of it, if there
is one. -/
inductive Raw
  | none
  | text (value : Option ℚ)
  deriving DecidableEq, Repr

/-- `_optional_float` -/
def optionalFloat : Raw → Option ℚ
  | .none => none
  | .text value => value

/-- `_shunt_token`: source and latest observation. -/
abbrev Token := Option String × ℕ

/-- What another thread is busy with, between two sections under the lock. -/
inductive Operation
  /-- A tree read. -/
  | read (token : Token)
  /-- A seed whose service was the SmartShunt: it takes its token next. -/
  | compared (service path : String)
  /-- A seed that reads its value. -/
  | seed (service path : String) (token : Option Token)
  /-- The rest of `_apply_fast_value`, for a value that the locked section has not applied. -/
  | value (service : Option String) (path : String) (raw : Raw)
  deriving DecidableEq, Repr

structure VictronDBus where
  shuntService : Option String := none
  shuntGeneration : ℕ := 0
  shuntConnected : Option Bool := none
  /-- `_system_data`, as far as it is about the battery. -/
  systemData : Key → Option ℚ := fun _ => none
  shuntReadTimes : Key → Option ℚ := fun _ => none
  /-- The operations in flight, in the order in which they started. -/
  operations : ℕ → Option Operation := fun _ => none
  started : ℕ := 0

def shuntToken (v : VictronDBus) : Token := (v.shuntService, v.shuntGeneration)

/-- `_clear_shunt_data` -/
def clearShuntData (v : VictronDBus) : VictronDBus :=
  { v with
    shuntGeneration := v.shuntGeneration + 1
    systemData := fun _ => none
    shuntReadTimes := fun _ => none }

/-- The section of `_apply_shunt_value_locked` about `/Connected`. -/
def applyConnected (raw : Raw) (v : VictronDBus) : VictronDBus :=
  if optionalFloat raw = some 1 then
    { v with shuntGeneration := v.shuntGeneration + 1, shuntConnected := some true }
  else
    clearShuntData { v with shuntGeneration := v.shuntGeneration + 1, shuntConnected := some false }

/-- A reading of a signal, which has no voltage that is not positive. -/
def reading (key : Key) (raw : Raw) : Option ℚ :=
  match key, optionalFloat raw with
  | .bv, some q => if q ≤ 0 then none else some q
  | .bp, some q => some (pyRound q)
  | _, value => value

/-- The section of `_apply_shunt_value_locked` about a reading. -/
def applyReading (key : Key) (raw : Raw) (now : ℚ) (v : VictronDBus) : VictronDBus :=
  if v.shuntConnected = some false then { v with shuntGeneration := v.shuntGeneration + 1 }
  else
    { v with
      shuntGeneration := v.shuntGeneration + 1
      systemData := Function.update v.systemData key (reading key raw)
      shuntReadTimes := Function.update v.shuntReadTimes key (some now) }

/-- `_apply_shunt_value_locked`, and whether it has applied the value. -/
def applyShuntValueLocked (service : Option String) (path : String) (raw : Raw) (now : ℚ)
    (v : VictronDBus) : VictronDBus × Bool :=
  if service = none ∨ service ≠ v.shuntService then (v, false)
  else if path = connectedPath then (applyConnected raw v, true)
  else match shuntSignalPaths path with
    | some key => (applyReading key raw now v, true)
    | none => (v, false)

/-- A number that `_apply_numeric_system_value` stores. -/
def numeric (key : Key) (q : ℚ) : ℚ := if key = .bp then pyRound q else q

/-- The rest of `_apply_fast_value`, outside the locked section; `meterUpdated` is what
`_update_grid_fast_value` has said. -/
def applyRest (service : Option String) (path : String) (raw : Raw) (meterUpdated : Bool)
    (v : VictronDBus) : VictronDBus :=
  if meterUpdated = true ∨ service = some systemService ∨ service = none ∨
    service ≠ v.shuntService then v
  else match shuntSignalPaths path, raw with
    | some key, .text (some q) =>
      { v with systemData := Function.update v.systemData key (some (numeric key q)) }
    | _, _ => v

/-- `_apply_fast_value` where the caller holds the lock. -/
def applyFastValue (service : Option String) (path : String) (raw : Raw) (now : ℚ) (meterUpdated : Bool)
    (v : VictronDBus) : VictronDBus :=
  if (applyShuntValueLocked service path raw now v).2 = true then
    (applyShuntValueLocked service path raw now v).1
  else applyRest service path raw meterUpdated v

/-- `_accept_shunt_data` -/
def acceptShuntData (values : Key → Option ℚ) (now : ℚ) (v : VictronDBus) : VictronDBus :=
  if v.shuntConnected = some false then clearShuntData v
  else
    { v with
      shuntGeneration := v.shuntGeneration + 1
      systemData := values
      shuntReadTimes := fun _ => some now }

/-- `if values:` of a dictionary that has numbers only. -/
def hasValues (values : Key → Option ℚ) : Bool :=
  (values .bv).isSome ∨ (values .bc).isSome ∨ (values .bp).isSome

/-- `_commit_shunt_snapshot`; a failed read has no values. -/
def commitShuntSnapshot (token : Token) (connected : Option Bool) (values : Key → Option ℚ) (now : ℚ)
    (v : VictronDBus) : VictronDBus :=
  if token ≠ shuntToken v then v
  else if hasValues values = true then acceptShuntData values now { v with shuntConnected := connected }
  else clearShuntData { v with shuntConnected := connected }

/-- What `_poll_shunt_data` commits: without a source nothing is read. -/
def pollShuntData (token : Token) (connected : Option Bool) (values : Key → Option ℚ) (now : ℚ)
    (v : VictronDBus) : VictronDBus :=
  if token.1 = none then commitShuntSnapshot token none (fun _ => none) now v
  else commitShuntSnapshot token connected values now v

/-- The section of `_on_name_owner_changed`. -/
def onNameOwnerChanged (service : String) (v : VictronDBus) : VictronDBus :=
  if v.shuntService = some service then clearShuntData { v with shuntConnected := some false } else v

/-- The section of `_apply_discovery`, which one thread runs at a time. -/
def applyDiscovery (selected : Option String) (v : VictronDBus) : VictronDBus :=
  if v.shuntService ≠ selected then
    clearShuntData { v with shuntService := selected, shuntConnected := none }
  else v

/-! ### Steps -/

/-- An operation starts. -/
def begin (o : Operation) (v : VictronDBus) : VictronDBus :=
  { v with operations := Function.update v.operations v.started (some o), started := v.started + 1 }

/-- An operation goes on as another one, or ends. -/
def goOn (t : ℕ) (o : Option Operation) (v : VictronDBus) : VictronDBus :=
  { v with operations := Function.update v.operations t o }

inductive Event
  /-- The locked section of a signal. -/
  | signal (service : Option String) (path : String) (raw : Raw) (now : ℚ)
  /-- The rest of a value, later. -/
  | rest (t : ℕ) (meterUpdated : Bool)
  /-- A seed starts, and compares its service; its target was listed before. -/
  | seed (service path : String)
  /-- It takes its token. -/
  | token (t : ℕ)
  /-- Its value is there. -/
  | seedReply (t : ℕ) (raw : Raw) (now : ℚ) (meterUpdated : Bool)
  /-- A tree read starts with its token. -/
  | read
  | commit (t : ℕ) (connected : Option Bool) (values : Key → Option ℚ) (now : ℚ)
  | nameOwnerChanged (service : String)
  | discovery (selected : Option String)

/-- A value that a locked section of its own is to apply. -/
def applyUnlocked (service : Option String) (path : String) (raw : Raw) (now : ℚ) (v : VictronDBus) :
    VictronDBus × Option Operation :=
  ((applyShuntValueLocked service path raw now v).1,
    if (applyShuntValueLocked service path raw now v).2 = true then none
    else some (.value service path raw))

/-- The reply of a seed: one with a token is applied where the token is current. -/
def seedReply (t : ℕ) (service path : String) (token : Option Token) (raw : Raw) (now : ℚ)
    (meterUpdated : Bool) (v : VictronDBus) : VictronDBus :=
  match token with
  | some token =>
    goOn t none (if token = shuntToken v then applyFastValue (some service) path raw now
      meterUpdated v else v)
  | none =>
    goOn t (applyUnlocked (some service) path raw now v).2
      (applyUnlocked (some service) path raw now v).1

def next (v : VictronDBus) : Event → VictronDBus
  | .signal service path raw now =>
    match (applyUnlocked service path raw now v).2 with
    | some o => begin o (applyUnlocked service path raw now v).1
    | none => (applyUnlocked service path raw now v).1
  | .rest t meterUpdated =>
    match v.operations t with
    | some (.value service path raw) => goOn t none (applyRest service path raw meterUpdated v)
    | _ => v
  | .seed service path =>
    begin (if v.shuntService = some service then .compared service path else .seed service path none) v
  | .token t =>
    match v.operations t with
    | some (.compared service path) => goOn t (some (.seed service path (some (shuntToken v)))) v
    | _ => v
  | .seedReply t raw now meterUpdated =>
    match v.operations t with
    | some (.seed service path token) => seedReply t service path token raw now meterUpdated v
    | _ => v
  | .read => begin (.read (shuntToken v)) v
  | .commit t connected values now =>
    match v.operations t with
    | some (.read token) => goOn t none (pollShuntData token connected values now v)
    | _ => v
  | .nameOwnerChanged service => onNameOwnerChanged service v
  | .discovery selected => applyDiscovery selected v

/-! ### The merged status -/

/-- `_battery_observation`: the value, its age and whether it is too old. -/
def batteryObservation (v : VictronDBus) (key : Key) (now : ℚ) : Option ℚ × Option ℚ × Bool :=
  let age := (v.shuntReadTimes key).map fun observed => now - observed
  let stale := match age with
    | some age => decide (¬ (0 ≤ age ∧ age ≤ shuntReadMaxAge))
    | none => false
  let value := if stale = true then none else v.systemData key
  (match key, value with
    | .bv, some q => if q ≤ 0 then none else some q
    | _, value => value, age, stale)

/-- The reason that comes before any about single readings. -/
def outage (v : VictronDBus) : Option String :=
  if v.shuntService = none then some "missing_source"
  else if v.shuntConnected = some false then some "disconnected"
  else none

/-- A key of the merged data. -/
def merged (v : VictronDBus) (now : ℚ) (key : Key) : Option ℚ :=
  if outage v ≠ none then none else (batteryObservation v key now).1

/-- `battery_data["available"]` -/
def available (v : VictronDBus) (now : ℚ) : Bool :=
  (merged v now .bv).isSome ∧ (merged v now .bc).isSome ∧ (merged v now .bp).isSome

end InverterControl.Victron.Shunt
