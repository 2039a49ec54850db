import InverterControl.Lib.Threads
import InverterControl.Python

/-!
# The choice of the ESS mode

`ess_modes.py`, the functions of `victron.py` that read, cache and write the ESS settings, and their
callers in `controller.py`, as programs over the calls that another thread can see: the locks, the
bus, the cached observation and the receipts of the requests.
-/

namespace InverterControl.Ess.Model

open Lib.Calls Lib.Threads Python

/-! ### `ess_modes.py` -/

/-- `MODES` -/
inductive Mode
  | off
  | on
  | optimizedWithBatteryLife
  | optimizedWithoutBatteryLife
  | keepBatteriesCharged
  | externalControl
  deriving DecidableEq, Repr

def modeName : Mode → String
  | .off => "off"
  | .on => "on"
  | .optimizedWithBatteryLife => "optimized_with_battery_life"
  | .optimizedWithoutBatteryLife => "optimized_without_battery_life"
  | .keepBatteriesCharged => "keep_batteries_charged"
  | .externalControl => "external_control"

def modes : List Mode :=
  [.off, .on, .optimizedWithBatteryLife, .optimizedWithoutBatteryLife, .keepBatteriesCharged,
    .externalControl]

/-- The exceptions that the callers tell apart, with their texts. -/
inductive Exception
  | valueError (text : String)
  | runtimeError (text : String)
  | typeError
  deriving DecidableEq, Repr

def batteryLifePath : String := "/Settings/CGwacs/BatteryLife/State"

/-- `[A-Za-z0-9_.:-]` -/
def requestIdChar (c : Char) : Bool :=
  ('A' ≤ c ∧ c ≤ 'Z') ∨ ('a' ≤ c ∧ c ≤ 'z') ∨ ('0' ≤ c ∧ c ≤ '9') ∨ c = '_' ∨ c = '.' ∨ c = ':' ∨ c = '-'

/-- `re.fullmatch(r"[A-Za-z0-9_.:-]{1,128}", request_id)` -/
def validRequestId (id : String) : Bool :=
  1 ≤ id.length ∧ id.length ≤ 128 ∧ id.toList.all requestIdChar = true

/-- `validate_selection`; `none` is a payload that is no dictionary. -/
def validateSelection (payload : Option (List (String × PyValue))) : Except Exception (Mode × String) :=
  match payload with
  | none => .error (.valueError "Expected mode and request_id")
  | some items =>
    match items.lookup "mode", items.lookup "request_id" with
    | some mode, some requestId =>
      if items.all (fun item => item.1 = "mode" ∨ item.1 = "request_id") = true then
        match modes.find? fun m => PyValue.str (modeName m) = mode with
        | none => .error (.valueError "Unknown ESS mode")
        | some m =>
          match requestId with
          | .str id =>
            if validRequestId id = true then .ok (m, id)
            else .error (.valueError "Invalid ESS request_id")
          | _ => .error (.valueError "Invalid ESS request_id")
      else .error (.valueError "Expected mode and request_id")
    | _, _ => .error (.valueError "Expected mode and request_id")

/-- `selected_mode` -/
def selectedMode (hub4 batteryLife vebus : Option ℤ) : Option Mode :=
  if vebus = some 4 then some .off
  else if vebus ≠ some 3 then none
  else if hub4 = some 3 then some .externalControl
  else if hub4 = some 1 ∨ hub4 = some 2 then
    match batteryLife with
    | some b =>
      if b = 9 then some .keepBatteriesCharged
      else if b = 0 ∨ b = 10 ∨ b = 11 ∨ b = 12 then some .optimizedWithoutBatteryLife
      else if 1 ≤ b ∧ b < 9 then some .optimizedWithBatteryLife
      else some .on
    | none => some .on
  else some .on

/-- `EssSelection._status`, without the constant `selection_supported`. -/
structure Status where
  requestId : Option String := none
  error : Option String := none
  deriving DecidableEq, Repr

/-- `self._seen[request_id] = mode`, and the oldest of more than 128 is dropped. -/
def remember (seen : List String) (requestId : String) : List String :=
  let seen := seen ++ [requestId]
  if 128 < seen.length then seen.tail else seen

/-! ### The calls -/

def settingsService : String := "com.victronenergy.settings"

def hub4ModePath : String := "/Settings/CGwacs/Hub4Mode"

/-- `EssSelection._lock`, the lock of the watchdog, and `_ess_selection_lock`. -/
inductive LockName
  | receipts
  | watchdog
  | selection
  deriving DecidableEq, Repr

/-- The dictionary of `_read_ess_mode`. -/
structure EssMode where
  selected : Option Mode
  vebusMode : Option ℤ
  hub4Mode : Option ℤ
  batteryLifeState : Option ℤ
  modeName : String
  isExternal : Bool
  deriving DecidableEq, Repr

inductive Op
  | acquire (lock : LockName)
  | release (lock : LockName)
  | dbusGet (service path : String)
  | dbusGetNativeOnly (service path : String)
  /-- `_dbus_set(service, path, value, "int32")`, with the request that it carries out: the code
  does not hand the id down, and `answer` only puts it on record.  A toggle has none. -/
  | dbusSet (service path : String) (value : ℤ) (request : Option String)
  /-- `self._vebus_service` -/
  | vebusService
  | time
  /-- `_ess_mode_cache` and `_ess_mode_cache_time`, under `_dbus_lock`. -/
  | cache
  | storeCache (mode : Option EssMode) (time : ℚ)
  | dryRun
  | setDryRun (enabled : Bool)
  /-- `self._trim_mode_generation += 1` -/
  | nextGeneration
  | seen
  | remember (requestId : String)
  | status
  | setStatus (status : Status)
  /-- The payload goes to `bridge.publish_state`. -/
  | publish (mode : EssMode) (status : Status)
  deriving DecidableEq, Repr

@[reducible] def Ret : Op → Type
  | .dbusGet _ _ => Option String
  | .dbusGetNativeOnly _ _ => Option String
  | .dbusSet _ _ _ _ => Bool
  | .vebusService => Option String
  | .time => ℚ
  | .cache => Option EssMode × ℚ
  | .dryRun => Bool
  | .seen => List String
  | .status => Status
  | _ => Unit

/-- A part of the program, with the calls it makes. -/
abbrev Code (α : Type) : Type := Program Op Ret Exception α

def perform (op : Op) : Code (Ret op) := Program.perform op

/-- `with lock: body` -/
def withLock (lock : LockName) (body : Code α) : Code α := do
  perform (.acquire lock)
  body.ensure (perform (.release lock))

/-! ### `victron.py` -/

/-- Digits, in groups between single underscores. -/
def digitsOfText : List Char → Bool → Option (List Char)
  | [], afterDigit => if afterDigit = true then some [] else none
  | c :: cs, afterDigit =>
    if c.isDigit = true then (digitsOfText cs true).map (c :: ·)
    else if c = '_' ∧ afterDigit = true then digitsOfText cs false
    else none

def natOfText (text : List Char) : Option ℕ :=
  (digitsOfText text false).map fun digits => Nat.ofDigitChars 10 digits 0

/-- `int(value)` of a text; `none` is a `ValueError`. -/
def intOfText (text : String) : Option ℤ :=
  let stripped := ((text.toList.dropWhile Char.isWhitespace).reverse.dropWhile Char.isWhitespace).reverse
  match stripped with
  | '-' :: digits => (natOfText digits).map fun n => -Int.ofNat n
  | '+' :: digits => (natOfText digits).map Int.ofNat
  | digits => (natOfText digits).map Int.ofNat

/-- `_ess_mode_description` -/
def essModeDescription (hub4Mode blState : Option ℤ) : String × Bool :=
  if hub4Mode = some 3 then ("External control", true)
  else if hub4Mode = some 1 ∨ hub4Mode = some 2 then
    match blState with
    | some b =>
      if b = 0 ∨ b = 10 ∨ b = 11 ∨ b = 12 then ("Optimized without BatteryLife", false)
      else if b = 9 then ("Keep batteries charged", false)
      else if 1 ≤ b ∧ b < 9 then ("Optimized (BatteryLife)", false)
      else ("Unknown ESS profile", false)
    | none => ("Unknown ESS profile", false)
  else
    match hub4Mode with
    | some n => (s!"Unknown ({n})", false)
    | none => ("Unknown (None)", false)

/-- The `result` of `_read_ess_mode`. -/
def observation (hub4Mode blState vebusMode : Option ℤ) : EssMode where
  selected := selectedMode hub4Mode blState vebusMode
  vebusMode := vebusMode
  hub4Mode := hub4Mode
  batteryLifeState := blState
  modeName := (essModeDescription hub4Mode blState).1
  isExternal := (essModeDescription hub4Mode blState).2

/-- The `/Mode` of the switch, where the service is known. -/
def readVebusMode (service : Option String) : Code (Option ℤ) :=
  match service with
  | some name =>
    if name = "" then .done none
    else do
      let raw ← perform (.dbusGetNativeOnly name "/Mode")
      return raw.bind intOfText
  | none => .done none

/-- `_read_ess_mode` -/
def readEssMode : Code Unit := do
  let hub4 ← perform (.dbusGet settingsService hub4ModePath)
  let bl ← perform (.dbusGet settingsService batteryLifePath)
  let service ← perform .vebusService
  let vebusMode ← readVebusMode service
  let now ← perform .time
  perform (.storeCache (some (observation (hub4.bind intOfText) (bl.bind intOfText) vebusMode)) now)

/-- `_reconcile_ess_mode` -/
def reconcileEssMode : Code Unit := withLock .selection readEssMode

/-- `if self._ess_mode_cache is not None and self._ess_mode_cache_time > 0` -/
def usable (cache : Option EssMode × ℚ) : Option EssMode := if 0 < cache.2 then cache.1 else none

/-- `dict(self._ess_mode_cache)` -/
def cached (cache : Option EssMode × ℚ) : Code EssMode :=
  match cache.1 with
  | some mode => .done mode
  | none => .raise .typeError

/-- `get_ess_mode`, under the lock. -/
def readMissing : Code EssMode := do
  let cache ← perform .cache
  match usable cache with
  | some mode => .done mode
  | none => do
    reconcileEssMode
    let cache ← perform .cache
    cached cache

/-- `get_ess_mode` -/
def getEssMode : Code EssMode := do
  let cache ← perform .cache
  match usable cache with
  | some mode => .done mode
  | none => withLock .selection readMissing

/-- The part of the poll loop that keeps the cache fresh. -/
def pollEssMode : Code Unit := do
  let now ← perform .time
  let cache ← perform .cache
  if cache.1.isSome = true ∧ now - cache.2 ≥ 5 then reconcileEssMode else .done ()

/-- The value of `/Settings/CGwacs/BatteryLife/State` for a profile. -/
def batteryLifeValue : Mode → ℤ
  | .optimizedWithBatteryLife => 1
  | .optimizedWithoutBatteryLife => 10
  | _ => 9

/-- `not service or self._dbus_get(service, "/ModeIsAdjustable") != "1"` and the write, for `off`
and `on`. -/
def switchWrites (mode : Mode) (service : Option String) : Code (List (String × String × ℤ)) :=
  match service with
  | some name =>
    if name = "" then .raise (.runtimeError "Inverter switch is unavailable or not adjustable")
    else do
      let adjustable ← perform (.dbusGet name "/ModeIsAdjustable")
      if adjustable = some "1" then return [(name, "/Mode", if mode = .off then 4 else 3)]
      else .raise (.runtimeError "Inverter switch is unavailable or not adjustable")
  | none => .raise (.runtimeError "Inverter switch is unavailable or not adjustable")

/-- `_ess_mode_writes` -/
def essModeWrites (mode : Mode) : Code (List (String × String × ℤ)) :=
  if mode = .off ∨ mode = .on then do
    let service ← perform .vebusService
    switchWrites mode service
  else do
    let raw ← perform (.dbusGet settingsService hub4ModePath)
    if raw ≠ some "1" ∧ raw ≠ some "2" ∧ raw ≠ some "3" then
      .raise (.runtimeError "Current ESS settings are unavailable")
    else if mode = .externalControl then
      return [(settingsService, hub4ModePath, 3)]
    else
      return [(settingsService, batteryLifePath, batteryLifeValue mode),
        (settingsService, hub4ModePath, if raw = some "2" then 2 else 1)]

/-- The loop of `select_ess_mode`. -/
def writeAll (request : Option String) : List (String × String × ℤ) → Code Unit
  | [] => .done ()
  | (service, path, value) :: rest => do
    let ok ← perform (.dbusSet service path value request)
    if ok = true then writeAll request rest
    else .raise (.runtimeError "ESS change unconfirmed; check the current mode before retrying")

/-- `victron.select_ess_mode` -/
def selectEssMode (mode : Mode) (request : Option String) : Code Unit :=
  withLock .selection do
    let writes ← essModeWrites mode
    (writeAll request writes).ensure (perform (.storeCache none 0))

/-- The writes of `_set_legacy_ess_mode`; the second one is made whatever the first one gave. -/
def legacyWrites (external : Bool) : Code Bool :=
  if external = true then perform (.dbusSet settingsService hub4ModePath 3 none)
  else do
    let success1 ← perform (.dbusSet settingsService hub4ModePath 1 none)
    let success2 ← perform (.dbusSet settingsService batteryLifePath 0 none)
    return success1 && success2

/-- `_set_legacy_ess_mode` -/
def setLegacyEssMode (external : Bool) : Code Bool := do
  let result ← legacyWrites external
  perform (.storeCache none 0)
  return result

/-- `set_ess_mode` -/
def setEssMode (external : Bool) : Code Bool := withLock .selection (setLegacyEssMode external)

/-! ### `controller.py` -/

/-- `write` of `select_ess_mode` -/
def writeSelection (mode : Mode) (requestId : String) : Code Unit :=
  withLock .watchdog do
    let dryRun ← perform .dryRun
    if dryRun = true then .raise (.runtimeError "ESS changes are unavailable in DRY mode")
    else do
      selectEssMode mode (some requestId)
      perform .nextGeneration

/-- The receipt of a request, or the exception that `apply` lets through. -/
def receipt (requestId : String) : Except Exception Unit → Code Unit
  | .ok _ => perform (.setStatus ⟨some requestId, none⟩)
  | .error (.valueError text) => perform (.setStatus ⟨some requestId, some text⟩)
  | .error (.runtimeError text) => perform (.setStatus ⟨some requestId, some text⟩)
  | .error .typeError => .raise .typeError

/-- `EssSelection.apply`, once the payload is valid. -/
def applySelection (mode : Mode) (requestId : String) : Code Unit :=
  withLock .receipts do
    let seen ← perform .seen
    if requestId ∈ seen then .done ()
    else do
      perform (.remember requestId)
      let result ← (writeSelection mode requestId).attempt
      receipt requestId result

/-- `controller.select_ess_mode` -/
def selectFromPayload (payload : Option (List (String × PyValue))) : Code Unit :=
  match validateSelection payload with
  | .ok (mode, requestId) => applySelection mode requestId
  | .error e => .raise e

/-- `toggle_ess_mode` -/
def toggleEssMode : Code EssMode := do
  let current ← getEssMode
  let changed ← setEssMode (!current.isExternal)
  if changed = true then getEssMode else return current

/-- `EssSelection.observe(self.victron.get_ess_mode)` -/
def observe : Code (EssMode × Status) :=
  withLock .receipts do
    let mode ← getEssMode
    let status ← perform .status
    return (mode, status)

/-- `get_state_for_mqtt` and `publish_state`, as far as the ESS mode goes. -/
def publishState : Code Unit := do
  let pair ← observe
  perform (.publish pair.1 pair.2)

/-- `set_dry_run` -/
def setDryRun (enabled : Bool) : Code Unit :=
  withLock .watchdog (perform (.setDryRun enabled))

/-- The trim gate: `get_ess_mode` under the lock of the watchdog. -/
def trimGate : Code Unit :=
  withLock .watchdog do
    let _ ← getEssMode
    return ()

/-- What a thread can be asked to do. -/
inductive Call
  | select (payload : Option (List (String × PyValue)))
  | toggle
  | get
  | poll
  | publish
  | trimGate
  | setDryRun (enabled : Bool)

def program : Call → Code Unit
  | .select payload => selectFromPayload payload
  | .toggle => do
    let _ ← toggleEssMode
    return ()
  | .get => do
    let _ ← getEssMode
    return ()
  | .poll => pollEssMode
  | .publish => publishState
  | .trimGate => trimGate
  | .setDryRun enabled => setDryRun enabled

end InverterControl.Ess.Model
