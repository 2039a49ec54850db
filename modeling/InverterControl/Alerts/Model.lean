import InverterControl.Lib.Json
import InverterControl.Lib.Runs

/-!
# The alerts

`AlertStorage` of `alert_state.py` with its file, and its callers in `mqtt_bridge.py`: a
notification adds an alert, an acknowledgement marks it, and a reconnection publishes those that are
not acknowledged.  The file is written in place, so a save that is cut off leaves the start of its
text.
-/

namespace InverterControl.Alerts.Model

open InverterControl.Lib.Json

structure PersistentAlert where
  id : String
  title : String
  body : String
  level : String
  source : String
  timestamp : String
  acknowledged : Bool := false
  acknowledgedAt : Option String := none
  deriving DecidableEq, Repr

variable {F : Type}

/-- `to_dict` -/
def toDict (a : PersistentAlert) : Value F :=
  .obj [("id", .str a.id), ("title", .str a.title), ("body", .str a.body), ("level", .str a.level),
    ("source", .str a.source), ("timestamp", .str a.timestamp), ("acknowledged", .bool a.acknowledged),
    ("acknowledged_at", a.acknowledgedAt.elim .null .str)]

/-- A member that is a string. -/
def text (members : List (String × Value F)) (key : String) : Option String :=
  match item members key with
  | some (.str s) => some s
  | _ => none

/-- `data.get("acknowledged", False)` -/
def flag (members : List (String × Value F)) (key : String) : Option Bool :=
  match item members key with
  | none => some false
  | some (.bool b) => some b
  | _ => none

/-- `data.get("acknowledged_at")` -/
def optionalText (members : List (String × Value F)) (key : String) : Option (Option String) :=
  match item members key with
  | none => some none
  | some .null => some none
  | some (.str s) => some (some s)
  | _ => none

/-- `from_dict`, without a value where it raises. -/
def fromDict : Value F → Option PersistentAlert
  | .obj members =>
    match text members "id", text members "title", text members "body", text members "level",
      text members "source", text members "timestamp", flag members "acknowledged",
      optionalText members "acknowledged_at" with
    | some id, some title, some body, some level, some source, some timestamp, some acknowledged,
      some acknowledgedAt =>
      some ⟨id, title, body, level, source, timestamp, acknowledged, acknowledgedAt⟩
    | _, _, _, _, _, _, _, _ => none
  | _ => none

/-! ### The file -/

variable (ft : FloatText F)

/-- The text that a save writes, `json.dump(…, indent=2)`. -/
def saveText (alerts : List PersistentAlert) : List Char :=
  dump (indented 2) ft (.arr (alerts.map toDict)) 0

/-- `_load_from_disk`, without a value where its exception leaves `__init__`. -/
def loadFromDisk : Option (List Char) → Option (List PersistentAlert)
  | none => some []
  | some content =>
    match loads ft content with
    | none => some []
    | some (.arr items) => items.mapM fromDict
    | some _ => none

/-- What a save comes to. -/
inductive Write
  | done
  /-- The file could not be opened. -/
  | refused
  /-- The text was cut off, so many characters and one before its end. -/
  | torn (missing : ℕ)
  deriving DecidableEq, Repr

structure AlertStorage where
  disk : Option (List Char) := none
  alerts : List PersistentAlert := []
  deriving DecidableEq, Repr

/-- `_save_to_disk` -/
def saveToDisk (s : AlertStorage) : Write → AlertStorage
  | .done => { s with disk := some (saveText ft s.alerts) }
  | .refused => s
  | .torn missing =>
    { s with disk := some ((saveText ft s.alerts).take ((saveText ft s.alerts).length - (missing + 1))) }

/-- `add_alert` -/
def addAlert (s : AlertStorage) (alert : PersistentAlert) (w : Write) : AlertStorage :=
  saveToDisk ft { s with alerts := s.alerts ++ [alert] } w

/-- The first alert of that id, marked. -/
def acknowledged (alertId now : String) : List PersistentAlert → Option (List PersistentAlert)
  | [] => none
  | a :: alerts =>
    if a.id = alertId then some ({ a with acknowledged := true, acknowledgedAt := some now } :: alerts)
    else (acknowledged alertId now alerts).map (a :: ·)

/-- `acknowledge_alert` -/
def acknowledgeAlert (s : AlertStorage) (alertId now : String) (w : Write) : AlertStorage :=
  match acknowledged alertId now s.alerts with
  | some alerts => saveToDisk ft { s with alerts := alerts } w
  | none => s

/-- `get_unacknowledged_alerts` -/
def getUnacknowledgedAlerts (s : AlertStorage) : List PersistentAlert :=
  s.alerts.filter fun a => !a.acknowledged

/-! ### Runs -/

inductive Event
  /-- `publish_notification`, with the alert that it makes when the bridge is connected. -/
  | publishNotification (connected : Bool) (id title body level source timestamp : String) (w : Write)
  /-- `_handle_acknowledgment` -/
  | handleAcknowledgment (alertId now : String) (w : Write)
  /-- The process starts anew. -/
  | restart
  deriving DecidableEq, Repr

def next (s : AlertStorage) : Event → AlertStorage
  | .publishNotification connected id title body level source timestamp w =>
    if connected then addAlert ft s ⟨id, title, body, level, source, timestamp, false, none⟩ w else s
  | .handleAcknowledgment alertId now w =>
    if alertId = "" then s else acknowledgeAlert ft s alertId now w
  | .restart =>
    match loadFromDisk ft s.disk with
    | some alerts => { s with alerts := alerts }
    | none => s

end InverterControl.Alerts.Model
