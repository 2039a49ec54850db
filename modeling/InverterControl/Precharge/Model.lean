import InverterControl.Lib.Runs
import InverterControl.Python
import Mathlib.Data.List.AList

/-!
# The pre-charge inbox

`PrechargeInbox` of `precharge.py`, with a journal file.  A call of `handle` is a script: what it
answers, and the effects it has in their order, on the memory, the file and the controller.  Which of its
operations fail is part of the call.  A crash cuts the script off and reloads the journal.
-/

namespace InverterControl.Precharge.Model

open InverterControl.Lib.Runs InverterControl.Python

/-- The lifetime of a record: 48 hours. -/
def retention : ℚ := 172800

def journalSize : ℕ := 4096

/-- The `status` of a record. -/
inductive Decision
  | accepted
  | suppressed
  | uncertain
  deriving DecidableEq, Repr

structure Record where
  status : Decision
  until_ : ℚ
  /-- The key `queued`, which is `True` where it is present. -/
  queued : Bool := false
  deriving DecidableEq, Repr

/-- `records`. -/
abbrev Records := AList fun _ : String => Record

/-- The records that satisfy `p`. -/
def keep (p : Record → Bool) (rs : Records) : Records :=
  ⟨rs.entries.filter fun e => p e.2, rs.nodupKeys.sublist List.filter_sublist⟩

/-- The journal file: what `json.loads` makes of its text. -/
inductive Journal
  | absent
  /-- An error of the file system, or no dictionary of records. -/
  | unreadable
  | written (rs : Records)

structure PrechargeInbox where
  records : Records
  error : Bool

/-! ### The requests -/

/-- A payload dictionary (`.none` where a key is missing). -/
structure Payload where
  requestId : PyValue
  version : PyValue
  trigger : PyValue
  forecastEnergyWh : PyValue
  thresholdWh : PyValue
  issuedAt : PyValue
  expiresAt : PyValue
  deriving DecidableEq, Repr

/-- A payload that is well formed. -/
structure Request where
  requestId : String
  forecastEnergyWh : ℚ
  thresholdWh : ℚ
  issuedAt : ℚ
  expiresAt : ℚ
  deriving DecidableEq, Repr

inductive Status
  | rejected
  | unavailable
  | accepted
  | suppressed
  | duplicate
  deriving DecidableEq, Repr

/-- The dictionary that `handle` returns. -/
structure Response where
  requestId : Option String
  status : Status
  reason : String
  httpStatus : ℕ
  originalStatus : Option Decision := none
  deriving DecidableEq, Repr

/-- `result`. -/
def result (requestId : Option String) (status : Status) (httpStatus : ℕ) (reason : String) :
    Response where
  requestId := requestId
  status := status
  reason := reason
  httpStatus := httpStatus

/-- A character of `[A-Za-z0-9_-]`. -/
def requestIdChar (c : Char) : Bool :=
  ('A' ≤ c && c ≤ 'Z') || ('a' ≤ c && c ≤ 'z') || ('0' ≤ c && c ≤ '9') || c == '_' || c == '-'

/-- `re.fullmatch(r"[A-Za-z0-9_-]{1,96}", request_id)`. -/
def validRequestId (requestId : String) : Bool :=
  1 ≤ requestId.toList.length && requestId.toList.length ≤ 96 && requestId.toList.all requestIdChar

/-- A number that `_invalid_numeric_field` lets pass. -/
def nonnegative (v : PyValue) : Option ℚ :=
  match number v with
  | some q => if 0 ≤ q then some q else none
  | none => none

/-- `_invalid_numeric_field`, and the numbers of a payload that has none. -/
def readNumbers (requestId : String) (p : Payload) : Except String Request :=
  match nonnegative p.forecastEnergyWh with
  | none => .error "invalid_forecast_energy_wh"
  | some forecast =>
    match nonnegative p.thresholdWh with
    | none => .error "invalid_threshold_wh"
    | some threshold =>
      match nonnegative p.issuedAt with
      | none => .error "invalid_issued_at"
      | some issued =>
        match nonnegative p.expiresAt with
        | none => .error "invalid_expires_at"
        | some expires => .ok ⟨requestId, forecast, threshold, issued, expires⟩

/-- The checks of `handle` on the payload itself. -/
def readRequest (payload : Option Payload) : Except Response Request :=
  match payload with
  | none => .error (result none .rejected 400 "invalid_request_id")
  | some p =>
    match p.requestId with
    | .str requestId =>
      if validRequestId requestId = false then
        .error (result none .rejected 400 "invalid_request_id")
      else if p.version ≠ .int 1 ∨ p.trigger ≠ .str "low_solar_forecast" then
        .error (result (some requestId) .rejected 400 "invalid_contract")
      else match readNumbers requestId p with
        | .error e => .error (result (some requestId) .rejected 400 e)
        | .ok q => .ok q
    | _ => .error (result none .rejected 400 "invalid_request_id")

/-- `_request_expired`. -/
def requestExpired (q : Request) (now : ℚ) : Prop :=
  ¬ (now - 300 ≤ q.issuedAt ∧ q.issuedAt ≤ now + 30) ∨
    ¬ (now < q.expiresAt ∧ q.expiresAt ≤ q.issuedAt + 300)

instance (q : Request) (now : ℚ) : Decidable (requestExpired q now) := by
  unfold requestExpired; infer_instance

/-! ### The effects -/

/-- What a call does to the memory, the file and the controller. -/
inductive Effect
  /-- `self.records = records`. -/
  | remember (rs : Records)
  /-- `os.replace`: the file is the new one at once. -/
  | replaceFile (rs : Records)
  /-- `accept()` is called, after the clock reading `now`. -/
  | accept (requestId : String) (payload : Payload) (now : ℚ)

/-- An exception: `OSError`, `ValueError` or `RuntimeError`, or another one. -/
inductive Raised
  | handled
  | other
  deriving DecidableEq, Repr

/-- What becomes of a save. -/
inductive SaveFate
  | completes
  /-- It raises while the file is still the old one. -/
  | beforeReplace (e : Raised)
  /-- It raises after `os.replace`, at the `fsync` of the directory for example. -/
  | afterReplace (e : Raised)
  deriving DecidableEq, Repr

/-- A call of `handle`: its payload, its two clock readings, and what happens in it. -/
structure Delivery where
  payload : Option Payload
  /-- `time.time()` before the lock is taken. -/
  received : ℚ
  /-- `time.time()` under the lock. -/
  now : ℚ
  /-- What `suppressed()` returns, or raises. -/
  suppressed : Except Raised Bool
  reserve : SaveFate
  /-- What `accept()` raises. -/
  accept : Option Raised
  confirm : SaveFate

/-- What a call returns (`none`: it raises), and its effects. -/
abbrev Script := Option Response × List Effect

/-- `_save`: its effects, and what it raises. -/
def save (fate : SaveFate) (rs : Records) : List Effect × Option Raised :=
  match fate with
  | .completes => ([.replaceFile rs, .remember rs], none)
  | .beforeReplace e => ([], some e)
  | .afterReplace e => ([.replaceFile rs], some e)

/-- The answer to an exception inside `_accept_request_locked`. -/
def failed (requestId : String) : Raised → Option Response
  | .handled => some (result (some requestId) .unavailable 503 "decision_unavailable")
  | .other => none

/-- The records that are still alive. -/
def unexpired (now : ℚ) (rs : Records) : Records := keep (fun r => now < r.until_) rs

/-- `_accept_request_locked` of a request that is suppressed. -/
def suppressLocked (d : Delivery) (q : Request) (rs : Records) : Script :=
  match save d.reserve (rs.insert q.requestId ⟨.suppressed, d.now + retention, false⟩) with
  | (es, none) => (some (result (some q.requestId) .suppressed 409 "expensive_window"), es)
  | (es, some e) => (failed q.requestId e, es)

/-- `_accept_request_locked` from the call of `accept` on, with the reservation `rs`. -/
def enqueueLocked (d : Delivery) (q : Request) (p : Payload) (rs : Records) : Script :=
  match d.accept with
  | some e => (failed q.requestId e, [.accept q.requestId p d.now])
  | none =>
    match save d.confirm (rs.insert q.requestId ⟨.accepted, d.now + retention, true⟩) with
    | (es, none) =>
      (some (result (some q.requestId) .accepted 202 "queued_one_cycle"),
        .accept q.requestId p d.now :: es)
    | (es, some .handled) =>
      (failed q.requestId .handled, .accept q.requestId p d.now :: (es ++ [.remember rs]))
    | (es, some .other) => (none, .accept q.requestId p d.now :: es)

/-- `_accept_request_locked` of a request that is not suppressed: it is reserved in memory and on the
file before it is enqueued. -/
def reserveLocked (d : Delivery) (q : Request) (p : Payload) (rs : Records) : Script :=
  match save d.reserve rs with
  | (es, some e) => (failed q.requestId e, .remember rs :: es)
  | (es, none) =>
    ((enqueueLocked d q p rs).1, .remember rs :: (es ++ (enqueueLocked d q p rs).2))

/-- `_accept_request_locked`. -/
def acceptRequestLocked (d : Delivery) (q : Request) (p : Payload) (s : PrechargeInbox) : Script :=
  match d.suppressed with
  | .error e => (failed q.requestId e, [])
  | .ok blocked =>
    if journalSize ≤ (unexpired d.now s.records).entries.length then
      (some (result (some q.requestId) .unavailable 503 "journal_full"), [])
    else if blocked then suppressLocked d q (unexpired d.now s.records)
    else
      reserveLocked d q p
        ((unexpired d.now s.records).insert q.requestId ⟨.uncertain, d.now + retention, false⟩)

/-- `_previous_result`. -/
def previousResult (requestId : String) (previous : Record) : Response :=
  if previous.status = .uncertain then
    result (some requestId) .unavailable 503 "decision_uncertain"
  else if previous.status = .accepted ∧ previous.queued = false then
    result (some requestId) .unavailable 503 "legacy_decision_unverified"
  else
    { result (some requestId) .duplicate 200 "already_decided" with
      originalStatus := some previous.status }

/-- The decision that `previous` records is still alive. -/
def decided (received : ℚ) : Option Record → Option Record
  | some previous => if received < previous.until_ then some previous else none
  | none => none

/-- `handle` under the lock. -/
def handleLocked (d : Delivery) (q : Request) (p : Payload) (s : PrechargeInbox) : Script :=
  if s.error then (some (result (some q.requestId) .unavailable 503 "journal_unavailable"), [])
  else match decided d.received (s.records.lookup q.requestId) with
    | some previous => (some (previousResult q.requestId previous), [])
    | none =>
      if requestExpired q d.now then
        (some (result (some q.requestId) .rejected 410 "expired_or_invalid_time"), [])
      else acceptRequestLocked d q p s

/-- `handle`. -/
def handle (d : Delivery) (s : PrechargeInbox) : Script :=
  match d.payload, readRequest d.payload with
  | some p, .ok q =>
    if requestExpired q d.received then
      (some (result (some q.requestId) .rejected 410 "expired_or_invalid_time"), [])
    else if q.thresholdWh ≤ q.forecastEnergyWh then
      (some (result (some q.requestId) .rejected 400 "forecast_not_below_threshold"), [])
    else handleLocked d q p s
  | none, .ok _ => (none, [])
  | _, .error r => (some r, [])

/-! ### The machine -/

/-- A record that `__init__` accepts. -/
def validRecord (e : Sigma fun _ : String => Record) : Prop :=
  validRequestId e.1 = true ∧ (e.2.queued = true → e.2.status = .accepted) ∧ 0 ≤ e.2.until_

instance (e : Sigma fun _ : String => Record) : Decidable (validRecord e) := by
  unfold validRecord; infer_instance

/-- `__init__`. -/
def load : Journal → PrechargeInbox
  | .absent => ⟨∅, false⟩
  | .unreadable => ⟨∅, true⟩
  | .written rs => ⟨rs, decide (¬ ∀ e ∈ rs.entries, validRecord e)⟩

/-- A call of `accept`. -/
structure Acceptance where
  requestId : String
  payload : Payload
  now : ℚ
  deriving DecidableEq, Repr

/-- The process, the file, and the calls of `accept` so far, of this and all earlier processes. -/
structure World where
  inbox : PrechargeInbox
  journal : Journal
  calls : List Acceptance

/-- One effect. -/
def apply (w : World) : Effect → World
  | .remember rs => { w with inbox := { w.inbox with records := rs } }
  | .replaceFile rs => { w with journal := .written rs }
  | .accept requestId p now => { w with calls := w.calls ++ [⟨requestId, p, now⟩] }

/-- A new process.  The file system may fail it. -/
def restart (readable : Bool) (w : World) : World :=
  { w with inbox := load (if readable then w.journal else .unreadable) }

inductive Event
  | handle (d : Delivery)
  /-- The process dies after `effects` effects of a call, and restarts. -/
  | crash (d : Delivery) (effects : ℕ) (readable : Bool)
  | restart (readable : Bool)

/-- One event. -/
def next (w : World) : Event → World
  | .handle d => exec apply w (handle d w.inbox).2
  | .crash d effects readable =>
    restart readable (exec apply w ((handle d w.inbox).2.take effects))
  | .restart readable => restart readable w

/-- A process that starts from a journal. -/
def start (journal : Journal) : World where
  inbox := load journal
  journal := journal
  calls := []

end InverterControl.Precharge.Model
