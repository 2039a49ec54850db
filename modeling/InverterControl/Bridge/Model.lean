import InverterControl.Lib.Runs

/-!
# The acknowledgements of the setpoint override

`publish_setpoint_override`, the publisher thread and `_on_connect` of `mqtt_bridge.py`, in the steps
between which another thread can run.  A status is told from an equal one by the number of changes before
it, as the code tells two dictionaries apart by identity.
-/

namespace InverterControl.Bridge.Model

/-- An entry of the publish queue: the topic of the override, or another one. -/
inductive Entry
  | override
  | other
  deriving DecidableEq, Repr

/-- A thread in `publish_setpoint_override`, which holds the state lock. -/
inductive Producer
  | idle
  /-- Before `_connected` is read. -/
  | changed
  /-- Before `put_nowait`. -/
  | checked
  /-- Before the pending flag is cleared. -/
  | queued
  deriving DecidableEq, Repr

/-- The publisher thread. -/
inductive Worker
  | idle
  /-- An entry is taken, and `_connected` is not read yet. -/
  | got (entry : Entry)
  /-- In `_publish_latest_setpoint_override`. -/
  | sending
  /-- Before `task_done`. -/
  | finishing (entry : Entry)
  deriving DecidableEq, Repr

/-- A call of `_on_connect`. -/
inductive Replay
  /-- Up to the end of `_publish_latest_setpoint_override`. -/
  | sending
  /-- That status was published, and the pending flag not looked at. -/
  | published (version : ℕ)
  | finished
  deriving DecidableEq, Repr

/-- The callers of `_publish_latest_setpoint_override`. -/
inductive Sender
  | worker
  | replay (call : ℕ)
  deriving DecidableEq, Repr

/-- A status, with the number of the changes before it. -/
structure Status (σ : Type) where
  version : ℕ
  status : σ
  deriving DecidableEq, Repr

structure MQTTBridge (σ : Type) where
  connected : Bool := false
  latest : Status σ
  pending : Bool := true
  queue : List Entry := []
  producer : Producer := .idle
  worker : Worker := .idle
  /-- The calls of `_on_connect`. -/
  replays : List Replay := []
  /-- The sender that holds the publish lock, and the status that it has read. -/
  lock : Option (Sender × Option (Status σ)) := none
  /-- The statuses that were given to the client. -/
  handed : List (Status σ) := []
  /-- How many of them before `_connected` was set, and the call that set it. -/
  since : ℕ := 0
  connection : Option ℕ := none
  deriving DecidableEq, Repr

variable {σ : Type}

/-- `__init__`, with the status that means no override. -/
def init (status : σ) : MQTTBridge σ := { latest := ⟨0, status⟩ }

/-- `maxsize` of the queue. -/
def maxSize : ℕ := 100

inductive Event (σ : Type)
  /-- `publish_setpoint_override`, up to the pending flag. -/
  | publish (status : σ)
  | check
  | putNowait
  | clear
  /-- Another payload is queued. -/
  | enqueue
  /-- `_publish_queue.get`. -/
  | get
  /-- `_connected` is read by the publisher thread. -/
  | test
  /-- The publish lock is taken. -/
  | acquire (sender : Sender)
  | read
  /-- `client.publish`, and the publish lock is released. -/
  | send
  | taskDone
  /-- `_on_connect` that is not rejected. -/
  | connect
  /-- The end of `_on_connect`. -/
  | settle (call : ℕ)
  /-- `_on_disconnect`, a rejected connection or `request_stop`. -/
  | disconnect
  deriving DecidableEq, Repr

variable (b : MQTTBridge σ)

/-- A new status is pending; an equal one changes nothing. -/
def publish [DecidableEq σ] (status : σ) : MQTTBridge σ :=
  if status ≠ b.latest.status then
    { b with latest := ⟨b.latest.version + 1, status⟩, pending := true, producer := .changed }
  else { b with producer := .changed }

/-- Without a connection, or with nothing pending, the call returns. -/
def check : MQTTBridge σ :=
  if b.connected = false ∨ b.pending = false then { b with producer := .idle }
  else { b with producer := .checked }

/-- `put_nowait`; the flag stays where the queue is full. -/
def putNowait : MQTTBridge σ :=
  if b.queue.length < maxSize then { b with queue := b.queue ++ [.override], producer := .queued }
  else { b with producer := .idle }

/-- The entry is dropped without a connection. -/
def test (entry : Entry) : MQTTBridge σ :=
  if b.connected = true ∧ entry = .override then { b with worker := .sending }
  else { b with worker := .finishing entry }

/-- The sender waits for the publish lock. -/
def wants : Sender → Prop
  | .worker => b.worker = .sending
  | .replay call => b.replays[call]? = some .sending

instance (sender : Sender) : Decidable (wants b sender) := by
  cases sender <;> unfold wants <;> infer_instance

/-- The status is given to the client. -/
def send (sender : Sender) (status : Status σ) : MQTTBridge σ :=
  match sender with
  | .worker => { b with handed := b.handed ++ [status], lock := none, worker := .finishing .override }
  | .replay call =>
    { b with
      handed := b.handed ++ [status]
      lock := none
      replays := b.replays.set call (.published status.version) }

/-- The pending flag is cleared, unless the status was changed after the replay. -/
def settle (call version : ℕ) : MQTTBridge σ :=
  { b with
    pending := if b.latest.version = version then false else b.pending
    replays := b.replays.set call .finished }

/-- `_connected` is set by a new call. -/
def connect : MQTTBridge σ :=
  { b with
    connected := true
    since := b.handed.length
    connection := some b.replays.length
    replays := b.replays ++ [.sending] }

def next [DecidableEq σ] (b : MQTTBridge σ) (e : Event σ) : MQTTBridge σ :=
  match e with
  | .publish status => if b.producer = .idle then publish b status else b
  | .check => if b.producer = .changed then check b else b
  | .putNowait => if b.producer = .checked then putNowait b else b
  | .clear => if b.producer = .queued then { b with pending := false, producer := .idle } else b
  | .enqueue => if b.queue.length < maxSize then { b with queue := b.queue ++ [.other] } else b
  | .get =>
    match b.worker, b.queue with
    | .idle, entry :: queue => { b with queue := queue, worker := .got entry }
    | _, _ => b
  | .test =>
    match b.worker with
    | .got entry => test b entry
    | _ => b
  | .acquire sender =>
    if b.lock = none ∧ wants b sender then { b with lock := some (sender, none) } else b
  | .read =>
    match b.lock with
    | some (sender, none) =>
      if b.producer = .idle then { b with lock := some (sender, some b.latest) } else b
    | _ => b
  | .send =>
    match b.lock with
    | some (sender, some status) => send b sender status
    | _ => b
  | .taskDone =>
    match b.worker with
    | .finishing _ => { b with worker := .idle }
    | _ => b
  | .connect => connect b
  | .settle call =>
    match b.replays[call]? with
    | some (.published version) => if b.producer = .idle then settle b call version else b
    | _ => b
  | .disconnect => { b with connected := false }

end InverterControl.Bridge.Model
