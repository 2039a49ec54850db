import InverterControl.Lib.Runs
import Mathlib.Algebra.Order.Field.Rat

/-!
# The shutdown

`_shutdown_main_loop` of `main.py` with `_request_worker_stops` and `_shutdown_io`: the main thread
asks every worker to stop and waits for each of them, and a second thread disconnects MQTT and
closes the D-Bus connection that all of them write to.  What a call comes to, and the time between
two steps, is part of the event.
-/

namespace InverterControl.Shutdown.Model

/-- Which of the optional parts there are. -/
structure Setup where
  mqttBridge : Bool
  hbThread : Bool
  gridFilter : Bool
  derivedGridFilter : Bool
  deriving DecidableEq, Repr

/-- A call of `_request_worker_stops`. -/
inductive Request
  | mqttBridge
  | hbStop
  | watchdog
  | auxiliaryReaders
  | ha
  | victron
  | consoleServer
  | gridFilter
  | derivedGridFilter
  deriving DecidableEq, Repr

/-- A worker that `_shutdown_main_loop` stops or joins. -/
inductive Worker
  | watchdog
  | hbThread
  | gridFilter
  | derivedGridFilter
  | auxiliaryReaders
  | ha
  | polling
  | consoleServer
  deriving DecidableEq, Repr

/-- The item of an optional part. -/
def given {α : Type} (part : Bool) (item : α) : List α := if part = true then [item] else []

/-- `requests`, in its order. -/
def requests (setup : Setup) : List Request :=
  given setup.mqttBridge .mqttBridge ++ given setup.hbThread .hbStop ++
    [.watchdog, .auxiliaryReaders, .ha, .victron, .consoleServer] ++
    given setup.gridFilter .gridFilter ++ given setup.derivedGridFilter .derivedGridFilter

/-- The workers in the order in which they are stopped. -/
def workers (setup : Setup) : List Worker :=
  .watchdog :: (given setup.hbThread .hbThread ++ given setup.gridFilter .gridFilter ++
    given setup.derivedGridFilter .derivedGridFilter ++
    [.auxiliaryReaders, .ha, .polling, .consoleServer])

inductive Main
  | requesting (rest : List Request)
  | stopping (rest : List Worker)
  /-- In `mqtt_done.wait`. -/
  | waiting
  /-- Before the test of what is confirmed. -/
  | testing
  /-- Before `close_allowed.set`. -/
  | allowing
  /-- In `io_thread.join`. -/
  | joining
  | returned (result : Bool)
  deriving DecidableEq, Repr

/-- `_shutdown_io` -/
inductive Io
  | notStarted
  | disconnecting
  /-- Before `mqtt_done.set`. -/
  | marking (raised : Bool)
  /-- In `close_allowed.wait`. -/
  | waiting
  /-- Before the second look at the clock. -/
  | looking
  /-- In `victron.close`. -/
  | closing
  | finished
  deriving DecidableEq, Repr

/-- What a call comes to. -/
inductive Outcome
  | confirmed
  | other
  | raised
  deriving DecidableEq, Repr

structure State where
  setup : Setup
  deadline : ℚ
  now : ℚ
  main : Main
  io : Io := .notStarted
  requestsOk : Bool := true
  stopped : Bool := true
  mqttDone : Bool := false
  closeAllowed : Bool := false
  completedMqtt : Bool := false
  completedCloseRequested : Bool := false
  /-- The requests that were made without an exception. -/
  requested : List Request := []
  /-- The workers that are known to have stopped. -/
  confirmed : List Worker := []
  /-- `disconnect` has returned `True`. -/
  disconnected : Bool := false
  deriving DecidableEq, Repr

/-- The call of `_shutdown_main_loop`. -/
def start (setup : Setup) (now timeout : ℚ) : State where
  setup := setup
  deadline := now + max 0 timeout
  now := now
  main := .requesting (requests setup)

inductive Event
  | tick (d : ℚ)
  | stepMain (outcome : Outcome)
  | stepIo (outcome : Outcome)
  deriving DecidableEq, Repr

variable (s : State)

/-- `remaining() > 0` -/
def inTime : Bool := s.now < s.deadline

/-- One request: an exception is noted, and the others are made all the same. -/
def request (r : Request) (rest : List Request) (outcome : Outcome) : State :=
  if outcome = .raised then { s with main := .requesting rest, requestsOk := false }
  else { s with main := .requesting rest, requested := r :: s.requested }

/-- One worker is stopped, or joined. -/
def stop (w : Worker) (rest : List Worker) (outcome : Outcome) : State :=
  if outcome = .confirmed then { s with main := .stopping rest, confirmed := w :: s.confirmed }
  else { s with main := .stopping rest, stopped := false }

def stepMain (outcome : Outcome) : State :=
  match s.main with
  | .requesting (r :: rest) => request s r rest outcome
  -- the second thread is started
  | .requesting [] => { s with main := .stopping (workers s.setup), io := .disconnecting }
  | .stopping (w :: rest) => stop s w rest outcome
  | .stopping [] => { s with main := .waiting }
  | .waiting => if s.mqttDone = true ∨ inTime s = false then { s with main := .testing } else s
  | .testing =>
    if s.requestsOk = true ∧ s.stopped = true ∧ s.completedMqtt = true ∧ inTime s = true then
      { s with main := .allowing }
    else { s with main := .joining }
  | .allowing => { s with main := .joining, closeAllowed := true }
  | .joining =>
    if s.io = .finished ∨ inTime s = false then
      { s with
        main :=
          .returned (s.requestsOk && s.stopped && s.completedMqtt && s.completedCloseRequested) }
    else s
  | .returned _ => s

def stepIo (outcome : Outcome) : State :=
  match s.io with
  | .disconnecting =>
    if s.setup.mqttBridge = false then { s with io := .marking false, completedMqtt := true }
    else if outcome = .confirmed then
      { s with io := .marking false, completedMqtt := true, disconnected := true }
    else { s with io := .marking (outcome = .raised) }
  | .marking raised => { s with io := if raised = true then .finished else .waiting, mqttDone := true }
  | .waiting =>
    if s.closeAllowed = true then { s with io := .looking }
    else if inTime s = false then { s with io := .finished }
    else s
  | .looking => { s with io := if inTime s = true then .closing else .finished }
  | .closing => { s with io := .finished, completedCloseRequested := outcome = .confirmed }
  | _ => s

def next : Event → State
  | .tick d => { s with now := s.now + max d 0 }
  | .stepMain outcome => stepMain s outcome
  | .stepIo outcome => stepIo s outcome

end InverterControl.Shutdown.Model
