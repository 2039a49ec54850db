import InverterControl.Lib.Runs
import InverterControl.Python

/-!
# The requests for the dump loads

The part of `HomeAssistantClient` of `homeassistant.py` that switches the dump loads: a control
cycle leaves its newest intent in one slot and sets an event, and a worker takes it and calls the
service for one load after another (`entities`).  Every section under the lock is one step; between
two of them any other thread may act.
-/

namespace InverterControl.DumpLoads.Model

open InverterControl.Python

/-- The content of the slot. -/
structure Request where
  turnOn : Bool
  generation : ℕ
  expires : ℚ
  deriving DecidableEq, Repr

/-- The point that `_dump_load_loop` is at. -/
inductive Worker
  /-- Before the test of the stop event. -/
  | looping
  | waiting
  /-- Past its wait. -/
  | woken
  /-- Before the check of the next load. -/
  | checking (r : Request) (loads : List String)
  /-- The check of a load has passed, the call is not issued yet. -/
  | ready (r : Request) (load : String) (loads : List String)
  /-- The call is in flight. -/
  | calling (r : Request) (load : String) (loads : List String)
  | ended
  deriving DecidableEq, Repr

/-- The client, once `start` has returned. -/
structure HomeAssistantClient where
  running : Bool := true
  stop : Bool := false
  generation : ℕ := 0
  intent : Option Bool := none
  pending : Option Request := none
  wakeup : Bool := false
  worker : Worker := .looping
  deriving DecidableEq, Repr

/-- `DUMP_LOAD_REQUEST_TTL` -/
def dumpLoadRequestTtl : ℚ := 5

/-- The statements of `request_stop`. -/
inductive Stopping
  | running
  | event
  | cancel
  | wakeup
  deriving DecidableEq, Repr

inductive Event
  /-- `request_dump_loads`, with the clock that it reads. -/
  | request (turnOn : PyValue) (now : ℚ)
  | cancel
  /-- One statement of `request_stop`; other threads act between two of them. -/
  | requestStop (stage : Stopping)
  /-- A step of the worker, with the clock that a check reads. -/
  | worker (now : ℚ)
  deriving DecidableEq, Repr

variable (entities : List String)

/-- A request is taken where the client runs. -/
def accepts (turnOn : PyValue) (c : HomeAssistantClient) : Option Bool :=
  match turnOn with
  | .bool b => if entities ≠ [] ∧ c.running = true ∧ c.stop = false then some b else none
  | _ => none

/-- The generation after a request: another direction begins a new one. -/
def supersede (turnOn : Bool) (c : HomeAssistantClient) : ℕ :=
  if c.intent ≠ some turnOn then c.generation + 1 else c.generation

/-- `request_dump_loads`, and the number of loads it returns. -/
def requestDumpLoads (turnOn : PyValue) (now : ℚ) (c : HomeAssistantClient) : HomeAssistantClient × ℕ :=
  match accepts entities turnOn c with
  | some b =>
    ({ c with
        generation := supersede b c
        intent := some b
        pending := some ⟨b, supersede b c, now + dumpLoadRequestTtl⟩
        wakeup := true }, entities.length)
  | none => (c, 0)

/-- `cancel_dump_loads` -/
def cancelDumpLoads (c : HomeAssistantClient) : HomeAssistantClient :=
  { c with generation := c.generation + 1, intent := none, pending := none }

def requestStop (stage : Stopping) (c : HomeAssistantClient) : HomeAssistantClient :=
  match stage with
  | .running => { c with running := false }
  | .event => { c with stop := true }
  | .cancel => cancelDumpLoads c
  | .wakeup => { c with wakeup := true }

/-- The slot is emptied and the event cleared in one section. -/
def take (c : HomeAssistantClient) : HomeAssistantClient :=
  { c with
    pending := none
    wakeup := false
    worker := match c.pending with
      | some r => .checking r entities
      | none => .looping }

/-- The check before a call: the batch is neither stopped, superseded nor expired. -/
def current (r : Request) (now : ℚ) (c : HomeAssistantClient) : Bool :=
  c.stop = false ∧ r.generation = c.generation ∧ now < r.expires

/-- A step of `_dump_load_loop`. -/
def dumpLoadLoop (now : ℚ) (c : HomeAssistantClient) : HomeAssistantClient :=
  match c.worker with
  | .looping => { c with worker := if c.stop = true then .ended else .waiting }
  | .waiting => if c.wakeup = true then { c with worker := .woken } else c
  | .woken => take entities c
  | .checking _ [] => { c with worker := .looping }
  | .checking r (load :: loads) =>
    { c with worker := if current r now c = true then .ready r load loads else .looping }
  | .ready r load loads => { c with worker := .calling r load loads }
  | .calling r _ loads => { c with worker := .checking r loads }
  | .ended => c

def next (c : HomeAssistantClient) : Event → HomeAssistantClient
  | .request turnOn now => (requestDumpLoads entities turnOn now c).1
  | .cancel => cancelDumpLoads c
  | .requestStop stage => requestStop stage c
  | .worker now => dumpLoadLoop entities now c

end InverterControl.DumpLoads.Model
