import InverterControl.Lib.Runs
import InverterControl.Python

/-!
# Writes to the bus

`_dbus_set` of `victron.py` with the part of `dbus_native.py` it calls: a write goes out on the
native connection first and through `dbus-send` where that fails, under one lock.  The native
message is sent by the event loop, in another thread: the caller hands in a coroutine
(`run_coroutine_threadsafe`), waits for it until its deadline, and cancels it when it gives up.  The
loop takes its callbacks in turn: first one makes a task of the coroutine, then the task takes its
first step, and this step sends the message.  A cancellation gets to the task through a callback
behind that step, so only the deadline keeps it from sending.

A call is numbered when it gets the lock.  Time passes between any two steps.
-/

namespace InverterControl.Writes.Model

open Python

structure Request where
  service : String
  path : String
  value : ℤ
  valueType : String
  deriving DecidableEq, Repr

/-- `TYPE_CODES` -/
def typeCode (valueType : String) : Option String :=
  [("int16", "n"), ("uint16", "q"), ("int32", "i"), ("uint32", "u"), ("int64", "x"), ("double", "d"),
    ("string", "s")].lookup valueType

/-- The default of `timeout`, and that of `dbus-send`. -/
def timeout : ℚ := 1 / 2

/-! ### Acceptance -/

/-- The check of `set_value` on the body of a reply; `none` is no reply, or an error. -/
def setValueAccepted : Option (List PyValue) → Bool
  | some [.int n] => n = 0
  | _ => false

/-- A line starts at the beginning and after every `\n`. -/
def lineStarts : List Char → List (List Char)
  | [] => []
  | c :: cs => if c = '\n' then cs :: lineStarts cs else lineStarts cs

/-- `\s*u?int32\s+0\s*$` at the start of a text. -/
def acceptedAt (text : List Char) : Bool :=
  let word := text.dropWhile Char.isWhitespace
  let word := if word.head? = some 'u' then word.tail else word
  if "int32".toList.isPrefixOf word = true then
    let rest := word.drop 5
    let number := rest.dropWhile Char.isWhitespace
    let after := number.tail
    (rest.head?.any Char.isWhitespace && number.head? = some '0') &&
      (after.dropWhile Char.isWhitespace = [] || '\n' ∈ after.takeWhile Char.isWhitespace)
  else false

/-- `isinstance(result, str) and bool(re.search(…, result, re.MULTILINE))` -/
def cliAccepted : Option String → Bool
  | some text => (text.toList :: lineStarts text.toList).any acceptedAt
  | none => false

/-! ### State -/

inductive Phase
  /-- In `set_value`, before the coroutine is handed in. -/
  | native
  /-- Before `future.result`. -/
  | submitted
  /-- In `future.result`, until then. -/
  | waiting (expiry : ℚ)
  /-- Before `dbus-send` is started. -/
  | fallback
  /-- While `dbus-send` runs. -/
  | cli (sent : Bool)
  deriving DecidableEq, Repr

/-- The call that has the lock. -/
structure Active where
  call : ℕ
  request : Request
  phase : Phase
  deriving DecidableEq, Repr

/-- A coroutine of a call, in the loop's queue. -/
structure Work where
  call : ℕ
  request : Request
  deadline : ℚ
  deriving DecidableEq, Repr

inductive Callback
  /-- Makes a task of the coroutine. -/
  | create (work : Work)
  /-- The first step of the task. -/
  | step (work : Work)
  deriving DecidableEq, Repr

inductive Via
  | native
  | cli
  deriving DecidableEq, Repr

/-- A message that has left, or is about to leave, in the order in which they do. -/
structure Message where
  call : ℕ
  via : Via
  request : Request
  deriving DecidableEq, Repr

/-- What a call returns. -/
structure Return where
  call : ℕ
  request : Request
  accepted : Bool
  /-- How many messages had left when it returned. -/
  sent : ℕ
  deriving DecidableEq, Repr

structure State where
  now : ℚ := 0
  calls : ℕ := 0
  active : Option Active := none
  ready : List Callback := []
  /-- The results of the futures: the body of a reply, or none. -/
  results : ℕ → Option (Option (List PyValue)) := fun _ => none
  wire : List Message := []
  returned : List Return := []
  /-- The calls that an exception has torn out of `_dbus_set`. -/
  interrupted : List ℕ := []

inductive Event
  | tick (d : ℚ)
  /-- A thread gets the lock. -/
  | begin (request : Request)
  /-- No native connection, or the request does not get as far as the loop. -/
  | unavailable
  | submit
  | wait
  /-- `future.result` returns, or raises what the coroutine has raised. -/
  | resume
  /-- `future.result` times out. -/
  | expire
  /-- An exception that is not caught (`SystemExit` of the signal handler). -/
  | interrupt
  | spawn
  /-- `dbus-send` sends its message. -/
  | cliSend
  /-- `dbus-send` ends with that output, or is killed. -/
  | cliEnd (output : Option String)
  /-- The loop runs its next callback. -/
  | loop
  /-- The reply to a message on the native connection, or the end of waiting for it. -/
  | reply (call : ℕ) (body : Option (List PyValue))
  deriving DecidableEq, Repr

/-! ### Steps -/

def setPhase (s : State) (a : Active) (phase : Phase) :
    State := { s with active := some { a with phase := phase } }

def send (s : State) (call : ℕ) (via : Via) (request : Request) : State :=
  { s with wire := s.wire ++ [⟨call, via, request⟩] }

/-- `_dbus_set` returns, and the lock is free. -/
def finish (s : State) (a : Active) (accepted : Bool) : State :=
  { s with active := none, returned := s.returned ++ [⟨a.call, a.request, accepted, s.wire.length⟩] }

/-- A callback of the loop: a late coroutine does not send. -/
def runCallback (s : State) : Callback → State
  | .create work => { s with ready := s.ready ++ [.step work] }
  | .step work =>
    if s.now < work.deadline then send s work.call .native work.request
    else { s with results := Function.update s.results work.call (some none) }

def loop (s : State) : State :=
  match s.ready with
  | [] => s
  | callback :: rest => runCallback { s with ready := rest } callback

/-- A step of the thread that has the lock. -/
def advance (s : State) (a : Active) : Event → State
  | .unavailable => if a.phase = .native then setPhase s a .fallback else s
  | .submit =>
    if a.phase = .native ∧ typeCode a.request.valueType ≠ none then
      { setPhase s a .submitted with
        ready := s.ready ++ [.create ⟨a.call, a.request, s.now + timeout⟩] }
    else s
  | .wait => if a.phase = .submitted then setPhase s a (.waiting (s.now + timeout)) else s
  | .resume =>
    match a.phase, s.results a.call with
    | .waiting _, some body =>
      if setValueAccepted body = true then finish s a true else setPhase s a .fallback
    | _, _ => s
  | .expire =>
    match a.phase with
    | .waiting expiry => if expiry ≤ s.now then setPhase s a .fallback else s
    | _ => s
  | .interrupt => { s with active := none, interrupted := a.call :: s.interrupted }
  | .spawn => if a.phase = .fallback then setPhase s a (.cli false) else s
  | .cliSend => if a.phase = .cli false then send (setPhase s a (.cli true)) a.call .cli a.request else s
  | .cliEnd output =>
    match a.phase with
    | .cli sent =>
      -- nobody has accepted a message that was not sent
      if cliAccepted output = true ∧ sent = false then s else finish s a (cliAccepted output)
    | _ => s
  | _ => s

def next (s : State) : Event → State
  | .tick d => { s with now := s.now + max d 0 }
  | .begin request =>
    match s.active with
    | none => { s with calls := s.calls + 1, active := some ⟨s.calls, request, .native⟩ }
    | some _ => s
  | .loop => loop s
  | .reply call body =>
    if s.results call = none ∧ s.wire.any (fun m => m.call = call ∧ m.via = .native) = true then
      { s with results := Function.update s.results call (some body) }
    else s
  | event =>
    match s.active with
    | some a => advance s a event
    | none => s

/-! ### The register behind a path -/

/-- What the last message for that path has set, where messages are carried out in the order in
which they come. -/
def register (wire : List Message) (service path : String) : Option ℤ :=
  (wire.filter fun m => m.request.service = service ∧ m.request.path = path).getLast?.map
    (·.request.value)

end InverterControl.Writes.Model
