import InverterControl.Lib.Runs
import Mathlib.Data.List.Basic
import Mathlib.Algebra.Order.Field.Rat
import Mathlib.Tactic.Linarith

/-!
# The match rules on a connection

`_get_bus`, `_connect`, `_replay_subscriptions`, `subscribe_signal` and `add_name_owner_handler` of
`dbus_native.py`: the daemon forgets the match rules of a connection with the connection, so a new
one asks for them again, while other threads ask for theirs.  `_state_lock` is held by whoever makes
a connection; the sets of rules are read and changed without it, and every change is a step of its
own, while `subscriptions_healthy` is one look at the connection and at both sets.  The clock does
not go back here; the code reads `time.time()`.
-/

namespace InverterControl.Subscriptions.Model

/-- `RECONNECT_COOLDOWN` -/
def reconnectCooldown : ℚ := 5

/-- `NAME_OWNER_RULE` -/
def nameOwnerRule : String :=
  "type='signal',sender='org.freedesktop.DBus',interface='org.freedesktop.DBus'," ++
    "member='NameOwnerChanged',path='/org/freedesktop/DBus'"

/-- `_build_rule` -/
def buildRule (service member path : String) : String :=
  "type='signal',sender='" ++ service ++ "',interface='com.victronenergy.BusItem',member='" ++ member ++
    "',path='" ++ path ++ "'"

/-- What `AddMatch` comes to. -/
inductive Answer
  | methodReturn
  /-- The daemon has the rule, but the wait for its reply is over. -/
  | lost
  /-- An error, or a request that does not arrive. -/
  | refused
  deriving DecidableEq, Repr

/-- Where the thread is that makes a connection. -/
inductive Stage
  | dialing
  /-- `_bus` is the new connection. -/
  | made
  | checked
  /-- In `_replay_subscriptions`, before the armed rules are cleared. -/
  | clearing
  | cleared
  | replaying (rest : List String)
  | waiting (rest : List String) (rule : String) (bus : ℕ)
  | answered (rest : List String) (rule : String) (bus : ℕ)
  deriving DecidableEq, Repr

/-- The thread that makes a connection, with the lock; it may be in a call of `subscribe_signal`. -/
structure Connecting where
  call : Option ℕ
  stage : Stage
  deriving DecidableEq, Repr

/-- Where a call of `subscribe_signal` or `add_name_owner_handler` is. -/
inductive Call
  | idle
  /-- Before the rule is added to the optional ones. -/
  | optional (rule : String)
  /-- Before it is added to all rules. -/
  | remembering (rule : String)
  /-- Before `_get_bus`. -/
  | ready (rule : String)
  /-- In `_get_bus`, which makes a connection. -/
  | connecting (rule : String)
  | connected (rule : String)
  /-- In `add_name_owner_handler`, before `is_connected`. -/
  | named
  /-- Before `_send_add_match` looks at `_bus`. -/
  | sending (rule : String)
  | waiting (rule : String) (bus : ℕ)
  | answered (rule : String) (bus : ℕ)
  /-- Before the rule is added to the armed ones. -/
  | recording (rule : String) (bus : ℕ)
  deriving DecidableEq, Repr

structure NativeDbusClient where
  now : ℚ := 0
  /-- The connection; connections are numbered in the order in which they are made. -/
  bus : Option ℕ := none
  buses : ℕ := 0
  disconnected : List ℕ := []
  /-- `_fail_until`, where `none` is infinite. -/
  failUntil : Option ℚ := some 0
  subscriptions : List String := []
  optionalSubscriptions : List String := []
  armedSubscriptions : List String := []
  connecting : Option Connecting := none
  calls : ℕ → Call := fun _ => .idle
  /-- The rules that the daemon has for a connection. -/
  accepted : ℕ → List String := fun _ => []

inductive Event
  | tick (d : ℚ)
  /-- A thread in another call of `_get_bus` finds no connection. -/
  | connect
  /-- The next step of the thread that makes a connection: whether it is made, the rule it asks for
  next, and what this comes to. -/
  | stepConnect (made : Bool) (rule : String) (answer : Answer)
  | subscribeSignal (call : ℕ) (service member path : String) (required : Bool)
  | addNameOwnerHandler (call : ℕ)
  | stepCall (call : ℕ) (answer : Answer)
  | markFailure (bus : ℕ)
  | close
  | disconnect (bus : ℕ)
  deriving DecidableEq, Repr

variable (c : NativeDbusClient)

/-- `time.time() >= self._fail_until` -/
def cooled : Bool := c.failUntil.any (· ≤ c.now)

/-- `self._bus is not None and self._bus.connected` -/
def live : Bool := c.bus.any (· ∉ c.disconnected)

/-- `is_connected` -/
def isConnected : Bool := live c && cooled c

/-- `self._subscriptions - self._optional_subscriptions` -/
def required : List String := c.subscriptions.filter (· ∉ c.optionalSubscriptions)

/-- `subscriptions_healthy` -/
def subscriptionsHealthy : Bool := isConnected c && (required c).all (· ∈ c.armedSubscriptions)

/-! ### Making a connection -/

def setCall (n : ℕ) (call : Call) :
    NativeDbusClient := { c with calls := Function.update c.calls n call }

def setStage (k : Connecting) (stage : Stage) : NativeDbusClient :=
  { c with connecting := some { k with stage := stage } }

/-- The daemon has the rule for that connection. -/
def accept (bus : ℕ) (rule : String) : NativeDbusClient :=
  { c with accepted := Function.update c.accepted bus ((c.accepted bus).insert rule) }

def arm (rule : String) : NativeDbusClient :=
  { c with armedSubscriptions := c.armedSubscriptions.insert rule }

/-- The connection is given up for a while. -/
def giveUp : NativeDbusClient :=
  { c with failUntil := some (c.now + reconnectCooldown), bus := none }

/-- `_get_bus` returns, to the call of `subscribe_signal` that it was made in. -/
def release (k : Connecting) (made : Bool) : NativeDbusClient :=
  match k.call with
  | none => { c with connecting := none }
  | some n =>
    match c.calls n with
    | .connecting rule =>
      setCall { c with connecting := none } n (if made = true then .connected rule else .idle)
    | _ => { c with connecting := none }

/-- `_get_bus`, from the lock on, where there is no connection. -/
def startConnect (call : Option ℕ) : NativeDbusClient := { c with connecting := some ⟨call, .dialing⟩ }

/-- A step of `_connect`, or of `_replay_subscriptions`. -/
def stepConnect (k : Connecting) (made : Bool) (rule : String) (answer : Answer) : NativeDbusClient :=
  match k.stage with
  | .dialing =>
    if made = true then setStage { c with bus := some c.buses, buses := c.buses + 1 } k .made
    else release (giveUp c) k false
  | .made => if live c = true then setStage c k .checked else release (giveUp c) k false
  | .checked => if c.subscriptions = [] then release c k true else setStage c k .clearing
  | .clearing => setStage { c with armedSubscriptions := [] } k .cleared
  | .cleared => setStage c k (.replaying (required c))
  | .replaying rest =>
    if rest = [] then release c k true
    else if rule ∈ rest then
      match c.bus with
      | some bus => setStage c k (.waiting (rest.filter (· ≠ rule)) rule bus)
      | none => setStage c k (.replaying (rest.filter (· ≠ rule)))
    else c
  | .waiting rest rule bus =>
    match answer with
    | .methodReturn => setStage (accept c bus rule) k (.answered rest rule bus)
    | .lost => setStage (accept c bus rule) k (.replaying rest)
    | .refused => setStage c k (.replaying rest)
  | .answered rest rule _ => setStage (arm c rule) k (.replaying rest)

/-! ### Asking for a rule -/

/-- A step of `subscribe_signal` or `add_name_owner_handler`. -/
def stepCall (n : ℕ) (answer : Answer) : NativeDbusClient :=
  match c.calls n with
  | .optional rule =>
    setCall { c with optionalSubscriptions := c.optionalSubscriptions.insert rule } n (.remembering rule)
  | .remembering rule => setCall { c with subscriptions := c.subscriptions.insert rule } n (.ready rule)
  | .ready rule =>
    if c.connecting = none then
      if cooled c = false then setCall c n .idle
      else if live c = true then setCall c n (.connected rule)
      else setCall (startConnect c (some n)) n (.connecting rule)
    else c
  | .connected rule => setCall c n (if rule ∈ c.armedSubscriptions then .idle else .sending rule)
  | .named => setCall c n (if isConnected c = true then .sending nameOwnerRule else .idle)
  | .sending rule =>
    match c.bus with
    | some bus => setCall c n (.waiting rule bus)
    | none => setCall c n .idle
  | .waiting rule bus =>
    match answer with
    | .methodReturn => setCall (accept c bus rule) n (.answered rule bus)
    | .lost => setCall (accept c bus rule) n .idle
    | .refused => setCall c n .idle
  | .answered rule bus =>
    setCall { c with subscriptions := c.subscriptions.insert rule } n (.recording rule bus)
  | .recording rule _ => setCall (arm c rule) n .idle
  | _ => c

/-- The first steps of `subscribe_signal`. -/
def subscribeSignal (n : ℕ) (rule : String) (required : Bool) : NativeDbusClient :=
  if required = true then
    setCall { c with optionalSubscriptions := c.optionalSubscriptions.filter (· ≠ rule) } n (.ready rule)
  else setCall c n (if rule ∈ c.subscriptions then .ready rule else .optional rule)

def next : Event → NativeDbusClient
  | .tick d => { c with now := c.now + max d 0 }
  | .connect =>
    if c.connecting = none ∧ cooled c = true ∧ live c = false then startConnect c none else c
  | .stepConnect made rule answer =>
    match c.connecting with
    | some k => stepConnect c k made rule answer
    | none => c
  | .subscribeSignal n service member path required =>
    if c.calls n = .idle then subscribeSignal c n (buildRule service member path) required else c
  | .addNameOwnerHandler n =>
    if c.calls n = .idle then
      setCall { c with subscriptions := c.subscriptions.insert nameOwnerRule } n .named
    else c
  | .stepCall n answer => stepCall c n answer
  | .markFailure bus => if c.connecting = none ∧ c.bus = some bus then giveUp c else c
  | .close => if c.connecting = none then { c with bus := none, failUntil := none } else c
  | .disconnect bus => { c with disconnected := c.disconnected.insert bus }

end InverterControl.Subscriptions.Model
