import InverterControl.Lib.Runs
import Mathlib.Algebra.Order.Field.Rat

/-!
# The background reader

`BackgroundReader` of `background_reader.py`.  The worker, the callers of `request_stop` and the one
thread that calls `start` go through their steps in any order; the flag is set outside the lock, and
`request_stop` takes the lock only to drop the snapshot.  A read looks at the snapshot and then at
the clock, and changes nothing.
-/

namespace InverterControl.Background.Model

/-- A dictionary. -/
abbrev Values (V : Type) := String → Option V

variable {V : Type}

/-- `{**unknown, **values}` -/
def merged (unknown values : Values V) : Values V := fun key => (values key).or (unknown key)

/-- What a call of the refresh comes to. -/
inductive Outcome (V : Type)
  | returned (values : Values V)
  /-- An `Exception`. -/
  | raised
  /-- Any other exception, which ends the thread. -/
  | exited

/-- The start of the refresh, and its values. -/
abbrev Snapshot (V : Type) := ℚ × Values V

/-- The point that the worker is at. -/
inductive Worker (V : Type)
  /-- No thread is alive. -/
  | absent
  | looping
  | refreshing (started : ℚ)
  /-- The refresh is over. -/
  | refreshed (snapshot : Option (Snapshot V))
  /-- It holds the lock, and has found the flag clear or set. -/
  | locked (snapshot : Option (Snapshot V)) (publish : Bool)
  | waiting

/-- The point that the caller of `start` is at. -/
inductive Starter
  | idle
  /-- No thread is alive. -/
  | checked
  /-- The flag is cleared. -/
  | cleared
  deriving DecidableEq, Repr

structure BackgroundReader (V : Type) where
  snapshot : Option (Snapshot V) := none
  stop : Bool := false
  worker : Worker V := .absent
  starter : Starter := .idle
  /-- The calls of `request_stop` that have set the flag, and not dropped the snapshot yet. -/
  stopping : List ℕ := []

/-- What the surroundings decide in a step of the worker. -/
structure Inputs (V : Type) where
  now : ℚ := 0
  outcome : Outcome V := .raised

inductive Event (V : Type)
  | worker (i : Inputs V)
  | start
  /-- `request_stop` sets the flag.  Each call has a number of its own. -/
  | requestStop (call : ℕ)
  /-- `request_stop` drops the snapshot. -/
  | drop (call : ℕ)

variable (unknown : Values V) (maxAge : ℚ)

/-- `read`, of the snapshot that is there and the clock after it. -/
def read (r : BackgroundReader V) (now : ℚ) : Values V :=
  match r.snapshot with
  | none => unknown
  | some (started, values) => if maxAge ≤ now - started then unknown else values

/-- The end of a refresh that began at `started`. -/
def refreshed (started : ℚ) (outcome : Outcome V) : Worker V :=
  match outcome with
  | .returned values => .refreshed (some (started, merged unknown values))
  | .raised => .refreshed none
  | .exited => .absent

/-- A step of `_run`. -/
def run (i : Inputs V) (r : BackgroundReader V) : BackgroundReader V :=
  match r.worker with
  | .absent => r
  | .looping => { r with worker := if r.stop = true then .absent else .refreshing i.now }
  | .refreshing started => { r with worker := refreshed unknown started i.outcome }
  | .refreshed snapshot => { r with worker := .locked snapshot !r.stop }
  | .locked snapshot publish =>
    { r with snapshot := if publish = true then snapshot else r.snapshot, worker := .waiting }
  | .waiting => { r with worker := .looping }

/-- The lock is free. -/
def free (r : BackgroundReader V) : Bool :=
  match r.worker with
  | .locked _ _ => false
  | _ => true

/-- A thread is alive. -/
def alive (r : BackgroundReader V) : Bool :=
  match r.worker with
  | .absent => false
  | _ => true

/-- A step of `start`. -/
def start (r : BackgroundReader V) : BackgroundReader V :=
  match r.starter with
  | .idle => if alive r = true then r else { r with starter := .checked }
  | .checked => { r with stop := false, starter := .cleared }
  | .cleared => { r with worker := .looping, starter := .idle }

def requestStop (call : ℕ) (r : BackgroundReader V) : BackgroundReader V :=
  { r with stop := true, stopping := call :: r.stopping }

/-- The lock is taken when it is free. -/
def drop (call : ℕ) (r : BackgroundReader V) : BackgroundReader V :=
  if call ∈ r.stopping ∧ free r = true then
    { r with snapshot := none, stopping := r.stopping.erase call }
  else r

def next (r : BackgroundReader V) : Event V → BackgroundReader V
  | .worker i => run unknown i r
  | .start => start r
  | .requestStop call => requestStop call r
  | .drop call => drop call r

end InverterControl.Background.Model
