import InverterControl.Lib.Runs
import InverterControl.Lib.Smoothing
import Mathlib.Algebra.Order.Field.Rat

/-!
# The filter of the grid power

`GridFilter` of `grid_filter.py`.  The thread reads the generation under the lock, calls the getter
without it, reads the clock and takes the lock again for the update; between these steps another
thread may reset the filter.  The weight `1.0 - math.exp(-dt / self.tau)` of a tick is the parameter
`alpha`.
-/

namespace InverterControl.Filter.Model

open InverterControl.Lib.Smoothing

/-- What `float(self._getter())` comes to. -/
inductive Answer
  /-- The getter returned `None`. -/
  | missing
  | finite (gt : ℚ)
  | nonFinite
  /-- `TypeError` or `ValueError`. -/
  | error
  /-- Any other exception, which ends the thread. -/
  | raised
  deriving DecidableEq, Repr

/-- The point that the thread is at. -/
inductive Pc
  | waiting
  /-- The generation is read. -/
  | ticked (generation : ℕ)
  /-- The getter is called. -/
  | reading (generation : ℕ)
  /-- The getter has answered, and the clock is read. -/
  | sampled (generation : ℕ) (gt now : ℚ)
  | ended
  deriving DecidableEq, Repr

structure GridFilter where
  value : Option ℚ := none
  lastT : Option ℚ := none
  errors : ℕ := 0
  generation : ℕ := 0
  pc : Pc := .waiting
  deriving DecidableEq, Repr

/-- What the surroundings decide in a step of the thread. -/
structure Inputs where
  /-- The stop event is set. -/
  stopped : Bool := false
  answer : Answer := .missing
  /-- `time.monotonic()` -/
  now : ℚ
  deriving DecidableEq, Repr

inductive Event
  | thread (i : Inputs)
  | reset
  deriving DecidableEq, Repr

variable (alpha : ℚ → ℚ)

/-- `reset` -/
def reset (f : GridFilter) : GridFilter :=
  { f with generation := f.generation + 1, value := none, lastT := none }

/-- The answer of the getter. -/
def answered (i : Inputs) (generation : ℕ) (f : GridFilter) : GridFilter :=
  match i.answer with
  | .missing => { f with pc := .waiting }
  | .finite gt => { f with pc := .sampled generation gt i.now }
  | .nonFinite => { f with errors := f.errors + 1, pc := .waiting }
  | .error => { f with errors := f.errors + 1, pc := .waiting }
  | .raised => { f with pc := .ended }

/-- The update of the value, where nothing has reset the filter since the tick. -/
def update (generation : ℕ) (gt now : ℚ) (f : GridFilter) : GridFilter :=
  if generation ≠ f.generation then { f with pc := .waiting }
  else
    match f.lastT, f.value with
    | some lastT, some value =>
      { f with
        value := some (towards (alpha (min (now - lastT) 30)) value gt), lastT := some now,
        pc := .waiting }
    | _, _ => { f with value := some gt, lastT := some now, pc := .waiting }

/-- A step of `run`. -/
def run (i : Inputs) (f : GridFilter) : GridFilter :=
  match f.pc with
  | .waiting => if i.stopped then { f with pc := .ended } else { f with pc := .ticked f.generation }
  | .ticked generation => { f with pc := .reading generation }
  | .reading generation => answered i generation f
  | .sampled generation gt now => update alpha generation gt now f
  | .ended => f

def next (f : GridFilter) : Event → GridFilter
  | .thread i => run alpha i f
  | .reset => reset f

end InverterControl.Filter.Model
