import InverterControl.Controller.Model
import InverterControl.Lib.Json
import InverterControl.Lib.Runs

/-!
# The power limits and their file

`power_limits.py`, and `set_power_limits` of the controller in the steps between which another thread can
run.  The update lock is held from the save to the last assignment, the watchdog's lock only for the
assignments; a control write holds the watchdog's lock while it reads the limits.
-/

namespace InverterControl.PowerLimits.Model

open InverterControl.Lib.Json
open InverterControl.Controller.Model (absoluteLimit clipLimit)

/-- `{"min": …, "max": …}` -/
structure Pair where
  min : ℤ
  max : ℤ
  deriving DecidableEq, Repr

/-- `validate_power_limits` accepts the pair. -/
def Pair.Valid (p : Pair) : Prop := -absoluteLimit ≤ p.min ∧ p.min ≤ p.max ∧ p.max ≤ absoluteLimit

instance (p : Pair) : Decidable p.Valid := by unfold Pair.Valid; infer_instance

/-! ### The file -/

/-- The longest file that is read. -/
def maxBytes : ℕ := 4096

/-- `_limits_object` -/
def limitsObject : Value ℚ → Option Pair
  | .obj ms =>
    if ∀ m ∈ ms, m.1 = "min" ∨ m.1 = "max" then
      match item ms "min", item ms "max" with
      | some (.int minimum), some (.int maximum) =>
        if Pair.Valid ⟨minimum, maximum⟩ then some ⟨minimum, maximum⟩ else none
      | _, _ => none
    else none
  | _ => none

/-- What `read_power_limits` returns, or that it raises. -/
inductive Reading
  | absent
  | invalid
  | limits (p : Pair)
  deriving DecidableEq, Repr

variable (ft : FloatText ℚ)

/-- `read_power_limits` of a regular file, in which every character is one byte. -/
def readPowerLimits : Option (List Char) → Reading
  | none => .absent
  | some content =>
    if maxBytes < content.length then .invalid
    else match (loads ft content).bind limitsObject with
      | some p => .limits p
      | none => .invalid

/-- `load_power_limits` (`none`: it raises). -/
def loadPowerLimits (file : Option (List Char)) (configured : Pair) : Option Pair :=
  match readPowerLimits ft file with
  | .limits p => some p
  | .absent => if configured.Valid then some configured else none
  | .invalid => none

/-- The members of the pair, in the order of their keys. -/
def members (p : Pair) : List (String × Value ℚ) := [("max", .int p.max), ("min", .int p.min)]

/-- `json.dumps(limits, sort_keys=True) + "\n"` -/
def text (p : Pair) : List Char := dump (spaced true) ft (.obj (members p)) 0 ++ ['\n']

/-! ### The calls -/

/-- The steps of `write_power_limits`. -/
inductive Save
  | validate
  | makeDirectory
  | checkFile
  | makeTemporary
  | write
  | flush
  | sync
  | replace
  | unlink
  deriving DecidableEq, Repr

/-- Where a call of `set_power_limits` is. -/
inductive Stage
  | idle
  | called
  /-- Before the update lock. -/
  | locking
  | saving (save : Save)
  /-- Before the watchdog's lock. -/
  | entering
  | setMin
  | setMax
  | setCalculatorMin
  | setCalculatorMax
  /-- `_trim_mode_generation` is counted, and the watchdog's lock is released. -/
  | count
  /-- Before the update lock is released. -/
  | leaving
  | returned
  | raised
  deriving DecidableEq, Repr

structure Call where
  min : ℤ := 0
  max : ℤ := 0
  persist : Bool := false
  stage : Stage := .idle
  /-- What is in the temporary file. -/
  temporary : List Char := []
  deriving DecidableEq, Repr

/-- `applied` -/
def Call.applied (c : Call) : Pair := ⟨clipLimit c.min, clipLimit c.max⟩

/-- A control write, as it reads the limits. -/
inductive Cycle
  | idle
  | readMin
  | readMax (minimum : ℤ)
  | seen (p : Pair)
  deriving DecidableEq, Repr

/-- Who holds the watchdog's lock. -/
inductive Owner
  | setter (i : ℕ)
  | cycle (j : ℕ)
  deriving DecidableEq, Repr

structure System where
  file : Option (List Char)
  /-- `power_limit_min` and `power_limit_max` of the controller. -/
  controller : Pair
  /-- Those of the calculator. -/
  calculator : Pair
  trimModeGeneration : ℕ := 0
  /-- The call that holds the update lock. -/
  updateLock : Option ℕ := none
  watchdogLock : Option Owner := none
  calls : ℕ → Call := fun _ => {}
  cycles : ℕ → Cycle := fun _ => .idle

inductive Event
  /-- `set_power_limits` is called. -/
  | call (i : ℕ) (min max : ℤ) (persist : Bool)
  /-- The next step of a call; `ok`: the file operation succeeds. -/
  | step (i : ℕ) (ok : Bool)
  /-- The next step of a control write. -/
  | cycle (j : ℕ)
  deriving DecidableEq, Repr

variable (s : System) (i : ℕ)

/-- The call goes on. -/
def goTo (stage : Stage) : System :=
  { s with calls := Function.update s.calls i { s.calls i with stage := stage } }

/-- The save raises, which releases the update lock. -/
def fail : System := { goTo s i .raised with updateLock := none }

/-- A step of `write_power_limits`.  A file that was replaced is no longer there to be removed. -/
def stepSave (save : Save) (ok : Bool) : System :=
  match save with
  | .validate => if (s.calls i).applied.Valid then goTo s i (.saving .makeDirectory) else fail s i
  | .makeDirectory => if ok then goTo s i (.saving .checkFile) else fail s i
  | .checkFile => if ok then goTo s i (.saving .makeTemporary) else fail s i
  | .makeTemporary => if ok then goTo s i (.saving .write) else fail s i
  | .write =>
    if ok then
      { s with
        calls := Function.update s.calls i
          { s.calls i with stage := .saving .flush, temporary := text ft (s.calls i).applied } }
    else fail s i
  | .flush => if ok then goTo s i (.saving .sync) else fail s i
  | .sync => if ok then goTo s i (.saving .replace) else fail s i
  | .replace =>
    if ok then { goTo s i (.saving .unlink) with file := some (s.calls i).temporary } else fail s i
  | .unlink => goTo s i .entering

/-- A step of `set_power_limits`. -/
def stepCall (ok : Bool) : System :=
  match (s.calls i).stage with
  | .called => goTo s i (if (s.calls i).min ≤ (s.calls i).max then .locking else .raised)
  | .locking =>
    if s.updateLock = none then
      { goTo s i (if (s.calls i).persist then .saving .validate else .entering) with
        updateLock := some i }
    else s
  | .saving save => stepSave ft s i save ok
  | .entering =>
    if s.watchdogLock = none then { goTo s i .setMin with watchdogLock := some (.setter i) } else s
  | .setMin =>
    { goTo s i .setMax with controller := { s.controller with min := (s.calls i).applied.min } }
  | .setMax =>
    { goTo s i .setCalculatorMin with
      controller := { s.controller with max := (s.calls i).applied.max } }
  | .setCalculatorMin =>
    { goTo s i .setCalculatorMax with calculator := { s.calculator with min := s.controller.min } }
  | .setCalculatorMax =>
    { goTo s i .count with calculator := { s.calculator with max := s.controller.max } }
  | .count =>
    { goTo s i .leaving with
      trimModeGeneration := s.trimModeGeneration + 1
      watchdogLock := none }
  | .leaving => { goTo s i .returned with updateLock := none }
  | .idle | .returned | .raised => s

/-- A step of a control write. -/
def stepCycle : System :=
  match s.cycles i with
  | .idle =>
    if s.watchdogLock = none then
      { s with cycles := Function.update s.cycles i .readMin, watchdogLock := some (.cycle i) }
    else s
  | .readMin => { s with cycles := Function.update s.cycles i (.readMax s.controller.min) }
  | .readMax minimum =>
    { s with
      cycles := Function.update s.cycles i (.seen ⟨minimum, s.controller.max⟩)
      watchdogLock := none }
  | .seen _ => s

def next (s : System) : Event → System
  | .call i min max persist =>
    if (s.calls i).stage = .idle then
      { s with
        calls := Function.update s.calls i
          { min := min, max := max, persist := persist, stage := .called } }
    else s
  | .step i ok => stepCall ft s i ok
  | .cycle j => stepCycle s j

/-- The limits as the configuration gives them. -/
def init (file : Option (List Char)) (p : Pair) : System where
  file := file
  controller := p
  calculator := p

/-! ### The file is accepted -/

variable {ft s i} {p : Pair} {c : Call}

theorem Call.applied_valid (h : c.min ≤ c.max) : c.applied.Valid := by
  have hmono := InverterControl.Controller.Model.clipLimit_mono h
  refine ⟨?_, hmono, ?_⟩ <;>
  · unfold Call.applied clipLimit InverterControl.Logic.Model.clampTo absoluteLimit
    dsimp only
    omega

/-- A call in order is what the controller's setter stands for. -/
theorem setPowerLimits_applied (h : c.min ≤ c.max)
    (controller : InverterControl.Controller.Model.InverterController) :
    (InverterControl.Controller.Model.setPowerLimits c.min c.max controller).powerLimits.min =
      c.applied.min ∧
      (InverterControl.Controller.Model.setPowerLimits c.min c.max controller).powerLimits.max =
        c.applied.max ∧
      (InverterControl.Controller.Model.setPowerLimits c.min c.max controller).calculator.powerLimitMin =
        c.applied.min ∧
      (InverterControl.Controller.Model.setPowerLimits c.min c.max controller).calculator.powerLimitMax =
        c.applied.max := by
  rw [InverterControl.Controller.Model.setPowerLimits, dif_pos h]
  exact ⟨rfl, rfl, rfl, rfl⟩

theorem length_intText_le {n : ℤ} (hlow : -absoluteLimit ≤ n) (hhigh : n ≤ absoluteLimit) :
    (intText n).length ≤ 5 := by
  have hdigits : ∀ k : ℕ, k ≤ 3000 → (Nat.toDigits 10 k).length ≤ 4 := fun k hk =>
    (Nat.length_toDigits_le_iff (by decide) (by decide)).mpr (by omega)
  unfold absoluteLimit at hlow hhigh
  cases n with
  | ofNat k =>
    have hk : k ≤ 3000 := Int.ofNat_le.mp hhigh
    exact (hdigits k hk).trans (by decide)
  | negSucc k =>
    rw [intText, List.length_cons]
    have := hdigits (k + 1) (by omega)
    omega

theorem readPowerLimits_valid {file : Option (List Char)}
    (h : readPowerLimits ft file = .limits p) : p.Valid := by
  unfold readPowerLimits at h
  split at h
  case h_1 => cases h
  case h_2 content =>
    split at h
    case isTrue => cases h
    case isFalse =>
      split at h
      case h_1 q hq =>
        obtain rfl : q = p := by simpa using h
        obtain ⟨v, -, hv⟩ := Option.bind_eq_some_iff.mp hq
        unfold limitsObject at hv
        split at hv
        case h_1 ms =>
          split at hv
          · split at hv
            · split at hv
              case isTrue hvalid =>
                rw [← Option.some.inj hv]
                exact hvalid
              case isFalse => cases hv
            · cases hv
          · cases hv
        case h_2 => cases hv
      case h_2 => cases h

/-- **What is written is read again.** -/
theorem readPowerLimits_text (h : p.Valid) : readPowerLimits ft (some (text ft p)) = .limits p := by
  have hloads : loads ft (text ft p) = some (.obj (members p)) :=
    loads_dump (spaced true) ft (by simp [floats, floatsMembers, members]) 0 _ (by simp [isWhite])
  have hobject : limitsObject (.obj (members p)) = some p := by
    simp [limitsObject, members, item, h]
  have hlength : (text ft p).length ≤ maxBytes := by
    have hmin := length_intText_le h.1 (h.2.1.trans h.2.2)
    have hmax := length_intText_le (h.1.trans h.2.1) h.2.2
    have hname : (Lib.JsonString.body true "max").length = 3 ∧
      (Lib.JsonString.body true "min").length = 3 := by decide
    simp only [text, dump, members, dumpMembers, bracket, closing, quote, spaced, maxBytes,
      List.length_append, List.length_cons, List.length_nil, hname]
    omega
  rw [readPowerLimits, if_neg (not_lt.mpr hlength), hloads, Option.bind_some, hobject]

end InverterControl.PowerLimits.Model
