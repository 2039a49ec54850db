import Mathlib.Algebra.Order.Field.Rat
import Mathlib.Tactic

/-!
# Python values

The values that reach the modelled functions from outside (D-Bus, MQTT, HTTP, configuration), as far
as these functions can tell them apart.  A finite float is the rational it denotes, and arithmetic on
floats is exact; `nan` and the infinities are one value, because every function rejects them alike.
-/

namespace InverterControl.Python

inductive PyValue
  | none
  | bool (b : Bool)
  | int (n : ℤ)
  | float (q : ℚ)
  /-- `nan`, `inf` or `-inf`. -/
  | nonFinite
  | str (s : String)
  /-- A list, a dictionary or any other object. -/
  | other
  deriving DecidableEq, Repr

/-- The least magnitude of an integer that `float` refuses with `OverflowError`. -/
@[irreducible] def floatOverflow : ℤ := 2 ^ 1024 - 2 ^ 970

/-- `_number`: a finite number that is no boolean. -/
def number : PyValue → Option ℚ
  | .int n => if |n| < floatOverflow then some n else none
  | .float q => some q
  | _ => none

/-- `int(value)` of a value that `_integer` accepts. -/
def integer (v : PyValue) : Option ℤ :=
  match number v with
  | some q => if q.isInt then some q.num else none
  | none => none

/-- `round` on a number, to the nearest integer, ties to the even one. -/
def pyRound (q : ℚ) : ℤ :=
  if q - q.floor < 1 / 2 then q.floor
  else if 1 / 2 < q - q.floor then q.floor + 1
  else if q.floor % 2 = 0 then q.floor
  else q.floor + 1

/-- `round(value, digits)`, to the nearest decimal, ties to the even last digit. -/
def roundTo (digits : ℕ) (q : ℚ) : ℚ := pyRound (q * 10 ^ digits) / 10 ^ digits

/-- `int(value)` of a finite float: towards zero. -/
def truncate (q : ℚ) : ℤ := q.num.tdiv q.den

/-- `text.startswith(start)`. -/
def startsWith (text start : String) : Bool := start.toList.isPrefixOf text.toList

/-- Rounding moves to one of the two neighbours. -/
theorem pyRound_floor (q : ℚ) : q.floor ≤ pyRound q ∧ pyRound q ≤ q.floor + 1 := by
  unfold pyRound
  split_ifs
  · omega
  · omega
  · omega
  · omega

/-- **Rounding keeps the order.** -/
theorem pyRound_mono {q r : ℚ} (h : q ≤ r) : pyRound q ≤ pyRound r := by
  have hfloor : q.floor ≤ r.floor := Int.floor_mono h
  obtain ⟨-, hq⟩ := pyRound_floor q
  obtain ⟨hr, -⟩ := pyRound_floor r
  rcases hfloor.lt_or_eq with hlt | heq
  · omega
  · -- within one unit the fraction decides
    unfold pyRound
    rw [heq]
    split_ifs
    any_goals omega
    all_goals linarith

theorem pyRound_int (n : ℤ) : pyRound n = n := by
  simp [pyRound]

/-- Rounding does not see an even number of units; an odd one turns the ties. -/
theorem pyRound_two_mul_add (k : ℤ) (q : ℚ) : pyRound (2 * k + q) = 2 * k + pyRound q := by
  have hcast : (2 * k + q : ℚ) = q + ((2 * k : ℤ) : ℚ) := by
    push_cast
    ring
  have hfloor : (q + ((2 * k : ℤ) : ℚ)).floor = q.floor + 2 * k := Int.floor_add_intCast q (2 * k)
  have hfrac : q + ((2 * k : ℤ) : ℚ) - ((q.floor + 2 * k : ℤ) : ℚ) = q - q.floor := by
    push_cast
    ring
  have hparity : (q.floor + 2 * k) % 2 = 0 ↔ q.floor % 2 = 0 := by omega
  rw [hcast]
  simp only [pyRound, hfloor, hfrac, hparity]
  split_ifs
  all_goals ring

/-- Less than half a unit is rounded away. -/
theorem pyRound_eq_of_lt {n : ℤ} {q : ℚ} (h : (n : ℚ) ≤ q) (hlt : q < n + 1 / 2) : pyRound q = n := by
  have hfloor : q.floor = n := Int.floor_eq_iff.mpr ⟨h, by linarith⟩
  rw [pyRound, hfloor, if_pos (by linarith)]

theorem roundTo_mono (digits : ℕ) {q r : ℚ} (h : q ≤ r) : roundTo digits q ≤ roundTo digits r := by
  have hround : pyRound (q * 10 ^ digits) ≤ pyRound (r * 10 ^ digits) :=
    pyRound_mono (mul_le_mul_of_nonneg_right h (by positivity))
  have hcast : (pyRound (q * 10 ^ digits) : ℚ) ≤ pyRound (r * 10 ^ digits) := Int.cast_le.mpr hround
  exact div_le_div_of_nonneg_right hcast (by positivity)

theorem number_int {n : ℤ} (h : |n| < floatOverflow) : number (.int n) = some (n : ℚ) := by
  rw [number, if_pos h]

theorem integer_int {n : ℤ} (h : |n| < floatOverflow) : integer (.int n) = some n := by
  simp [integer, number_int h, Rat.isInt]

/-- An integer value is its own integer, unless it is too large. -/
theorem eq_of_integer_int {n m : ℤ} (h : integer (.int n) = some m) : m = n := by
  by_cases hn : |n| < floatOverflow
  · rw [integer_int hn] at h
    exact (Option.some.inj h).symm
  · simp [integer, number, hn] at h

example : pyRound (5 / 2) = 2 ∧ truncate (-5 / 2) = -2 := by decide +kernel

/-! ### Truncation -/

theorem truncate_of_nonneg {q : ℚ} (h : 0 ≤ q) : truncate q = ⌊q⌋ := by
  rw [truncate, Rat.floor_def', Int.tdiv_eq_ediv_of_nonneg (Rat.num_nonneg.mpr h)]

@[simp] theorem truncate_neg (q : ℚ) : truncate (-q) = -truncate q := by
  rw [truncate, truncate, Rat.num_neg_eq_neg_num, Rat.den_neg_eq_den, Int.neg_tdiv]

@[simp] theorem truncate_intCast (n : ℤ) : truncate n = n := by
  rw [truncate, Rat.num_intCast, Rat.den_intCast, Nat.cast_one, Int.tdiv_one]

@[simp] theorem truncate_zero : truncate 0 = 0 := rfl

theorem truncate_nonneg {q : ℚ} (h : 0 ≤ q) : 0 ≤ truncate q := by
  rw [truncate_of_nonneg h]
  exact Int.floor_nonneg.mpr h

theorem truncate_nonpos {q : ℚ} (h : q ≤ 0) : truncate q ≤ 0 := by
  have := truncate_nonneg (neg_nonneg.mpr h)
  rw [truncate_neg] at this
  omega

/-- A bound on a truncated number that is positive. -/
theorem le_truncate {n : ℤ} {q : ℚ} (hn : 0 < n) : n ≤ truncate q ↔ (n : ℚ) ≤ q := by
  rcases le_total 0 q with h | h
  · rw [truncate_of_nonneg h, Int.le_floor]
  · have hneg := truncate_nonpos h
    have hcast : (0 : ℚ) < n := Int.cast_pos.mpr hn
    constructor <;> intro hle
    · omega
    · linarith

/-- A bound on a truncated number that is negative. -/
theorem truncate_le {n : ℤ} {q : ℚ} (hn : n < 0) : truncate q ≤ n ↔ q ≤ n := by
  have h := le_truncate (q := -q) (n := -n) (by omega)
  rw [truncate_neg, Int.cast_neg, neg_le_neg_iff, neg_le_neg_iff] at h
  exact h

/-! ### Dates -/

/-- A date of the Gregorian calendar. -/
structure Civil where
  year : ℤ
  month : ℤ
  day : ℤ
  deriving DecidableEq, Repr

/-- The year of a day in an era of 400 years that begins on the first of March. -/
def yearOfEra (day : ℤ) : ℤ := (day - day / 1460 + day / 36524 - day / 146096) / 365

/-- The day of that year. -/
def dayOfYear (day : ℤ) : ℤ := day - (365 * yearOfEra day + yearOfEra day / 4 - yearOfEra day / 100)

/-- The month of that day, from March as 0. -/
def monthOfYear (day : ℤ) : ℤ := (5 * day + 2) / 153

/-- The date of the day of an era. -/
def civilOfEra (era day : ℤ) : Civil :=
  if monthOfYear (dayOfYear day) < 10 then
    ⟨400 * era + yearOfEra day, monthOfYear (dayOfYear day) + 3,
      dayOfYear day - (153 * monthOfYear (dayOfYear day) + 2) / 5 + 1⟩
  else
    ⟨400 * era + yearOfEra day + 1, monthOfYear (dayOfYear day) - 9,
      dayOfYear day - (153 * monthOfYear (dayOfYear day) + 2) / 5 + 1⟩

/-- The date of a day number, which counts from 1970-01-01. -/
def civil (date : ℤ) : Civil := civilOfEra ((date + 719468) / 146097) ((date + 719468) % 146097)

def isLeap (year : ℤ) : Bool := year % 4 = 0 && (year % 100 != 0 || year % 400 = 0)

/-- `timetuple().tm_yday` of a day number. -/
def tmYday (date : ℤ) : ℤ :=
  [0, 31, 59, 90, 120, 151, 181, 212, 243, 273, 304, 334].getD ((civil date).month - 1).toNat 0 +
    (civil date).day + if 2 < (civil date).month && isLeap (civil date).year then 1 else 0

def twoDigits (n : ℕ) : List Char := [(n / 10 % 10).digitChar, (n % 10).digitChar]

/-- `date.isoformat()`, of the years that `datetime` has. -/
def isoformat (date : ℤ) : String :=
  String.ofList (twoDigits ((civil date).year.toNat / 100) ++ twoDigits (civil date).year.toNat ++
    '-' :: twoDigits (civil date).month.toNat ++ '-' :: twoDigits (civil date).day.toNat)

@[simp] theorem length_isoformat (date : ℤ) : (isoformat date).length = 10 := by
  rw [isoformat, ← String.length_toList, String.toList_ofList]
  rfl

example : isoformat (-719162) = "0001-01-01" ∧ isoformat 11016 = "2000-02-29" ∧
    isoformat 2932896 = "9999-12-31" := by decide +kernel

example : tmYday 0 = 1 ∧ tmYday 11017 = 61 ∧ tmYday 11322 = 366 := by decide +kernel

end InverterControl.Python
