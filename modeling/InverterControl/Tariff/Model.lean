import InverterControl.Lib.Checks
import InverterControl.Lib.Json
import InverterControl.Python
import Mathlib.Data.List.DropRight
import Mathlib.Data.List.Sort

/-!
# The electricity tariff

`tariff.py`: a compact schedule or a dashboard export is normalized to one plan (`validateTariff`),
which is stored as JSON and read again.  The types carry what the checks establish, so that a `Plan`
is a normalized one; the members that the normalized dictionary has are its `toValue`.  Python's
numbers, character tables, time zones and hash are the `Platform`.
-/

namespace InverterControl.Tariff.Model

open InverterControl.Lib.Checks InverterControl.Lib.Json InverterControl.Python

/-- What the code takes from Python and its libraries. -/
structure Platform (F : Type) where
  floatText : FloatText F
  /-- `math.isfinite` of a float. -/
  isfinite : F → Bool
  /-- `ZoneInfo(key)` finds a zone. -/
  zoneInfo : String → Bool
  /-- The digit that a character of `\d` stands for. -/
  decimal : Char → Option (Fin 10)
  /-- `hashlib.sha256(text.encode()).hexdigest()` -/
  sha256 : List Char → String

variable {F : Type} (P : Platform F)

/-- The longest file and the longest command, in bytes. -/
def maxBytes : ℕ := 100000

/-- `data.get(key)` -/
def field (members : List (String × Value F)) (key : String) : Value F := (item members key).getD .null

/-- `_integer`: an integer of the range, no boolean. -/
def integerIn (low high : ℤ) : Value F → Option ℤ
  | .int n => if low ≤ n ∧ n ≤ high then some n else none
  | _ => none

/-! ### Texts -/

/-- `str.isspace` of a character. -/
def isSpace (c : Char) : Bool :=
  (9 ≤ c.toNat ∧ c.toNat ≤ 13) ∨ (28 ≤ c.toNat ∧ c.toNat ≤ 32) ∨ c.toNat = 0x85 ∨ c.toNat = 0xA0 ∨
    c.toNat = 0x1680 ∨ (0x2000 ≤ c.toNat ∧ c.toNat ≤ 0x200A) ∨ c.toNat = 0x2028 ∨ c.toNat = 0x2029 ∨
    c.toNat = 0x202F ∨ c.toNat = 0x205F ∨ c.toNat = 0x3000

/-- `str.strip` -/
def strip (s : String) : String := String.ofList ((s.toList.dropWhile isSpace).rdropWhile isSpace)

/-- A text that `_text` returns. -/
structure Text (limit : ℕ) where
  text : String
  stripped : strip text = text
  nonempty : text ≠ ""
  length_le : text.length ≤ limit
  deriving DecidableEq

theorem strip_length_le (s : String) : (strip s).length ≤ s.length := by
  have h1 := (List.rdropWhile_prefix isSpace (s.toList.dropWhile isSpace)).length_le
  have h2 := (List.dropWhile_suffix isSpace (l := s.toList)).length_le
  rw [strip, String.length_ofList, ← String.length_toList]
  omega

theorem strip_strip (s : String) : strip (strip s) = strip s := by
  have hhead : ((s.toList.dropWhile isSpace).rdropWhile isSpace).dropWhile isSpace =
      (s.toList.dropWhile isSpace).rdropWhile isSpace := by
    cases h : (s.toList.dropWhile isSpace).rdropWhile isSpace with
    | nil => rfl
    | cons c cs =>
      -- the first character is that of the text without its leading white space
      obtain ⟨rest, hrest⟩ := List.rdropWhile_prefix isSpace (s.toList.dropWhile isSpace)
      rw [h] at hrest
      have hne : s.toList.dropWhile isSpace ≠ [] := by
        rw [← hrest]
        exact List.cons_ne_nil _ _
      have hc := List.head_dropWhile_not isSpace hne
      simp only [← hrest, List.cons_append, List.head_cons] at hc
      exact List.dropWhile_cons_of_neg (by simpa using hc)
  rw [strip, strip, String.toList_ofList, hhead, List.rdropWhile_idempotent]

/-- `_text` -/
def text (value : Value F) (label : String) (limit : ℕ) : Except String (Text limit) :=
  match value with
  | .str s =>
    if h : strip s ≠ "" ∧ s.length ≤ limit then
      .ok ⟨strip s, strip_strip s, h.1, (strip_length_le s).trans h.2⟩
    else .error s!"{label} must be nonempty text, at most {limit} characters"
  | _ => .error s!"{label} must be nonempty text, at most {limit} characters"

/-! ### Prices -/

/-- A price that `_number` returns. -/
inductive Rate (P : Platform F)
  | int (n : ℤ) (h : |n| < floatOverflow)
  | float (q : F) (h : P.isfinite q = true)
  deriving DecidableEq

def Rate.toValue {P : Platform F} : Rate P → Value F
  | .int n _ => .int n
  | .float q _ => .float q

def priceError : String := "Every price must be a finite number in currency/kWh; blanks are not zero"

/-- `_number` -/
def number : Value F → Except String (Rate P)
  | .int n => if h : |n| < floatOverflow then .ok (.int n h) else .error priceError
  | .float q => if h : P.isfinite q = true then .ok (.float q h) else .error priceError
  | _ => .error priceError

/-- Seven prices, Monday through Sunday. -/
abbrev Row := { row : List (Rate P) // row.length = 7 }

/-- 48 half-hour rows. -/
abbrev Grid := { rows : List (Row P) // rows.length = 48 }

def rowError : String := "Each row requires seven prices, Monday through Sunday"

def gridError : String := "A weekly grid requires 48 half-hour rows"

/-- A row in `_grid`. -/
def row : Value F → Except String (Row P)
  | .arr rates =>
    if h : rates.length = 7 then each (number P) rates >>= fun bs => .ok ⟨bs.1, bs.2.trans h⟩
    else .error rowError
  | _ => .error rowError

/-- `_grid` -/
def grid : Value F → Except String (Grid P)
  | .arr rows =>
    if h : rows.length = 48 then each (row P) rows >>= fun bs => .ok ⟨bs.1, bs.2.trans h⟩
    else .error gridError
  | _ => .error gridError

variable {P}

def rowValue (r : Row P) : Value F := .arr (r.1.map Rate.toValue)

def gridValue (g : Grid P) : Value F := .arr (g.1.map rowValue)

variable (P)

/-! ### Periods -/

/-- The hour of two digits. -/
def hour (a b : Char) : Option ℕ :=
  if a = '0' then (P.decimal b).map fun d => d.val
  else if a = '1' then (P.decimal b).map fun d => 10 + d.val
  else if a = '2' ∧ (b = '0' ∨ b = '1' ∨ b = '2' ∨ b = '3') then some (20 + (b.toNat - '0'.toNat))
  else none

/-- The half hour of a time `HH:00` or `HH:30`. -/
def halfHour : List Char → Option ℕ
  | [a, b, ':', '0', '0'] => (hour P a b).map fun h => h * 2
  | [a, b, ':', '3', '0'] => (hour P a b).map fun h => h * 2 + 1
  | _ => none

def slotError : String := "Use half-hour times HH:00 or HH:30; 24:00 is only an end time"

/-- `_slot` -/
def slot (value : Value F) (isEnd : Bool) : Except String ℕ :=
  match value with
  | .str s =>
    if isEnd = true ∧ s = "24:00" then .ok 48
    else match halfHour P s.toList with
      | some n => .ok n
      | none => .error slotError
  | _ => .error slotError

def daysError : String := "Days must be distinct integers 1 (Monday) through 7 (Sunday)"

/-- The days of a period, all of them where there are none. -/
def days : Option (Value F) → Except String (List ℤ)
  | none => .ok [1, 2, 3, 4, 5, 6, 7]
  | some (.arr vs) =>
    match vs.mapM (integerIn 1 7) with
    | some ds => if ds ≠ [] ∧ ds.Nodup then .ok ds else .error daysError
    | none => .error daysError
  | some _ => .error daysError

structure Period where
  start : ℕ
  stop : ℕ
  days : List ℤ
  rate : Rate P
  deriving DecidableEq

/-- `_period_values` -/
def periodValues : Value F → Except String (Period P)
  | .obj ms => do
    let start ← slot P (field ms "start") false
    let stop ← slot P (field ms "end") true
    let _ ← check (start < stop)
      "Period end must follow start; split overnight periods at midnight"
    let days ← days (item ms "days")
    let rate ← number P (field ms "rate")
    .ok ⟨start, stop, days, rate⟩
  | _ => .error "Each period must be an object"

/-- The prices that are marked in the grid of the week, by half hour and day. -/
abbrev Cells := ℕ → ℤ → Option (Rate P)

variable {P}

def emptyCells : Cells P := fun _ _ => none

def markCell (cells : Cells P) (slot : ℕ) (day : ℤ) (rate : Rate P) : Cells P :=
  fun slot' day' => if slot' = slot ∧ day' = day then some rate else cells slot' day'

/-- The cells of a period, in the order in which they are marked. -/
def Period.cells (p : Period P) : List (ℕ × ℤ) :=
  (List.range' p.start (p.stop - p.start)).flatMap fun slot => p.days.map fun day => (slot, day)

/-- A cell is marked once. -/
def mark (rate : Rate P) : List (ℕ × ℤ) → Cells P → Except String (Cells P)
  | [], cells => .ok cells
  | (slot, day) :: rest, cells =>
    if (cells slot day).isSome = true then .error "Price periods overlap"
    else mark rate rest (markCell cells slot day rate)

variable (P)

def fill : List (Value F) → Cells P → Except String (Cells P)
  | [], cells => .ok cells
  | v :: vs, cells => do
    let p ← periodValues P v
    let cells ← mark p.rate p.cells cells
    fill vs cells

variable {P}

/-- `_grid` of the marked cells: a price that was accepted is accepted again. -/
def completed (cells : Cells P) : Except String (Grid P) :=
  each (fun slot => each (fun day => match cells slot day with
      | some rate => .ok rate
      | none => .error priceError) [1, 2, 3, 4, 5, 6, 7] >>= fun bs => .ok ⟨bs.1, bs.2⟩)
    (List.range 48) >>= fun bs => .ok ⟨bs.1, bs.2.trans List.length_range⟩

variable (P)

/-- `periods_grid` -/
def periodsGrid : Value F → Except String (Grid P)
  | .arr ps => do
    let _ ← check (ps ≠ [] ∧ ps.length ≤ 336) "Provide a nonempty periods list, at most 336 entries"
    let cells ← fill P ps emptyCells
    completed cells
  | _ => .error "Provide a nonempty periods list, at most 336 entries"

/-! ### Metadata -/

/-- `[A-Z]{3}` -/
def isCurrency (s : String) : Bool :=
  s.toList.length = 3 ∧ s.toList.all fun c => 'A'.toNat ≤ c.toNat ∧ c.toNat ≤ 'Z'.toNat

inductive Source
  | manual
  | emporia
  deriving DecidableEq, Repr

def Source.text : Source → String
  | .manual => "manual"
  | .emporia => "emporia"

/-- What `_metadata` returns. -/
structure Metadata where
  name : Text 120
  currency : { s : String // isCurrency s = true }
  timeZone : { t : Text 100 // P.zoneInfo t.text = true }
  source : Source
  billingDay : Option { n : ℤ // 1 ≤ n ∧ n ≤ 31 }
  reference : Option { s : String // s ≠ "" ∧ s.length ≤ 200 }
  deriving DecidableEq

def currency : Value F → Except String { s : String // isCurrency s = true }
  | .str s =>
    if h : isCurrency s = true then .ok ⟨s, h⟩
    else .error "Currency must be three uppercase letters, for example USD"
  | _ => .error "Currency must be three uppercase letters, for example USD"

def timeZone (value : Value F) : Except String { t : Text 100 // P.zoneInfo t.text = true } :=
  text value "Time zone" 100 >>= fun t =>
    if h : P.zoneInfo t.text = true then .ok ⟨t, h⟩ else .error "Unknown IANA time zone"

def source : Value F → Except String Source
  | .str s =>
    if s = "manual" then .ok .manual else if s = "emporia" then .ok .emporia
    else .error "Invalid tariff source"
  | _ => .error "Invalid tariff source"

def billingDay : Option (Value F) → Except String (Option { n : ℤ // 1 ≤ n ∧ n ≤ 31 })
  | none => .ok none
  | some (.int n) =>
    if h : 1 ≤ n ∧ n ≤ 31 then .ok (some ⟨n, h⟩)
    else .error "Billing start day must be an integer 1–31, or omitted"
  | some _ => .error "Billing start day must be an integer 1–31, or omitted"

/-- An empty reference is dropped. -/
def reference : Option (Value F) → Except String (Option { s : String // s ≠ "" ∧ s.length ≤ 200 })
  | none => .ok none
  | some (.str s) =>
    if hlen : s.length ≤ 200 then
      if h : s = "" then .ok none else .ok (some ⟨s, h, hlen⟩)
    else .error "Invalid tariff reference"
  | some _ => .error "Invalid tariff reference"

/-- `_metadata` -/
def metadata (ms : List (String × Value F)) (compact : Bool) : Except String (Metadata P) := do
  let currency ← currency (field ms "currency")
  let timeZone ← timeZone P (field ms "timeZone")
  let source ← source ((item ms "source").getD (if compact then .str "manual" else .null))
  let name ← text (field ms "name") "Name" 120
  let billingDay ← billingDay (item ms "billingDay")
  let reference ← reference (item ms "reference")
  .ok ⟨name, currency, timeZone, source, billingDay, reference⟩

/-! ### Seasons -/

/-- The months of a season, sorted. -/
structure Months where
  months : List ℤ
  nonempty : months ≠ []
  range : ∀ m ∈ months, 1 ≤ m ∧ m ≤ 12
  sorted : months.Pairwise (· < ·)
  deriving DecidableEq

structure Season where
  name : Text 80
  months : Months
  rates : Grid P
  deriving DecidableEq

def monthsError : String := "Season months must be distinct integers 1–12 with no overlap"

/-- The loop over the months of a season, with those that are used before. -/
def takeMonths : List ℤ → List (Value F) → Except String (List ℤ)
  | _, [] => .ok []
  | used, v :: vs =>
    match integerIn 1 12 v with
    | some m =>
      if m ∈ used then .error monthsError
      else takeMonths (m :: used) vs >>= fun ms => .ok (m :: ms)
    | none => .error monthsError

/-- What the loop takes is new, and a month. -/
structure Taken (used taken : List ℤ) : Prop where
  nodup : taken.Nodup
  fresh : ∀ m ∈ taken, m ∉ used
  range : ∀ m ∈ taken, 1 ≤ m ∧ m ≤ 12

theorem takeMonths_taken {vs : List (Value F)} : ∀ {used taken : List ℤ},
    takeMonths used vs = .ok taken → Taken used taken ∧ taken.length = vs.length := by
  induction vs with
  | nil =>
    intro used taken h
    obtain rfl := Except.ok.inj h
    exact ⟨⟨List.nodup_nil, by simp, by simp⟩, rfl⟩
  | cons v vs ih =>
    intro used taken h
    rw [takeMonths] at h
    split at h
    · next m hm =>
      split at h
      · exact nomatch h
      · next hused =>
        obtain ⟨ms, hms, h⟩ := bind_eq_ok.mp h
        obtain rfl := Except.ok.inj h
        obtain ⟨htaken, hlen⟩ := ih hms
        refine ⟨⟨?_, ?_, ?_⟩, congrArg Nat.succ hlen⟩
        · exact List.nodup_cons.mpr ⟨fun hmem => htaken.fresh m hmem List.mem_cons_self, htaken.nodup⟩
        · intro m' hm'
          rcases List.mem_cons.mp hm' with rfl | hm'
          · exact hused
          · exact fun hu => htaken.fresh m' hm' (List.mem_cons_of_mem m hu)
        · intro m' hm'
          rcases List.mem_cons.mp hm' with rfl | hm'
          · cases v with
            | int n =>
              simp only [integerIn] at hm
              split at hm
              · next hr => exact (Option.some.inj hm) ▸ hr
              · exact nomatch hm
            | _ => exact nomatch hm
          · exact htaken.range m' hm'
    · exact nomatch h

/-- `sorted(months)` -/
def sortedMonths {used taken : List ℤ} (h : Taken used taken) (hne : taken ≠ []) : Months where
  months := taken.insertionSort (· ≤ ·)
  nonempty := by
    intro hnil
    have hperm := List.perm_insertionSort (· ≤ ·) taken
    rw [hnil] at hperm
    exact hne hperm.symm.eq_nil
  range := fun m hm => h.range m ((List.perm_insertionSort (· ≤ ·) taken).mem_iff.mp hm)
  sorted := by
    have hsorted := List.pairwise_insertionSort (· ≤ ·) taken
    have hnodup := (List.perm_insertionSort (· ≤ ·) taken).nodup_iff.mpr h.nodup
    exact (hsorted.and hnodup).imp fun hab => lt_of_le_of_ne hab.1 hab.2

theorem sortedMonths_taken {used taken : List ℤ} (h : Taken used taken) (hne : taken ≠ []) :
    Taken used (sortedMonths h hne).months where
  nodup := (List.perm_insertionSort (· ≤ ·) taken).nodup_iff.mpr h.nodup
  fresh := fun m hm => h.fresh m ((List.perm_insertionSort (· ≤ ·) taken).mem_iff.mp hm)
  range := (sortedMonths h hne).range

theorem ne_nil_of_takeMonths {vs : List (Value F)} {used taken : List ℤ} (hne : vs ≠ [])
    (h : takeMonths used vs = .ok taken) : taken ≠ [] := by
  have hlen := (takeMonths_taken h).2
  rintro rfl
  exact hne (List.length_eq_zero_iff.mp hlen.symm)

/-- `convert`: periods in a compact schedule, a grid in an export. -/
def convert (compact : Bool) (value : Value F) : Except String (Grid P) :=
  if compact then periodsGrid P value else grid P value

def gridKey (compact : Bool) : String := if compact then "periods" else "rates"

/-- A season, whose months are not among the used ones. -/
def season (compact : Bool) (used : List ℤ) :
    Value F → Except String { s : Season P // Taken used s.months.months }
  | .obj ms =>
    match field ms "months" with
    | .arr vs =>
      if hne : vs ≠ [] then do
        let taken ← found (takeMonths used vs)
        let name ← text (field ms "name") "Season name" 80
        let rates ← convert P compact (field ms (gridKey compact))
        .ok ⟨⟨name, sortedMonths (takeMonths_taken taken.2).1 (ne_nil_of_takeMonths hne taken.2), rates⟩,
          sortedMonths_taken (takeMonths_taken taken.2).1 (ne_nil_of_takeMonths hne taken.2)⟩
      else .error "Each season needs calendar months"
    | _ => .error "Each season needs calendar months"
  | _ => .error "Each season must be an object"

variable {P}

/-- The months of all seasons. -/
def allMonths (seasons : List (Season P)) : List ℤ := seasons.flatMap fun s => s.months.months

theorem Taken.cons {used : List ℤ} {s : Season P} {seasons : List (Season P)}
    (hs : Taken used s.months.months) (h : Taken (s.months.months ++ used) (allMonths seasons)) :
    Taken used (allMonths (s :: seasons)) where
  nodup := by
    rw [allMonths, List.flatMap_cons, List.nodup_append]
    refine ⟨hs.nodup, h.nodup, fun a ha b hb hab => ?_⟩
    exact h.fresh b hb (List.mem_append_left _ (hab ▸ ha))
  fresh := by
    intro m hm
    rw [allMonths, List.flatMap_cons] at hm
    rcases List.mem_append.mp hm with hm | hm
    · exact hs.fresh m hm
    · exact fun hu => h.fresh m hm (List.mem_append_right _ hu)
  range := by
    intro m hm
    rw [allMonths, List.flatMap_cons] at hm
    rcases List.mem_append.mp hm with hm | hm
    · exact hs.range m hm
    · exact h.range m hm

variable (P)

def seasonList (compact : Bool) : (used : List ℤ) → (vs : List (Value F)) →
    Except String { l : List (Season P) // l.length = vs.length ∧ Taken used (allMonths l) }
  | _, [] => .ok ⟨[], rfl, List.nodup_nil, by simp [allMonths], by simp [allMonths]⟩
  | used, v :: vs =>
    season P compact used v >>= fun s =>
      seasonList compact (s.1.months.months ++ used) vs >>= fun rest =>
        .ok ⟨s.1 :: rest.1, congrArg Nat.succ rest.2.1, s.2.cons rest.2.2⟩

/-- At most twelve seasons, which share no month. -/
abbrev Seasons := { l : List (Season P) // l.length ≤ 12 ∧ (allMonths l).Nodup }

def seasonsError : String := "Provide a seasons array with at most 12 seasons"

/-- `_season_grids` -/
def seasonGrids (compact : Bool) : Value F → Except String (Seasons P)
  | .arr vs =>
    if h : vs.length ≤ 12 then
      seasonList P compact [] vs >>= fun l => .ok ⟨l.1, l.2.1.le.trans h, l.2.2.nodup⟩
    else .error seasonsError
  | _ => .error seasonsError

/-! ### The plan -/

/-- A normalized tariff. -/
structure Plan where
  metadata : Metadata P
  rates : Grid P
  seasons : Seasons P
  deriving DecidableEq

/-- `data.get("type") == "electricity-tariff-schedule"` -/
def isCompact (ms : List (String × Value F)) : Bool :=
  match field ms "type" with
  | .str s => s = "electricity-tariff-schedule"
  | _ => false

/-- The version, which is 1 in a compact schedule. -/
def version (ms : List (String × Value F)) : Except String ℤ :=
  match integerIn 1 2 (field ms "version") with
  | some v =>
    if isCompact ms = true ∧ v ≠ 1 then .error "Unsupported tariff version" else .ok v
  | none => .error "Unsupported tariff version"

/-- The seasons of the input; where they may be missing there are none. -/
def seasonsOf (ms : List (String × Value F)) (version : ℤ) : Value F :=
  if isCompact ms = true ∨ version = 1 then (item ms "seasons").getD (.arr []) else field ms "seasons"

/-- `validate_tariff` -/
def validateTariff : Value F → Except String (Plan P)
  | .obj ms => do
    let version ← version ms
    let _ ← check (¬ (isCompact ms = false ∧ version = 1 ∧
        ((item ms "seasons").isSome = true ∨ (item ms "billingDay").isSome = true)))
      "Seasonal dashboard exports require version 2"
    let metadata ← metadata P ms (isCompact ms)
    let rates ← convert P (isCompact ms) (field ms (gridKey (isCompact ms)))
    let seasons ← seasonGrids P (isCompact ms) (seasonsOf ms version)
    .ok ⟨metadata, rates, seasons⟩
  | _ => .error "Expected a tariff object"

/-- `None if data is None else validate_tariff(data)` -/
def planOf : Value F → Except String (Option (Plan P))
  | .null => .ok none
  | data => validateTariff P data >>= fun p => .ok (some p)

variable {P}

/-! ### The text -/

def seasonMembers (s : Season P) : List (String × Value F) :=
  [("name", .str s.name.text), ("months", .arr (s.months.months.map .int)),
    ("rates", gridValue s.rates)]

/-- The dictionary that `validate_tariff` returns. -/
def Plan.members (p : Plan P) : List (String × Value F) :=
  [("version", .int 2), ("name", .str p.metadata.name.text), ("currency", .str p.metadata.currency.1),
    ("timeZone", .str p.metadata.timeZone.1.text), ("source", .str p.metadata.source.text)] ++
    ((p.metadata.billingDay.map fun n => ("billingDay", .int n.1)).toList ++
    ((p.metadata.reference.map fun s => ("reference", .str s.1)).toList ++
    [("rates", gridValue p.rates), ("seasons", .arr (p.seasons.1.map fun s => .obj (seasonMembers s)))]))

/-- The value of a plan, or of none. -/
def planValue (p : Option (Plan P)) : Value F :=
  match p with
  | some p => .obj p.members
  | none => .null

def seasonSorted (s : Season P) : List (String × Value F) :=
  [("months", .arr (s.months.months.map .int)), ("name", .str s.name.text),
    ("rates", gridValue s.rates)]

/-- The dictionary with its keys in order, as `json.dumps` writes it with `sort_keys`. -/
def Plan.sorted (p : Plan P) : List (String × Value F) :=
  (p.metadata.billingDay.map fun n => ("billingDay", .int n.1)).toList ++
    ([("currency", .str p.metadata.currency.1), ("name", .str p.metadata.name.text),
      ("rates", gridValue p.rates)] ++
    ((p.metadata.reference.map fun s => ("reference", .str s.1)).toList ++
    [("seasons", .arr (p.seasons.1.map fun s => .obj (seasonSorted s))),
      ("source", .str p.metadata.source.text), ("timeZone", .str p.metadata.timeZone.1.text),
      ("version", .int 2)]))

def sortedValue (p : Option (Plan P)) : Value F :=
  match p with
  | some p => .obj p.sorted
  | none => .null

/-- The text that `revision` hashes. -/
def canonical (p : Option (Plan P)) : List Char := dump (compact true) P.floatText (sortedValue p) 0

/-- `revision` -/
def revision (p : Option (Plan P)) : String := P.sha256 (canonical p)

/-- The text that `_serialized_tariff` makes of a plan. -/
def content (p : Option (Plan P)) : List Char :=
  dump (indented 2) P.floatText (planValue p) 0 ++ ['\n']

/-- `_serialized_tariff` of a value (every character of the text is one byte). -/
def serializedTariff (data : Value F) : Except String (List Char) :=
  planOf P data >>= fun p =>
    check ((content p).length ≤ maxBytes) "Normalized tariff exceeds 100 KB" >>= fun _ =>
      .ok (content p)

variable (P)

/-- `write_tariff` of a value: the new content of the file; a failure of the file system comes before the
file is replaced. -/
def writeTariff (data : Value F) (failure : Option String) : Except String (List Char) :=
  serializedTariff (P := P) data >>= fun content =>
    match failure with
    | some e => .error e
    | none => .ok content

/-- `read_tariff` of a file with that content, in which every character is one byte (`none`: it
raises). -/
def readTariff (content : List Char) : Option (Option (Plan P)) :=
  if maxBytes < content.length then none
  else match loads P.floatText content with
    | none => none
    | some data => match planOf P data with
      | .ok p => some p
      | .error _ => none

end InverterControl.Tariff.Model
