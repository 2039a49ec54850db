import InverterControl.Energy.Complete
import InverterControl.Lib.Json

/-!
# The saved ledger

What `_save` writes of a state that the ledger reaches, `_load` accepts and gives back
(`loadState_saveText`): the state is one that `_validate_state` passes (`Sound`), and its text is
short.  While a state is not dirty it is the one on the file (`Synced`), whatever saves fail and
whenever they run.
-/

namespace InverterControl.Energy.Saved

open InverterControl.Lib.Runs InverterControl.Lib.Json InverterControl.Python
  InverterControl.Energy.Model
  InverterControl.Energy.Steps InverterControl.Energy.Complete

/-! ### The text of a state -/

/-- The counters of a reading. -/
def countersMembers (c : Counters) : List (String × Value ℚ) :=
  [("import_kwh", .float c.importKwh), ("export_kwh", .float c.exportKwh)]

def serialValue : Option String → Value ℚ
  | some serial => .str serial
  | none => .null

/-- The source, as `parse_meter_source` builds it. -/
def sourceMembers (source : Source) : List (String × Value ℚ) :=
  [("service", .str source.service), ("device_instance", .int source.deviceInstance),
    ("serial", serialValue source.serial)]

/-- `_state`, as `_observe_locked` builds it. -/
def stateMembers (s : State) : List (String × Value ℚ) :=
  [("schema", .int 1), ("generation", .int s.generation), ("source", .obj (sourceMembers s.source)),
    ("date", .str (isoformat s.date)), ("time_zone", .str s.timeZone),
    ("started_at", .float s.startedAt), ("baseline", .obj (countersMembers s.baseline)),
    ("latest", .obj (countersMembers s.latest ++ [("observed_at", .float s.observedAt)])),
    ("complete", .bool s.complete), ("reason", .str s.reason)]

/-- The longest integer that has a text has this many digits. -/
def maxStrDigits : ℕ := 4300

/-- `json.dump(state, …, separators=(",", ":"))`; an integer that is too long has no text. -/
def saveText (ft : FloatText ℚ) (s : State) : Option (List Char) :=
  if s.generation < 10 ^ maxStrDigits then some (dump (compact true) ft (.obj (stateMembers s)) 0)
  else none

/-! ### The state of a text -/

def intAt (ms : List (String × Value ℚ)) (key : String) : Option ℤ :=
  match item ms key with
  | some (.int n) => some n
  | _ => none

def textAt (ms : List (String × Value ℚ)) (key : String) : Option String :=
  match item ms key with
  | some (.str s) => some s
  | _ => none

def boolAt (ms : List (String × Value ℚ)) (key : String) : Option Bool :=
  match item ms key with
  | some (.bool b) => some b
  | _ => none

def objAt (ms : List (String × Value ℚ)) (key : String) : Option (List (String × Value ℚ)) :=
  match item ms key with
  | some (.obj ms) => some ms
  | _ => none

/-- A finite number, which is no boolean. -/
def numberAt (ms : List (String × Value ℚ)) (key : String) : Option ℚ :=
  match item ms key with
  | some (.int n) => Python.number (.int n)
  | some (.float q) => some q
  | _ => none

/-- `serial` of a source, which may be null. -/
def serialAt (ms : List (String × Value ℚ)) (key : String) : Option (Option String) :=
  match item ms key with
  | some .null => some none
  | some (.str s) => some (some s)
  | _ => none

/-- The keys of a source. -/
def sourceKeys : List String := ["service", "device_instance", "serial"]

/-- A source that may equal one of `parse_meter_source`. -/
def decodeSource (ms : List (String × Value ℚ)) : Option Source := do
  let service ← textAt ms "service"
  let deviceInstance ← intAt ms "device_instance"
  let serial ← serialAt ms "serial"
  if ms.all fun m => m.1 ∈ sourceKeys then some ⟨service, deviceInstance, serial⟩ else none

def decodeCounters (ms : List (String × Value ℚ)) : Option Counters := do
  let importKwh ← numberAt ms "import_kwh"
  let exportKwh ← numberAt ms "export_kwh"
  some ⟨importKwh, exportKwh⟩

/-- The state of an object, where its fields have their types and the date is the one of its reading. -/
def decodeState (zone : Zone) (ms : List (String × Value ℚ)) : Option State := do
  let schema ← intAt ms "schema"
  let generation ← intAt ms "generation"
  let source ← objAt ms "source"
  let source ← decodeSource source
  let complete ← boolAt ms "complete"
  let reason ← textAt ms "reason"
  let startedAt ← numberAt ms "started_at"
  let latest ← objAt ms "latest"
  let observedAt ← numberAt latest "observed_at"
  let baseline ← objAt ms "baseline"
  let baseline ← decodeCounters baseline
  let latest ← decodeCounters latest
  let timeZone ← textAt ms "time_zone"
  let day ← calendar zone (some timeZone) observedAt
  let date ← textAt ms "date"
  if schema = 1 ∧ isoformat day.date = date then
    some ⟨generation.toNat, source, day.date, timeZone, startedAt, baseline, latest, observedAt,
      complete, reason⟩
  else none

/-- The longest text that is loaded. -/
def maxStateBytes : ℕ := 16384

/-- `_load` of a text, in which every character is one byte. -/
def loadState (zone : Zone) (ft : FloatText ℚ) (raw : List Char) : Option State :=
  if maxStateBytes < raw.length then none
  else match loads ft raw with
    | some (.obj ms) => (decodeState zone ms).filter (validateState zone ·)
    | _ => none

variable {zone : Zone} {ft : FloatText ℚ} {l : GridEnergyLedger} {o : Observation} {e : Event}
  {s : State} {es : List Event}

/-! ### The state is valid -/

/-- What `_validate_state` asks of a state; its latest reading is an observation of the run. -/
structure Sound (zone : Zone) (es : List Event) (s : State) : Prop where
  generation : 1 ≤ s.generation
  source : IsSource s.source
  importKwh : 0 ≤ s.baseline.importKwh
  exportKwh : 0 ≤ s.baseline.exportKwh
  latest : ¬ s.latest.less s.baseline
  startedAt : 0 ≤ s.startedAt
  ordered : s.startedAt ≤ s.observedAt
  day : ∃ o, Seen zone es o ∧ (o.timeZone = s.timeZone ∧ o.time = s.observedAt) ∧ o.day.date = s.date ∧
    o.day.boundary ≤ s.startedAt ∧ (s.complete = true → s.startedAt = o.day.boundary)

theorem Sound.calendar (h : Sound zone es s) :
    ∃ day, calendar zone (some s.timeZone) s.observedAt = some day ∧
    day.date = s.date ∧ day.boundary ≤ s.startedAt ∧
    (s.complete = true → s.startedAt = day.boundary) := by
  obtain ⟨o, ho, ⟨hzone, htime⟩, hday⟩ := h.day
  refine ⟨o.day, ?_, hday⟩
  rw [← hzone, ← htime]
  exact ho.genuine.day

theorem Sound.valid (h : Sound zone es s) : validateState zone s := by
  obtain ⟨day, hday, hdate, hle, hcomplete⟩ := h.calendar
  have himport := h.importKwh
  have hexport := h.exportKwh
  have hlatest := h.latest
  simp only [Counters.less, not_or, not_lt] at hlatest
  exact ⟨h.generation, parseMeterSource_of_isSource h.source, h.startedAt, h.startedAt.trans h.ordered,
    ⟨himport, himport.trans hlatest.1⟩, ⟨hexport, hexport.trans hlatest.2⟩,
    ⟨day, hday, hdate, ⟨hle, h.ordered⟩, hcomplete⟩, h.latest⟩

theorem not_less_self (c : Counters) : ¬ c.less c := by
  rintro (h | h)
  · exact lt_irrefl _ h
  · exact lt_irrefl _ h

theorem not_less_trans {c d b : Counters} (hcd : ¬ c.less d) (hdb : ¬ d.less b) : ¬ c.less b := by
  simp only [Counters.less, not_or, not_lt] at *
  exact ⟨hdb.1.trans hcd.1, hdb.2.trans hcd.2⟩

/-- A midnight that is proved follows an instant since the epoch. -/
theorem boundary_nonneg (hz : Calendar (Seen zone es)) (hl : Copies (Sound zone es) l)
    (ho : Seen zone es o) (h : midnightProved l o = true) : 0 ≤ o.day.boundary := by
  unfold midnightProved at h
  split at h
  · next previous mono hprevious hmono =>
    simp only [Bool.and_eq_true, Option.isNone_iff_eq_none, decide_eq_true_eq] at h
    obtain ⟨⟨hreason, -⟩, hdate, -⟩ := h
    obtain ⟨o', ho', ⟨hzone, -⟩, hsame, -⟩ := (hl.state previous hprevious).day
    have hsameZone : o'.timeZone = o.timeZone :=
      hzone.trans (unchanged_of_reason hprevious hreason).timeZone.symm
    exact hz.epoch ho' ho hsameZone (by rw [hsame, hdate]; omega)
  · cases h

theorem sound_seed (hz : Calendar (Seen zone es)) (hl : Copies (Sound zone es) l) (ho : Seen zone es o) :
    Sound zone es (seed l o) := by
  have hgenuine := ho.genuine
  have hstart := hz.start ho
  refine ⟨?_, hgenuine.source, hgenuine.importKwh, hgenuine.exportKwh, not_less_self _, ?_, ?_,
    o, ho, ⟨rfl, rfl⟩, rfl, ?_, ?_⟩
  · simp only [seed]
    cases l.state with
    | none => exact le_rfl
    | some previous => exact Nat.le_add_left 1 _
  all_goals simp only [seed]
  · split
    · next h => exact boundary_nonneg hz hl ho h
    · exact hgenuine.time
  · split
    · exact hstart
    · exact le_rfl
  · split
    · exact le_rfl
    · exact hstart
  · exact fun h => if_pos h

/-- The midnight of the day is the one of the reading before. -/
theorem sound_continued (hz : Calendar (Seen zone es)) (hs : Sound zone es s) (ho : Seen zone es o)
    (h : Unchanged l s o) (hdate : s.date = o.day.date) : Sound zone es (continued s o) := by
  obtain ⟨o', ho', ⟨hzone, -⟩, hsame, hle, hcomplete⟩ := hs.day
  have hboundary : o'.day.boundary = o.day.boundary :=
    hz.same ho' ho (hzone.trans h.timeZone.symm) (hsame.trans hdate)
  have htime : s.observedAt ≤ o.time := by
    have := h.clock
    simp only [clockChanged, not_or, not_lt] at this
    exact sub_nonneg.mp this.1
  rw [hboundary] at hle hcomplete
  exact ⟨hs.generation, hs.source, hs.importKwh, hs.exportKwh, not_less_trans h.counters hs.latest,
    hs.startedAt, hs.ordered.trans htime, o, ho, ⟨h.timeZone, rfl⟩, hdate.symm, hle, hcomplete⟩

/-- **Every state that is reached is valid**, and so are the copies of it. -/
theorem sound_next (hz : Calendar (Seen zone es)) (he : e ∈ es) (hl : Copies (Sound zone es) l) :
    Copies (Sound zone es) (next zone l e) := by
  refine copies_next hl fun o ho => ?_
  have hseen : Seen zone es o := ⟨e, he, ho⟩
  rcases observedState_cases l o with h | ⟨s, hs, h, hsame, hdate⟩
  · rw [h]
    exact sound_seed hz hl hseen
  · rw [h]
    exact sound_continued hz (hl.state s hs) hseen hsame hdate

theorem run_sound (es : List Event) (hz : Calendar (Seen zone es)) :
    Copies (Sound zone es) (exec (next zone) init es) := by
  refine exec_invariant (P := Copies (Sound zone es)) (copies_init _) fun x hx h => ?_
  obtain ⟨a, b, heq, -⟩ := (mem_trace (next zone)).mp hx
  exact sound_next hz (by rw [heq]; simp) h

/-! ### The texts and numbers of a state -/

/-- `repr` of a float: it is read back as the same float, and has at most 24 characters. -/
structure Shown (ft : FloatText ℚ) (q : ℚ) : Prop where
  exact_ : ft.Exact q
  short : (ft.text q).length ≤ 24

/-- The texts of a state that come from outside are not long, and its numbers are floats. -/
structure Written (ft : FloatText ℚ) (s : State) : Prop where
  timeZone : s.timeZone.length ≤ 255
  reason : s.reason.length ≤ 255
  startedAt : Shown ft s.startedAt
  baseline : Shown ft s.baseline.importKwh ∧ Shown ft s.baseline.exportKwh
  latest : Shown ft s.latest.importKwh ∧ Shown ft s.latest.exportKwh
  observedAt : Shown ft s.observedAt

/-- An accepted observation with floats and a time zone whose name is not long. -/
structure Measured (ft : FloatText ℚ) (o : Observation) : Prop where
  timeZone : o.timeZone.length ≤ 255
  boundary : Shown ft o.day.boundary
  importKwh : Shown ft o.counters.importKwh
  exportKwh : Shown ft o.counters.exportKwh
  time : Shown ft o.time

/-- A call whose floats are floats, with names and reset reasons that are not long. -/
structure Bounded (zone : Zone) (ft : FloatText ℚ) (e : Event) : Prop where
  observation : ∀ o, accepted zone e = some o → Measured ft o
  reason : ∀ reason, e = .invalidate reason true → reason.length ≤ 255

/-- The reason that waits for the next observation was given by a reset. -/
theorem next_resetPending {reason : String} (h : (next zone l e).resetPending = some reason) :
    l.resetPending = some reason ∨ e = .invalidate reason true := by
  cases e with
  | observe service fields timeZone time mono =>
    cases ho : accepted zone (.observe service fields timeZone time mono) with
    | some o =>
      rw [next_accepted ho] at h
      cases h
    | none =>
      obtain ⟨reason', -, hr⟩ := next_refused (l := l) ho
      rw [hr] at h
      exact Or.inl h
  | invalidate reason' reset =>
    cases reset with
    | false => exact Or.inl h
    | true =>
      obtain rfl := Option.some.inj h
      exact Or.inr rfl
  | beginSave now =>
    simp only [next] at h
    rcases beginSave_cases l now with hb | ⟨s, -, -, -, -, hb⟩
    · exact Or.inl (by rwa [hb] at h)
    · exact Or.inl (by rwa [hb] at h)
  | replaceFile =>
    simp only [next] at h
    rcases replaceFile_cases l with ⟨-, hb⟩ | ⟨save, -, hb⟩
    · exact Or.inl (by rwa [hb] at h)
    · exact Or.inl (by rwa [hb] at h)
  | failSave =>
    simp only [next] at h
    rcases failSave_cases l with hb | hb
    · exact Or.inl (by rwa [hb] at h)
    · exact Or.inl (by rwa [hb] at h)
  | finishSave =>
    simp only [next] at h
    rcases finishSave_cases l with hb | ⟨save, -, -, hb⟩
    · exact Or.inl (by rwa [hb] at h)
    · exact Or.inl (by rwa [hb] at h)
  | restart readable => cases h

/-- The states are written, and so is the reason that waits. -/
structure Texts (ft : FloatText ℚ) (l : GridEnergyLedger) : Prop where
  copies : Copies (Written ft) l
  pending : ∀ reason, l.resetPending = some reason → reason.length ≤ 255

theorem length_reseedReason (h : ∀ reason, l.resetPending = some reason → reason.length ≤ 255)
    {reason : String} (hr : reseedReason l o = some reason) : reason.length ≤ 255 := by
  unfold reseedReason at hr
  obtain ⟨s, -, hr⟩ := Option.bind_eq_some_iff.mp hr
  unfold changeReason at hr
  split at hr
  · exact h reason (Option.filter_eq_some_iff.mp hr).1
  split at hr
  · cases hr; decide
  split at hr
  · cases hr; decide
  split at hr
  · cases hr; decide
  split at hr
  · cases hr; decide
  · cases hr

theorem written_seed (ho : Measured ft o)
    (h : ∀ reason, l.resetPending = some reason → reason.length ≤ 255) : Written ft (seed l o) := by
  refine ⟨ho.timeZone, ?_, ?_, ⟨ho.importKwh, ho.exportKwh⟩, ⟨ho.importKwh, ho.exportKwh⟩, ho.time⟩
  all_goals simp only [seed]
  · split
    · decide
    · cases hr : reseedReason l o with
      | none => decide
      | some reason => exact length_reseedReason h hr
  · split
    · exact ho.boundary
    · exact ho.time

theorem texts_next (he : Bounded zone ft e) (h : Texts ft l) : Texts ft (next zone l e) := by
  refine ⟨copies_next h.copies fun o ho => ?_, fun reason hreason => ?_⟩
  · have hmeasured := he.observation o ho
    rcases observedState_cases l o with hs | ⟨s, hs, hs', -, -⟩
    · rw [hs]
      exact written_seed hmeasured h.pending
    · have hw := h.copies.state s hs
      rw [hs']
      exact ⟨hw.timeZone, hw.reason, hw.startedAt, hw.baseline,
        ⟨hmeasured.importKwh, hmeasured.exportKwh⟩, hmeasured.time⟩
  · rcases next_resetPending hreason with hold | hnew
    · exact h.pending reason hold
    · exact he.reason reason hnew

theorem run_texts {es : List Event} (he : ∀ e ∈ es, Bounded zone ft e) :
    Texts ft (exec (next zone) init es) := by
  refine exec_invariant (P := Texts ft) ⟨copies_init _, nofun⟩ fun x hx h => ?_
  obtain ⟨a, b, hes, -⟩ := (mem_trace _).mp hx
  exact texts_next (he x.input (by rw [hes]; simp)) h

/-! ### Round trip of a state -/

theorem decodeSource_members (source : Source) : decodeSource (sourceMembers source) = some source := by
  obtain ⟨service, inst, serial⟩ := source
  cases serial <;> simp [decodeSource, sourceMembers, serialValue, textAt, intAt, serialAt, item,
    sourceKeys]

theorem decodeCounters_members (c : Counters) (rest : List (String × Value ℚ))
    (hrest : ∀ m ∈ rest, m.1 ≠ "import_kwh" ∧ m.1 ≠ "export_kwh") :
    decodeCounters (countersMembers c ++ rest) = some c := by
  have hget : ∀ key, key = "import_kwh" ∨ key = "export_kwh" →
      item (countersMembers c ++ rest) key = item (countersMembers c) key := by
    intro key hkey
    have hnone : rest.reverse.find? (fun m => m.1 = key) = none := by
      rw [List.find?_eq_none]
      intro m hm
      have := hrest m (List.mem_reverse.mp hm)
      rcases hkey with rfl | rfl
      · simpa using this.1
      · simpa using this.2
    rw [item, List.reverse_append, List.find?_append, hnone, Option.none_or, item]
  simp only [decodeCounters, numberAt, hget "import_kwh" (Or.inl rfl), hget "export_kwh" (Or.inr rfl)]
  simp [countersMembers, item]

theorem decodeState_members {day : Day} (h : calendar zone (some s.timeZone) s.observedAt = some day)
    (hdate : day.date = s.date) : decodeState zone (stateMembers s) = some s := by
  have hint : intAt (stateMembers s) "schema" = some 1 ∧
      intAt (stateMembers s) "generation" = some (s.generation : ℤ) := by
    simp [intAt, stateMembers, item]
  have htext : textAt (stateMembers s) "date" = some (isoformat s.date) ∧
      textAt (stateMembers s) "time_zone" = some s.timeZone ∧
      textAt (stateMembers s) "reason" = some s.reason := by
    simp [textAt, stateMembers, item]
  have hobj : objAt (stateMembers s) "source" = some (sourceMembers s.source) ∧
      objAt (stateMembers s) "baseline" = some (countersMembers s.baseline) ∧
      objAt (stateMembers s) "latest" =
        some (countersMembers s.latest ++ [("observed_at", .float s.observedAt)]) := by
    simp [objAt, stateMembers, item]
  have hother : boolAt (stateMembers s) "complete" = some s.complete ∧
      numberAt (stateMembers s) "started_at" = some s.startedAt := by
    simp [boolAt, numberAt, stateMembers, item]
  have hobserved : numberAt (countersMembers s.latest ++ [("observed_at", .float s.observedAt)])
      "observed_at" = some s.observedAt := by simp [numberAt, countersMembers, item]
  have hlatest := decodeCounters_members s.latest [("observed_at", .float s.observedAt)] (by simp)
  have hbaseline := decodeCounters_members s.baseline [] (by simp)
  rw [List.append_nil] at hbaseline
  simp [decodeState, hint, htext, hobj, hother, hobserved, hlatest, hbaseline, decodeSource_members, h,
    hdate]

theorem exact_of_written (h : Written ft s) : ∀ q ∈ floats (.obj (stateMembers s)), ft.Exact q := by
  intro q hq
  have hserial : floats (serialValue s.source.serial) = [] := by
    cases s.source.serial <;> rfl
  simp only [stateMembers, sourceMembers, countersMembers, floats, floatsMembers, hserial,
    List.cons_append, List.nil_append, List.append_nil, List.mem_cons, List.not_mem_nil, or_false] at hq
  rcases hq with rfl | rfl | rfl | rfl | rfl | rfl
  · exact h.startedAt.exact_
  · exact h.baseline.1.exact_
  · exact h.baseline.2.exact_
  · exact h.latest.1.exact_
  · exact h.latest.2.exact_
  · exact h.observedAt.exact_

/-! ### Size -/

/-- The names of the members. -/
def stateKeys : List String :=
  ["schema", "generation", "source", "date", "time_zone", "started_at", "baseline", "latest", "complete",
    "reason", "service", "device_instance", "serial", "import_kwh", "export_kwh", "observed_at"]

/-- A name is written as it is. -/
theorem length_quote_key : ∀ key ∈ stateKeys, (quote (compact true) key).length ≤ 17 := by
  decide +kernel

theorem length_obj_le (ft : FloatText ℚ) (ms : List (String × Value ℚ)) (hms : ms ≠ [])
    (hkeys : ∀ m ∈ ms, m.1 ∈ stateKeys) (d : ℕ) : (dump (compact true) ft (.obj ms) d).length ≤
      1 + (ms.map fun m => (dump (compact true) ft m.2 (d + 1)).length + 19).sum := by
  rw [length_dump_obj ft true hms]
  refine Nat.add_le_add_left (List.sum_le_sum fun m hm => ?_) 1
  have := length_quote_key m.1 (hkeys m hm)
  omega

theorem length_nat_le {n k : ℕ} (hk : 0 < k) (h : n < 10 ^ k) : (intText n).length ≤ k :=
  (Nat.length_toDigits_le_iff (by decide) hk).mpr h

theorem length_str_le (ft : FloatText ℚ) (d : ℕ) {t : String} {n : ℕ} (h : t.length ≤ n) :
    (dump (compact true) ft (.str t) d).length ≤ 12 * n + 2 := by
  have := length_quote_le (compact true) t
  rw [dump]
  omega

theorem length_source_le (ft : FloatText ℚ) {source : Source} (h : IsSource source) (d : ℕ) :
    (dump (compact true) ft (.obj (sourceMembers source)) d).length ≤ 4668 := by
  obtain ⟨service, inst, serial⟩ := source
  obtain ⟨hservice, ⟨hpos, hmax⟩, hserial⟩ := h
  have hname := length_str_le ft (d + 1) hservice.2.2
  have hinst : (dump (compact true) ft (.int inst : Value ℚ) (d + 1)).length ≤ 10 := by
    obtain ⟨n, rfl⟩ := Int.eq_ofNat_of_zero_le hpos
    rw [dump]
    refine length_nat_le (by decide) ?_
    simp only at hmax
    omega
  have htext : (dump (compact true) ft (serialValue serial) (d + 1)).length ≤ 1538 := by
    cases serial with
    | none => exact (by decide : ['n', 'u', 'l', 'l'].length ≤ 1538)
    | some t => exact length_str_le ft (d + 1) (hserial t rfl).2
  refine (length_obj_le ft (sourceMembers _) (by simp [sourceMembers])
    (by simp [sourceMembers, stateKeys]) d).trans ?_
  simp only [sourceMembers, List.map_cons, List.map_nil, List.sum_cons, List.sum_nil]
  simp only at hname
  omega

theorem length_counters_le (ft : FloatText ℚ) {c : Counters} (rest : List (String × Value ℚ))
    (h : Shown ft c.importKwh ∧ Shown ft c.exportKwh) (hrest : ∀ m ∈ rest, m.1 ∈ stateKeys) (d : ℕ) :
    (dump (compact true) ft (.obj (countersMembers c ++ rest)) d).length ≤
      87 + (rest.map fun m => (dump (compact true) ft m.2 (d + 1)).length + 19).sum := by
  have himport := h.1.short
  have hexport := h.2.short
  refine (length_obj_le ft (countersMembers c ++ rest) (by simp [countersMembers]) ?_ d).trans ?_
  · intro m hm
    rcases List.mem_append.mp hm with hm | hm
    · simp only [countersMembers, List.mem_cons, List.not_mem_nil, or_false] at hm
      rcases hm with rfl | rfl <;> simp [stateKeys]
    · exact hrest m hm
  · simp only [countersMembers, List.cons_append, List.nil_append, List.map_cons, List.sum_cons, dump]
    omega

/-- **The text is short**, whatever the meter and the generation. -/
theorem length_saveText_le (hsource : IsSource s.source) (h : Written ft s) {text : List Char}
    (htext : saveText ft s = some text) : text.length ≤ maxStateBytes := by
  unfold saveText at htext
  split_ifs at htext with hgeneration
  obtain rfl := Option.some.inj htext
  have hgen : (dump (compact true) ft (.int s.generation : Value ℚ) 1).length ≤ maxStrDigits := by
    rw [dump]
    exact length_nat_le (by decide) hgeneration
  have hschema : (dump (compact true) ft (.int 1 : Value ℚ) 1).length ≤ 1 := by rw [dump]; decide
  have hcomplete : (dump (compact true) ft (.bool s.complete : Value ℚ) 1).length ≤ 5 := by
    cases s.complete <;> rw [dump] <;> decide
  have hstarted : (dump (compact true) ft (.float s.startedAt) 1).length ≤ 24 := by
    rw [dump]
    exact h.startedAt.short
  have hobserved : (dump (compact true) ft (.float s.observedAt) (1 + 1)).length ≤ 24 := by
    rw [dump]
    exact h.observedAt.short
  have hmeter := length_source_le ft hsource 1
  have hdate := length_str_le ft 1 (length_isoformat s.date).le
  have hzone := length_str_le ft 1 h.timeZone
  have hreason := length_str_le ft 1 h.reason
  have hbaseline := length_counters_le ft [] h.baseline (by simp) 1
  have hlatest := length_counters_le ft [("observed_at", .float s.observedAt)] h.latest
    (by simp [stateKeys]) 1
  simp only [List.append_nil, List.map_cons, List.map_nil, List.sum_cons, List.sum_nil]
    at hbaseline hlatest
  refine (length_obj_le ft (stateMembers s) (by simp [stateMembers])
    (by simp [stateMembers, stateKeys]) 0).trans ?_
  simp only [stateMembers, List.map_cons, List.map_nil, List.sum_cons, List.sum_nil, Nat.zero_add]
  simp only [maxStrDigits] at hgen
  simp only [maxStateBytes]
  omega

/-- **Round trip of the file.** -/
theorem loadState_saveText (hs : Sound zone es s) (h : Written ft s) {text : List Char}
    (htext : saveText ft s = some text) : loadState zone ft text = some s := by
  have hlength := length_saveText_le hs.source h htext
  unfold saveText at htext
  split_ifs at htext
  obtain rfl := Option.some.inj htext
  obtain ⟨day, hday, hdate, -⟩ := hs.calendar
  have hloads := loads_dump (compact true) ft (exact_of_written h) 0 [] (by simp)
  rw [List.append_nil] at hloads
  rw [loadState, if_neg (Nat.not_lt.mpr hlength), hloads]
  simp only [decodeState_members hday hdate]
  exact if_pos (decide_eq_true hs.valid)

/-! ### The file and the state -/

/-- A state that is not dirty is the one on the file, and so is the copy of a save that has replaced
it. -/
structure Synced (l : GridEnergyLedger) : Prop where
  clean : ∀ s, l.state = some s → l.dirty = false → l.disk = some s
  dirty : ∀ save, l.saving = some save → l.dirty = true
  revision : ∀ save, l.saving = some save → save.revision ≤ l.revision ∧
    (save.revision = l.revision → l.state = some save.state)
  replaced : ∀ save, l.saving = some save → save.replaced = true → l.disk = some save.state

theorem synced_idle (hsaving : l.saving = none)
    (hclean : ∀ s, l.state = some s → l.dirty = false → l.disk = some s) : Synced l := by
  have hno : ∀ save, l.saving ≠ some save := by simp [hsaving]
  exact ⟨hclean, fun save hsave => absurd hsave (hno save), fun save hsave => absurd hsave (hno save),
    fun save hsave => absurd hsave (hno save)⟩

theorem synced_observed (h : Synced l) (o : Observation) : Synced (observeLocked l o) := by
  refine ⟨fun s _ hclean => ?_, fun save _ => rfl, fun save hsave => ?_, h.replaced⟩
  · cases hclean
  · have hle := (h.revision save hsave).1
    refine ⟨hle.trans (Nat.le_succ _), fun heq => ?_⟩
    have hsucc : save.revision = l.revision + 1 := heq
    omega

theorem synced_next (h : Synced l) : Synced (next zone l e) := by
  cases e with
  | observe service fields timeZone time mono =>
    cases ho : accepted zone (.observe service fields timeZone time mono) with
    | some o =>
      rw [next_accepted ho]
      exact synced_observed h o
    | none =>
      obtain ⟨reason, -, hr⟩ := next_refused (l := l) ho
      rw [hr]
      exact ⟨h.clean, h.dirty, h.revision, h.replaced⟩
  | invalidate reason reset => exact ⟨h.clean, h.dirty, h.revision, h.replaced⟩
  | beginSave now =>
    simp only [next]
    rcases beginSave_cases l now with hb | ⟨s, -, hs, hdirty, -, hb⟩
    · rwa [hb]
    · rw [hb]
      refine ⟨h.clean, fun _ _ => hdirty, fun save hsave => ?_, fun save hsave hreplaced => ?_⟩
      · obtain rfl := Option.some.inj hsave
        exact ⟨le_rfl, fun _ => hs⟩
      · obtain rfl := Option.some.inj hsave
        cases hreplaced
  | replaceFile =>
    simp only [next]
    rcases replaceFile_cases l with ⟨-, hb⟩ | ⟨save, hsave, hb⟩
    · rwa [hb]
    · have hdirty := h.dirty save hsave
      rw [hb]
      refine ⟨fun s _ hclean => ?_, fun _ _ => hdirty, fun save' hsave' => ?_, fun save' hsave' _ => ?_⟩
      · rw [hdirty] at hclean
        cases hclean
      · obtain rfl := Option.some.inj hsave'
        exact h.revision save hsave
      · obtain rfl := Option.some.inj hsave'
        rfl
  | failSave =>
    simp only [next]
    rcases failSave_cases l with hb | hb
    · rwa [hb]
    · rw [hb]
      exact synced_idle rfl h.clean
  | finishSave =>
    simp only [next]
    rcases finishSave_cases l with hb | ⟨save, hsave, hreplaced, hb⟩
    · rwa [hb]
    · rw [hb]
      refine synced_idle rfl fun s hs hclean => ?_
      by_cases hrevision : save.revision = l.revision
      · have hstate := (h.revision save hsave).2 hrevision
        rw [h.replaced save hsave hreplaced, ← hstate]
        exact hs
      · simp only [if_neg hrevision, h.dirty save hsave] at hclean
        cases hclean
  | restart readable => exact synced_idle rfl fun s hs _ => restart_state hs

/-- **Ledger persistence.** -/
theorem ledger_saved (zone : Zone) (ft : FloatText ℚ) (es : List Event) :
    (Calendar (Seen zone es) → (∀ e ∈ es, Bounded zone ft e) → ∀ s,
      (exec (next zone) init es).state = some s ∨ (exec (next zone) init es).disk = some s →
      validateState zone s ∧ ((saveText ft s).isSome ↔ s.generation < 10 ^ maxStrDigits) ∧
      ∀ text, saveText ft s = some text →
        text.length ≤ 16384 ∧ Ascii text ∧ loadState zone ft text = some s) ∧
    ∀ s, (exec (next zone) init es).state = some s → (exec (next zone) init es).dirty = false →
      (exec (next zone) init es).disk = some s := by
  refine ⟨fun hz he s hs => ?_, ?_⟩
  · obtain ⟨hsound, hwritten⟩ : Sound zone es s ∧ Written ft s := by
      have hvalid := run_sound es hz
      have htexts := (run_texts he).copies
      rcases hs with hs | hs
      · exact ⟨hvalid.state s hs, htexts.state s hs⟩
      · exact ⟨hvalid.disk s hs, htexts.disk s hs⟩
    refine ⟨hsound.valid, ?_, fun text htext => ⟨length_saveText_le hsound.source hwritten htext, ?_,
      loadState_saveText hsound hwritten htext⟩⟩
    · unfold saveText
      split_ifs with h
      · exact iff_of_true rfl h
      · exact iff_of_false (by simp) h
    · unfold saveText at htext
      split_ifs at htext
      obtain rfl := Option.some.inj htext
      exact ascii_dump rfl _ 0 (exact_of_written hwritten)
  · have hsynced : Synced (exec (next zone) init es) := exec_invariant
      (synced_idle rfl fun s hs _ => (Option.some_ne_none s hs.symm).elim) fun _ _ h => synced_next h
    exact hsynced.clean

/-- `repr` of the floats that are whole numbers, below 1e16. -/
def wholeText : FloatText ℚ where
  text q := Nat.toDigits 10 q.num.toNat ++ ['.', '0']
  parse cs := match cs.reverse with
    | '0' :: '.' :: digits => (parseNat digits.reverse).map Nat.cast
    | _ => none

theorem shown_whole {n : ℕ} (h : n < 10 ^ 16) : Shown wholeText n := by
  have htext : wholeText.text n = Nat.toDigits 10 n ++ ['.', '0'] := by simp [wholeText]
  refine ⟨⟨fun c hc => ?_, ⟨'.', by simp [htext], by decide⟩, ?_⟩, ?_⟩
  · rw [htext] at hc
    rcases List.mem_append.mp hc with hc | hc
    · exact isNumeric_of_isDigit (isDigit_of_mem hc)
    · simp only [List.mem_cons, List.not_mem_nil, or_false] at hc
      rcases hc with rfl | rfl <;> decide
  · rw [htext, wholeText]
    simp [parseNat_toDigits]
  · have hlength := (Nat.length_toDigits_le_iff (b := 10) (by decide) (by decide : 0 < 16)).mpr h
    rw [htext, List.length_append]
    simp only [List.length_cons, List.length_nil]
    omega

/-- Readings around midnight, and the save of the day that begins. -/
def savedRun : List Event :=
  [reading 100 86390, reading 100 86410, .beginSave 86411, .replaceFile, .finishSave]

/-- The day is on the file, and is restored as complete. -/
theorem ledger_saved_midnight : ∃ s text, (exec (next utc) init savedRun).disk = some s ∧
    s.complete = true ∧ saveText wholeText s = some text ∧ loadState utc wholeText text = some s := by
  have hbefore : accepted utc (reading 100 86390) =
      some ⟨⟨"com.victronenergy.grid.meter", 40, none⟩, "UTC", ⟨0, 0⟩, ⟨100, 20⟩, 86390, 86390⟩ := by
    decide +kernel
  have hafter : accepted utc (reading 100 86410) =
      some ⟨⟨"com.victronenergy.grid.meter", 40, none⟩, "UTC", ⟨1, 86400⟩, ⟨100, 20⟩, 86410, 86410⟩ := by
    decide +kernel
  have hshown : ∀ n ∈ [0, 20, 100, 86390, 86400, 86410], Shown wholeText (n : ℕ) := by
    intro n hn
    refine shown_whole ?_
    fin_cases hn <;> norm_num
  have hbounded : ∀ e ∈ savedRun, Bounded utc wholeText e := by
    intro e he
    fin_cases he
    · refine ⟨fun o ho => ?_, fun _ h => by cases h⟩
      obtain rfl := Option.some.inj (hbefore.symm.trans ho)
      exact ⟨by decide, by exact_mod_cast hshown 0 (by simp), by exact_mod_cast hshown 100 (by simp),
        by exact_mod_cast hshown 20 (by simp), by exact_mod_cast hshown 86390 (by simp)⟩
    · refine ⟨fun o ho => ?_, fun _ h => by cases h⟩
      obtain rfl := Option.some.inj (hafter.symm.trans ho)
      exact ⟨by decide, by exact_mod_cast hshown 86400 (by simp), by exact_mod_cast hshown 100 (by simp),
        by exact_mod_cast hshown 20 (by simp), by exact_mod_cast hshown 86410 (by simp)⟩
    all_goals exact ⟨fun o ho => (Option.some_ne_none o ho.symm).elim, fun _ h => by cases h⟩
  have hs : ((exec (next utc) init savedRun).state).any fun s =>
      s.complete ∧ s.generation = 2 ∧ (exec (next utc) init savedRun).dirty = false := by decide +kernel
  obtain ⟨s, hsome, hprop⟩ := (Option.any_eq_true _ _).mp hs
  obtain ⟨hcomplete, hgeneration, hclean⟩ := of_decide_eq_true hprop
  obtain ⟨hsaved, hfile⟩ := ledger_saved utc wholeText savedRun
  obtain ⟨-, hisSome, htext⟩ := hsaved (calendar_utc _) hbounded s (Or.inl hsome)
  have hdigits : s.generation < 10 ^ maxStrDigits := by
    rw [hgeneration]
    calc 2 < 10 ^ 1 := by decide
      _ ≤ 10 ^ maxStrDigits := Nat.pow_le_pow_right (by decide) (by decide)
  obtain ⟨text, htext'⟩ := Option.isSome_iff_exists.mp (hisSome.mpr hdigits)
  exact ⟨s, text, hfile s hsome hclean, hcomplete, htext', (htext text htext').2.2⟩

end InverterControl.Energy.Saved
