import InverterControl.Background.Pace
import InverterControl.Controller.Model

/-!
# The reader of the tariff settings

`self.tou` refreshes the settings of the expensive window and the time zone once a minute.  A look
of `_in_expensive_window` takes the snapshot, then the clock that tells its age, and then the hour
of the wall clock.  Within a minute the snapshot is replaced at most once, expires at most once and
sees at most one change of the hour: five looks do not find the window inactive and active in turns
(`no_flips`).
-/

namespace InverterControl.Controller.TouReader

open InverterControl.Python InverterControl.Controller.Model InverterControl.Lib.Changes
open InverterControl.Background.Model (BackgroundReader Snapshot Values)
open InverterControl.Background.Pace

/-- A value of the snapshot: a setting, or a time zone that is known. -/
inductive TouValue (Zone : Type)
  | setting (value : PyValue)
  | timezone (zone : Zone)

variable {Zone : Type}

/-- `{"start": None, "end": None, "timezone": None}` -/
def unknownTou : Values (TouValue Zone) := fun key =>
  if key = "start" ∨ key = "end" ∨ key = "timezone" then some (.setting .none) else none

/-- `TOU_SETTING_TTL_SECONDS`. -/
def touSettingTtlSeconds : ℚ := 60

/-- The surroundings of a run, by the monotonic clock: the wall clock, the hour of a time zone by
the wall clock, and the steps of the worker of `self.tou`. -/
structure World (Zone : Type) where
  wall : ℚ → ℚ
  hour : Zone → ℚ → ℕ
  worker : List (ℚ × Background.Model.Inputs (TouValue Zone))

/-- The instants of a look: the snapshot is taken, its age is told, and the hour. -/
structure Look where
  taken : ℚ
  aged : ℚ
  told : ℚ
  taken_le : taken ≤ aged
  aged_le : aged ≤ told

theorem Look.taken_le_told (l : Look) : l.taken ≤ l.told := l.taken_le.trans l.aged_le

variable (W : World Zone)

/-- The reader at an instant. -/
def World.reader (t : ℚ) : BackgroundReader (TouValue Zone) :=
  readerAt unknownTou t { worker := .looping } W.worker

/-- `snapshot[key]` of a setting. -/
def settingOf (values : Values (TouValue Zone)) (key : String) : PyValue :=
  match values key with
  | some (.setting value) => value
  | _ => .none

/-- `snapshot["timezone"]` -/
def timezoneOf (values : Values (TouValue Zone)) : Option Zone :=
  match values "timezone" with
  | some (.timezone zone) => some zone
  | _ => none

/-- What `_in_expensive_window` reads with the values of its snapshot. -/
def World.readingOf (values : Values (TouValue Zone)) (told : ℚ) : TouReading where
  start := settingOf values "start"
  stop := settingOf values "end"
  hour := (timezoneOf values).map fun zone => W.hour zone (W.wall told)

/-- The reading of a look. -/
def World.tou (l : Look) : TouReading :=
  W.readingOf
    (Background.Model.read unknownTou (3 * touSettingTtlSeconds) (W.reader l.taken) l.aged) l.told

/-- The time zone of the snapshot at an instant. -/
def World.timezone (t : ℚ) : Option Zone := (W.reader t).snapshot.bind fun s => timezoneOf s.2

/-- The clocks and the reader from the instant `start` on: the worker waits between its passes, the
wall clock is positive and not set back by half a minute within a minute, and by it the hour of a
time zone in use changes at most once within a minute. -/
structure Steady (start : ℚ) : Prop where
  paced : Paced unknownTou touSettingTtlSeconds start { worker := .looping } W.worker
  positive : ∀ t, start ≤ t → 0 < W.wall t
  advances : ∀ t t', start ≤ t → t + 60 ≤ t' → W.wall t + 30 ≤ W.wall t'
  hours : ∀ t zone, W.timezone t = some zone → ChangesOnce start 60 fun t => W.hour zone (W.wall t)

variable {W} {start : ℚ} {l l₁ l₂ l₃ : Look}

/-- Unknown settings are read as an active window. -/
theorem window_unknown (told : ℚ) : inExpensiveWindow (W.readingOf unknownTou told) = true := by
  simp [World.readingOf, settingOf, unknownTou, inExpensiveWindow]

/-- A look that finds the window inactive has a snapshot that has not expired. -/
theorem snapshot_of_inactive (h : inExpensiveWindow (W.tou l) = false) :
    ∃ started values, (W.reader l.taken).snapshot = some (started, values) ∧
      l.aged - started < 3 * touSettingTtlSeconds := by
  unfold World.tou Background.Model.read at h
  cases hs : (W.reader l.taken).snapshot with
  | none =>
    rw [hs] at h
    exact absurd h (by simp [window_unknown])
  | some s =>
    obtain ⟨started, values⟩ := s
    rw [hs] at h
    refine ⟨started, values, rfl, not_le.mp fun hold => ?_⟩
    simp only [if_pos hold, window_unknown] at h
    cases h

theorem tou_of_snapshot {started : ℚ} {values : Values (TouValue Zone)}
    (hs : (W.reader l.taken).snapshot = some (started, values))
    (hage : l.aged - started < 3 * touSettingTtlSeconds) : W.tou l = W.readingOf values l.told := by
  unfold World.tou Background.Model.read
  rw [hs]
  simp only [if_neg (not_le.mpr hage)]

/-- Between two looks at one snapshot that find the window inactive, within a minute, none finds it
active. -/
theorem Steady.no_return (h : Steady W start) (hstart : start ≤ l₁.taken) (h₁₂ : l₁.told ≤ l₂.taken)
    (h₂₃ : l₂.told ≤ l₃.taken) (hminute : l₃.told < l₁.taken + 60)
    (hs₂ : (W.reader l₁.taken).snapshot = (W.reader l₂.taken).snapshot)
    (hs₃ : (W.reader l₁.taken).snapshot = (W.reader l₃.taken).snapshot)
    (hi₁ : inExpensiveWindow (W.tou l₁) = false) (hi₃ : inExpensiveWindow (W.tou l₃) = false) :
    inExpensiveWindow (W.tou l₂) = false := by
  obtain ⟨started, values, hs, hage⟩ := snapshot_of_inactive hi₃
  have ht₁ := l₁.taken_le
  have ht₁' := l₁.aged_le
  have ht₂ := l₂.taken_le
  have ht₂' := l₂.aged_le
  have ht₃ := l₃.taken_le
  have ht₃' := l₃.aged_le
  have hs₁ : (W.reader l₁.taken).snapshot = some (started, values) := hs₃.trans hs
  rw [tou_of_snapshot hs₁ (by linarith)] at hi₁
  rw [tou_of_snapshot hs hage] at hi₃
  rw [tou_of_snapshot (hs₂.symm.trans hs₁) (by linarith)]
  unfold World.readingOf at hi₁ hi₃ ⊢
  cases hz : timezoneOf values with
  | none =>
    rw [hz] at hi₁
    exact hi₁
  | some zone =>
    rw [hz] at hi₁ hi₃
    have hzone : W.timezone l₁.taken = some zone := by
      rw [World.timezone, hs₁]
      exact hz
    have hhour : W.hour zone (W.wall l₁.told) = W.hour zone (W.wall l₂.told) ∨
        W.hour zone (W.wall l₂.told) = W.hour zone (W.wall l₃.told) :=
      h.hours _ zone hzone l₁.told l₂.told l₃.told (by linarith) (by linarith) (by linarith)
        (by linarith)
    rcases hhour with heq | heq
    · simp only [Option.map_some] at hi₁ ⊢
      rw [← heq]
      exact hi₁
    · simp only [Option.map_some] at hi₃ ⊢
      rw [heq]
      exact hi₃

/-- **The readings do not go back and forth.**  Five looks within a minute do not find the window
inactive, active, inactive, active and inactive. -/
theorem Steady.no_flips (h : Steady W start) {l₄ l₅ : Look} (hstart : start ≤ l₁.taken)
    (h₁₂ : l₁.told ≤ l₂.taken) (h₂₃ : l₂.told ≤ l₃.taken) (h₃₄ : l₃.told ≤ l₄.taken)
    (h₄₅ : l₄.told ≤ l₅.taken) (hminute : l₅.told < l₁.taken + 60)
    (hi₁ : inExpensiveWindow (W.tou l₁) = false) (ha₂ : inExpensiveWindow (W.tou l₂) = true)
    (hi₃ : inExpensiveWindow (W.tou l₃) = false) (ha₄ : inExpensiveWindow (W.tou l₄) = true)
    (hi₅ : inExpensiveWindow (W.tou l₅) = false) : False := by
  have ht₁ := l₁.taken_le_told
  have ht₂ := l₂.taken_le_told
  have ht₃ := l₃.taken_le_told
  have ht₄ := l₄.taken_le_told
  have ht₅ := l₅.taken_le_told
  have hchanges : ChangesOnce start 60 fun t => (W.reader t).snapshot := changesOnce h.paced
  rcases hchanges.three_of_five hstart (h₁₂.trans' ht₁) (h₂₃.trans' ht₂) (h₃₄.trans' ht₃)
    (h₄₅.trans' ht₄)
    (by linarith) with ⟨hs₂, hs₃⟩ | ⟨hs₄, hs₅⟩
  · rw [h.no_return hstart h₁₂ h₂₃ (by linarith) hs₂ hs₃ hi₁ hi₃] at ha₂
    cases ha₂
  · rw [h.no_return (by linarith) h₃₄ h₄₅ (by linarith) hs₄ hs₅ hi₃ hi₅] at ha₄
    cases ha₄

end InverterControl.Controller.TouReader
