import InverterControl.Lib.Runs
import Mathlib.Algebra.Order.Field.Rat
import Mathlib.Data.List.DropRight

/-!
# The warning about the ESS mode

`_check_ess_external` of `controller.py` with `_notify_ess_restored` and `_clear_ess_warning`, which
the control cycle calls: outside External control the setpoint is ignored, and somebody must be
told.  Two of the fields that it keeps say what the history does (`remembered_exec`): when the
mismatch began that is still going on, and whether it has lasted long enough.
-/

namespace InverterControl.Ess.Warning

open InverterControl.Lib.Runs

/-- What a call sees; the ESS mode may not be known. -/
structure Call where
  dryRun : Bool
  isExternal : Option Bool
  now : ℚ
  deriving DecidableEq, Repr

structure InverterController where
  essNotExternalSince : Option ℚ := none
  essNotificationActive : Bool := false
  essWarnLastTime : ℚ := 0
  deriving DecidableEq, Repr

/-- The line that a call logs. -/
inductive Output
  | notExternal
  | still
  | restored
  deriving DecidableEq, Repr

structure Notification where
  notificationId : String
  level : String
  title : String
  body : String
  deriving DecidableEq, Repr

def ignored : Notification where
  notificationId := "ess-not-external"
  level := "warning"
  title := "ESS not in External control"
  body := "Grid setpoint writes are being IGNORED by the GX. " ++
    "Switch the ESS assistant to 'External control' " ++
    "(Hub4Mode=3) on the GX to restore grid-zero control."

def honored : Notification where
  notificationId := "ess-not-external"
  level := "info"
  title := "ESS External control restored"
  body := "Grid setpoint writes are honored again."

/-- What is published beside the line, when there is a bridge. -/
def Output.notification : Output → Option Notification
  | .notExternal => some ignored
  | .still => none
  | .restored => some honored

/-- A call, with what it tells. -/
structure Checked where
  controller : InverterController
  output : Option Output := none
  deriving DecidableEq, Repr

def Checked.published (r : Checked) (bridge : Bool) : Option Notification :=
  if bridge = true then r.output.bind Output.notification else none

/-- `_clear_ess_warning` -/
def clearEssWarning (s : InverterController) : InverterController :=
  { s with essNotificationActive := false, essNotExternalSince := none }

/-- `_notify_ess_restored` -/
def notifyEssRestored (s : InverterController) : Option Output :=
  if s.essNotificationActive = true then some .restored else none

/-- The end of `_check_ess_external`, of a mismatch that is known since `since`. -/
def warnEss (minutes since now : ℚ) (s : InverterController) : Checked :=
  if now - since < minutes * 60 then { controller := s }
  else if s.essNotificationActive = false then
    {
      controller := { s with essNotificationActive := true, essWarnLastTime := now },
      output := some .notExternal }
  else if 3600 ≤ now - s.essWarnLastTime then
    { controller := { s with essWarnLastTime := now }, output := some .still }
  else { controller := s }

/-- `_check_ess_external`, with `ESS_EXTERNAL_WARN_MINUTES`. -/
def checkEssExternal (minutes : ℚ) (s : InverterController) (c : Call) : Checked :=
  if c.dryRun = true then { controller := clearEssWarning s }
  else
    match c.isExternal with
    | none => { controller := clearEssWarning s }
    | some true => { controller := clearEssWarning s, output := notifyEssRestored s }
    | some false =>
      match s.essNotExternalSince with
      | none => { controller := { s with essNotExternalSince := some c.now } }
      | some since => warnEss minutes since c.now s

def next (minutes : ℚ) (s : InverterController) (c : Call) : InverterController :=
  (checkEssExternal minutes s c).controller

/-! ### The history -/

/-- Live control, outside External control. -/
def mismatch (c : Call) : Bool := c.dryRun = false ∧ c.isExternal = some false

/-- The calls of the mismatch that is going on. -/
def streak (past : List Call) : List Call := past.rtakeWhile mismatch

/-- The mismatch has lasted long enough at a call after its first one. -/
def lasted (minutes : ℚ) : List Call → Bool
  | [] => false
  | first :: calls => calls.any fun c => minutes * 60 ≤ c.now - first.now

/-- The mismatch that is going on was told about. -/
def alerted (minutes : ℚ) (past : List Call) : Bool := lasted minutes (streak past)

theorem streak_snoc (past : List Call) (c : Call) :
    streak (past ++ [c]) = if mismatch c = true then streak past ++ [c] else [] := by
  rw [streak, List.rtakeWhile_concat]
  rfl

theorem streak_of_mismatch {c : Call} (h : mismatch c = true) (past : List Call) :
    streak (past ++ [c]) = streak past ++ [c] := by
  rw [streak_snoc, if_pos h]

theorem streak_of_not_mismatch {c : Call} (h : mismatch c = false) (past : List Call) :
    streak (past ++ [c]) = [] := by
  rw [streak_snoc, if_neg (by simp [h])]

/-- A further call of a mismatch that is going on. -/
theorem alerted_snoc {minutes : ℚ} {past calls : List Call} {c first : Call} (hc : mismatch c = true)
    (hs : streak past = first :: calls) :
    alerted minutes (past ++ [c]) =
      (alerted minutes past || decide (minutes * 60 ≤ c.now - first.now)) := by
  rw [alerted, alerted, streak_of_mismatch hc, hs]
  simp [lasted]

/-- The fields say what the history says. -/
structure Remembers (minutes : ℚ) (past : List Call) (s : InverterController) : Prop where
  since : s.essNotExternalSince = (streak past).head?.map (·.now)
  active : s.essNotificationActive = alerted minutes past

theorem Remembers.snoc {minutes : ℚ} {past : List Call} {s : InverterController}
    (h : Remembers minutes past s)
    (c : Call) : Remembers minutes (past ++ [c]) (next minutes s c) := by
  by_cases hc : mismatch c = true
  · obtain ⟨hlive, hnot⟩ : c.dryRun = false ∧ c.isExternal = some false := by simpa [mismatch] using hc
    have hsince := h.since
    have hactive := h.active
    have hstreak := streak_of_mismatch hc past
    cases hs : streak past with
    | nil =>
      rw [hs] at hstreak hsince
      have hnone : s.essNotExternalSince = none := hsince
      have hnext : next minutes s c = { s with essNotExternalSince := some c.now } := by
        simp [next, checkEssExternal, hlive, hnot, hnone]
      rw [hnext]
      refine ⟨by rw [hstreak]; rfl, ?_⟩
      rw [alerted, hs] at hactive
      rw [alerted, hstreak]
      exact hactive
    | cons first calls =>
      rw [hs] at hstreak hsince
      have hfirst : s.essNotExternalSince = some first.now := hsince
      have hnext : next minutes s c = (warnEss minutes first.now c.now s).controller := by
        simp [next, checkEssExternal, hlive, hnot, hfirst]
      have hlasted : alerted minutes (past ++ [c]) =
          (alerted minutes past || decide (minutes * 60 ≤ c.now - first.now)) := alerted_snoc hc hs
      rw [hnext]
      unfold warnEss
      split_ifs with hearly hfresh hlate
      · refine ⟨by rw [hstreak]; exact hfirst, ?_⟩
        rw [hlasted, ← hactive, decide_eq_false (not_le.mpr hearly), Bool.or_false]
      · refine ⟨by rw [hstreak]; exact hfirst, ?_⟩
        rw [hlasted, decide_eq_true (not_lt.mp hearly), Bool.or_true]
      · refine ⟨by rw [hstreak]; exact hfirst, ?_⟩
        rw [hlasted, ← hactive]
        simp [hfresh]
      · refine ⟨by rw [hstreak]; exact hfirst, ?_⟩
        rw [hlasted, ← hactive]
        simp [hfresh]
  · have hno : mismatch c = false := by simpa using hc
    have hcleared : (next minutes s c).essNotExternalSince = none ∧
        (next minutes s c).essNotificationActive = false := by
      unfold next checkEssExternal
      split_ifs with hdry
      · exact ⟨rfl, rfl⟩
      · split
        · exact ⟨rfl, rfl⟩
        · exact ⟨rfl, rfl⟩
        next hnot => exact absurd hno (by simp [mismatch, hdry, hnot])
    have hstreak := streak_of_not_mismatch hno past
    exact ⟨by rw [hstreak]; exact hcleared.1, by rw [alerted, hstreak]; exact hcleared.2⟩

theorem remembered_exec (minutes : ℚ) (past : List Call) :
    Remembers minutes past (exec (next minutes) {} past) :=
  history_induction ⟨rfl, rfl⟩ (fun _ c h => h.snoc c) past

/-- What a call tells that sees a mismatch. -/
theorem output_mismatch {minutes : ℚ} {past : List Call} {s : InverterController}
    (h : Remembers minutes past s) {c : Call}
    (hc : mismatch c = true) : (checkEssExternal minutes s c).output ≠ some .restored ∧
      ((checkEssExternal minutes s c).output = some .notExternal ↔
        alerted minutes past = false ∧ alerted minutes (past ++ [c]) = true) := by
  obtain ⟨hlive, hnot⟩ : c.dryRun = false ∧ c.isExternal = some false := by simpa [mismatch] using hc
  have hsince := h.since
  have hactive := h.active
  have hstreak := streak_of_mismatch hc past
  cases hs : streak past with
  | nil =>
    rw [hs] at hsince hstreak
    have hnone : s.essNotExternalSince = none := hsince
    have hquiet : (checkEssExternal minutes s c).output = none := by
      simp [checkEssExternal, hlive, hnot, hnone]
    have hyoung : alerted minutes (past ++ [c]) = false := by rw [alerted, hstreak]; rfl
    simp [hquiet, hyoung]
  | cons first calls =>
    rw [hs] at hsince
    have hfirst : s.essNotExternalSince = some first.now := hsince
    have hcheck : checkEssExternal minutes s c = warnEss minutes first.now c.now s := by
      simp [checkEssExternal, hlive, hnot, hfirst]
    rw [hcheck, alerted_snoc hc hs, ← hactive]
    unfold warnEss
    split_ifs with hearly hfresh hlate
    · simp [not_le.mpr hearly]
    · simp [hfresh, not_lt.mp hearly]
    · simp [hfresh]
    · simp [hfresh]

/-- Which line a call logs. -/
theorem output_exact {minutes : ℚ} {past : List Call} {s : InverterController}
    (h : Remembers minutes past s) (c : Call) :
    ((checkEssExternal minutes s c).output = some .notExternal ↔
      alerted minutes past = false ∧ alerted minutes (past ++ [c]) = true) ∧
    ((checkEssExternal minutes s c).output = some .restored ↔
      alerted minutes past = true ∧ c.dryRun = false ∧ c.isExternal = some true) := by
  by_cases hc : mismatch c = true
  · obtain ⟨hrestored, hwarned⟩ := output_mismatch h hc
    obtain ⟨-, hnot⟩ : c.dryRun = false ∧ c.isExternal = some false := by simpa [mismatch] using hc
    exact ⟨hwarned, by simp [hrestored, hnot]⟩
  · have hno : mismatch c = false := by simpa using hc
    have hended : alerted minutes (past ++ [c]) = false := by
      rw [alerted, streak_of_not_mismatch hno]
      rfl
    rw [hended, ← h.active]
    unfold checkEssExternal notifyEssRestored
    cases hdry : c.dryRun with
    | true => simp
    | false =>
      cases hmode : c.isExternal with
      | none => simp
      | some external =>
        cases external with
        | true => by_cases hactive : s.essNotificationActive = true <;> simp [hactive]
        | false => exact absurd hno (by simp [mismatch, hdry, hmode])

/-- Each notification belongs to one line. -/
theorem notification_inj {o o' : Output} {n : Notification} (h : o.notification = some n)
    (h' : o'.notification = some n) : o' = o := by
  cases o <;> cases o' <;> first | rfl | exact absurd (h.trans h'.symm) (by decide)

theorem published_iff {r : Checked} {bridge : Bool} {o : Output} {n : Notification}
    (ho : o.notification = some n) :
    r.published bridge = some n ↔ bridge = true ∧ r.output = some o := by
  rw [Checked.published]
  split_ifs with hbridge
  · rw [Option.bind_eq_some_iff]
    constructor
    · rintro ⟨line, hline, hn⟩
      exact ⟨hbridge, hline.trans (congrArg some (notification_inj ho hn))⟩
    · exact fun h => ⟨o, h.2, ho⟩
  · simp [hbridge]

/-- **Who is told what, and when**: with a bridge, a call publishes the warning exactly when it is
the first at which the mismatch that is going on has lasted `ESS_EXTERNAL_WARN_MINUTES` since the
first call that saw it, and the recovery exactly when that mismatch was warned about and live
control sees External control again. -/
theorem warnings_exact (minutes : ℚ) (past : List Call) (c : Call) (bridge : Bool) :
    let checked := checkEssExternal minutes (exec (next minutes) {} past) c
    (checked.published bridge = some ignored ↔
      bridge = true ∧ alerted minutes past = false ∧ alerted minutes (past ++ [c]) = true) ∧
    (checked.published bridge = some honored ↔
      bridge = true ∧ alerted minutes past = true ∧ c.dryRun = false ∧ c.isExternal = some true) := by
  intro checked
  obtain ⟨hwarned, hrestored⟩ := output_exact (remembered_exec minutes past) c
  rw [published_iff (o := .notExternal) rfl, published_iff (o := .restored) rfl]
  exact ⟨and_congr_right fun _ => hwarned, and_congr_right fun _ => hrestored⟩

/-- Six minutes outside External control, and back. -/
example :
  (streak [⟨false, some true, 0⟩, ⟨false, some false, 60⟩, ⟨false, some false, 361⟩]).length = 2 ∧
    alerted 5 [⟨false, some true, 0⟩, ⟨false, some false, 60⟩, ⟨false, some false, 361⟩] = true := by
  decide +kernel

end InverterControl.Ess.Warning
