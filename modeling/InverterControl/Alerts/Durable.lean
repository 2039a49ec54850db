import InverterControl.Alerts.Model
import InverterControl.Lib.JsonCut

/-!
# Alerts over restarts

What a restart finds is what the last save wrote as a whole, or nothing when its text was cut off:
never a part, and never a mix (`storage_refines`).  With saves that are written, a restart is not
seen at all, and the alerts that a reconnection hands over to be published are those that were
raised and not acknowledged since (`pending_published`).
-/

namespace InverterControl.Alerts.Durable

open InverterControl.Lib.Json InverterControl.Lib.Runs InverterControl.Alerts.Model

variable {F : Type} {ft : FloatText F} {s : AlertStorage}

/-! ### The text of the alerts -/

theorem fromDict_toDict (a : PersistentAlert) : fromDict (toDict a : Value F) = some a := by
  obtain ⟨id, title, body, level, source, timestamp, acknowledged, acknowledgedAt⟩ := a
  cases acknowledgedAt with
  | none => rfl
  | some now => rfl

theorem mapM_fromDict (alerts : List PersistentAlert) :
    (alerts.map (toDict (F := F))).mapM fromDict = some alerts := by
  induction alerts with
  | nil => rfl
  | cons a alerts ih => simp [List.mapM_cons, fromDict_toDict, ih]

/-- No float stands in the text, so none has to be exact. -/
theorem exact_toDict (alerts : List PersistentAlert) :
    ∀ q ∈ floats (.arr (alerts.map (toDict (F := F)))), ft.Exact q := by
  intro q hq
  obtain ⟨v, hv, hq⟩ := mem_floatsItems hq
  obtain ⟨a, -, rfl⟩ := List.mem_map.mp hv
  obtain ⟨m, hm, hq⟩ := mem_floatsMembers hq
  simp only [List.mem_cons, List.not_mem_nil, or_false] at hm
  have hnone : floats (a.acknowledgedAt.elim .null .str : Value F) = [] := by
    cases a.acknowledgedAt with
    | none => rfl
    | some now => rfl
  rcases hm with rfl | rfl | rfl | rfl | rfl | rfl | rfl | rfl
  all_goals simp [floats, hnone] at hq

theorem loadFromDisk_saveText (alerts : List PersistentAlert) :
    loadFromDisk ft (some (saveText ft alerts)) = some alerts := by
  have hloads := loads_dump (indented 2) ft (exact_toDict alerts) 0 [] (by simp)
  rw [List.append_nil] at hloads
  simp only [loadFromDisk, saveText, hloads]
  exact mapM_fromDict alerts

theorem saveText_ne_nil (alerts : List PersistentAlert) : 0 < (saveText ft alerts).length := by
  unfold saveText
  rw [dump]
  cases dumpItems (indented 2) ft (alerts.map toDict) 1 with
  | nil => simp [bracket]
  | cons t ts => simp [bracket]

/-- A text that was cut off is loaded as no alerts. -/
theorem loadFromDisk_torn (alerts : List PersistentAlert) (missing : ℕ) :
    loadFromDisk ft (some ((saveText ft alerts).take ((saveText ft alerts).length - (missing + 1)))) =
      some [] := by
  have hpos : 0 < (saveText ft alerts).length := saveText_ne_nil alerts
  have hcut : loads ft ((saveText ft alerts).take ((saveText ft alerts).length - (missing + 1))) =
    none :=
    loads_take (indented 2) (exact_toDict alerts) (show _ < (saveText ft alerts).length by omega)
  rw [loadFromDisk, hcut]

/-! ### What the file stands for -/

/-- The alerts in memory, and those that the file stands for. -/
structure Ledger where
  current : List PersistentAlert := []
  onDisk : List PersistentAlert := []

/-- A save: it is whole, it does not happen, or it leaves nothing. -/
def Ledger.save (l : Ledger) : Write → Ledger
  | .done => { l with onDisk := l.current }
  | .refused => l
  | .torn _ => { l with onDisk := [] }

def Ledger.next (l : Ledger) : Event → Ledger
  | .publishNotification connected id title body level source timestamp w =>
    if connected then
      Ledger.save
        { l with current := l.current ++ [⟨id, title, body, level, source, timestamp, false, none⟩] } w
    else l
  | .handleAcknowledgment alertId now w =>
    match if alertId = "" then none else acknowledged alertId now l.current with
    | some alerts => Ledger.save { l with current := alerts } w
    | none => l
  | .restart => { l with current := l.onDisk }

/-- The storage has the alerts of the ledger, and its file those that are on the disk. -/
structure Refines (ft : FloatText F) (s : AlertStorage) (l : Ledger) : Prop where
  alerts : s.alerts = l.current
  disk : loadFromDisk ft s.disk = some l.onDisk

theorem refines_init : Refines ft {} {} := ⟨rfl, rfl⟩

/-- **A save** of other alerts. -/
theorem Refines.save {l : Ledger} (h : Refines ft s l) (alerts : List PersistentAlert) (w : Write) :
    Refines ft (saveToDisk ft { s with alerts := alerts } w)
      (Ledger.save { l with current := alerts } w) := by
  cases w with
  | done => exact ⟨rfl, loadFromDisk_saveText alerts⟩
  | refused => exact ⟨rfl, h.disk⟩
  | torn missing => exact ⟨rfl, loadFromDisk_torn alerts missing⟩

theorem Refines.next {l : Ledger} (h : Refines ft s l) (e : Event) :
    Refines ft (Model.next ft s e) (l.next e) := by
  cases e with
  | publishNotification connected id title body level source timestamp w =>
    rw [Model.next, Ledger.next]
    split_ifs
    · rw [addAlert, h.alerts]
      exact h.save _ w
    · exact h
  | handleAcknowledgment alertId now w =>
    rw [Model.next, Ledger.next, acknowledgeAlert, h.alerts]
    by_cases hid : alertId = ""
    · rw [if_pos hid, if_pos hid]
      exact h
    · rw [if_neg hid, if_neg hid]
      cases acknowledged alertId now l.current with
      | none => exact h
      | some alerts => exact h.save alerts w
  | restart =>
    rw [Model.next, h.disk]
    exact ⟨rfl, h.disk⟩

theorem refines_exec (ft : FloatText F) (es : List Event) :
    Refines ft (exec (Model.next ft) {} es) (exec Ledger.next {} es) := by
  induction es using List.reverseRecOn with
  | nil => exact refines_init
  | append_singleton es e ih =>
    rw [exec_snoc, exec_snoc]
    exact ih.next e

/-- A step writes nothing, the alerts that it leaves in memory, or none at all. -/
theorem Ledger.next_onDisk (l : Ledger) (e : Event) : (l.next e).onDisk = l.onDisk ∨
    (l.next e).onDisk = (l.next e).current ∨ (l.next e).onDisk = [] := by
  have hsave : ∀ (l' : Ledger) (w : Write), l'.onDisk = l.onDisk → (l'.save w).onDisk = l.onDisk ∨
      (l'.save w).onDisk = (l'.save w).current ∨ (l'.save w).onDisk = [] := by
    intro l' w hl'
    cases w with
    | done => exact Or.inr (Or.inl rfl)
    | refused => exact Or.inl hl'
    | torn missing => exact Or.inr (Or.inr rfl)
  cases e with
  | publishNotification connected id title body level source timestamp w =>
    rw [Ledger.next]
    split_ifs
    · exact hsave _ w rfl
    · exact Or.inl rfl
  | handleAcknowledgment alertId now w =>
    rw [Ledger.next]
    split
    · exact hsave _ w rfl
    · exact Or.inl rfl
  | restart => exact Or.inl rfl

/-- What the disk stands for was in memory once, unless it is nothing. -/
theorem onDisk_past (ft : FloatText F) (es : List Event) : (exec Ledger.next {} es).onDisk = [] ∨
    ∃ past, past <+: es ∧ (exec Ledger.next {} es).onDisk = (exec (Model.next ft) {} past).alerts := by
  induction es using List.reverseRecOn with
  | nil => exact Or.inl rfl
  | append_singleton es e ih =>
    rw [exec_snoc]
    rcases Ledger.next_onDisk (exec Ledger.next {} es) e with hold | hnow | hnone
    · rw [hold]
      rcases ih with hnone | ⟨past, hpast, hdisk⟩
      · exact Or.inl hnone
      · exact Or.inr ⟨past, hpast.trans (List.prefix_append _ _), hdisk⟩
    · refine Or.inr ⟨es ++ [e], List.prefix_refl _, ?_⟩
      rw [hnow, (refines_exec ft (es ++ [e])).alerts, exec_snoc]
    · exact Or.inl hnone

/-- **The file never stands for anything else**: in every run, with saves that fail or are cut off, a
restart finds the alerts of the last save that was written as a whole, or none when it was cut off; so it
goes back to a state that there was, or to the empty one. -/
theorem storage_refines (ft : FloatText F) (es : List Event) :
    Refines ft (exec (Model.next ft) {} es) (exec Ledger.next {} es) ∧
      ((exec Ledger.next {} es).onDisk = [] ∨ ∃ past, past <+: es ∧
        (exec Ledger.next {} es).onDisk = (exec (Model.next ft) {} past).alerts) :=
  ⟨refines_exec ft es, onDisk_past ft es⟩

/-! ### The alerts that are handed over -/

/-- The alerts that are not acknowledged. -/
def pending (alerts : List PersistentAlert) :
    List PersistentAlert := alerts.filter fun a => !a.acknowledged

/-- The alerts after an acknowledgement. -/
def marked (alertId now : String) (alerts : List PersistentAlert) : List PersistentAlert :=
  (acknowledged alertId now alerts).getD alerts

theorem marked_cons (alertId now : String) (a : PersistentAlert) (alerts : List PersistentAlert) :
    marked alertId now (a :: alerts) =
      if a.id = alertId then { a with acknowledged := true, acknowledgedAt := some now } :: alerts
      else a :: marked alertId now alerts := by
  unfold marked
  rw [acknowledged]
  split_ifs
  · rfl
  · cases acknowledged alertId now alerts with
    | none => rfl
    | some alerts' => rfl

theorem marked_ids (alertId now : String) (alerts : List PersistentAlert) :
    (marked alertId now alerts).map (·.id) = alerts.map (·.id) := by
  induction alerts with
  | nil => rfl
  | cons a alerts ih =>
    rw [marked_cons]
    split_ifs
    · rfl
    · rw [List.map_cons, ih, List.map_cons]

theorem pending_cons (a : PersistentAlert) (alerts : List PersistentAlert) :
    pending (a :: alerts) = (if a.acknowledged then [] else [a]) ++ pending alerts := by
  unfold pending
  cases h : a.acknowledged with
  | false => simp [h]
  | true => simp [h]

/-- Without that id nothing is taken away. -/
theorem pending_filter_ne {alerts : List PersistentAlert} {alertId : String}
    (h : alertId ∉ alerts.map (·.id)) : (pending alerts).filter (·.id ≠ alertId) = pending alerts := by
  refine List.filter_eq_self.mpr fun a ha => ?_
  simpa using fun heq : a.id = alertId => h (heq ▸ List.mem_map_of_mem (List.mem_of_mem_filter ha))

/-- **An acknowledgement** takes away its alert and no other one. -/
theorem pending_marked {alerts : List PersistentAlert} (hids : (alerts.map (·.id)).Nodup)
    (alertId now : String) :
    pending (marked alertId now alerts) = (pending alerts).filter (·.id ≠ alertId) := by
  induction alerts with
  | nil => rfl
  | cons a alerts ih =>
    obtain ⟨hfresh, hids⟩ := List.nodup_cons.mp hids
    rw [marked_cons]
    split_ifs with hid
    · rw [pending_cons, pending_cons, List.filter_append, pending_filter_ne (hid ▸ hfresh)]
      cases a.acknowledged with
      | false => simp [hid]
      | true => simp
    · rw [pending_cons, pending_cons, List.filter_append, ih hids]
      cases a.acknowledged with
      | false => simp [hid]
      | true => simp

theorem acknowledged_of_not_mem {alerts : List PersistentAlert} {alertId : String}
    (h : alertId ∉ alerts.map (·.id)) (now : String) : acknowledged alertId now alerts = none := by
  induction alerts with
  | nil => rfl
  | cons a alerts ih =>
    rw [List.map_cons, List.mem_cons, not_or] at h
    rw [acknowledged, if_neg (Ne.symm h.1), ih h.2]
    rfl

/-- The id of the alert that an event makes. -/
def raised : Event → Option String
  | .publishNotification connected id _ _ _ _ _ _ => if connected then some id else none
  | _ => none

/-- The save of an event is written. -/
def Written : Event → Prop
  | .publishNotification _ _ _ _ _ _ _ w => w = .done
  | .handleAcknowledgment _ _ w => w = .done
  | .restart => True

/-- The alerts that are open: raised, and not acknowledged since. -/
def openNext (alerts : List PersistentAlert) : Event → List PersistentAlert
  | .publishNotification connected id title body level source timestamp _ =>
    if connected then alerts ++ [⟨id, title, body, level, source, timestamp, false, none⟩] else alerts
  | .handleAcknowledgment alertId _ _ => alerts.filter (·.id ≠ alertId)
  | .restart => alerts

/-- With saves that are written. -/
structure Open (es : List Event) (l : Ledger) : Prop where
  onDisk : l.onDisk = l.current
  ids : l.current.map (·.id) = es.filterMap raised
  pending : pending l.current = exec openNext [] es

theorem Open.next {es : List Event} {l : Ledger} (h : Open es l) {e : Event} (hw : Written e)
    (hids : (es.filterMap raised).Nodup) (hempty : "" ∉ es.filterMap raised) :
    Open (es ++ [e]) (l.next e) := by
  cases e with
  | publishNotification connected id title body level source timestamp w =>
    obtain rfl : w = .done := hw
    rw [Ledger.next]
    split_ifs with hconnected
    · refine ⟨rfl, ?_, ?_⟩
      · simp [Ledger.save, h.ids, raised, hconnected]
      · rw [exec_snoc, ← h.pending]
        simp [Ledger.save, Durable.pending, openNext, hconnected]
    · refine ⟨h.onDisk, ?_, ?_⟩
      · simp [h.ids, raised, hconnected]
      · simp [exec_snoc, h.pending, openNext, hconnected]
  | handleAcknowledgment alertId now w =>
    obtain rfl : w = .done := hw
    have hmarked : (l.next (.handleAcknowledgment alertId now .done)).current =
      marked alertId now l.current ∧
        (l.next (.handleAcknowledgment alertId now .done)).onDisk = marked alertId now l.current := by
      have hnone : alertId = "" → acknowledged alertId now l.current = none := by
        rintro rfl
        exact acknowledged_of_not_mem (h.ids ▸ hempty) now
      rw [Ledger.next, marked]
      split_ifs with hid
      · rw [hnone hid]
        exact ⟨rfl, h.onDisk⟩
      · cases acknowledged alertId now l.current with
        | none => exact ⟨rfl, h.onDisk⟩
        | some alerts => exact ⟨rfl, rfl⟩
    refine ⟨hmarked.2.trans hmarked.1.symm, ?_, ?_⟩
    · rw [hmarked.1, marked_ids, h.ids]
      simp [raised]
    · rw [hmarked.1, pending_marked (h.ids ▸ hids), h.pending, exec_snoc]
      rfl
  | restart =>
    refine ⟨rfl, ?_, ?_⟩
    · simp [Ledger.next, h.onDisk, h.ids, raised]
    · simp [Ledger.next, h.onDisk, h.pending, exec_snoc, openNext]

theorem open_exec {es : List Event} (hwritten : ∀ e ∈ es, Written e)
    (hids : (es.filterMap raised).Nodup) (hempty : "" ∉ es.filterMap raised) :
    Open es (exec Ledger.next {} es) := by
  induction es using List.reverseRecOn with
  | nil => exact ⟨rfl, rfl, rfl⟩
  | append_singleton es e ih =>
    rw [List.filterMap_append] at hids hempty
    have hids' := hids.of_append_left
    have hempty' := fun h => hempty (List.mem_append_left _ h)
    rw [exec_snoc]
    exact (ih (fun e he => hwritten e (by simp [he])) hids' hempty').next
      (hwritten e (by simp)) hids' hempty'

/-- **What a reconnection hands over to be published**: when the saves are written, the alerts that
were raised while connected and not acknowledged since, as they were raised and in that order, over
any number of restarts. -/
theorem pending_published (ft : FloatText F) {es : List Event} (hwritten : ∀ e ∈ es, Written e)
    (hids : (es.filterMap raised).Nodup) (hempty : "" ∉ es.filterMap raised) :
    getUnacknowledgedAlerts (exec (Model.next ft) {} es) = exec openNext [] es := by
  rw [getUnacknowledgedAlerts, (refines_exec ft es).alerts]
  exact (open_exec hwritten hids hempty).pending

/-- The texts of alerts hold no float. -/
def noFloats : FloatText Empty := ⟨Empty.elim, fun _ => none⟩

/-- Two alerts, one of them acknowledged before a restart. -/
theorem pending_published_two : getUnacknowledgedAlerts (exec (Model.next noFloats) {} [
      .publishNotification true "a" "Grid" "lost" "alarm" "inverter-control" "t0" .done,
      .publishNotification true "b" "ESS" "external" "warning" "inverter-control" "t1" .done,
      .handleAcknowledgment "a" "t2" .done, .restart]) =
    [⟨"b", "ESS", "external", "warning", "inverter-control", "t1", false, none⟩] :=
  pending_published noFloats (by simp [Written]) (by decide) (by decide)

end InverterControl.Alerts.Durable
