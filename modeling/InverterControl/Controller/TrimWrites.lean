import InverterControl.Controller.Actuator
import InverterControl.Controller.TouReader
import InverterControl.Controller.TouWindow

/-!
# The trim and the ceiling

A write has the TOU ceiling only after a forced charge that was not asked for again: every cycle
since then found the window active in its calculation and inactive at its write, because the charge
would have ended otherwise.  A trim needs five reports within twenty seconds, and with them so many
changes of the window that its reader cannot show them (`no_trim`).  So no trim meets the ceiling,
and every trim that is written is committed (`trim_at_actuator`).
-/

namespace InverterControl.Controller.TrimWrites

open InverterControl.Lib.Runs InverterControl.Python InverterControl.Logic.Model
open InverterControl.Controller.Model InverterControl.Controller.Threads
open InverterControl.Controller.Steps InverterControl.Controller.Baseline
  InverterControl.Controller.Trims
open InverterControl.Controller.Actuator InverterControl.Controller.TouReader
open InverterControl.Controller.Intents (InCycle)
open InverterControl.Controller.Samples (pending PendingCase pending_cases)
open InverterControl.Controller.TouWindow (Charging charging charging_quiet charging_other last_next)
open InverterControl.Backup.Model (GridStatus)
open InverterControl.Trim.Model (Issued Proposal Report SubmeterTrim)
open InverterControl.Trim.Steps (Core Sound)

variable {Zone : Type} {W : World Zone} {start t t' : ℚ} {s : System} {e : Event} {i : Inputs}
  {k : Locals} {c c' : InverterController}

/-! ### Runs in time -/

/-- What a step of the control thread reads between the instants `t` and `t'`: the clocks and the
window of `self.tou`, in the order of the code, whether or not the step uses them. -/
structure Dated (W : World Zone) (t t' : ℚ) (i : Inputs) : Prop where
  tou : ∃ l : Look, t ≤ l.taken ∧ l.told ≤ t' ∧ i.readings.tou = W.tou l
  trim : ∃ x, t ≤ i.trim.monotonic ∧ i.trim.monotonic ≤ x ∧ x ≤ t' ∧ i.trim.wall = W.wall x
  write : ∃ l : Look, t ≤ i.write.trim.monotonic ∧ i.write.trim.monotonic ≤ l.taken ∧
    l.told ≤ i.write.commitMonotonic ∧ i.write.tou = W.tou l
  commit : ∃ x, i.write.commitMonotonic ≤ x ∧ x ≤ t' ∧ i.write.commitWall = W.wall x

/-- The events of a run follow each other from the instant `t` on. -/
def Timely (W : World Zone) : ℚ → List Event → Prop
  | _, [] => True
  | t, e :: es => ∃ t', t ≤ t' ∧ (∀ i, e = .control i → Dated W t t' i) ∧ Timely W t' es

/-! ### What a report has seen -/

/-- The report was read at the instant `x`, after its calculation took the time. -/
structure ReadAt (W : World Zone) (start x : ℚ) (r : Report) : Prop where
  since : start ≤ r.observedAt
  observed : r.observedAt ≤ x
  notFuture : r.timestamp ≤ W.wall x + 1
  notStale : W.wall x ≤ r.timestamp + 8

/-- The report was read by the time `t`. -/
def Taken (W : World Zone) (start t : ℚ) (r : Report) : Prop := ∃ x, ReadAt W start x r ∧ x ≤ t

/-- After the report, a look found the window inactive. -/
def Closed (W : World Zone) (start t : ℚ) (r : Report) : Prop :=
  ∃ x l, ReadAt W start x r ∧ x ≤ l.taken ∧ inExpensiveWindow (W.tou l) = false ∧ l.told ≤ t

/-- After the report, a look found the window inactive and a later one active. -/
def Opened (W : World Zone) (start t : ℚ) (r : Report) : Prop :=
  ∃ x l l', ReadAt W start x r ∧ x ≤ l.taken ∧ inExpensiveWindow (W.tou l) = false ∧ l.told ≤ l'.taken ∧
    inExpensiveWindow (W.tou l') = true ∧ l'.told ≤ t

theorem Taken.mono {r : Report} (h : Taken W start t r) (ht : t ≤ t') : Taken W start t' r := by
  obtain ⟨x, hx, hle⟩ := h
  exact ⟨x, hx, hle.trans ht⟩

theorem Closed.mono {r : Report} (h : Closed W start t r) (ht : t ≤ t') : Closed W start t' r := by
  obtain ⟨x, l, hx, hl, hi, hle⟩ := h
  exact ⟨x, l, hx, hl, hi, hle.trans ht⟩

theorem Opened.mono {r : Report} (h : Opened W start t r) (ht : t ≤ t') : Opened W start t' r := by
  obtain ⟨x, l, l', hx, hl, hi, hl', ha, hle⟩ := h
  exact ⟨x, l, l', hx, hl, hi, hl', ha, hle.trans ht⟩

theorem Opened.taken {r : Report} (h : Opened W start t r) : Taken W start t r := by
  obtain ⟨x, l, l', hx, hl, -, hl', -, hle⟩ := h
  exact ⟨x, hx, hl.trans (l.taken_le_told.trans (hl'.trans (l'.taken_le_told.trans hle)))⟩

/-- A look that finds the window active opens it. -/
theorem Closed.opened {r : Report} (h : Closed W start t r) {l' : Look} (hl' : t ≤ l'.taken)
    (ha : inExpensiveWindow (W.tou l') = true) (ht : l'.told ≤ t') : Opened W start t' r := by
  obtain ⟨x, l, hx, hl, hi, hle⟩ := h
  exact ⟨x, l, l', hx, hl, hi, hle.trans hl', ha, ht⟩

/-- A look that finds the window inactive closes it. -/
theorem Taken.closed {r : Report} (h : Taken W start t r) {l : Look} (hl : t ≤ l.taken)
    (hi : inExpensiveWindow (W.tou l) = false) (ht : l.told ≤ t') : Closed W start t' r := by
  obtain ⟨x, hx, hle⟩ := h
  exact ⟨x, l, hx, hle.trans hl, hi, ht⟩

/-- Between two reports of the window it was found inactive and then active, and every report has `P`. -/
structure Spread (W : World Zone) (start : ℚ) (P : Report → Prop) (reports : List Report) : Prop where
  apart : ∀ a ∈ reports, ∀ b ∈ reports, a.timestamp < b.timestamp → Opened W start b.observedAt a
  each : ∀ r ∈ reports, P r

theorem Spread.nil {P : Report → Prop} : Spread W start P [] :=
  ⟨fun _ ha => absurd ha List.not_mem_nil, fun _ hr => absurd hr List.not_mem_nil⟩

theorem Spread.subset {P : Report → Prop} {rs rs' : List Report} (h : Spread W start P rs)
    (hsub : ∀ r ∈ rs', r ∈ rs) : Spread W start P rs' :=
  ⟨fun a ha b hb => h.apart a (hsub a ha) b (hsub b hb), fun r hr => h.each r (hsub r hr)⟩

theorem Spread.imp {P Q : Report → Prop} {rs : List Report} (h : Spread W start P rs)
    (hPQ : ∀ r, P r → Q r) :
    Spread W start Q rs :=
  ⟨h.apart, fun r hr => hPQ r (h.each r hr)⟩

/-! ### No trim without a change of the window -/

/-- A window of reports between which the tariff window changed gives no trim. -/
theorem no_trim (hW : Steady W start) {trim : SubmeterTrim} (hsound : Sound trim) {P : Report → Prop}
    (hspread : Spread W start P trim.reports) : trim.pending = none := by
  cases hpending : trim.pending with
  | none => rfl
  | some p =>
    exfalso
    have hwindow := (hsound.pending p hpending).1
    have hcount := hwindow.count
    have hwithin := hwindow.within
    have hsorted := hsound.sorted
    obtain ⟨happart, -⟩ := hspread
    rcases hreports : trim.reports with _ | ⟨a, _ | ⟨b, _ | ⟨c, _ | ⟨d, _ | ⟨e, rs⟩⟩⟩⟩⟩ <;>
      rw [hreports] at hcount hsorted happart hwithin <;>
      simp only [Trim.Model.minReports, List.length_cons, List.length_nil] at hcount
    · omega
    · omega
    · omega
    · omega
    · omega
    simp only [List.pairwise_cons, List.mem_cons, forall_eq_or_imp] at hsorted
    obtain ⟨⟨hab, -⟩, ⟨hbc, -⟩, ⟨hcd, -⟩, ⟨hde, -⟩, -⟩ := hsorted
    obtain ⟨x₁, l₁, l₂, hx₁, hl₁, hi₁, h₁₂, ha₂, hb⟩ := happart a (by simp) b (by simp) hab
    obtain ⟨x₂, l₃, l₄, hx₂, hl₃, hi₃, h₃₄, ha₄, hc⟩ := happart b (by simp) c (by simp) hbc
    obtain ⟨x₃, l₅, l₆, hx₃, hl₅, hi₅, h₅₆, -, hd⟩ := happart c (by simp) d (by simp) hcd
    obtain ⟨x₄, -, -, hx₄, -⟩ := happart d (by simp) e (by simp) hde
    have hspan : d.timestamp - a.timestamp ≤ 20 := hwithin a (by simp) d (by simp)
    have hstart : start ≤ x₁ := hx₁.since.trans hx₁.observed
    have hnear : x₄ < x₁ + 60 := by
      by_contra hfar
      have hadvance := hW.advances x₁ x₄ hstart (not_lt.mp hfar)
      have hfirst := hx₁.notFuture
      have hlast := hx₄.notStale
      linarith
    refine hW.no_flips (hstart.trans hl₁) h₁₂ ((hb.trans hx₂.observed).trans hl₃) h₃₄
      ((hc.trans hx₃.observed).trans hl₅) ?_ hi₁ ha₂ hi₃ ha₄ hi₅
    have hend : l₅.told ≤ x₄ := h₅₆.trans (l₆.taken_le_told.trans (hd.trans hx₄.observed))
    linarith

/-! ### The proposal -/

/-- What a step may do to the trim that neither adds a report nor proposes. -/
structure Shrinks (t t' : SubmeterTrim) : Prop where
  reports : ∀ r ∈ t'.reports, r ∈ t.reports
  pending : ∀ p, t'.pending = some p → t.pending = some p
  enabled : t'.enabled = t.enabled

theorem Shrinks.trans {t t' t'' : SubmeterTrim} (h : Shrinks t t') (h' : Shrinks t' t'') :
    Shrinks t t'' :=
  ⟨fun r hr => h.reports r (h'.reports r hr), fun p hp => h.pending p (h'.pending p hp),
    h'.enabled.trans h.enabled⟩

theorem Shrinks.of_resets (h : Resets c c') : Shrinks c.submeterTrim c'.submeterTrim := by
  rcases h with h | ⟨reason, h⟩
  · rw [h]
    exact ⟨fun _ hr => hr, fun _ hp => hp, rfl⟩
  · rw [h]
    exact ⟨fun _ hr => absurd hr List.not_mem_nil, fun _ hp => (by cases hp), rfl⟩

theorem shrinks_commit {t : SubmeterTrim} (hs : Sound t) (h : Trim.Model.Handle)
    (now wallTime : PyValue) :
    Shrinks t (Trim.Model.commit h now wallTime t).2 := by
  cases hc : Trim.Model.commits h now wallTime t with
  | none =>
    rw [(Trim.Steps.commit_of_not_commits hc).2]
    exact ⟨fun _ hr => hr, fun _ hp => hp, rfl⟩
  | some x =>
    obtain ⟨d, clock, wall⟩ := x
    rcases Trim.Steps.commit_cases hs hc with ⟨-, -, h'⟩ | ⟨-, -, h'⟩ | ⟨-, -, h'⟩ | ⟨-, -, h'⟩
    · rw [h']
      exact ⟨fun _ hr => absurd hr List.not_mem_nil, fun _ hp => (by cases hp), rfl⟩
    · rw [h']
      exact ⟨fun _ hr => absurd hr List.not_mem_nil, fun _ hp => (by cases hp), rfl⟩
    · rw [h']
      exact ⟨fun _ hr => hr, fun _ hp => (by cases hp), rfl⟩
    · rw [h']
      exact ⟨fun _ hr => hr, fun _ hp => (by cases hp), rfl⟩

theorem shrinks_commitDecision (hs : TrimSound c) (w : WriteReadings) :
    Shrinks c.submeterTrim (commitDecision w c) := by
  unfold commitDecision
  split
  · exact ⟨fun _ hr => hr, fun _ hp => hp, rfl⟩
  · exact shrinks_commit hs _ _ _

/-- A proposal adds its own report to those that saw the window change since. -/
theorem spread_propose {trim : SubmeterTrim} (hcore : Core trim) (hstart : start ≤ t)
    (hspread : Spread W start (Opened W start t) trim.reports) {a : Proposal} {d : Issued}
    (hd : (Trim.Model.propose a trim).1 = some d) {clock x : ℚ} (hnow : a.now = .float clock)
    (hwall : a.wallTime = .float (W.wall x)) (hclock : t ≤ clock) (hx : clock ≤ x) (ht' : x ≤ t') :
    Spread W start (Taken W start t') (Trim.Model.propose a trim).2.reports := by
  have hview {v : Trim.Model.View} {s' : SubmeterTrim}
      (hpassed : Trim.Model.examine a trim = .passed v s') :
      v.clock = clock ∧ v.timestamp ≤ W.wall x + 1 ∧ W.wall x ≤ v.timestamp + 8 := by
    have hgranted := Trim.Steps.granted_of_passed hpassed
    have hfresh := Trim.Steps.fresh_of_readSample hgranted.sample
    have hvclock := hgranted.clock
    have hvwall := hgranted.wall
    rw [hnow] at hvclock
    rw [hwall] at hvwall
    obtain rfl : clock = v.clock := Option.some.inj hvclock
    rw [← Option.some.inj hvwall] at hfresh
    exact ⟨rfl, hfresh⟩
  constructor
  · intro r hr r' hr' hlt
    obtain ⟨v, s', hpassed, hcase, -⟩ := Trim.Steps.propose_reports hcore hd hr
    obtain ⟨v', s'', hpassed', hcase', hle'⟩ := Trim.Steps.propose_reports hcore hd hr'
    obtain ⟨rfl, rfl⟩ := Trim.Model.Examined.passed.inj (hpassed.symm.trans hpassed')
    rcases hcase with hold | hown
    · rcases hcase' with hold' | hown'
      · exact hspread.apart r hold r' hold' hlt
      · rw [hown'.2.2, (hview hpassed).1]
        exact (hspread.each r hold).mono hclock
    · rw [hown.1] at hlt
      exact absurd hle' (not_le.mpr hlt)
  · intro r hr
    obtain ⟨v, s', hpassed, hold | hown, -⟩ := Trim.Steps.propose_reports hcore hd hr
    · exact (hspread.each r hold).taken.mono (hclock.trans (hx.trans ht'))
    · obtain ⟨hv, hw⟩ := hview hpassed
      obtain ⟨htime, -, hobserved⟩ := hown
      refine ⟨x, ⟨?_, ?_, ?_, ?_⟩, ht'⟩
      · rw [hobserved, hv]
        exact hstart.trans hclock
      · rw [hobserved, hv]
        exact hx
      · rw [htime]
        exact hw.1
      · rw [htime]
        exact hw.2

/-! ### While a forced charge lasts -/

/-- Every report of the trim, while it is enabled, has `P`, and saw the window change since the one
before. -/
def Charged (W : World Zone) (start : ℚ) (P : Report → Prop) (c : InverterController) : Prop :=
  c.submeterTrim.enabled = true → Spread W start P c.submeterTrim.reports

theorem Charged.shrinks {P : Report → Prop} (h : Charged W start P c)
    (hs : Shrinks c.submeterTrim c'.submeterTrim) : Charged W start P c' :=
  fun he => (h (hs.enabled.symm.trans he)).subset hs.reports

theorem Charged.imp {P Q : Report → Prop} (h : Charged W start P c) (hPQ : ∀ r, P r → Q r) :
    Charged W start Q c := fun he => (h he).imp hPQ

theorem charged_of_nil {P : Report → Prop} (h : c.submeterTrim.reports = []) : Charged W start P c := by
  intro _
  rw [h]
  exact Spread.nil

/-- The decision of the cycle moves nothing. -/
def Still (c : InverterController) : Prop := ∀ d, c.trimDecision = some d → d.decision.delta = 0

/-- The control thread is between two cycles, or in one that has not calculated or can no longer
write. -/
def Resting (pc : ControlPc) : Prop :=
  carrying pc = none ∧ ∀ k chargeBattery result, pc ≠ .trimming k chargeBattery result

/-- What holds at the instant `t`: after a forced charge, the window was found inactive since every
report; in a cycle that goes on with it, the window was found active since, and no trim is made. -/
structure Inv (W : World Zone) (start t : ℚ) (s : System) : Prop where
  since : start ≤ t
  sound : TrimSound s.controller
  decided : Decided s
  proposed : ∀ p, s.controller.submeterTrim.pending = some p → p.decision.proposedAt ≤ t
  resting : Resting s.pc → s.controller.lastSetpointWasCharge = true →
    Charged W start (Closed W start t) s.controller
  trimming : ∀ k result, s.pc = .trimming k false result → s.controller.calculatedChargeBattery = true →
    Charged W start (Opened W start t) s.controller
  carrying : ∀ k, carrying s.pc = some k → s.controller.calculatedChargeBattery = true →
    Still s.controller ∧ Charged W start (Taken W start t) s.controller

/-- The trim of a step: its pending trim was proposed by the instant `t'`. -/
def Proposes (t' : ℚ) (c c' : InverterController) : Prop :=
  ∀ p, c'.submeterTrim.pending = some p → c.submeterTrim.pending = some p ∨ p.decision.proposedAt ≤ t'

theorem Proposes.shrinks (h : Proposes t c c') {c'' : InverterController}
    (hs : Shrinks c'.submeterTrim c''.submeterTrim) : Proposes t c c'' :=
      fun p hp => h p (hs.pending p hp)

theorem proposes_of_shrinks (h : Shrinks c.submeterTrim c'.submeterTrim) : Proposes t c c' :=
  fun p hp => Or.inl (h.pending p hp)

/-! ### The trim of a calculation -/

/-- A charge that is asked for is a reason against the trim. -/
theorem trimReason_charge (x : TrimReadings) (g : GridStatus) (result : ControlResult)
    (c : InverterController) :
    trimReason x g true result c ≠ "" := by
  have hblocked : trimBlockReason x g true c ≠ "" := by
    unfold trimBlockReason
    split
    · decide
    split
    · decide
    rw [if_pos (by simp)]
    decide
  unfold trimReason
  rw [if_neg fun h => hblocked h.1]
  exact hblocked

/-- The trim of a calculation, with the answer that it adopts. -/
theorem applySubmeterTrim_cases {x : TrimReadings} {g : GridStatus} {chargeBattery : Bool}
    {result : ControlResult} {command : Command}
    (h : applySubmeterTrim x g chargeBattery result c = (some command, c')) :
    (c.submeterTrim.enabled = false ∧ c' = c) ∨
      c.submeterTrim.enabled = true ∧ ∃ d,
      (proposeTrim x g chargeBattery result (noteTrimMode c)).1 = some d ∧
        c' = (adoptTrim d g result { noteTrimMode c with
          submeterTrim := (proposeTrim x g chargeBattery result (noteTrimMode c)).2 }).2 := by
  unfold applySubmeterTrim at h
  split at h
  · next hdisabled => exact Or.inl ⟨hdisabled, (Prod.mk.inj h).2.symm⟩
  · next henabled =>
    refine Or.inr ⟨Bool.of_not_eq_false henabled, ?_⟩
    unfold applyNotedTrim at h
    split at h
    · cases h
    · next d trim heq =>
      rw [heq]
      exact ⟨d, rfl, (Prod.mk.inj h).2.symm⟩

/-- An adopted decision is the proposal's. -/
theorem decision_of_adoptTrim {d d' : Issued} {g : GridStatus} {result : ControlResult}
    (h : (adoptTrim d g result c).2.trimDecision = some d') : d' = d := by
  unfold adoptTrim at h
  split at h
  · cases h
  · split at h
    · cases h
    · exact (Option.some.inj h).symm

theorem proposes_applyTrim (hsound : TrimSound s.controller) (hdated : Dated W t t' i)
    {chargeBattery : Bool} {result : ControlResult} :
    Proposes t' s.controller (applyTrim k chargeBattery result i.trim s).controller := by
  obtain ⟨x, -, hx, hx', -⟩ := hdated.trim
  have hnoted := resets_noteTrimMode s.controller
  have hasked : Proposes t' s.controller { noteTrimMode s.controller with
      submeterTrim :=
        (proposeTrim i.trim k.sys chargeBattery result (noteTrimMode s.controller)).2 } := by
    intro p hp
    rcases Trim.Steps.propose_pending (hnoted.uncommitted.sound hsound).toCore hp with hold | hnow
    · exact Or.inl ((Shrinks.of_resets hnoted).pending p hold)
    · right
      rw [← Option.some.inj hnow]
      exact hx.trans hx'
  unfold applyTrim
  split
  · exact fun p hp => (by cases hp)
  · next command c' heq =>
    rcases applySubmeterTrim_cases heq with ⟨-, rfl⟩ | ⟨-, d, -, rfl⟩
    · exact fun p hp => Or.inl hp
    · exact hasked.shrinks (Shrinks.of_resets (resets_adoptTrim _ _ _ _))

/-- The window after the proposal of a calculation: a charge clears it, and otherwise the new report is
apart from those before. -/
theorem spread_proposeTrim (h : Inv W start t s) (hdated : Dated W t t' i) {chargeBattery : Bool}
    {result : ControlResult} (hpc : s.pc = .trimming k chargeBattery result)
    (henabled : s.controller.submeterTrim.enabled = true) {d : Issued}
    (hd : (proposeTrim i.trim k.sys chargeBattery result (noteTrimMode s.controller)).1 = some d)
    (hcharge : s.controller.calculatedChargeBattery = true) :
    Spread W start (Taken W start t')
      (proposeTrim i.trim k.sys chargeBattery result (noteTrimMode s.controller)).2.reports := by
  have hnoted := resets_noteTrimMode s.controller
  have hsound : Sound (noteTrimMode s.controller).submeterTrim := hnoted.uncommitted.sound h.sound
  cases chargeBattery with
  | true =>
    have hnil : (proposeTrim i.trim k.sys true result (noteTrimMode s.controller)).2.reports = [] := by
      refine List.eq_nil_iff_forall_not_mem.mpr fun r hr => ?_
      obtain ⟨v, s', hpassed, -⟩ := Trim.Steps.propose_reports hsound.toCore hd hr
      have heligible := (Trim.Steps.granted_of_passed hpassed).eligible
      simp [trimProposal, trimReason_charge] at heligible
    rw [hnil]
    exact Spread.nil
  | false =>
    obtain ⟨x, hclock, hx, hx', hwall⟩ := hdated.trim
    have hopened := (h.trimming k result hpc hcharge henabled).subset
      (Shrinks.of_resets hnoted).reports
    refine spread_propose hsound.toCore h.since hopened hd rfl ?_ hclock hx hx'
    exact congrArg PyValue.float hwall

/-- **While a forced charge lasts, a calculation makes no trim.** -/
theorem still_of_applyTrim (hW : Steady W start) (h : Inv W start t s) (hdated : Dated W t t' i)
    {chargeBattery : Bool} {result : ControlResult} (hpc : s.pc = .trimming k chargeBattery result)
    {command : Command}
    (happly : applySubmeterTrim i.trim k.sys chargeBattery result s.controller = (some command, c'))
    (hcharge : s.controller.calculatedChargeBattery = true) :
    Still c' ∧ Charged W start (Taken W start t') c' := by
  rcases applySubmeterTrim_cases happly with ⟨hdisabled, rfl⟩ | ⟨henabled, d, hd, rfl⟩
  · constructor
    · intro d hd
      rw [(h.decided.trimming k chargeBattery result hpc).1] at hd
      cases hd
    · intro henabled
      rw [hdisabled] at henabled
      cases henabled
  have hnoted := resets_noteTrimMode s.controller
  have hsound : Sound (noteTrimMode s.controller).submeterTrim := hnoted.uncommitted.sound h.sound
  have hspread := spread_proposeTrim h hdated hpc henabled hd hcharge
  have hsound' : Sound (proposeTrim i.trim k.sys chargeBattery result (noteTrimMode s.controller)).2 :=
    hsound.propose _
  have hnone := no_trim hW hsound' hspread
  constructor
  · intro d' hd'
    by_contra hmoves
    rw [decision_of_adoptTrim hd'] at hmoves
    have hissued := Trim.Steps.propose_issued hsound.toCore hd
    have hpending := hsound'.pending_of_issued hissued hmoves
    rw [hnone] at hpending
    cases hpending
  · have hcharged : Charged W start (Taken W start t') { noteTrimMode s.controller with
        submeterTrim :=
          (proposeTrim i.trim k.sys chargeBattery result (noteTrimMode s.controller)).2 } :=
      fun _ => hspread
    exact hcharged.shrinks (Shrinks.of_resets (resets_adoptTrim _ _ _ _))

/-! ### The write -/

/-- A decision that moves nothing is not asked for again. -/
theorem trimWriteReady_still (h : Still c) (x : TrimReadings) (g : GridStatus) :
    trimWriteReady x g c = (some true, c) := by
  unfold trimWriteReady
  split
  · rfl
  · next d hd => rw [if_pos (h d hd)]

/-- A charge that the checks leave had no ceiling. -/
theorem charge_of_checkCommand {automatic : Bool} {w : WriteReadings} {command : Command}
    (hauto : automatic = true)
    (h : (checkCommand automatic w command c).2.calculatedChargeBattery = true) :
    c.calculatedChargeBattery = true ∧ inExpensiveWindow w.tou = false := by
  have hbound : (boundSetpoint command c).2.calculatedChargeBattery = c.calculatedChargeBattery := by
    simp only [boundSetpoint]
    split_ifs <;> rfl
  have hev (command' : Command) (c' : InverterController) :
      (guardEv w.evPower command' c').2.calculatedChargeBattery = c'.calculatedChargeBattery := by
    simp only [guardEv]
    split_ifs <;> rfl
  unfold checkCommand guardCommand at h
  rw [if_pos hauto] at h
  unfold guardTouCharge at h
  split at h
  · next hceiling =>
    have hcharge := h
    rw [hev, hbound] at hcharge
    unfold touCeiling at hceiling
    rw [h, Bool.true_and] at hceiling
    exact ⟨hcharge, hceiling⟩
  · cases h

theorem proposes_trimWriteReady (hsound : TrimSound c) {x : TrimReadings} (hx : x.monotonic ≤ t')
    (g : GridStatus) :
    Proposes t' c (trimWriteReady x g c).2 := by
  unfold trimWriteReady
  split
  · exact fun p hp => Or.inl hp
  split_ifs
  · exact fun p hp => Or.inl hp
  · intro p hp
    rcases Trim.Steps.propose_pending hsound.toCore hp with hold | hnow
    · exact Or.inl hold
    · right
      rw [← Option.some.inj hnow]
      exact hx
  · exact fun p hp => Or.inl hp

/-- **A write that keeps the charge** found the window inactive, and added no report. -/
theorem closed_of_attempt (h : Inv W start t s) (hdated : Dated W t t' i) {current : GridStatus}
    (hpc : s.pc = .writing k current) {x : Command × InverterController}
    (hx : attempt k current i.write s.controller = some x) (hauto : k.pendingManual = none)
    (hcharge : x.2.calculatedChargeBattery = true) : Charged W start (Closed W start t') x.2 := by
  obtain ⟨l, htime, htaken, htold, htou⟩ := hdated.write
  obtain ⟨x', hcommit, hx', -⟩ := hdated.commit
  obtain ⟨-, rfl⟩ := attempt_eq hx
  obtain ⟨trim, hstate⟩ := trimWriteReady_state i.write.trim current s.controller
  obtain ⟨hbefore, hinactive⟩ := charge_of_checkCommand (decide_eq_true hauto) hcharge
  have hcalculated : s.controller.calculatedChargeBattery = true := by
    rw [hstate] at hbefore
    exact hbefore
  obtain ⟨hstill, htakens⟩ := h.carrying k (by rw [hpc]; rfl) hcalculated
  rw [trimWriteReady_still hstill]
  rw [htou] at hinactive
  have hclosed : Charged W start (Closed W start t') s.controller :=
    htakens.imp fun r hr => hr.closed (htime.trans htaken) hinactive (htold.trans (hcommit.trans hx'))
  exact hclosed.shrinks (Shrinks.of_resets (resets_checkCommand _ _ _ _))

theorem proposes_write (h : Inv W start t s) (hdated : Dated W t t' i) {current : GridStatus} :
    Proposes t' s.controller (write k current i.write s).1.controller := by
  obtain ⟨l, -, htaken, htold, -⟩ := hdated.write
  obtain ⟨x', hcommit, hx', -⟩ := hdated.commit
  have hready := proposes_trimWriteReady h.sound
    (htaken.trans (l.taken_le_told.trans (htold.trans (hcommit.trans hx')))) current
  have hattempt {x : Command × InverterController}
      (hx : attempt k current i.write s.controller = some x) :
      Proposes t' s.controller x.2 := by
    rw [(attempt_eq hx).2]
    exact hready.shrinks (Shrinks.of_resets (resets_checkCommand _ _ _ _))
  cases write_cases k current i.write s with
  | notReady c hx hcore heq hreset =>
    obtain ⟨reason, rfl⟩ := hreset
    rw [heq]
    exact hready.shrinks (Shrinks.of_resets (resets_reset _ _))
  | accepted x hx hr heq =>
    rw [heq]
    have hsound : TrimSound x.2 := (uncommitted_attempt hx).sound h.sound
    exact (hattempt hx).shrinks
      (shrinks_commitDecision (c := answered k i.write x s.controller) hsound i.write)
  | refused x hx hr heq =>
    rw [heq]
    exact (hattempt hx).shrinks (Shrinks.of_resets (resets_reset "write_rejected" _))
  | raised x hx hr heq =>
    rw [heq]
    exact (hattempt hx).shrinks (Shrinks.of_resets (resets_reset "cycle_error" _))

/-- After a write, a forced charge that goes on has closed every report. -/
theorem closed_of_write (h : Inv W start t s) (hdated : Dated W t t' i) {current : GridStatus}
    (hpc : s.pc = .writing k current)
    (hlast : (write k current i.write s).1.controller.lastSetpointWasCharge = true) :
    Charged W start (Closed W start t') (write k current i.write s).1.controller := by
  cases write_cases k current i.write s with
  | notReady c hx hcore heq hreset =>
    obtain ⟨reason, rfl⟩ := hreset
    rw [heq]
    exact charged_of_nil rfl
  | accepted x hx hr heq =>
    rw [heq] at hlast ⊢
    have hsound : TrimSound x.2 := (uncommitted_attempt hx).sound h.sound
    simp only [goTo_controller, acceptControlSetpoint, answered, Bool.and_eq_true,
      decide_eq_true_eq] at hlast
    have hclosed := closed_of_attempt h hdated hpc hx hlast.1 hlast.2
    exact hclosed.shrinks
      (shrinks_commitDecision (c := answered k i.write x s.controller) hsound i.write)
  | refused x hx hr heq =>
    rw [heq]
    exact charged_of_nil rfl
  | raised x hx hr heq =>
    rw [heq]
    exact charged_of_nil rfl

/-! ### One event -/

theorem proposes_stepControl (h : Inv W start t s) (hdated : Dated W t t' i) :
    Proposes t' s.controller (stepControl i s).1.controller := by
  cases hpc : s.pc with
  | trimming k chargeBattery result =>
    simp only [stepControl, hpc]
    exact proposes_applyTrim h.sound hdated
  | writing k current =>
    simp only [stepControl, hpc]
    exact proposes_write h hdated
  | _ =>
    refine proposes_of_shrinks (Shrinks.of_resets (resets_stepControl ?_ ?_ i))
    · rw [hpc]
      exact fun _ _ _ => ControlPc.noConfusion
    · rw [hpc]
      exact fun _ _ => ControlPc.noConfusion

theorem pending_of_carrying {pc : ControlPc} (h : carrying pc = some k) : pending pc = some k := by
  unfold carrying at h
  split at h
  · exact h
  · exact h
  · exact h
  · exact h
  · exact h
  · cases h

/-- A cycle that ends before its write resets the trim. -/
theorem cleared_of_left (hk : carrying s.pc = some k) (hwriting : ∀ k current, s.pc ≠ .writing k current)
    (hleft : carrying (stepControl i s).1.pc = none) :
    (stepControl i s).1.controller.submeterTrim.reports = [] := by
  cases hpc : s.pc with
  | calculated k' =>
    simp only [stepControl, hpc, readGrid] at hleft ⊢
    split_ifs at hleft ⊢
    · rfl
    · cases hleft
  | gate caller g stage =>
    rw [hpc] at hk
    cases caller with
    | override => cases hk
    | first generation => cases hk
    | second k' =>
      cases stage with
      | start =>
        simp only [stepControl, hpc, stepGate, startGate, checkSelection] at hleft ⊢
        split_ifs at hleft ⊢
        · rfl
        · rfl
        · cases hleft
      | readTriggered =>
        simp only [stepControl, hpc, stepGate] at hleft ⊢
        split_ifs at hleft ⊢
        · rfl
        · cases hleft
      | checkInvalid => cases hk
      | checkTriggered => cases hk
      | update ready =>
        cases ready with
        | false => cases hk
        | true =>
          simp only [stepControl, hpc, stepGate, answerGate] at hleft
          cases hleft
  | writing k' current => exact absurd hpc (hwriting k' current)
  | _ => rw [hpc] at hk; cases hk

/-- A calculation that asks for no trim resets it. -/
theorem cleared_of_calculate {generation : ℕ} {sys : GridStatus} {r : Readings}
    (h : carrying (Threads.calculate generation sys r s).pc = some k) :
    (Threads.calculate generation sys r s).controller.submeterTrim.reports = [] := by
  unfold Threads.calculate at h ⊢
  split at h
  · rfl
  · unfold calculateSetpoint at h ⊢
    split_ifs at h ⊢
    · rfl
    · cases h

/-- A calculation that goes on with a forced charge has found the window active. -/
theorem opened_of_calculate (h : Inv W start t s) (hdated : Dated W t t' i) {generation : ℕ}
    {sys : GridStatus} (hpc : s.pc = .ready generation sys) {result : ControlResult}
    (htrimming : (Threads.calculate generation sys i.readings s).pc = .trimming k false result)
    (hcharge : (Threads.calculate generation sys i.readings s).controller.calculatedChargeBattery =
      true) :
    Charged W start (Opened W start t') (Threads.calculate generation sys i.readings s).controller := by
  obtain ⟨l, htaken, htold, htou⟩ := hdated.tou
  have hresting : Resting s.pc := by
    rw [hpc]
    exact ⟨rfl, fun _ _ _ => ControlPc.noConfusion⟩
  have hclosed := h.resting hresting
  unfold Threads.calculate at htrimming hcharge ⊢
  cases hmanual : s.controller.manualSetpoint with
  | some value =>
    simp only [hmanual] at htrimming
    cases htrimming
  | none =>
    simp only [hmanual] at htrimming hcharge ⊢
    unfold calculateSetpoint at htrimming hcharge ⊢
    split_ifs at htrimming hcharge ⊢
    · cases htrimming
    · simp only [goTo_pc, ControlPc.trimming.injEq] at htrimming
      have hasked := htrimming.2.1
      simp only [goTo_controller, regulate, calculatedCharge, hasked, Bool.false_and, Bool.false_or,
        Bool.and_eq_true, htou] at hcharge
      have hopened : Charged W start (Opened W start t') s.controller :=
        (hclosed hcharge.1).imp fun r hr => hr.opened htaken hcharge.2 htold
      exact hopened.shrinks ⟨fun _ hr => hr, fun _ hp => hp, rfl⟩

theorem resting_stepControl (h : Inv W start t s) (ht : t ≤ t') (hdated : Dated W t t' i)
    (hresting : Resting (stepControl i s).1.pc)
    (hlast : (stepControl i s).1.controller.lastSetpointWasCharge = true) :
    Charged W start (Closed W start t') (stepControl i s).1.controller := by
  cases hpc : s.pc with
  | trimming k chargeBattery result =>
    simp only [stepControl, hpc, applyTrim] at hresting ⊢
    split at hresting
    · exact charged_of_nil rfl
    · cases hresting.1
  | writing k current =>
    simp only [stepControl, hpc] at hlast ⊢
    exact closed_of_write h hdated hpc hlast
  | _ =>
    have htrimming : ∀ k chargeBattery result, s.pc ≠ .trimming k chargeBattery result := by
      rw [hpc]
      exact fun _ _ _ => ControlPc.noConfusion
    have hwriting : ∀ k current, s.pc ≠ .writing k current := by
      rw [hpc]
      exact fun _ _ => ControlPc.noConfusion
    cases hk : carrying s.pc with
    | some k => exact charged_of_nil (cleared_of_left hk hwriting hresting.1)
    | none =>
      have hnone : accepted s (.control i) = none := by
        cases haccepted : accepted s (.control i) with
        | none => rfl
        | some k =>
          obtain ⟨i', k', current, x, -, hw, -⟩ := accepted_eq_some haccepted
          exact absurd hw.pc (hwriting k' current)
      have hsame : s.controller.lastSetpointWasCharge = true := (last_next hnone).symm.trans hlast
      have hclosed := (h.resting ⟨hk, htrimming⟩ hsame).imp fun r hr => hr.mono ht
      exact hclosed.shrinks (Shrinks.of_resets (resets_stepControl htrimming hwriting i))

theorem trimming_stepControl (h : Inv W start t s) (hdated : Dated W t t' i) {result : ControlResult}
    (hpc : (stepControl i s).1.pc = .trimming k false result)
    (hcharge : (stepControl i s).1.controller.calculatedChargeBattery = true) :
    Charged W start (Opened W start t') (stepControl i s).1.controller := by
  have hpending : pending (stepControl i s).1.pc = some k := by
    rw [hpc]
    rfl
  cases pending_cases hpending with
  | kept hk hne => exact absurd hpc (hne k false result)
  | trimmed k' cb r command hpc' hk hnext =>
    rw [hpc] at hnext
    cases hnext
  | calculated generation sys hready hk =>
    have hstep : (stepControl i s).1 = Threads.calculate generation sys i.readings s := by
      simp only [stepControl, hready]
    rw [hstep] at hpc hcharge ⊢
    exact opened_of_calculate h hdated hready hpc hcharge

theorem carrying_stepControl (hW : Steady W start) (h : Inv W start t s) (ht : t ≤ t')
    (hdated : Dated W t t' i) (hk : carrying (stepControl i s).1.pc = some k)
    (hcharge : (stepControl i s).1.controller.calculatedChargeBattery = true) :
    Still (stepControl i s).1.controller ∧
    Charged W start (Taken W start t') (stepControl i s).1.controller := by
  cases carrying_cases hk with
  | kept hbefore hpart =>
    have hquiet : isQuiet s.pc = true := by
      cases hpc : s.pc with
      | ready generation sys => rw [hpc] at hbefore; cases hbefore
      | writing k' current => exact (TouWindow.pending_write hpc (pending_of_carrying hk)).elim
      | written k' ok => rw [hpc] at hbefore; cases hbefore
      | _ => rfl
    have hsame : s.controller.calculatedChargeBattery = true := by
      rw [← hcharge]
      exact (congrArg Charging.calculated (charging_quiet hquiet)).symm
    have htrim : (stepControl i s).1.controller.submeterTrim = s.controller.submeterTrim :=
      congrArg TrimPart.trim hpart
    have hdecision : (stepControl i s).1.controller.trimDecision = s.controller.trimDecision :=
      congrArg TrimPart.decision hpart
    obtain ⟨hstill, htaken⟩ := h.carrying k hbefore hsame
    constructor
    · intro d hd
      rw [hdecision] at hd
      exact hstill d hd
    · exact (htaken.imp fun r hr => hr.mono ht).shrinks (Shrinks.of_resets (resets_of_eq htrim))
  | adopted k' chargeBattery result command hpc hk' happly =>
    have hcore := congrArg Core.calculatedChargeBattery
      (applySubmeterTrim_core i.trim k'.sys s.controller chargeBattery result)
    rw [happly] at hcore
    exact still_of_applyTrim hW h hdated hpc happly (hcore.symm.trans hcharge)
  | undecided hready hnone =>
    obtain ⟨generation, sys, hpc⟩ := hready
    have hstep : (stepControl i s).1 = Threads.calculate generation sys i.readings s := by
      simp only [stepControl, hpc]
    constructor
    · intro d hd
      rw [hnone] at hd
      cases hd
    · rw [hstep] at hk ⊢
      exact charged_of_nil (cleared_of_calculate hk)

/-- **A step of the control thread.** -/
theorem Inv.stepControl (hW : Steady W start) (h : Inv W start t s) (ht : t ≤ t')
    (hdated : Dated W t t' i) :
    Inv W start t' (stepControl i s).1 where
  since := h.since.trans ht
  sound := trimSound_next h.sound (.control i)
  decided := h.decided.stepControl h.sound i
  proposed := fun p hp => by
    rcases proposes_stepControl h hdated p hp with hold | hnew
    · exact (h.proposed p hold).trans ht
    · exact hnew
  resting := resting_stepControl h ht hdated
  trimming := fun _ _ => trimming_stepControl h hdated
  carrying := fun _ => carrying_stepControl hW h ht hdated

/-- Another thread that ends the cycle resets the trim. -/
theorem cleared_of_ended (he : ∀ i, e ≠ .control i) (hpc : (Threads.next s e).pc ≠ s.pc) :
    (Threads.next s e).controller.submeterTrim.reports = [] := by
  cases e with
  | control i => exact absurd rfl (he i)
  | abort =>
    cases hidle : s.pc with
    | idle => simp only [Threads.next, perform, abort, hidle, ne_eq, not_true_eq_false] at hpc
    | _ =>
      simp only [Threads.next, perform, abort, hidle]
      rfl
  | mqtt arg requestId env =>
    simp only [Threads.next, perform, stepMqtt] at hpc
    cases hm : s.mqtt <;> rw [hm] at hpc <;> exact absurd rfl hpc
  | _ => exact absurd rfl hpc

/-- **An event of another thread.** -/
theorem Inv.other (h : Inv W start t s) (ht : t ≤ t') (he : ∀ i, e ≠ .control i) :
    Inv W start t' (Threads.next s e) := by
  have hshrinks := Shrinks.of_resets (resets_other (s := s) he)
  have hcharging := charging_other (s := s) he
  have hcalculated : (Threads.next s e).controller.calculatedChargeBattery =
    s.controller.calculatedChargeBattery :=
    congrArg Charging.calculated hcharging
  have hlast : (Threads.next s e).controller.lastSetpointWasCharge =
    s.controller.lastSetpointWasCharge :=
    congrArg Charging.last hcharging
  have hbusy (hidle : (Threads.next s e).pc ≠ .idle) :
      (Threads.next s e).pc = s.pc ∧ trimPart (Threads.next s e).controller = trimPart s.controller :=
    trimPart_other he hidle
  refine ⟨h.since.trans ht, trimSound_next h.sound e, h.decided.next h.sound e, ?_, ?_, ?_, ?_⟩
  · exact fun p hp => (h.proposed p (hshrinks.pending p hp)).trans ht
  · intro hresting hcharge
    by_cases hsame : (Threads.next s e).pc = s.pc
    · rw [hsame] at hresting
      rw [hlast] at hcharge
      exact ((h.resting hresting hcharge).imp fun r hr => hr.mono ht).shrinks hshrinks
    · exact charged_of_nil (cleared_of_ended he hsame)
  · intro k result hpc hcharge
    obtain ⟨hsame, -⟩ := hbusy (by rw [hpc]; exact ControlPc.noConfusion)
    rw [hcalculated] at hcharge
    exact ((h.trimming k result (hsame.symm.trans hpc) hcharge).imp fun r hr => hr.mono ht).shrinks
      hshrinks
  · intro k hk hcharge
    obtain ⟨hsame, hpart⟩ := hbusy fun hidle => by
      rw [hidle] at hk
      cases hk
    rw [hcalculated] at hcharge
    rw [hsame] at hk
    obtain ⟨hstill, htaken⟩ := h.carrying k hk hcharge
    constructor
    · intro d hd
      rw [show (Threads.next s e).controller.trimDecision = _ from congrArg TrimPart.decision hpart]
        at hd
      exact hstill d hd
    · exact (htaken.imp fun r hr => hr.mono ht).shrinks hshrinks

theorem Inv.next (hW : Steady W start) (h : Inv W start t s) (ht : t ≤ t')
    (hdated : ∀ i, e = .control i → Dated W t t' i) : Inv W start t' (Threads.next s e) := by
  by_cases he : ∃ i, e = .control i
  · obtain ⟨i, rfl⟩ := he
    exact h.stepControl hW ht (hdated i rfl)
  · exact h.other ht fun i hi => he ⟨i, hi⟩

/-! ### Runs -/

theorem inv_init (p : Setup) (now : ℚ) : Inv W start start (Threads.init p now) where
  since := le_rfl
  sound := trim_exec p now []
  decided := decided_exec p now []
  proposed := fun _ hp => by cases hp
  resting := fun _ hlast => by cases hlast
  trimming := fun _ _ hpc => by cases hpc
  carrying := fun _ hk => by cases hk

/-- **Run.** -/
theorem inv_exec (hW : Steady W start) {a b : List Event} (h : Inv W start t s)
    (hes : Timely W t (a ++ b)) :
    ∃ t', Inv W start t' (exec Threads.next s a) ∧ Timely W t' b := by
  induction a generalizing s t with
  | nil => exact ⟨t, h, hes⟩
  | cons e a ih =>
    obtain ⟨t', ht, hdated, hrest⟩ := hes
    exact ih (h.next hW ht hdated) hrest

/-- **The trim at the actuator.**  In every run in which the readings are those of steady clocks and
of the tariff reader, a write that includes a trim is checked under its lock, and commits its
decision exactly once. -/
theorem trim_at_actuator (p : Setup) (now : ℚ) (es : List Event) (hW : Steady W start)
    (hes : Timely W start es) :
    TrimAtActuator (Threads.init p now) es := by
  refine (actuator_iff p now es).mpr ?_
  rintro a x b i c d k rfl hwrite
  obtain ⟨⟨k', current, y, hw, hcarries⟩, -⟩ := hwrite.reaches
  obtain ⟨t, hinv, t', ht, hdated, -⟩ :=
    inv_exec hW (a := a ++ x :: b) (b := .control i :: c) (inv_init p now)
    (by simpa using hes)
  obtain ⟨l, htime, htaken, htold, -⟩ := (hdated i rfl).write
  obtain ⟨u, hcommit, -, hwall⟩ := (hdated i rfl).commit
  generalize exec Threads.next (Threads.init p now) (a ++ x :: b) = s at hw hcarries hinv
  have hclock : t ≤ i.write.commitMonotonic := htime.trans (htaken.trans (l.taken_le_told.trans htold))
  have hproposed := hinv.proposed d (hcarries.sound.pending_of_issued hcarries.issued hwrite.moves)
  have hcharge : s.controller.calculatedChargeBattery = false := by
    refine Bool.eq_false_iff.mpr fun hcharge => hwrite.moves ?_
    exact (hinv.carrying k' (by rw [hw.pc]; rfl) hcharge).1 d hcarries.decision
  constructor
  · rw [touCeiling, hcharge, Bool.false_and]
  · exact hproposed.trans hclock
  · rw [hwall]
    exact hW.positive u (hinv.since.trans (hclock.trans hcommit))

/-! ### A run with a trim -/

/-- Clocks that agree, and settings without an expensive window that are published at the instant 1. -/
def steadyWorld : World Unit where
  wall := id
  hour := fun _ _ => 12
  worker :=
    [(1, { now := 1 }),
      (1, { outcome := .returned fun key =>
        some (if key = "timezone" then .timezone () else .setting (.int (-1))) }),
      (1, {}), (1, {})]

theorem steady_steadyWorld : Steady steadyWorld 1 where
  paced := by
    simp [Background.Pace.Paced, steadyWorld, Background.Model.run, Background.Model.refreshed]
  positive := fun t ht => lt_of_lt_of_le one_pos ht
  advances := fun t t' _ h => by
    show t + 30 ≤ t'
    linarith
  hours := fun _ _ _ _ _ _ _ _ _ _ => Or.inl rfl

/-- A look within one instant. -/
def lookAt (t : ℚ) : Look := ⟨t, t, t, le_rfl, le_rfl⟩

theorem steadyWorld_tou (h : 1 ≤ t) (h' : t < 180) : steadyWorld.tou (lookAt t) = flatTariff := by
  have hage : ¬ 3 * touSettingTtlSeconds ≤ t - 1 := by
    unfold touSettingTtlSeconds
    linarith
  simp [World.tou, World.reader, World.readingOf, lookAt, steadyWorld, Background.Pace.readerAt, h,
    Background.Model.run, Background.Model.refreshed, Background.Model.read,
    Background.Model.merged, hage, settingOf, timezoneOf, flatTariff]

/-- The default limits, with a submeter that the trim goes by. -/
def trimSetup : Setup where
  config := defaultConfig (some "com.victronenergy.acload.main") 0
  limits := plainSetup.limits
  dryRun := false
  trimEnabled := true
  timeoutSeconds := 30
  gridLossHoldSeconds := none

/-- What the control thread reads at the time `t`: a balanced primary meter, and a submeter with 30 W of
import. -/
def trimInputs (t : ℚ) : Inputs where
  grid :=
    { primaryGrid t 0 with
      backupStatus := ⟨true, "com.victronenergy.acload.main", 0, some 31, some 30, some t, some 0⟩ }
  env := acceptingEnv t
  readings := ⟨t, flatTariff, flatTariff, 0, 0, 0, .int 0, 0, none, some 0⟩
  trim := ⟨t, t, false, true⟩
  write := ⟨⟨t, t, false, true⟩, .int 0, flatTariff, t, t, acceptingEnv t⟩

/-- The control thread takes a cycle's steps at each of the times. -/
def trimCycles (times : List ℚ) : List Event :=
  times.flatMap fun t => List.replicate 13 (.control (trimInputs t))

theorem dated_trimInputs (h : 1 ≤ t') (h' : t' < 180) (ht : t ≤ t') :
    Dated steadyWorld t t' (trimInputs t') where
  tou := ⟨lookAt t', ht, le_rfl, (steadyWorld_tou h h').symm⟩
  trim := ⟨t', ht, le_rfl, le_rfl, rfl⟩
  write := ⟨lookAt t', ht, le_rfl, le_rfl, (steadyWorld_tou h h').symm⟩
  commit := ⟨t', le_rfl, le_rfl, rfl⟩

theorem timely_trimCycles {times : List ℚ} (hsorted : (t :: times).Pairwise (· ≤ ·)) (h : 1 ≤ t)
    (h' : ∀ u ∈ times, u < 180) : Timely steadyWorld t (trimCycles times) := by
  induction times generalizing t with
  | nil => trivial
  | cons u times ih =>
    obtain ⟨hfirst, hrest⟩ := List.pairwise_cons.mp hsorted
    have htu := hfirst u (by simp)
    have hlater := ih hrest (h.trans htu) fun v hv => h' v (List.mem_cons_of_mem u hv)
    have hsteps (n : ℕ) {t : ℚ} (ht : t ≤ u) :
        Timely steadyWorld t (List.replicate (n + 1) (.control (trimInputs u)) ++ trimCycles times) := by
      have hdated {t : ℚ} (ht : t ≤ u) : ∀ i, Event.control (trimInputs u) = .control i →
        Dated steadyWorld t u i := by
        intro i hi
        obtain rfl := Event.control.inj hi
        exact dated_trimInputs (h.trans htu) (h' u (by simp)) ht
      induction n generalizing t with
      | zero => exact ⟨u, ht, hdated ht, hlater⟩
      | succ n ih' => exact ⟨u, ht, hdated ht, ih' le_rfl⟩
    exact hsteps 12 htu

/-- Five reports fill the window, and the trim is written and committed. -/
theorem trim_at_actuator_filled :
    TrimAtActuator (Threads.init trimSetup 1) (trimCycles [1, 2, 10, 14, 18, 21, 24, 27]) ∧
      ((trace Threads.next (Threads.init trimSetup 1)
        (trimCycles [1, 2, 10, 14, 18, 21, 24, 27])).filterMap fun x =>
        (committedIn x.before x.input).map fun d => (d.decision.delta, d.decision.setpoint)) =
          [(0, 0), (0, 0), (0, 0), (0, 0), (0, 0), (0, 0), (-4, -4)] :=
  ⟨trim_at_actuator trimSetup 1 _ steady_steadyWorld
    (timely_trimCycles (by decide +kernel) le_rfl (by decide +kernel)), by decide +kernel⟩

end InverterControl.Controller.TrimWrites
