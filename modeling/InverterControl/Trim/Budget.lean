import InverterControl.Controller.Model
import InverterControl.Trim.Accounting

/-!
# The budget over a whole run

The trim's allowance of 60 W is kept for a context: the source key of the primary meter and the
identity of the submeter.  Both hold a generation, which `GridBackup` advances: its own when the
submeter's service comes or goes, the selection's when the backup takes over or hands back.
`Installation` composes the two, and the deltas committed in a run stay within the allowance as long as
no generation changes under an outstanding trim.
-/

namespace InverterControl.Trim.Budget

open InverterControl.Lib.Runs InverterControl.Python InverterControl.Trim.Model
open InverterControl.Trim.Steps InverterControl.Trim.Accounting
open InverterControl.Backup.Model (BackupFields GridBackup GridStatus Primary)
open InverterControl.Controller.Model (optionalInt sampleOf trimSourceKey primaryAvailable)

/-! ### The composition -/

/-- The backup meter, the status it selected last, the trim, and the setpoint that was committed
last. -/
structure Installation where
  backup : GridBackup
  grid : Option GridStatus := none
  trim : SubmeterTrim
  previous : ℤ
  deriving DecidableEq

/-- The other arguments of a proposal: the readings of a control cycle, and whether its mode allows a
trim. -/
structure Cycle where
  now : PyValue
  wallTime : PyValue
  baseSetpoint : PyValue
  eligible : Bool
  reason : String
  rawGrid : PyValue
  filteredGrid : PyValue
  minSetpoint : PyValue
  maxSetpoint : PyValue
  deriving DecidableEq

inductive Event
  /-- The submeter's service appeared or disappeared. -/
  | invalidate
  | replace (fields : BackupFields) (generation : ℕ) (now wall : ℚ)
  | select (p : Primary) (now wall : ℚ)
  | propose (c : Cycle)
  | commit (h : Handle) (now wallTime : PyValue)
  | reset (reason : String)
  deriving DecidableEq

/-- The proposal of a cycle. -/
def proposal (g : GridStatus) (previous : ℤ) (c : Cycle) : Proposal where
  now := c.now
  wallTime := c.wallTime
  previousSetpoint := .int previous
  baseSetpoint := c.baseSetpoint
  sample := some (sampleOf g.backupStatus)
  eligible := .bool (primaryAvailable g && c.eligible)
  reason := if primaryAvailable g then c.reason else "primary_unavailable"
  rawGrid := c.rawGrid
  filteredGrid := c.filteredGrid
  minSetpoint := c.minSetpoint
  maxSetpoint := c.maxSetpoint
  sourceKey := some (trimSourceKey g)

/-- The setpoint after a commit: the committed one. -/
def previousAfter (h : Handle) (now wallTime : PyValue) (s : Installation) : ℤ :=
  match commits h now wallTime s.trim with
  | some (i, _, _) => i.decision.setpoint
  | none => s.previous

/-- One event.  There is no cycle before the first selection. -/
def next (s : Installation) : Event → Installation
  | .invalidate => { s with backup := Backup.Model.invalidate s.backup }
  | .replace fields generation now wall =>
    { s with backup := Backup.Model.replace fields generation now wall s.backup }
  | .select p now wall =>
    { s with
      grid := some (Backup.Model.select p now wall s.backup).1
      backup := (Backup.Model.select p now wall s.backup).2 }
  | .propose c =>
    match s.grid with
    | some g => { s with trim := (propose (proposal g s.previous c) s.trim).2 }
    | none => s
  | .commit h now wallTime =>
    { s with
      trim := (commit h now wallTime s.trim).2
      previous := previousAfter h now wallTime s }
  | .reset reason => { s with trim := reset reason s.trim }

/-- The start, with the setpoint in force. -/
def init (backup : GridBackup) (service : Option String) (deviceInstance : Option ℤ)
    (previous : ℤ) : Installation where
  backup := backup
  trim := Model.init true service deviceInstance
  previous := previous

/-! ### What a run is about -/

/-- The decision that an event commits. -/
def accepted (x : Taken Installation Event) : Option Issued :=
  match x.input with
  | .commit h now wallTime => committed x.before.trim (.commit h now wallTime)
  | _ => none

/-- The decisions that a run commits. -/
def committedBy (past : List (Taken Installation Event)) : List TrimDecision :=
  past.filterMap fun x => (accepted x).map (·.decision)

/-- The delta of a trim. -/
def trimOf (d : TrimDecision) : ℤ := if d.kind = .trim then d.delta else 0

/-- The sum of the committed trims. -/
def spent (past : List (Taken Installation Event)) : ℤ := ((committedBy past).map trimOf).sum

theorem spent_snoc_none {past : List (Taken Installation Event)} {x : Taken Installation Event}
    (h : accepted x = none) : spent (past ++ [x]) = spent past := by
  simp [spent, committedBy, h]

theorem spent_snoc_some {past : List (Taken Installation Event)} {x : Taken Installation Event}
    {i : Issued} (h : accepted x = some i) :
    spent (past ++ [x]) = spent past + trimOf i.decision := by
  simp [spent, committedBy, h]

/-- The primary meter, whenever it is valid, is the device `deviceInstance` of `source`. -/
def samePrimary (source : String) (deviceInstance : ℤ) : Event → Prop
  | .select p _ _ => p.valid = true → p.source = some source ∧ p.sourceInstance = some deviceInstance
  | _ => True

instance (source : String) (deviceInstance : ℤ) (e : Event) :
    Decidable (samePrimary source deviceInstance e) := by
  unfold samePrimary
  split <;> infer_instance

/-- Another generation of the submeter's service or of the selection. -/
def generationChanged (c c' : Context) : Prop :=
  c.identity.generation ≠ c'.identity.generation ∨ c.source.2.getLast? ≠ c'.source.2.getLast?

instance (c c' : Context) : Decidable (generationChanged c c') := by
  unfold generationChanged; infer_instance

/-- What a proposal sees that passes every check. -/
def passing (x : Taken Installation Event) : Option View :=
  match x.input, x.before.grid with
  | .propose c, some g =>
    match examine (proposal g x.before.previous c) x.before.trim with
    | .passed v _ => some v
    | .answered _ => none
  | _, _ => none

/-- A proposal passes the checks with another generation than that of the baseline, whose trims are not
all taken back. -/
def renews (x : Taken Installation Event) : Prop :=
  x.before.trim.totalTrim ≠ 0 ∧ ∃ v c, passing x = some v ∧ x.before.trim.context = some c ∧
    generationChanged c v.context

instance (x : Taken Installation Event) : Decidable (renews x) :=
  decidable_of_iff (x.before.trim.totalTrim ≠ 0 ∧ ((passing x).any fun v =>
    x.before.trim.context.any fun c => generationChanged c v.context) = true) (by
      simp [renews, Option.any_eq_true])

variable {s s' : SubmeterTrim} {v : View}

/-! ### The pinned identity -/

/-- The configured or pinned identity. -/
def pins (s : SubmeterTrim) : Option String × Option ℤ := (s.service, s.deviceInstance)

theorem boundedTrimDecision_pins (v : View) (average : ℚ) (s : SubmeterTrim) :
    pins (boundedTrimDecision v average s).2 = pins s := by
  unfold boundedTrimDecision
  split_ifs <;> rfl

theorem decideWindow_pins (v : View) (fresh : Bool) (s : SubmeterTrim) :
    pins (decideWindow v fresh s).2 = pins s := by
  unfold decideWindow
  split_ifs
  · rfl
  · rfl
  split
  · rfl
  split_ifs
  · rfl
  · exact boundedTrimDecision_pins v _ s

theorem settleWindow_pins (v : View) (fresh : Bool) (s : SubmeterTrim) :
    pins (settleWindow v fresh s).2 = pins s := by
  have haverage : pins (noteAverage s) = pins s := by
    unfold noteAverage
    split_ifs <;> rfl
  unfold settleWindow
  split
  · rfl
  split
  · rfl
  split_ifs
  · exact haverage
  unfold reissue
  split
  · exact haverage
  · exact (decideWindow_pins v fresh _).trans haverage

theorem collectWindow_pins (v : View) (fresh : Bool) (s : SubmeterTrim) :
    pins (collectWindow v fresh s).2 = pins s := by
  unfold collectWindow
  split
  · rfl
  split_ifs
  · rfl
  · exact settleWindow_pins v _ _
  · exact settleWindow_pins v _ _

/-- The window does not touch the pinned identity. -/
theorem proposeWindow_pins (v : View) (s : SubmeterTrim) : pins (proposeWindow v s).2 = pins s := by
  unfold proposeWindow
  split
  · rfl
  split
  · rfl
  split
  · exact collectWindow_pins v _ _
  · exact collectWindow_pins v _ _

theorem updateBaseline_pins (v : View) (s : SubmeterTrim) : pins (updateBaseline v s) = pins s := by
  unfold updateBaseline
  split_ifs <;> rfl

theorem commit_pins (h : Handle) (now wallTime : PyValue) (s : SubmeterTrim) :
    pins (commit h now wallTime s).2 = pins s := by
  cases hc : commits h now wallTime s with
  | none => rw [(commit_of_not_commits hc).2]
  | some x =>
    rw [commit_of_commits hc]
    unfold pins acceptChange acceptCommand
    split_ifs <;> rfl

/-- A sample that is read comes from the pinned submeter. -/
theorem readSample_pinned {sample : Option Sample} {wall : ℚ} {r : Reading}
    (h : readSample sample wall s = .ok r) : ¬ foreign r.identity s := by
  unfold readSample at h
  split at h
  · cases h
  split_ifs at h
  split at h
  · cases h
  split_ifs at h with hf
  split at h
  · cases h
  · cases h
    exact hf

/-- A proposal that the checks answer leaves the identity `p`. -/
def answersWith (p : Option String × Option ℤ) : Examined → Prop
  | .answered r => pins r.2 = p
  | .passed _ _ => True

theorem pins_refuse (base previous : ℤ) (now : ℚ) (reason : String) (s : SubmeterTrim) :
    pins (refuse base previous now reason s).2 = pins s := rfl

theorem examineLimits_pins (a : Proposal) (previous : ℤ) (clock wall : ℚ) (s : SubmeterTrim) :
    answersWith (pins s) (examineLimits a previous clock wall s) := by
  unfold examineLimits
  split
  swap
  · exact rfl
  next low high _ _ =>
  split
  · exact rfl
  have hlimits : pins (noteLimits low high s) = pins s := by
    unfold noteLimits
    split_ifs <;> rfl
  unfold examineSource
  split
  swap
  · exact (pins_refuse _ _ _ _ _).trans hlimits
  split
  · exact (pins_refuse _ _ _ _ _).trans hlimits
  unfold examineSample
  split
  · exact (pins_refuse _ _ _ _ _).trans hlimits
  · trivial

theorem examine_pins (a : Proposal) (s : SubmeterTrim) : answersWith (pins s) (examine a s) := by
  unfold examine
  split
  · exact rfl
  unfold examineClock
  split
  swap
  · exact rfl
  split
  · exact rfl
  split
  · exact rfl
  unfold examineMode
  split
  · exact rfl
  split
  · exact rfl
  split
  · exact rfl
  split
  · exact rfl
  · exact examineLimits_pins a _ _ _ { s with lastNow := _ }

/-! ### The context -/

/-- The kept context is the pinned submeter's, and the source key of the primary meter. -/
structure Located (source : String) (deviceInstance : ℤ) (s : Installation) : Prop where
  grid : ∀ g, s.grid = some g → primaryAvailable g = true →
    g.source = some source ∧ g.sourceInstance = some deviceInstance
  pinned : ∀ c, s.trim.context = some c →
    pins s.trim = (some c.identity.service, some c.identity.deviceInstance)
  key : ∀ c, s.trim.context = some c → ∃ generation, c.source = (source, [deviceInstance, generation])
  placed : s.trim.context = none → s.trim.reports = [] ∧ s.trim.totalTrim = 0

variable {source : String} {deviceInstance : ℤ} {t : Installation}

theorem keyItems_int {n : ℤ} {vs : List PyValue} {ns : List ℤ}
    (h : keyItems (.int n :: vs) = some ns) : ∃ ms, ns = n :: ms ∧ keyItems vs = some ms := by
  unfold keyItems at h
  split at h
  · next m ms hm hms =>
    split_ifs at h
    obtain rfl := Option.some.inj h
    exact ⟨ms, by rw [eq_of_integer_int hm], hms⟩
  · cases h

/-- The key of a proposal that passes. -/
theorem source_of_granted {g : GridStatus} {previous : ℤ} {c : Cycle}
    (hg : primaryAvailable g = true → g.source = some source ∧
      g.sourceInstance = some deviceInstance)
    (h : Granted (proposal g previous c) s v s') :
    v.context.source = (source, [deviceInstance, (g.selectionGeneration : ℤ)]) := by
  have hel := h.eligible
  simp only [proposal, PyValue.bool.injEq, Bool.and_eq_true] at hel
  obtain ⟨hsrc, hinst⟩ := hg hel.1
  have hkey := h.source
  simp only [proposal, trimSourceKey, hsrc, hinst, optionalInt, validSourceKey] at hkey
  split at hkey
  swap
  · cases hkey
  obtain ⟨ns, hns, hsource⟩ := Option.map_eq_some_iff.mp hkey
  obtain ⟨ms, rfl, hms⟩ := keyItems_int hns
  obtain ⟨ls, rfl, hls⟩ := keyItems_int hms
  obtain rfl := Option.some.inj hls
  exact hsource.symm

/-- The identity of a proposal that passes is the pinned one, and stays pinned. -/
theorem identity_of_granted {a : Proposal} (h : Granted a s v s') :
    pins s' = (some v.context.identity.service, some v.context.identity.deviceInstance) ∧
      ¬ foreign v.context.identity s := by
  refine ⟨?_, readSample_pinned h.sample⟩
  rw [h.after]
  rfl

/-- A proposal passes in another context than the kept one: a generation changed. -/
theorem Located.generationChanged (h : Located source deviceInstance t) {g : GridStatus} {c : Cycle}
    (hgrid : t.grid = some g) (hv : Granted (proposal g t.previous c) t.trim v s') {ctx : Context}
    (hc : t.trim.context = some ctx) (hne : ctx ≠ v.context) : generationChanged ctx v.context := by
  by_contra hsame
  unfold Budget.generationChanged at hsame
  push Not at hsame
  obtain ⟨hgen, hsel⟩ := hsame
  have hpin := h.pinned ctx hc
  obtain ⟨-, hforeign⟩ := identity_of_granted hv
  unfold foreign at hforeign
  push Not at hforeign
  have hservice := hforeign.1 ctx.identity.service (congrArg Prod.fst hpin)
  have hinstance := hforeign.2 ctx.identity.deviceInstance (congrArg Prod.snd hpin)
  obtain ⟨generation, hkey⟩ := h.key ctx hc
  have hkey' := source_of_granted (h.grid g hgrid) hv
  refine hne ?_
  have hid : ctx.identity = v.context.identity := by
    cases hi : ctx.identity
    cases hi' : v.context.identity
    rw [hi, hi'] at hgen hservice hinstance
    simp_all
  have hsource : ctx.source = v.context.source := by
    rw [hkey, hkey'] at hsel ⊢
    simpa using hsel
  cases ctx
  cases hctx : v.context
  rw [hctx] at hid hsource
  simp_all

/-! ### One event -/

/-- The status of a selection that uses the primary meter names it. -/
theorem selectStatus_primary {p : Primary} {now wall : ℚ} {b : GridBackup}
    (h : primaryAvailable (Backup.Model.select p now wall b).1 = true) :
    p.valid = true ∧ (Backup.Model.select p now wall b).1.source = p.source ∧
      (Backup.Model.select p now wall b).1.sourceInstance = p.sourceInstance := by
  unfold Backup.Model.select Backup.Model.selectStatus at h ⊢
  simp only at h ⊢
  split_ifs at h ⊢ with hb
  · simp [primaryAvailable] at h
  · simp only [primaryAvailable, Bool.and_eq_true] at h
    exact ⟨h.1.1, rfl, rfl⟩

/-- A proposal keeps the place of the context, or moves it to its own. -/
theorem Located.propose (h : Located source deviceInstance t) (hs : Core t.trim) {g : GridStatus}
    (hg : t.grid = some g) (c : Cycle) :
    Located source deviceInstance
      { t with trim := (Model.propose (proposal g t.previous c) t.trim).2 } := by
  rcases propose_cases hs (proposal g t.previous c) with ⟨-, hr⟩ | ⟨_, -, ⟨r, hx⟩, hr⟩ |
    ⟨v, s', -, hx, hv, hready, hr⟩
  · rw [hr]
    exact ⟨h.grid, h.pinned, h.key, h.placed⟩
  · have hpins : pins (Model.propose (proposal g t.previous c) t.trim).2 = pins t.trim := by
      have := examine_pins (proposal g t.previous c) t.trim
      rw [hx] at this
      unfold Model.propose
      rw [hx]
      exact this
    refine ⟨h.grid, fun ctx hc => ?_, fun ctx hc => ?_, fun hc => ?_⟩
    · simp only [hr.context] at hc
      exact hpins.trans (h.pinned ctx hc)
    · simp only [hr.context] at hc
      exact h.key ctx hc
    · simp only [hr.context] at hc
      obtain ⟨hrep, htot⟩ := h.placed hc
      refine ⟨List.eq_nil_iff_forall_not_mem.mpr fun x hmem => ?_, hr.total.trans htot⟩
      rcases hr.reports x hmem with hmem | hmem
      · rw [hrep] at hmem
        cases hmem
      · exact hmem
  · have hgranted := granted_of_passed hx
    have hcontext := hr.context.trans hready.context
    have hpins : pins (Model.propose (proposal g t.previous c) t.trim).2 = pins s' := by
      unfold Model.propose
      rw [hx]
      exact (proposeWindow_pins v _).trans (updateBaseline_pins v s')
    refine ⟨h.grid, fun ctx hc => ?_, fun ctx hc => ?_, fun hc => ?_⟩
    · simp only [hcontext] at hc
      obtain rfl := Option.some.inj hc
      exact hpins.trans (identity_of_granted hgranted).1
    · simp only [hcontext] at hc
      obtain rfl := Option.some.inj hc
      exact ⟨_, source_of_granted (h.grid g hg) hgranted⟩
    · simp only [hcontext] at hc
      cases hc

theorem Located.commit (h : Located source deviceInstance t) (hs : Sound t.trim) (hd : Handle)
    (now wallTime : PyValue) (previous : ℤ) :
    Located source deviceInstance
      { t with trim := (Model.commit hd now wallTime t.trim).2, previous := previous } := by
  have hpins := commit_pins hd now wallTime t.trim
  cases hc : commits hd now wallTime t.trim with
  | none =>
    rw [(commit_of_not_commits hc).2]
    exact ⟨h.grid, h.pinned, h.key, h.placed⟩
  | some x =>
    obtain ⟨i, clock, wall⟩ := x
    rcases commit_cases hs hc with ⟨-, hwin, h'⟩ | ⟨-, -, h'⟩ | ⟨-, -, h'⟩ | ⟨-, -, h'⟩ <;>
      rw [h'] at hpins ⊢
    · exact ⟨h.grid, h.pinned, h.key, fun hctx => absurd (h.placed hctx).1 hwin.reports_ne_nil⟩
    · exact ⟨h.grid, h.pinned, h.key, fun _ => ⟨rfl, rfl⟩⟩
    · exact ⟨h.grid, h.pinned, h.key, h.placed⟩
    · exact ⟨h.grid, h.pinned, h.key, h.placed⟩

/-- **Every event keeps the place of the context**, while the primary meter stays the same. -/
theorem Located.next (h : Located source deviceInstance t) (hs : Sound t.trim) {e : Event}
    (he : samePrimary source deviceInstance e) : Located source deviceInstance (next t e) := by
  cases e with
  | invalidate => exact ⟨h.grid, h.pinned, h.key, h.placed⟩
  | replace fields generation now wall => exact ⟨h.grid, h.pinned, h.key, h.placed⟩
  | select p now wall =>
    refine ⟨fun g hg hok => ?_, h.pinned, h.key, h.placed⟩
    obtain rfl := Option.some.inj hg
    obtain ⟨hvalid, hsrc, hinst⟩ := selectStatus_primary hok
    rw [hsrc, hinst]
    exact he hvalid
  | propose c =>
    simp only [Budget.next]
    split
    · next g hg => exact h.propose hs.toCore hg c
    · exact h
  | commit hd now wallTime => exact h.commit hs hd now wallTime _
  | reset reason => exact ⟨h.grid, h.pinned, h.key, fun hc => ⟨rfl, (h.placed hc).2⟩⟩

/-! ### Runs -/

/-- The trims of the run are those of the trim's own account, and the baseline is the committed
setpoint. -/
structure Budgeted (source : String) (deviceInstance : ℤ) (past : List (Taken Installation Event))
    (t : Installation) : Prop where
  sound : Sound t.trim
  located : Located source deviceInstance t
  total : spent past = t.trim.totalTrim
  based : t.trim.totalTrim ≠ 0 → t.trim.acceptedSetpoint = some t.previous
  issued : ∀ i, t.trim.issued = some i → i.decision.previous = t.previous

variable {past : List (Taken Installation Event)}

/-- A proposal spends nothing; it takes the allowance back only when it renews it. -/
theorem Budgeted.propose (h : Budgeted source deviceInstance past t) {g : GridStatus}
    (hg : t.grid = some g) (c : Cycle) (hgen : ¬ renews ⟨t, .propose c⟩) :
    Budgeted source deviceInstance (past ++ [⟨t, .propose c⟩])
      { t with trim := (Model.propose (proposal g t.previous c) t.trim).2 } := by
  have hspent : spent (past ++ [⟨t, .propose c⟩]) = t.trim.totalTrim := by
    rw [spent_snoc_none rfl, h.total]
  have hsound := h.sound.propose (proposal g t.previous c)
  have hlocated := h.located.propose h.sound.toCore hg c
  have hissued : ∀ {new p s₀}, integer (.int t.previous) = some p →
      Answer new p s₀ (Model.propose (proposal g t.previous c) t.trim) →
      ∀ i, (Model.propose (proposal g t.previous c) t.trim).2.issued = some i →
        i.decision.previous = t.previous := by
    intro new p s₀ hp hr i hi
    obtain ⟨j, -, hj, hprev⟩ := hr.issued
    rw [hi] at hj
    obtain rfl := Option.some.inj hj
    rw [hprev, eq_of_integer_int hp]
  rcases propose_cases h.sound.toCore (proposal g t.previous c) with ⟨-, hr⟩ |
    ⟨p, hp, -, hr⟩ | ⟨v, s', hp, hx, hv, hready, hr⟩
  · refine ⟨hsound, hlocated, ?_, ?_, ?_⟩ <;> rw [hr]
    · exact hspent
    · exact h.based
    · exact h.issued
  · refine ⟨hsound, hlocated, ?_, fun hne => ?_, hissued hp hr⟩
    · rw [hspent, hr.total]
    · simp only [hr.total, hr.accepted] at hne ⊢
      exact h.based hne
  · have hprevious : v.previous = t.previous := eq_of_integer_int hp
    have haccepted := hr.accepted.trans hready.accepted
    rw [hprevious] at haccepted
    have htotal : (Model.propose (proposal g t.previous c) t.trim).2.totalTrim =
        t.trim.totalTrim := by
      rw [hr.total, updateBaseline]
      split_ifs with hres
      · -- The baseline starts anew: nothing may be outstanding.
        by_contra hne
        have hne' : t.trim.totalTrim ≠ 0 := fun h0 => hne h0.symm
        cases hctx : t.trim.context with
        | none => exact hne' (h.located.placed hctx).2
        | some ctx =>
          refine hgen ⟨hne', v, ctx, ?_, hctx, ?_⟩
          · simp [passing, hg, hx]
          · refine h.located.generationChanged hg (granted_of_passed hx) hctx ?_
            rintro rfl
            unfold restarts at hres
            rw [hv.stage.context, hv.stage.accepted, hctx, h.based hne', hprevious] at hres
            simp at hres
      · exact hv.stage.total
      · exact hv.stage.total
    exact ⟨hsound, hlocated, by rw [hspent]; exact htotal.symm, fun _ => haccepted,
      hissued hp hr⟩

/-- A commit spends what the trim accounts for. -/
theorem Budgeted.commit (h : Budgeted source deviceInstance past t) (hd : Handle)
    (now wallTime : PyValue)
    (hfast : ∀ i, accepted ⟨t, .commit hd now wallTime⟩ = some i → i.decision.kind ≠ .base) :
    Budgeted source deviceInstance (past ++ [⟨t, .commit hd now wallTime⟩])
      (next t (.commit hd now wallTime)) := by
  have hsound := h.sound.commit hd now wallTime
  have hlocated := h.located.commit h.sound hd now wallTime (previousAfter hd now wallTime t)
  simp only [Budget.next]
  cases hc : commits hd now wallTime t.trim with
  | none =>
    have hprev : previousAfter hd now wallTime t = t.previous := by simp [previousAfter, hc]
    have hspent : spent (past ++ [⟨t, .commit hd now wallTime⟩]) = t.trim.totalTrim := by
      rw [spent_snoc_none (by simp [accepted, committed, hc]), h.total]
    refine ⟨hsound, hlocated, ?_, ?_, ?_⟩ <;> rw [(commit_of_not_commits hc).2]
    · exact hspent
    · rw [hprev]
      exact h.based
    · rw [hprev]
      exact h.issued
  | some x =>
    obtain ⟨i, clock, wall⟩ := x
    have hacc : accepted ⟨t, .commit hd now wallTime⟩ = some i := by simp [accepted, committed, hc]
    have hprev : previousAfter hd now wallTime t = i.decision.setpoint := by
      simp [previousAfter, hc]
    have hold := h.issued i (commits_iff.mp hc).2.1
    have hspent : spent (past ++ [⟨t, .commit hd now wallTime⟩]) =
        t.trim.totalTrim + trimOf i.decision := by
      rw [spent_snoc_some hacc, h.total]
    have hformed := (h.sound.formed i (commits_iff.mp hc).2.1).1
    have hhold : i.decision.kind = .hold → i.decision.setpoint = t.previous := fun hk => by
      unfold Formed at hformed
      rw [hk] at hformed
      exact hformed.2.trans hold
    rcases commit_cases h.sound hc with ⟨hk, -, h'⟩ | ⟨hk, -, h'⟩ | ⟨hk, ha, h'⟩ | ⟨hk, ha, h'⟩
    · refine ⟨hsound, hlocated, ?_, fun _ => ?_, fun j hj => ?_⟩
      · rw [hspent, h', trimOf, if_pos hk]
      · rw [h', hprev]
      · rw [h'] at hj
        cases hj
    · exact absurd hk (hfast i hacc)
    · refine ⟨hsound, hlocated, ?_, fun _ => ?_, fun j hj => ?_⟩
      · rw [hspent, h', trimOf, if_neg (by rw [hk]; simp), add_zero]
      · rw [h', hprev]
      · rw [h'] at hj
        cases hj
    · refine ⟨hsound, hlocated, ?_, fun hne => ?_, fun j hj => ?_⟩
      · rw [hspent, h', trimOf, if_neg (by rw [hk]; simp), add_zero]
      · rw [h'] at hne ⊢
        simp only [hprev, hhold hk]
        exact h.based hne
      · rw [h'] at hj
        cases hj

/-- **Every event keeps the budget**, unless it renews it. -/
theorem Budgeted.next (h : Budgeted source deviceInstance past t) {e : Event}
    (he : samePrimary source deviceInstance e)
    (hfast : ∀ i, accepted ⟨t, e⟩ = some i → i.decision.kind ≠ .base) (hgen : ¬ renews ⟨t, e⟩) :
    Budgeted source deviceInstance (past ++ [⟨t, e⟩]) (next t e) := by
  have hlocated := h.located.next h.sound he
  have hnone : ∀ {e'}, accepted ⟨t, e'⟩ = none → spent (past ++ [⟨t, e'⟩]) = t.trim.totalTrim :=
    fun h0 => by
      rw [spent_snoc_none h0, h.total]
  cases e with
  | invalidate => exact ⟨h.sound, hlocated, hnone rfl, h.based, h.issued⟩
  | replace fields generation now wall =>
    exact ⟨h.sound, hlocated, hnone rfl, h.based, h.issued⟩
  | select p now wall => exact ⟨h.sound, hlocated, hnone rfl, h.based, h.issued⟩
  | propose c =>
    simp only [Budget.next] at hlocated ⊢
    split
    · next g hg => exact h.propose hg c hgen
    · exact ⟨h.sound, h.located, hnone rfl, h.based, h.issued⟩
  | commit hd now wallTime => exact h.commit hd now wallTime hfast
  | reset reason =>
    exact ⟨h.sound.toCore.reset reason, hlocated, hnone rfl, h.based, fun i hi => (by cases hi)⟩

/-- **The allowance of a run.**  While the primary meter is the same and no base command is committed,
the committed trims sum to at most 60 W in either direction, in every run in which no generation
changes under an outstanding trim. -/
theorem spent_le_maxTotal (backup : GridBackup) (service : Option String)
    (submeterInstance : Option ℤ) (previous : ℤ) (source : String) (deviceInstance : ℤ)
    (es : List Event) (hsame : ∀ e ∈ es, samePrimary source deviceInstance e)
    (hfast : ∀ d ∈ committedBy (trace next (init backup service submeterInstance previous) es),
      d.kind ≠ .base)
    (hgen : ∀ x ∈ trace next (init backup service submeterInstance previous) es, ¬ renews x) :
    |spent (trace next (init backup service submeterInstance previous) es)| ≤ maxTotal := by
  have hrun : Budgeted source deviceInstance
      (trace next (init backup service submeterInstance previous) es)
      (exec next (init backup service submeterInstance previous) es) := by
    revert hsame hfast hgen
    refine history_induction (P := fun is t => (∀ e ∈ is, samePrimary source deviceInstance e) →
      (∀ d ∈ committedBy (trace Budget.next (init backup service submeterInstance previous) is),
        d.kind ≠ .base) →
      (∀ x ∈ trace Budget.next (init backup service submeterInstance previous) is, ¬ renews x) →
      Budgeted source deviceInstance
        (trace Budget.next (init backup service submeterInstance previous) is) t) ?_ ?_ es
    · intro _ _ _
      exact ⟨Sound.init true service submeterInstance,
        ⟨fun g hg => (by cases hg), fun c hc => (by cases hc), fun c hc => (by cases hc),
          fun _ => ⟨rfl, rfl⟩⟩, rfl, fun h => absurd rfl h, fun i hi => (by cases hi)⟩
    · intro is e ih hsame hfast hgen
      rw [trace_snoc] at hfast hgen ⊢
      have hpast := ih (fun e' he' => hsame e' (by simp [he']))
        (fun d hd => hfast d (by
          rw [committedBy, List.filterMap_append]
          exact List.mem_append_left _ hd))
        (fun x hx => hgen x (by simp [hx]))
      refine hpast.next (hsame e (by simp)) (fun i hi => hfast i.decision ?_) (hgen _ (by simp))
      simp [committedBy, List.filterMap_append, hi]
  rw [hrun.total]
  exact hrun.sound.budget

/-! ### An outage in the middle of sixteen trims

The submeter reports a steady 24 W every three seconds, and its service disappears once. -/

def steadyBackup : GridBackup where
  service := "com.victronenergy.acload.em"
  maxAge := 8
  recoverySeconds := 5
  enabled := true

def steadyFields (t : ℕ) : BackupFields where
  connected := some 1
  role := some "acload"
  power := some 24
  lastUpdate := some t
  deviceInstance := some 40

def steadyPrimary : Primary where
  valid := true
  invalidReason := none
  source := some "com.victronenergy.grid.main"
  sourceInstance := some 30
  gt := 10

def steadyCycle (previous : ℤ) (t : ℕ) : Cycle where
  now := .int t
  wallTime := .int t
  baseSetpoint := .int previous
  eligible := true
  reason := ""
  rawGrid := .int 10
  filteredGrid := .int 10
  minSetpoint := .int (-2300)
  maxSetpoint := .int 2250

/-- The events of the second `t`. -/
def second (generation : ℕ) (previous : ℤ) (t : ℕ) : List Event :=
  [.replace (steadyFields t) generation t t, .select steadyPrimary t t,
    .propose (steadyCycle previous t)]

/-- The events from the second `t` to a committed trim, `id` decisions later. -/
def steadyTrim (generation : ℕ) (previous : ℤ) (t id : ℕ) : List Event :=
  (List.range 6).flatMap (fun k => second generation previous (t + 3 * (k + 1))) ++
    [.commit (.decision (id + 6)) (.int (t + 18 : ℕ)) (.int (t + 18 : ℕ))]

/-- A baseline at the second `t`, and eight trims. -/
def eightTrims (generation : ℕ) (previous : ℤ) (t id : ℕ) : List Event :=
  second generation previous t ++
    (List.range 8).flatMap fun k : ℕ =>
      steadyTrim generation (previous - 4 * (k : ℕ)) (t + 18 * k) (id + 6 * k)

/-- A baseline at the second 1000, and one trim. -/
def oneTrim : List Event := second 0 0 1000 ++ steadyTrim 0 0 1000 0

theorem spent_le_maxTotal_one :
    spent (trace next (init steadyBackup none none 0) oneTrim) = -4 ∧
      |spent (trace next (init steadyBackup none none 0) oneTrim)| ≤ maxTotal :=
  ⟨by decide +kernel, spent_le_maxTotal steadyBackup none none 0 "com.victronenergy.grid.main" 30
    oneTrim (by decide +kernel) (by decide +kernel) (by decide +kernel)⟩

/-- Eight trims, an outage of the submeter's service, and eight trims. -/
def outage : List Event :=
  eightTrims 0 0 1000 0 ++ .invalidate :: eightTrims 1 (-32) 1147 49

/-- The allowance is granted again after the outage: the run commits -64 W. -/
theorem outage_renews_budget :
    (∀ e ∈ outage, samePrimary "com.victronenergy.grid.main" 30 e) ∧
      (∀ d ∈ committedBy (trace next (init steadyBackup none none 0) outage), d.kind = .trim) ∧
      spent (trace next (init steadyBackup none none 0) outage) = -64 ∧
      ¬ |spent (trace next (init steadyBackup none none 0) outage)| ≤ maxTotal := by
  have htrims : (committedBy (trace next (init steadyBackup none none 0) outage)).map
      (fun d => (d.kind, trimOf d)) = List.replicate 16 (.trim, -4) := by
    decide +kernel
  have hkinds := congrArg (List.map Prod.fst) htrims
  have hdeltas := congrArg (List.map Prod.snd) htrims
  simp only [List.map_map, Function.comp_def, List.map_replicate] at hkinds hdeltas
  have hspent : spent (trace next (init steadyBackup none none 0) outage) = -64 := by
    rw [spent, hdeltas]
    rfl
  refine ⟨by decide +kernel, fun d hd => ?_, hspent, ?_⟩
  · have hmem := List.mem_map_of_mem (f := fun d : TrimDecision => d.kind) hd
    rw [hkinds] at hmem
    exact List.eq_of_mem_replicate hmem
  · rw [hspent]
    decide

end InverterControl.Trim.Budget
