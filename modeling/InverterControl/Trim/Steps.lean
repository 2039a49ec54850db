import InverterControl.Trim.Model

/-!
# What one call of the trim can do

`Core` is what every stage of `propose` keeps, `Sound` what holds between the calls.  An `Answer` says
what a stage may do to the state it is given; `propose_cases` and `commit_cases` put the stages
together.
-/

namespace InverterControl.Trim.Steps

open InverterControl.Lib.Runs InverterControl.Python InverterControl.Trim.Model

/-! ### The magnitude of a trim -/

theorem one_le_magnitude (q : ℚ) : 1 ≤ magnitude q := by
  unfold magnitude maxStep
  omega

theorem magnitude_le (q : ℚ) : magnitude q ≤ maxStep := by
  unfold magnitude
  omega

theorem trimDelta_ne_zero (q : ℚ) : trimDelta q ≠ 0 := by
  have := one_le_magnitude q
  unfold trimDelta
  split_ifs <;> omega

theorem abs_trimDelta (q : ℚ) : |trimDelta q| = magnitude q := by
  have := one_le_magnitude q
  unfold trimDelta
  split_ifs
  · rw [abs_neg, abs_of_nonneg (by omega)]
  · rw [abs_of_nonneg (by omega)]

/-- The trim moves against the mean. -/
theorem trimDelta_sign (q : ℚ) : (0 < q → trimDelta q < 0) ∧ (q < 0 → 0 < trimDelta q) := by
  have := one_le_magnitude q
  unfold trimDelta
  constructor
  · intro h
    rw [if_pos h]
    omega
  · intro h
    rw [if_neg (not_lt.mpr h.le)]
    omega

/-! ### The spread of a list -/

theorem le_foldl_max (xs : List ℚ) : ∀ x : ℚ, x ≤ xs.foldl max x ∧ ∀ y ∈ xs, y ≤ xs.foldl max x := by
  induction xs with
  | nil => intro x; simp
  | cons z zs ih =>
    intro x
    obtain ⟨h1, h2⟩ := ih (max x z)
    simp only [List.foldl_cons, List.mem_cons, forall_eq_or_imp]
    exact ⟨(le_max_left x z).trans h1, (le_max_right x z).trans h1, h2⟩

theorem foldl_min_le (xs : List ℚ) : ∀ x : ℚ, xs.foldl min x ≤ x ∧ ∀ y ∈ xs, xs.foldl min x ≤ y := by
  induction xs with
  | nil => intro x; simp
  | cons z zs ih =>
    intro x
    obtain ⟨h1, h2⟩ := ih (min x z)
    simp only [List.foldl_cons, List.mem_cons, forall_eq_or_imp]
    exact ⟨h1.trans (min_le_left x z), h1.trans (min_le_right x z), h2⟩

/-- No two values are further apart than the spread. -/
theorem sub_le_spread {xs : List ℚ} {a b : ℚ} (ha : a ∈ xs) (hb : b ∈ xs) : a - b ≤ spread xs := by
  cases xs with
  | nil => cases ha
  | cons x xs =>
    have hmax : ∀ y ∈ x :: xs, y ≤ xs.foldl max x := by
      simpa using le_foldl_max xs x
    have hmin : ∀ y ∈ x :: xs, xs.foldl min x ≤ y := by
      simpa using foldl_min_le xs x
    have h1 := hmax a ha
    have h2 := hmin b hb
    simp only [spread]
    linarith

/-! ### The window behind a pending trim -/

/-- The mean power of a list of reports. -/
def meanPower (reports : List Report) : ℚ := (reports.map (·.power)).sum / reports.length

/-- The window that justifies the trim `d`: at least five reports over ten to twenty seconds, within
40 W, with a mean outside the dead zone; the trim moves against the mean by one to four watts, within
the limits and the budget. -/
structure Window (accepted : Option ℤ) (total : ℤ) (limits : Option (ℚ × ℚ))
    (last : Option ℚ) (reports : List Report) (d : TrimDecision) : Prop where
  kind : d.kind = .trim
  setpoint : d.setpoint = d.previous + d.delta
  accepted : accepted = some d.previous
  budget : |total + d.delta| ≤ maxTotal
  one_le : 1 ≤ |d.delta|
  le_maxStep : |d.delta| ≤ maxStep
  mean : deadzone < |meanPower reports|
  against : (0 < meanPower reports → d.delta < 0) ∧ (meanPower reports < 0 → 0 < d.delta)
  limits : ∃ low high, limits = some (low, high) ∧ low < d.setpoint ∧ (d.setpoint : ℚ) < high
  count : minReports ≤ reports.length
  spread : ∀ a ∈ reports, ∀ b ∈ reports, a.power - b.power ≤ submeterRange
  span : ∃ a b, reports.head? = some a ∧ reports.getLast? = some b ∧
    minSpan ≤ b.timestamp - a.timestamp ∧ d.measurementTime = some b.timestamp ∧
    last = some b.timestamp
  within : ∀ a ∈ reports, ∀ b ∈ reports, b.timestamp - a.timestamp ≤ windowSeconds

/-- The window of the state. -/
abbrev WindowOf (s : SubmeterTrim) (d : TrimDecision) : Prop :=
  Window s.acceptedSetpoint s.totalTrim s.limits s.lastMeasurement s.reports d

theorem Window.reports_ne_nil {accepted : Option ℤ} {total : ℤ} {limits : Option (ℚ × ℚ)}
    {last : Option ℚ} {reports : List Report} {d : TrimDecision}
    (h : Window accepted total limits last reports d) : reports ≠ [] := by
  have := h.count
  unfold minReports at this
  rintro rfl
  simp at this

/-- What every stage of `propose` keeps. -/
structure Core (s : SubmeterTrim) : Prop where
  pending : ∀ p, s.pending = some p → WindowOf s p.decision ∧ p.id < s.nextId
  budget : |s.totalTrim| ≤ maxTotal
  no_baseline : s.acceptedSetpoint = none → s.totalTrim = 0 ∧ s.reports = []
  warm : s.needsWarmup = true → s.reports = []
  timed : s.needsWarmup = false → s.commandTime ≠ none ∧ s.commandWall ≠ none
  known : ∀ r ∈ s.reports, ∃ t, s.lastMeasurement = some t ∧ r.timestamp ≤ t
  sorted : s.reports.Pairwise fun a b => a.timestamp < b.timestamp
  settled : ∀ r ∈ s.reports, ∃ wall, s.commandWall = some wall ∧
    wall + measurementDelay ≤ r.timestamp

/-- A decision does what its kind says. -/
def Formed (d : TrimDecision) : Prop :=
  match d.kind with
  | .trim => d.delta ≠ 0 ∧ d.setpoint = d.previous + d.delta
  | .base => d.delta = 0 ∧ d.setpoint ≠ d.previous
  | .hold => d.delta = 0 ∧ d.setpoint = d.previous

/-- What holds between the calls: an issued trim is the pending one. -/
structure Sound (s : SubmeterTrim) : Prop extends Core s where
  formed : ∀ i, s.issued = some i → Formed i.decision ∧ i.id < s.nextId
  trim_pending : ∀ i, s.issued = some i → i.decision.kind = .trim → s.pending = some i

variable {s : SubmeterTrim}

/-! ### Clearing -/

theorem Core.clearWindow (h : Core s) : Core (clearWindow s) where
  pending := fun p hp => (by cases hp)
  budget := h.budget
  no_baseline := fun ha => ⟨(h.no_baseline ha).1, rfl⟩
  warm := fun _ => rfl
  timed := h.timed
  known := fun r hr => (by cases hr)
  sorted := List.Pairwise.nil
  settled := fun r hr => (by cases hr)

theorem Core.reset (h : Core s) (reason : String) : Sound (reset reason s) where
  toCore :=
    { pending := fun p hp => (by cases hp)
      budget := h.budget
      no_baseline := fun ha => ⟨(h.no_baseline ha).1, rfl⟩
      warm := fun _ => rfl
      timed := fun hw => (by cases hw)
      known := fun r hr => (by cases hr)
      sorted := List.Pairwise.nil
      settled := fun r hr => (by cases hr) }
  formed := fun i hi => (by cases hi)
  trim_pending := fun i hi => (by cases hi)

theorem Sound.init (enabled : Bool) (service : Option String) (deviceInstance : Option ℤ) :
    Sound (init enabled service deviceInstance) where
  toCore :=
    { pending := fun p hp => (by cases hp)
      budget := by simp [Model.init, maxTotal]
      no_baseline := fun _ => ⟨rfl, rfl⟩
      warm := fun _ => rfl
      timed := fun hw => (by cases hw)
      known := fun r hr => (by cases hr)
      sorted := List.Pairwise.nil
      settled := fun r hr => (by cases hr) }
  formed := fun i hi => (by cases hi)
  trim_pending := fun i hi => (by cases hi)

/-! ### Answers -/

/-- What an answer may do to the state `s` of its stage: it issues a decision object, a new one or the
pending one, changes nothing of the account, and keeps no report but those of `s` and `new` ones. -/
structure Answer (new : Report → Prop) (previous : ℤ) (s : SubmeterTrim) (r : Result) : Prop where
  sound : Sound r.2
  issued : ∃ i, r.1 = some i ∧ r.2.issued = some i ∧ i.decision.previous = previous
  held : ∀ i, r.2.issued = some i ∨ r.2.pending = some i →
    s.pending = some i ∨ (i.id = s.nextId ∧ r.2.nextId = s.nextId + 1)
  pends : ∀ i, r.2.pending = some i → s.pending = some i ∨ r.1 = some i
  nextId : s.nextId ≤ r.2.nextId
  accepted : r.2.acceptedSetpoint = s.acceptedSetpoint
  total : r.2.totalTrim = s.totalTrim
  context : r.2.context = s.context
  commandWall : r.2.commandWall = s.commandWall
  reports : ∀ x ∈ r.2.reports, x ∈ s.reports ∨ new x

theorem formed_hold (base previous : ℤ) (now : ℚ) (reason : String) (timestamp : Option ℚ) :
    Formed (newDecision base previous now reason 0 timestamp) := by
  unfold Formed newDecision
  by_cases h : base = previous <;> simp [h]

/-- A decision that moves nothing keeps everything. -/
theorem Core.decision (h : Core s) (base previous : ℤ) (now : ℚ) (reason : String)
    (timestamp : Option ℚ) (new : Report → Prop) :
    Answer new previous s (decision base previous now reason 0 timestamp s) where
  sound :=
    { pending := fun p hp => ⟨(h.pending p hp).1, Nat.lt_succ_of_lt (h.pending p hp).2⟩
      budget := h.budget
      no_baseline := h.no_baseline
      warm := h.warm
      timed := h.timed
      known := h.known
      sorted := h.sorted
      settled := h.settled
      formed := fun i hi => by
        obtain rfl := Option.some.inj hi
        exact ⟨formed_hold base previous now reason timestamp, Nat.lt_succ_self _⟩
      trim_pending := fun i hi hk => by
        obtain rfl := Option.some.inj hi
        by_cases hb : base = previous <;> simp [newDecision, hb] at hk }
  issued := ⟨_, rfl, rfl, rfl⟩
  held := fun i hi => by
    rcases hi with hi | hi
    · obtain rfl := Option.some.inj hi
      exact Or.inr ⟨rfl, rfl⟩
    · exact Or.inl hi
  pends := fun _ hi => Or.inl hi
  nextId := Nat.le_succ _
  accepted := rfl
  total := rfl
  context := rfl
  commandWall := rfl
  reports := fun x hx => Or.inl hx

/-- `s'` is a later stage of the same call: nothing of the account has changed, no decision was
issued, and no report was added but `new` ones. -/
structure Stage (new : Report → Prop) (s s' : SubmeterTrim) : Prop where
  pending : ∀ i, s'.pending = some i → s.pending = some i
  nextId : s'.nextId = s.nextId
  accepted : s'.acceptedSetpoint = s.acceptedSetpoint
  total : s'.totalTrim = s.totalTrim
  context : s'.context = s.context
  commandWall : s'.commandWall = s.commandWall
  reports : ∀ x ∈ s'.reports, x ∈ s.reports ∨ new x

variable {new : Report → Prop} {s' : SubmeterTrim} {r : Result}

theorem Stage.trans {s'' : SubmeterTrim} (h : Stage new s s') (h' : Stage new s' s'') :
    Stage new s s'' where
  pending := fun i hi => h.pending i (h'.pending i hi)
  nextId := h'.nextId.trans h.nextId
  accepted := h'.accepted.trans h.accepted
  total := h'.total.trans h.total
  context := h'.context.trans h.context
  commandWall := h'.commandWall.trans h.commandWall
  reports := fun x hx => by
    rcases h'.reports x hx with hx | hx
    · exact h.reports x hx
    · exact Or.inr hx

/-- An answer of a later stage is an answer of the call. -/
theorem Stage.answer {previous : ℤ} (h : Stage new s s') (hr : Answer new previous s' r) :
    Answer new previous s r where
  sound := hr.sound
  issued := hr.issued
  held := fun i hi => by
    rcases hr.held i hi with hp | ⟨hid, hnext⟩
    · exact Or.inl (h.pending i hp)
    · exact Or.inr ⟨hid.trans h.nextId, by rw [hnext, h.nextId]⟩
  pends := fun i hi => (hr.pends i hi).imp_left (h.pending i)
  nextId := h.nextId ▸ hr.nextId
  accepted := hr.accepted.trans h.accepted
  total := hr.total.trans h.total
  context := hr.context.trans h.context
  commandWall := hr.commandWall.trans h.commandWall
  reports := fun x hx => by
    rcases hr.reports x hx with hx | hx
    · exact h.reports x hx
    · exact Or.inr hx

theorem stage_clearWindow (s : SubmeterTrim) : Stage new s (clearWindow s) :=
  ⟨fun i hi => (by cases hi), rfl, rfl, rfl, rfl, rfl, fun x hx => (by cases hx)⟩

theorem stage_reset (reason : String) (s : SubmeterTrim) : Stage new s (reset reason s) :=
  ⟨fun i hi => (by cases hi), rfl, rfl, rfl, rfl, rfl, fun x hx => (by cases hx)⟩

/-- A refused proposal. -/
theorem Core.refuse (h : Core s) (base previous : ℤ) (now : ℚ) (reason : String) :
    Answer new previous s (refuse base previous now reason s) :=
  (stage_reset reason s).answer ((h.reset reason).toCore.decision base previous now reason none new)

/-- A held command after the window was cleared. -/
theorem Core.holdCleared (h : Core s) (base previous : ℤ) (now : ℚ) (reason : String) :
    Answer new previous s (hold base previous now reason (Model.clearWindow s)) :=
  (stage_clearWindow s).answer (h.clearWindow.decision base previous now reason none new)

/-! ### The checks -/

/-- A proposal passed the checks. -/
structure Passed (a : Proposal) (previous : ℤ) (s : SubmeterTrim) (v : View) (s' : SubmeterTrim) :
    Prop where
  previous : v.previous = previous
  core : Core s'
  stage : Stage (fun _ => False) s s'
  limits : s'.limits = some (v.low, v.high)
  wall : number a.wallTime = some v.wall
  not_future : v.timestamp ≤ v.wall + maxFuture

/-- The checks let a proposal pass, or answer it. -/
inductive Outcome (a : Proposal) (previous : ℤ) (s : SubmeterTrim) : Examined → Prop
  | answered (r : Result) (h : Answer (fun _ => False) previous s r) :
    Outcome a previous s (.answered r)
  | passed (v : View) (s' : SubmeterTrim) (h : Passed a previous s v s') :
    Outcome a previous s (.passed v s')

theorem Outcome.of_stage {a : Proposal} {previous : ℤ} {x : Examined}
    (h : Stage (fun _ => False) s s') (hx : Outcome a previous s' x) : Outcome a previous s x := by
  cases hx with
  | answered r hr => exact .answered r (h.answer hr)
  | passed v s'' hv =>
    exact .passed v s'' ⟨hv.previous, hv.core, h.trans hv.stage, hv.limits, hv.wall, hv.not_future⟩

theorem fresh_of_readSample {sample : Option Sample} {wall : ℚ} {x : Reading}
    (h : readSample sample wall s = .ok x) :
    x.timestamp ≤ wall + maxFuture ∧ wall ≤ x.timestamp + maxAge := by
  unfold readSample at h
  split at h
  · cases h
  · split_ifs at h
    split at h
    · cases h
    · split_ifs at h
      split at h
      · cases h
      · next heq =>
        obtain rfl := Except.ok.inj h
        unfold sampleMeasurement at heq
        split at heq
        · split_ifs at heq with h1 h2 h3
          cases heq
          push Not at h3
          exact ⟨by linarith, by linarith [h3.1]⟩
        · cases heq

theorem Core.pinIdentity (h : Core s) (identity : Identity) : Core (pinIdentity identity s) :=
  ⟨h.1, h.2, h.3, h.4, h.5, h.6, h.7, h.8⟩

theorem examineSample_outcome (h : Core s) (a : Proposal) (previous : ℤ)
    {clock wall low high raw filtered : ℚ} {source : String × List ℤ}
    (hl : s.limits = some (low, high)) (hw : number a.wallTime = some wall) :
    Outcome a previous s (examineSample a previous clock wall low high raw filtered source s) := by
  unfold examineSample
  cases hr : readSample a.sample wall s with
  | error e => exact .answered _ (h.refuse _ _ _ _)
  | ok x =>
    refine .passed _ _ ⟨rfl, h.pinIdentity x.identity, ?_, hl, hw, (fresh_of_readSample hr).1⟩
    exact ⟨fun _ hi => hi, rfl, rfl, rfl, rfl, rfl, fun _ hx => Or.inl hx⟩

theorem examineSource_outcome (h : Core s) (a : Proposal) (previous : ℤ) {clock wall low high : ℚ}
    (hl : s.limits = some (low, high)) (hw : number a.wallTime = some wall) :
    Outcome a previous s (examineSource a previous clock wall low high s) := by
  unfold examineSource
  split
  · split
    · exact .answered _ (h.refuse _ _ _ _)
    · exact examineSample_outcome h a previous hl hw
  · exact .answered _ (h.refuse _ _ _ _)

/-- Changed limits end a pending proposal, so its limits are always the current ones. -/
theorem Core.noteLimits (h : Core s) (low high : ℚ) : Core (noteLimits low high s) := by
  unfold Model.noteLimits
  split_ifs with hl
  · have h' := (h.reset "limits_changed").toCore
    exact ⟨fun p hp => (by cases hp), h'.2, h'.3, h'.4, h'.5, h'.6, h'.7, h'.8⟩
  · refine ⟨fun p hp => ?_, h.2, h.3, h.4, h.5, h.6, h.7, h.8⟩
    obtain ⟨hwin, hid⟩ := h.pending p hp
    obtain ⟨low', high', hlim, -, -⟩ := hwin.limits
    have : s.limits = some (low, high) := by
      by_contra hne
      exact hl ⟨by rw [hlim]; exact Option.some_ne_none _, hne⟩
    refine ⟨?_, hid⟩
    simp only
    rw [← this]
    exact hwin

theorem stage_noteLimits (low high : ℚ) (s : SubmeterTrim) : Stage new s (noteLimits low high s) := by
  unfold noteLimits
  split_ifs
  · exact ⟨fun i hi => (by cases hi), rfl, rfl, rfl, rfl, rfl, fun x hx => (by cases hx)⟩
  · exact ⟨fun _ hi => hi, rfl, rfl, rfl, rfl, rfl, fun _ hx => Or.inl hx⟩

theorem examineLimits_outcome (h : Core s) (a : Proposal) (previous : ℤ) {clock wall : ℚ}
    (hw : number a.wallTime = some wall) :
    Outcome a previous s (examineLimits a previous clock wall s) := by
  unfold examineLimits
  split
  · next low high _ _ =>
    split_ifs
    · exact .answered _ (h.refuse _ _ _ _)
    · refine Outcome.of_stage (stage_noteLimits low high s) ?_
      exact examineSource_outcome (h.noteLimits low high) a previous rfl hw
  · exact .answered _ (h.refuse _ _ _ _)

theorem examineMode_outcome (h : Core s) (a : Proposal) (previous base : ℤ) {clock wall : ℚ}
    (hw : number a.wallTime = some wall) :
    Outcome a previous s (examineMode a previous base clock wall s) := by
  unfold examineMode
  split_ifs
  · exact .answered _ (h.refuse _ _ _ _)
  · exact .answered _ (h.refuse _ _ _ _)
  · exact .answered _ (h.refuse _ _ _ _)
  · exact .answered _ (h.refuse _ _ _ _)
  · exact .answered _ (h.holdCleared _ _ _ _)
  · exact examineLimits_outcome h a previous hw

theorem examineClock_outcome (h : Core s) (a : Proposal) (previous base : ℤ) :
    Outcome a previous s (examineClock a previous base s) := by
  unfold examineClock
  split
  · next clock wall _ hw =>
    split_ifs
    · exact .answered _ (h.refuse _ _ _ _)
    · have h' := (h.reset "clock_reversed").toCore
      have hnow : Core { reset "clock_reversed" s with lastNow := some clock } :=
        ⟨h'.1, h'.2, h'.3, h'.4, h'.5, h'.6, h'.7, h'.8⟩
      refine .answered _ (Stage.answer ?_ (hnow.decision _ _ _ _ none _))
      exact ⟨fun i hi => (by cases hi), rfl, rfl, rfl, rfl, rfl, fun x hx => (by cases hx)⟩
    · have hnow : Core { s with lastNow := some clock } :=
        ⟨h.1, h.2, h.3, h.4, h.5, h.6, h.7, h.8⟩
      refine Outcome.of_stage ?_ (examineMode_outcome hnow a previous base hw)
      exact ⟨fun _ hi => hi, rfl, rfl, rfl, rfl, rfl, fun _ hx => Or.inl hx⟩
  · exact .answered _ (h.refuse _ _ _ _)

/-- **The checks of a proposal**: it raises and nothing changes, it is answered, or it passes. -/
theorem examine_outcome (h : Core s) (a : Proposal) :
    examine a s = .answered (none, s) ∨
      ∃ previous, integer a.previousSetpoint = some previous ∧
        Outcome a previous s (examine a s) := by
  unfold examine
  split
  · exact Or.inl rfl
  · next previous hp => exact Or.inr ⟨previous, hp, examineClock_outcome h a _ _⟩

/-- Everything that a trim needs: it is enabled and eligible, the base command is the previous one,
and the clocks, the limits, the primary's readings, the source key and the sample are valid. -/
structure Admissible (a : Proposal) (s : SubmeterTrim) (v : View) : Prop where
  enabled : s.enabled = true
  eligible : a.eligible = .bool true
  previous : integer a.previousSetpoint = some v.previous
  base : integer a.baseSetpoint = some v.previous
  clock : number a.now = some v.clock
  wall : number a.wallTime = some v.wall
  clocks : 0 ≤ v.clock ∧ 0 < v.wall
  forward : ¬ reversed v.clock s
  low : number a.minSetpoint = some v.low
  high : number a.maxSetpoint = some v.high
  ordered : v.low < v.high
  within : v.low ≤ v.previous ∧ v.previous ≤ v.high
  raw : number a.rawGrid = some v.raw
  filtered : number a.filteredGrid = some v.filtered
  source : validSourceKey a.sourceKey = some v.context.source
  sample : readSample a.sample v.wall s = .ok ⟨v.context.identity, v.timestamp, v.power⟩

/-- What a proposal that passes has shown, and the state the checks leave. -/
structure Granted (a : Proposal) (s : SubmeterTrim) (v : View) (s' : SubmeterTrim) : Prop
    extends Admissible a s v where
  after : s' = pinIdentity v.context.identity
    (noteLimits v.low v.high { s with lastNow := some v.clock })

/-- The sample is read against the pinned identity only. -/
theorem readSample_congr (sample : Option Sample) (wall : ℚ) (hs : s'.service = s.service)
    (hd : s'.deviceInstance = s.deviceInstance) :
    readSample sample wall s' = readSample sample wall s := by
  have hf : ∀ identity, foreign identity s' ↔ foreign identity s := fun identity => by
    unfold foreign
    rw [hs, hd]
  unfold readSample
  simp only [hf]

theorem noteLimits_pins (low high : ℚ) (s : SubmeterTrim) :
    (noteLimits low high s).service = s.service ∧
      (noteLimits low high s).deviceInstance = s.deviceInstance := by
  unfold noteLimits
  split_ifs <;> exact ⟨rfl, rfl⟩

theorem examineSource_granted {a : Proposal} {previous : ℤ} {clock wall low high : ℚ} {v : View}
    (h : examineSource a previous clock wall low high s = .passed v s') :
    (v.previous = previous ∧ v.clock = clock ∧ v.wall = wall ∧ v.low = low ∧ v.high = high) ∧
      number a.rawGrid = some v.raw ∧ number a.filteredGrid = some v.filtered ∧
      validSourceKey a.sourceKey = some v.context.source ∧
      readSample a.sample v.wall s = .ok ⟨v.context.identity, v.timestamp, v.power⟩ ∧
      s' = pinIdentity v.context.identity s := by
  unfold examineSource at h
  split at h
  · next raw filtered hraw hfiltered =>
    split at h
    · cases h
    · next source hsource =>
      unfold examineSample at h
      split at h
      · cases h
      · next r hr =>
        cases h
        exact ⟨⟨rfl, rfl, rfl, rfl, rfl⟩, hraw, hfiltered, hsource, hr, rfl⟩
  · cases h

/-- **A proposal that passes the checks** has met every one of them. -/
theorem granted_of_passed {a : Proposal} {v : View} (h : examine a s = .passed v s') :
    Granted a s v s' := by
  unfold examine at h
  split at h
  · cases h
  next previous hprevious =>
  unfold examineClock at h
  split at h
  swap
  · cases h
  next clock wall hclock hwall =>
  split at h
  · cases h
  next hclocks =>
  split at h
  · cases h
  next hforward =>
  unfold examineMode at h
  split at h
  · cases h
  next henabled =>
  split at h
  · cases h
  next heligible =>
  split at h
  · cases h
  next hbase =>
  split at h
  · cases h
  next heq =>
  unfold examineLimits at h
  split at h
  swap
  · cases h
  next low high hlow hhigh =>
  split at h
  · cases h
  next hlimits =>
  obtain ⟨⟨rfl, rfl, rfl, rfl, rfl⟩, hraw, hfiltered, hsource, hsample, hafter⟩ :=
    examineSource_granted h
  obtain ⟨base, hb⟩ := Option.ne_none_iff_exists'.mp hbase
  have hpins := noteLimits_pins v.low v.high { s with lastNow := some v.clock }
  push Not at hclocks hlimits
  refine ⟨⟨Bool.of_not_eq_false henabled, not_not.mp heligible, hprevious, ?_, hclock, hwall,
    hclocks, hforward, hlow, hhigh, hlimits.1, hlimits.2, hraw, hfiltered, hsource, ?_⟩, hafter⟩
  · rw [hb, Option.getD_some] at heq
    rw [hb, not_not.mp heq]
  · rw [← hsample]
    exact (readSample_congr a.sample v.wall hpins.1 hpins.2).symm

/-- **An admissible proposal** passes the checks. -/
theorem examine_of_admissible {a : Proposal} {v : View} (h : Admissible a s v) :
    examine a s = .passed v
      (pinIdentity v.context.identity (noteLimits v.low v.high { s with lastNow := some v.clock })) := by
  have hpins := noteLimits_pins v.low v.high { s with lastNow := some v.clock }
  have hsample : readSample a.sample v.wall
    (noteLimits v.low v.high { s with lastNow := some v.clock }) =
      .ok ⟨v.context.identity, v.timestamp, v.power⟩ := by
    rw [← h.sample]
    exact readSample_congr a.sample v.wall hpins.1 hpins.2
  have hlimits : ¬ (v.high ≤ v.low ∨ ¬ (v.low ≤ v.previous ∧ v.previous ≤ v.high)) := by
    push Not
    exact ⟨h.ordered, h.within⟩
  have hclocks : ¬ (v.clock < 0 ∨ v.wall ≤ 0) := by
    push Not
    exact h.clocks
  have henabled : ¬ s.enabled = false := by simp [h.enabled]
  have hsource : examineSource a v.previous v.clock v.wall v.low v.high
      (noteLimits v.low v.high { s with lastNow := some v.clock }) = .passed v
        (pinIdentity v.context.identity (noteLimits v.low v.high { s with
          lastNow := some v.clock })) := by
    unfold examineSource
    simp only [h.raw, h.filtered, h.source]
    unfold examineSample
    rw [hsample]
  have hmode : examineMode a v.previous v.previous v.clock v.wall { s with
    lastNow := some v.clock } = .passed v
      (pinIdentity v.context.identity (noteLimits v.low v.high { s with lastNow := some v.clock })) := by
    unfold examineMode
    rw [if_neg henabled, if_neg (not_not.mpr h.eligible),
      if_neg (by rw [h.base]; exact Option.some_ne_none _), if_neg (not_not.mpr rfl)]
    unfold examineLimits
    simp only [h.low, h.high]
    rw [if_neg hlimits]
    exact hsource
  unfold examine
  simp only [h.previous, h.base, Option.getD_some]
  unfold examineClock
  simp only [h.clock, h.wall]
  rw [if_neg hclocks, if_neg h.forward]
  exact hmode

/-! ### The window -/

/-- The baseline of a proposal that passed is its own. -/
structure Ready (v : View) (s : SubmeterTrim) : Prop where
  core : Core s
  accepted : s.acceptedSetpoint = some v.previous
  context : s.context = some v.context
  limits : s.limits = some (v.low, v.high)
  warmed : s.needsWarmup = false

/-- The report a proposal may add. -/
def ownReport (v : View) (x : Report) : Prop :=
  x.timestamp = v.timestamp ∧ x.power = v.power ∧ x.observedAt = v.clock

variable {v : View}

theorem Core.pending_none_of_empty (h : Core s) (hr : s.reports = []) : s.pending = none := by
  cases hp : s.pending with
  | none => rfl
  | some p => exact absurd hr (h.pending p hp).1.reports_ne_nil

theorem Core.updateBaseline (h : Core s) (hl : s.limits = some (v.low, v.high)) :
    Ready v (updateBaseline v s) := by
  unfold Model.updateBaseline
  split_ifs with hres hwarm
  · have h' := h.clearWindow
    refine ⟨⟨fun p hp => (by cases hp), ?_, ?_, fun _ => rfl, ?_, fun r hr => (by cases hr),
      List.Pairwise.nil, fun r hr => (by cases hr)⟩, rfl, rfl, hl, rfl⟩
    · simp [restartBaseline, maxTotal]
    · intro ha
      cases ha
    · exact fun _ => ⟨Option.some_ne_none _, Option.some_ne_none _⟩
  · have hnil := h.warm hwarm
    have hpend := h.pending_none_of_empty hnil
    unfold restarts at hres
    push Not at hres
    refine ⟨⟨fun p hp => ?_, h.budget, h.no_baseline, fun hf => (by cases hf), ?_, h.known, h.sorted,
      fun r hr => ?_⟩, hres.2, hres.1, hl, rfl⟩
    · rw [show s.pending = some p from hp] at hpend
      cases hpend
    · exact fun _ => ⟨Option.some_ne_none _, Option.some_ne_none _⟩
    · rw [show s.reports = [] from hnil] at hr
      cases hr
  · unfold restarts at hres
    push Not at hres
    exact ⟨h, hres.2, hres.1, hl, Bool.eq_false_iff.mpr hwarm⟩

/-- The update of the baseline adds nothing. -/
theorem updateBaseline_subset (v : View) (s : SubmeterTrim) :
    (∀ i, (updateBaseline v s).pending = some i → s.pending = some i) ∧
      (updateBaseline v s).nextId = s.nextId ∧
      ∀ x ∈ (updateBaseline v s).reports, x ∈ s.reports := by
  unfold updateBaseline
  split_ifs
  · exact ⟨fun i hi => (by cases hi), rfl, fun x hx => (by cases hx)⟩
  · exact ⟨fun _ hi => hi, rfl, fun _ hx => hx⟩
  · exact ⟨fun _ hi => hi, rfl, fun _ hx => hx⟩

/-- A window that ends with the report of the proposal. -/
structure Full (v : View) (s : SubmeterTrim) : Prop where
  last : s.lastMeasurement = some v.timestamp
  ends : ∃ b, s.reports.getLast? = some b ∧ b.timestamp = v.timestamp
  within : ∀ x ∈ s.reports, v.timestamp - x.timestamp ≤ windowSeconds

/-- The window of a trim that is decided. -/
theorem window_of_full (h : Ready v s) (hf : Full v s) (hst : unstable s = none)
    (hcount : minReports ≤ s.reports.length) (hspan : ¬ shortSpan s)
    (hmean : deadzone < |meanPower s.reports|) (hne : s.reports ≠ [])
    (hbudget : |s.totalTrim + trimDelta (meanPower s.reports)| ≤ maxTotal)
    (hlow : v.low < (v.previous + trimDelta (meanPower s.reports) : ℤ))
    (hhigh : ((v.previous + trimDelta (meanPower s.reports) : ℤ) : ℚ) < v.high) :
    WindowOf s (newDecision v.previous v.previous v.clock "trim"
      (trimDelta (meanPower s.reports)) (some v.timestamp)) where
  kind := by simp [newDecision, trimDelta_ne_zero]
  setpoint := rfl
  accepted := h.accepted
  budget := hbudget
  one_le := by
    have := one_le_magnitude (meanPower s.reports)
    simpa [newDecision, abs_trimDelta] using this
  le_maxStep := by
    have := magnitude_le (meanPower s.reports)
    simpa [newDecision, abs_trimDelta] using this
  mean := hmean
  against := trimDelta_sign _
  limits := ⟨v.low, v.high, h.limits, hlow, hhigh⟩
  count := hcount
  spread := fun a ha b hb => by
    have hle : spread (s.reports.map (·.power)) ≤ submeterRange := by
      unfold unstable at hst
      rw [if_neg hne] at hst
      split_ifs at hst with h2
      exact not_lt.mp h2
    exact (sub_le_spread (List.mem_map_of_mem ha) (List.mem_map_of_mem hb)).trans hle
  span := by
    obtain ⟨b, hb, hbt⟩ := hf.ends
    unfold shortSpan at hspan
    push Not at hspan
    obtain ⟨a', b', ha', hb', hle⟩ := hspan
    rw [hb] at hb'
    obtain rfl := Option.some.inj hb'
    exact ⟨a', b, ha', hb, hle, by rw [hbt]; rfl, by rw [hbt]; exact hf.last⟩
  within := fun a ha b hb => by
    obtain ⟨t, ht, hle⟩ := h.core.known b hb
    rw [hf.last] at ht
    obtain rfl := Option.some.inj ht
    have := hf.within a ha
    linarith

/-- A trim is issued, and pending. -/
theorem Core.issueTrim (h : Core s) {d : TrimDecision} (hd : WindowOf s d) :
    Answer new d.previous s (some ⟨s.nextId, d⟩, issue d s) := by
  have hne : d.delta ≠ 0 := by
    intro h0
    have := hd.one_le
    rw [h0] at this
    simp at this
  have hpend : (issue d s).pending = some ⟨s.nextId, d⟩ := by simp [issue, hne]
  refine
    { sound :=
        { pending := fun p hp => ?_
          budget := h.budget
          no_baseline := h.no_baseline
          warm := h.warm
          timed := h.timed
          known := h.known
          sorted := h.sorted
          settled := h.settled
          formed := fun i hi => ?_
          trim_pending := fun i hi _ => ?_ }
      issued := ⟨_, rfl, rfl, rfl⟩
      held := fun i hi => Or.inr ?_
      pends := fun i hi => Or.inr (hpend.symm.trans hi)
      nextId := Nat.le_succ _
      accepted := rfl
      total := rfl
      context := rfl
      commandWall := rfl
      reports := fun x hx => Or.inl hx }
  · rw [show (issue d s).pending = some p from hp] at hpend
    obtain rfl := Option.some.inj hpend
    exact ⟨hd, Nat.lt_succ_self _⟩
  · obtain rfl := Option.some.inj hi
    refine ⟨?_, Nat.lt_succ_self _⟩
    simp only [Formed, hd.kind]
    exact ⟨hne, hd.setpoint⟩
  · obtain rfl := Option.some.inj hi
    exact hpend
  · rcases hi with hi | hi
    · obtain rfl := Option.some.inj hi
      exact ⟨rfl, rfl⟩
    · rw [show (issue d s).pending = some i from hi] at hpend
      obtain rfl := Option.some.inj hpend
      exact ⟨rfl, rfl⟩

theorem decideWindow_answer (h : Ready v s) {fresh : Bool} (hf : fresh = true → Full v s)
    (hst : unstable s = none) (hav : s.reports ≠ [] → s.average = some (meanPower s.reports)) :
    Answer new v.previous s (decideWindow v fresh s) := by
  unfold decideWindow
  split_ifs with hfresh hshort
  · exact h.core.decision _ _ _ _ none _
  · exact h.core.decision _ _ _ _ none _
  push Not at hshort
  obtain ⟨hcount, hspan⟩ := hshort
  have hne : s.reports ≠ [] := by
    unfold minReports at hcount
    rintro hnil
    simp [hnil] at hcount
  rw [hav hne]
  simp only
  split_ifs with hdead
  · exact h.core.decision _ _ _ _ _ _
  unfold boundedTrimDecision
  split_ifs with hbudget hlimit
  · exact h.core.decision _ _ _ _ _ _
  · exact h.core.issueTrim (window_of_full h (hf (Bool.of_not_eq_false hfresh)) hst hcount hspan
      (not_le.mp hdead) hne (not_lt.mp hbudget) hlimit.1 hlimit.2)
  · exact h.core.decision _ _ _ _ _ _

/-- A pending trim is issued again. -/
theorem reissue_answer (h : Ready v s) {fresh : Bool} (hf : fresh = true → Full v s)
    (hst : unstable s = none) (hav : s.reports ≠ [] → s.average = some (meanPower s.reports)) :
    Answer new v.previous s (reissue v fresh s) := by
  unfold reissue
  split
  · next p hp =>
    obtain ⟨hwin, hid⟩ := h.core.pending p hp
    refine
      { sound :=
          { pending := h.core.pending
            budget := h.core.budget
            no_baseline := h.core.no_baseline
            warm := h.core.warm
            timed := h.core.timed
            known := h.core.known
            sorted := h.core.sorted
            settled := h.core.settled
            formed := fun i hi => ?_
            trim_pending := fun i hi _ => ?_ }
        issued := ⟨_, rfl, rfl, ?_⟩
        held := fun i hi => Or.inl ?_
        pends := fun _ hi => Or.inl hi
        nextId := Nat.le_refl _
        accepted := rfl
        total := rfl
        context := rfl
        commandWall := rfl
        reports := fun x hx => Or.inl hx }
    · obtain rfl := Option.some.inj hi
      refine ⟨?_, hid⟩
      simp only [Formed, hwin.kind]
      refine ⟨?_, hwin.setpoint⟩
      intro h0
      have := hwin.one_le
      rw [h0] at this
      simp at this
    · obtain rfl := Option.some.inj hi
      exact hp
    · have hacc := hwin.accepted
      rw [h.accepted] at hacc
      exact (Option.some.inj hacc).symm
    · rcases hi with hi | hi
      · obtain rfl := Option.some.inj hi
        exact hp
      · exact hi
  · exact decideWindow_answer h hf hst hav

theorem Ready.noteAverage (h : Ready v s) : Ready v (noteAverage s) := by
  unfold Model.noteAverage
  split_ifs
  · exact h
  · have hc := h.core
    exact ⟨⟨hc.1, hc.2, hc.3, hc.4, hc.5, hc.6, hc.7, hc.8⟩, h.accepted, h.context, h.limits,
      h.warmed⟩

theorem stage_noteAverage (s : SubmeterTrim) : Stage new s (noteAverage s) := by
  unfold noteAverage
  split_ifs
  · exact ⟨fun _ hi => hi, rfl, rfl, rfl, rfl, rfl, fun _ hx => Or.inl hx⟩
  · exact ⟨fun _ hi => hi, rfl, rfl, rfl, rfl, rfl, fun _ hx => Or.inl hx⟩

/-- The mean that is kept is the window's. -/
theorem noteAverage_average (hne : (noteAverage s).reports ≠ []) :
    (noteAverage s).average = some (meanPower (noteAverage s).reports) := by
  unfold noteAverage at hne ⊢
  split_ifs at hne ⊢ with h
  · exact absurd h hne
  · rfl

theorem unstable_noteAverage (s : SubmeterTrim) : unstable (noteAverage s) = unstable s := by
  unfold noteAverage
  split_ifs
  · rfl
  · rfl

theorem settleWindow_answer (h : Ready v s) {fresh : Bool} (hf : fresh = true → Full v s) :
    Answer new v.previous s (settleWindow v fresh s) := by
  unfold settleWindow
  split
  · exact h.core.holdCleared _ _ _ _
  · next hst =>
    split
    · next ht => exact absurd ht (h.core.timed h.warmed).1
    · refine (stage_noteAverage s).answer ?_
      split_ifs
      · exact h.noteAverage.core.decision _ _ _ _ none _
      · refine reissue_answer h.noteAverage (fun hfresh => ?_) ((unstable_noteAverage s).trans hst)
          noteAverage_average
        have hfull := hf hfresh
        unfold noteAverage
        split_ifs
        · exact hfull
        · exact ⟨hfull.1, hfull.2, hfull.3⟩

/-- Old reports leave the window; the window of a pending trim has none. -/
theorem Ready.pruneReports (h : Ready v s)
    (ht : ∀ p, s.pending = some p → s.lastMeasurement = some v.timestamp) :
    Ready v (pruneReports v.timestamp s) := by
  have hc := h.core
  refine ⟨⟨fun p hp => ?_, hc.budget, fun ha => ?_, fun hw => ?_, hc.timed, fun r hr => ?_, ?_,
    fun r hr => ?_⟩, h.accepted, h.context, h.limits, h.warmed⟩
  · obtain ⟨hwin, hid⟩ := hc.pending p hp
    refine ⟨?_, hid⟩
    have hkeep : (s.reports.filter fun r => v.timestamp - r.timestamp ≤ windowSeconds) =
        s.reports := by
      refine List.filter_eq_self.mpr fun r hr => ?_
      obtain ⟨a, b, -, hb, -, -, hlast⟩ := hwin.span
      have hlast' := hlast.symm.trans (ht p hp)
      have := hwin.within r hr b (List.mem_of_getLast? hb)
      rw [Option.some.inj hlast'] at this
      simpa using this
    have hwin' : Window s.acceptedSetpoint s.totalTrim s.limits s.lastMeasurement
        (s.reports.filter fun r => v.timestamp - r.timestamp ≤ windowSeconds) p.decision := by
      rw [hkeep]
      exact hwin
    exact hwin'
  · have ha' : s.acceptedSetpoint = none := ha
    rw [h.accepted] at ha'
    cases ha'
  · have hw' : s.needsWarmup = true := hw
    rw [h.warmed] at hw'
    cases hw'
  · exact hc.known r (List.mem_filter.mp hr).1
  · exact hc.sorted.sublist List.filter_sublist
  · exact hc.settled r (List.mem_filter.mp hr).1

theorem stage_pruneReports (timestamp : ℚ) (s : SubmeterTrim) :
    Stage new s (pruneReports timestamp s) :=
  ⟨fun _ hi => hi, rfl, rfl, rfl, rfl, rfl, fun _ hx => Or.inl (List.mem_filter.mp hx).1⟩

/-- A report later than the window's own joins it. -/
theorem Ready.addReport (h : Ready v s) (hp : s.pending = none)
    (hl : s.lastMeasurement = some v.timestamp) (hnew : ∀ r ∈ s.reports, r.timestamp < v.timestamp)
    (hset : ∃ wall, s.commandWall = some wall ∧ wall + measurementDelay ≤ v.timestamp) :
    Ready v (addReport v.timestamp v.power v.clock s) := by
  have hc := h.core
  refine ⟨⟨fun p hp' => ?_, hc.budget, fun ha => ?_, fun hw => ?_, hc.timed, fun r hr => ?_, ?_,
    fun r hr => ?_⟩, h.accepted, h.context, h.limits, h.warmed⟩
  · have hp'' : s.pending = some p := hp'
    rw [hp] at hp''
    cases hp''
  · have ha' : s.acceptedSetpoint = none := ha
    rw [h.accepted] at ha'
    cases ha'
  · have hw' : s.needsWarmup = true := hw
    rw [h.warmed] at hw'
    cases hw'
  · rcases List.mem_append.mp hr with hr | hr
    · exact hc.known r hr
    · obtain rfl := List.mem_singleton.mp hr
      exact ⟨v.timestamp, hl, le_rfl⟩
  · refine List.pairwise_append.mpr ⟨hc.sorted, List.pairwise_singleton _ _, fun a ha b hb => ?_⟩
    obtain rfl := List.mem_singleton.mp hb
    exact hnew a ha
  · rcases List.mem_append.mp hr with hr | hr
    · exact hc.settled r hr
    · obtain rfl := List.mem_singleton.mp hr
      exact hset

theorem stage_addReport (timestamp power clock : ℚ) (s : SubmeterTrim) :
      Stage (fun x => x.timestamp = timestamp ∧ x.power = power ∧ x.observedAt = clock) s
      (addReport timestamp power clock s) := by
  refine ⟨fun _ hi => hi, rfl, rfl, rfl, rfl, rfl, fun x hx => ?_⟩
  rcases List.mem_append.mp hx with hx | hx
  · exact Or.inl hx
  · rw [List.mem_singleton.mp hx]
    exact Or.inr ⟨rfl, rfl, rfl⟩

theorem full_addReport (hl : s.lastMeasurement = some v.timestamp) :
    Full v (pruneReports v.timestamp (addReport v.timestamp v.power v.clock s)) := by
  refine ⟨hl, ⟨⟨v.timestamp, v.power, v.clock⟩, ?_, rfl⟩, fun x hx => ?_⟩
  · have : (0 : ℚ) ≤ windowSeconds := by norm_num [windowSeconds]
    simp [pruneReports, addReport, List.filter_append, this]
  · simpa using (List.mem_filter.mp hx).2

/-- What `collectWindow` needs: the report is the last one, and a new one ended the pending trim. -/
structure Collecting (v : View) (fresh : Bool) (s : SubmeterTrim) : Prop where
  ready : Ready v s
  last : s.lastMeasurement = some v.timestamp
  fresh_pending : fresh = true → s.pending = none
  fresh_new : fresh = true → ∀ r ∈ s.reports, r.timestamp < v.timestamp

theorem collectWindow_answer {fresh : Bool} (h : Collecting v fresh s) :
    Answer (ownReport v) v.previous s (collectWindow v fresh s) := by
  have hc := h.ready.core
  unfold collectWindow
  split
  · next hw => exact absurd hw (hc.timed h.ready.warmed).2
  · next wall hw =>
    split_ifs with hearly hfresh
    · have hnone : Core { s with pending := none } :=
        ⟨fun p hp => (by cases hp), hc.2, hc.3, hc.4, hc.5, hc.6, hc.7, hc.8⟩
      refine Stage.answer ?_ (hnone.decision _ _ _ _ none _)
      exact ⟨fun i hi => (by cases hi), rfl, rfl, rfl, rfl, rfl, fun _ hx => Or.inl hx⟩
    · have hadd := h.ready.addReport (h.fresh_pending hfresh) h.last (h.fresh_new hfresh)
        ⟨wall, hw, not_lt.mp hearly⟩
      refine ((stage_addReport v.timestamp v.power v.clock s).trans
        (stage_pruneReports v.timestamp _)).answer ?_
      exact settleWindow_answer (hadd.pruneReports fun _ _ => h.last)
        fun _ => full_addReport h.last
    · refine (stage_pruneReports v.timestamp s).answer ?_
      exact settleWindow_answer (h.ready.pruneReports fun _ _ => h.last) fun hf => absurd hf hfresh

theorem Ready.notePrimary (h : Ready v s) : Ready v (notePrimary v s) := by
  have hc := h.core
  exact ⟨⟨hc.1, hc.2, hc.3, hc.4, hc.5, hc.6, hc.7, hc.8⟩, h.accepted, h.context, h.limits,
    h.warmed⟩

theorem stage_notePrimary (v : View) (s : SubmeterTrim) : Stage new s (notePrimary v s) :=
  ⟨fun _ hi => hi, rfl, rfl, rfl, rfl, rfl, fun _ hx => Or.inl hx⟩

/-- A new report is later than all of the window. -/
theorem collecting_of_new (h : Ready v s) (hn : isNew v.timestamp s) :
    Collecting v true (noteReport v.timestamp v.power s) := by
  have hc := h.core
  have hlt : ∀ r ∈ s.reports, r.timestamp < v.timestamp := fun r hr => by
    obtain ⟨t, ht, hle⟩ := hc.known r hr
    exact lt_of_le_of_lt hle (hn t ht)
  refine ⟨⟨⟨fun p hp => (by cases hp), hc.2, hc.3, hc.4, hc.5, fun r hr => ?_, hc.7, hc.8⟩,
    h.accepted, h.context, h.limits, h.warmed⟩, rfl, fun _ => rfl, fun _ => hlt⟩
  exact ⟨v.timestamp, rfl, (hlt r hr).le⟩

/-- A report that is neither new nor in error is the last one again. -/
theorem last_of_not_new (he : reportError v.timestamp v.power s = none)
    (hn : ¬ isNew v.timestamp s) : s.lastMeasurement = some v.timestamp ∧
    s.lastPower = some v.power := by
  unfold isNew at hn
  push Not at hn
  obtain ⟨t, ht, hle⟩ := hn
  unfold reportError at he
  rw [ht] at he
  simp only at he
  split_ifs at he with hbefore hchanged
  have heq : v.timestamp = t := le_antisymm hle (not_lt.mp hbefore)
  refine ⟨by rw [ht, heq], ?_⟩
  by_contra hpower
  exact hchanged ⟨heq, hpower⟩

/-- **The window of a proposal that passed.** -/
theorem proposeWindow_answer (h : Ready v s) :
    Answer (ownReport v) v.previous s (proposeWindow v s) := by
  unfold proposeWindow
  split
  · exact h.core.holdCleared _ _ _ _
  refine (stage_notePrimary v s).answer ?_
  split
  · exact h.notePrimary.core.holdCleared _ _ _ _
  next he =>
  split_ifs with hn
  · refine Stage.answer ?_ (collectWindow_answer (collecting_of_new h.notePrimary hn))
    exact ⟨fun i hi => (by cases hi), rfl, rfl, rfl, rfl, rfl, fun _ hx => Or.inl hx⟩
  · exact collectWindow_answer ⟨h.notePrimary, (last_of_not_new he hn).1, fun hf => (by cases hf),
      fun hf => (by cases hf)⟩

/-- **One proposal.**  It raises and changes nothing; or it is answered by the checks; or it passes them,
and its baseline, started anew or kept, is answered by the window. -/
theorem propose_cases (h : Core s) (a : Proposal) :
    (examine a s = .answered (none, s) ∧ propose a s = (none, s)) ∨
    (∃ previous, integer a.previousSetpoint = some previous ∧ (∃ r, examine a s = .answered r) ∧
      Answer (fun _ => False) previous s (propose a s)) ∨
    ∃ v s', integer a.previousSetpoint = some v.previous ∧ examine a s = .passed v s' ∧
      Passed a v.previous s v s' ∧ Ready v (updateBaseline v s') ∧
      Answer (ownReport v) v.previous (updateBaseline v s') (propose a s) := by
  rcases examine_outcome h a with hx | ⟨previous, hp, hx⟩
  · exact Or.inl ⟨hx, by rw [propose, hx]⟩
  · right
    unfold propose
    cases hx' : examine a s with
    | answered r =>
      rw [hx'] at hx
      cases hx with
      | answered _ hr => exact Or.inl ⟨previous, hp, ⟨r, rfl⟩, hr⟩
    | passed v s' =>
      rw [hx'] at hx
      cases hx with
      | passed _ _ hv =>
        obtain rfl := hv.previous
        have hready := hv.core.updateBaseline hv.limits
        exact Or.inr ⟨v, s', hp, rfl, hv, hready, proposeWindow_answer hready⟩

/-! ### Commit -/

theorem commits_iff {h : Handle} {now wallTime : PyValue} {i : Issued} {clock wall : ℚ} :
    commits h now wallTime s = some (i, clock, wall) ↔
      h = .decision i.id ∧ s.issued = some i ∧ number now = some clock ∧
        number wallTime = some wall ∧ i.decision.proposedAt ≤ clock ∧ 0 < wall := by
  unfold commits
  constructor
  · intro hc
    split at hc
    · next id j clock' wall' hi hn hw =>
      split_ifs at hc with hcond
      cases hc
      obtain ⟨rfl, hclock, hwall⟩ := hcond
      exact ⟨rfl, hi, hn, hw, not_lt.mp hclock, not_le.mp hwall⟩
    · cases hc
  · rintro ⟨rfl, hi, hn, hw, hclock, hwall⟩
    simp [hi, hn, hw, hclock, hwall]

/-- A commit that does not succeed changes nothing. -/
theorem commit_of_not_commits {h : Handle} {now wallTime : PyValue}
    (hc : commits h now wallTime s = none) :
    (commit h now wallTime s).1 ≠ some true ∧ (commit h now wallTime s).2 = s := by
  unfold commit
  rw [hc]
  simp only
  split_ifs <;> simp

theorem commit_of_commits {h : Handle} {now wallTime : PyValue} {i : Issued} {clock wall : ℚ}
    (hc : commits h now wallTime s = some (i, clock, wall)) :
    commit h now wallTime s = (some true,
      { acceptChange i.decision wall (acceptCommand i.decision clock wall s) with
        pending := none, issued := none }) := by
  unfold commit
  rw [hc]

/-- The setpoint of a trim or a base command moves, that of a hold does not. -/
theorem setpoint_ne_previous {d : TrimDecision} (h : Formed d) :
    d.setpoint ≠ d.previous ↔ d.kind ≠ .hold := by
  unfold Formed at h
  cases hk : d.kind <;> rw [hk] at h <;> simp only at h
  · simp [h.2]
  · simp [h.1, h.2]
  · simp [h.2]

/-- **One commit that succeeds**: a trim is added to the account, a base command starts a baseline, a
hold only starts the first one. -/
theorem commit_cases (hs : Sound s) {h : Handle} {now wallTime : PyValue} {i : Issued}
    {clock wall : ℚ} (hc : commits h now wallTime s = some (i, clock, wall)) :
    (i.decision.kind = .trim ∧ WindowOf s i.decision ∧
      (commit h now wallTime s).2 =
        { clearWindow s with
          commandTime := some clock, commandWall := some wall
          acceptedSetpoint := some i.decision.setpoint
          lastAcceptedDelta := some (i.decision.setpoint - i.decision.previous)
          lastAcceptedTime := some wall, totalTrim := s.totalTrim + i.decision.delta
          lastTrimTime := some wall, needsWarmup := false, issued := none }) ∨
    (i.decision.kind = .base ∧ i.decision.setpoint ≠ i.decision.previous ∧
      (commit h now wallTime s).2 =
        { clearWindow s with
          commandTime := some clock, commandWall := some wall
          acceptedSetpoint := some i.decision.setpoint
          lastAcceptedDelta := some (i.decision.setpoint - i.decision.previous)
          lastAcceptedTime := some wall, totalTrim := 0
          needsWarmup := false, issued := none }) ∨
    (i.decision.kind = .hold ∧ s.acceptedSetpoint = none ∧
      (commit h now wallTime s).2 =
        { s with
          commandTime := some clock, commandWall := some wall
          acceptedSetpoint := some i.decision.setpoint
          pending := none, issued := none }) ∨
    (i.decision.kind = .hold ∧ s.acceptedSetpoint ≠ none ∧
      (commit h now wallTime s).2 = { s with pending := none, issued := none }) := by
  obtain ⟨-, hi, -, -, -, -⟩ := commits_iff.mp hc
  have hformed := (hs.formed i hi).1
  have hne := setpoint_ne_previous hformed
  rw [commit_of_commits hc]
  cases hk : i.decision.kind with
  | hold =>
    have heq : ¬ i.decision.setpoint ≠ i.decision.previous := by rw [hne, hk]; simp
    right; right
    by_cases ha : s.acceptedSetpoint = none
    · exact Or.inl ⟨rfl, ha, by simp [acceptChange, acceptCommand, heq, ha]⟩
    · exact Or.inr ⟨rfl, ha, by simp [acceptChange, acceptCommand, heq, ha]⟩
  | trim =>
    have hmove : i.decision.setpoint ≠ i.decision.previous := by rw [hne, hk]; simp
    refine Or.inl ⟨rfl, (hs.pending i (hs.trim_pending i hi hk)).1, ?_⟩
    simp [acceptChange, acceptCommand, hmove, hk, clearWindow]
  | base =>
    have hmove : i.decision.setpoint ≠ i.decision.previous := by rw [hne, hk]; simp
    refine Or.inr (Or.inl ⟨rfl, hmove, ?_⟩)
    simp [acceptChange, acceptCommand, hmove, hk, clearWindow]

/-- What a moved command leaves keeps the invariant. -/
theorem sound_of_moved {s' : SubmeterTrim} (hp : s'.pending = none) (hi : s'.issued = none)
    (hb : |s'.totalTrim| ≤ maxTotal) (ha : s'.acceptedSetpoint ≠ none) (hr : s'.reports = [])
    (ht : s'.commandTime ≠ none) (hw : s'.commandWall ≠ none) : Sound s' where
  toCore :=
    { pending := fun p hp' => by rw [hp] at hp'; cases hp'
      budget := hb
      no_baseline := fun ha' => absurd ha' ha
      warm := fun _ => hr
      timed := fun _ => ⟨ht, hw⟩
      known := fun r hr' => by rw [hr] at hr'; cases hr'
      sorted := by rw [hr]; exact List.Pairwise.nil
      settled := fun r hr' => by rw [hr] at hr'; cases hr' }
  formed := fun i hi' => by rw [hi] at hi'; cases hi'
  trim_pending := fun i hi' => by rw [hi] at hi'; cases hi'

theorem Sound.commit (hs : Sound s) (h : Handle) (now wallTime : PyValue) :
    Sound (commit h now wallTime s).2 := by
  cases hc : commits h now wallTime s with
  | none =>
    rw [(commit_of_not_commits hc).2]
    exact hs
  | some x =>
    obtain ⟨i, clock, wall⟩ := x
    rcases commit_cases hs hc with ⟨-, hwin, h'⟩ | ⟨-, -, h'⟩ | ⟨-, ha, h'⟩ | ⟨-, ha, h'⟩
    · rw [h']
      exact sound_of_moved rfl rfl hwin.budget (Option.some_ne_none _) rfl (Option.some_ne_none _)
        (Option.some_ne_none _)
    · rw [h']
      exact sound_of_moved rfl rfl (by simp [maxTotal]) (Option.some_ne_none _) rfl
        (Option.some_ne_none _) (Option.some_ne_none _)
    · rw [h']
      exact sound_of_moved rfl rfl hs.budget (Option.some_ne_none _) (hs.no_baseline ha).2
        (Option.some_ne_none _) (Option.some_ne_none _)
    · rw [h']
      exact ⟨⟨fun p hp => (by cases hp), hs.budget, hs.no_baseline, hs.warm, hs.timed, hs.known,
        hs.sorted, hs.settled⟩, fun i hi => (by cases hi), fun i hi => (by cases hi)⟩

theorem Sound.propose (hs : Sound s) (a : Proposal) : Sound (propose a s).2 := by
  rcases propose_cases hs.toCore a with ⟨-, h⟩ | ⟨p, -, -, h⟩ | ⟨v, s', -, -, -, -, h⟩
  · rw [h]
    exact hs
  · exact h.sound
  · exact h.sound

/-- **Every call keeps `Sound`.** -/
theorem Sound.next (hs : Sound s) (c : Call) : Sound (next s c) := by
  cases c with
  | propose a => exact hs.propose a
  | commit h now wallTime => exact hs.commit h now wallTime
  | reset reason => exact hs.toCore.reset reason

theorem Sound.exec (hs : Sound s) (cs : List Call) : Sound (exec Model.next s cs) :=
  exec_invariant hs fun x _ h => h.next x.input

/-! ### The decisions of a proposal -/

/-- A decision without a delta has the base command or the previous one. -/
def Still (base previous : ℤ) (r : Result) : Prop :=
  ∀ i, r.1 = some i → i.decision.delta = 0 → i.decision.setpoint = base ∨ i.decision.setpoint = previous

/-- A decision of the window keeps the previous command, or it is the pending trim, or a new trim for a
fresh report. -/
def Decides (v : View) (fresh : Bool) (s : SubmeterTrim) (r : Result) : Prop :=
  ∀ i, r.1 = some i → (i.decision.delta = 0 ∧ i.decision.setpoint = v.previous) ∨
    (i.decision.delta ≠ 0 ∧
      (s.pending = some i ∨
        (fresh = true ∧ i.decision.measurementTime = some v.timestamp ∧
          i.decision.proposedAt = v.clock)))

theorem decides_none (v : View) (fresh : Bool) {s' : SubmeterTrim} : Decides v fresh s (none, s') :=
  fun _ hi => by cases hi

theorem decides_hold {v : View} {fresh : Bool} {now : ℚ} {reason : String} {timestamp : Option ℚ}
    {s' : SubmeterTrim} : Decides v fresh s
      (decision v.previous v.previous now reason 0 timestamp s') := by
  intro i hi
  obtain rfl := Option.some.inj hi
  exact Or.inl ⟨rfl, by simp [newDecision]⟩

/-- The window of a later stage, whose pending trim is the one before or none. -/
theorem Decides.of_pending {v : View} {fresh : Bool} {s' : SubmeterTrim} {r : Result}
    (h : Decides v fresh s' r)
    (hp : s'.pending = s.pending ∨ s'.pending = none) : Decides v fresh s r := by
  intro i hi
  rcases h i hi with hstill | ⟨hmoves, hpending | hnew⟩
  · exact Or.inl hstill
  · rcases hp with hp | hp
    · exact Or.inr ⟨hmoves, Or.inl (hp ▸ hpending)⟩
    · rw [hp] at hpending
      cases hpending
  · exact Or.inr ⟨hmoves, Or.inr hnew⟩

theorem decides_decideWindow (v : View) (fresh : Bool) (s : SubmeterTrim) :
    Decides v fresh s (decideWindow v fresh s) := by
  unfold decideWindow
  split_ifs with hfresh
  · exact decides_hold
  · exact decides_hold
  · split
    · exact decides_none v fresh
    · split_ifs
      · exact decides_hold
      · unfold boundedTrimDecision
        split_ifs
        · exact decides_hold
        · intro i hi
          obtain rfl := Option.some.inj hi
          exact Or.inr ⟨trimDelta_ne_zero _, Or.inr ⟨Bool.of_not_eq_false hfresh, rfl, rfl⟩⟩
        · exact decides_hold

/-- A pending decision has a delta. -/
def PendingMoves (s : SubmeterTrim) : Prop := ∀ p, s.pending = some p → p.decision.delta ≠ 0

theorem Core.pendingMoves (h : Core s) : PendingMoves s := by
  intro p hp hzero
  have hone := (h.pending p hp).1.one_le
  simp [hzero] at hone

theorem PendingMoves.of_eq {s' : SubmeterTrim} (h : PendingMoves s)
    (he : s'.pending = s.pending ∨ s'.pending = none) :
    PendingMoves s' := by
  intro p hp
  rcases he with he | he
  · exact h p (he ▸ hp)
  · rw [he] at hp
    cases hp

theorem decides_reissue (h : PendingMoves s) (v : View) (fresh : Bool) :
    Decides v fresh s (reissue v fresh s) := by
  unfold reissue
  split
  · next p hp =>
    intro i hi
    obtain rfl := Option.some.inj hi
    exact Or.inr ⟨h p hp, Or.inl hp⟩
  · exact decides_decideWindow v fresh s

theorem noteAverage_pending : (noteAverage s).pending = s.pending := by
  unfold noteAverage
  split_ifs <;> rfl

theorem decides_settleWindow (h : PendingMoves s) (v : View) (fresh : Bool) :
    Decides v fresh s (settleWindow v fresh s) := by
  unfold settleWindow
  split
  · exact decides_hold
  · split
    · exact decides_none v fresh
    · split_ifs
      · exact decides_hold
      · have hpending : (noteAverage s).pending = s.pending := noteAverage_pending
        exact (decides_reissue (h.of_eq (Or.inl hpending)) v fresh).of_pending (Or.inl hpending)

theorem decides_collectWindow (h : PendingMoves s) (v : View) (fresh : Bool) :
    Decides v fresh s (collectWindow v fresh s) := by
  unfold collectWindow
  split
  · exact decides_none v fresh
  · split_ifs
    · exact decides_hold
    · have hadd : PendingMoves (pruneReports v.timestamp (addReport v.timestamp v.power v.clock s)) :=
        h.of_eq (Or.inl rfl)
      exact (decides_settleWindow hadd v fresh).of_pending (Or.inl rfl)
    · have hprune : PendingMoves (pruneReports v.timestamp s) := h.of_eq (Or.inl rfl)
      exact (decides_settleWindow hprune v fresh).of_pending (Or.inl rfl)

/-- **The window's decision.** -/
theorem decides_proposeWindow (h : PendingMoves s) (v : View) :
    Decides v (decide (isNew v.timestamp s)) s (proposeWindow v s) := by
  unfold proposeWindow
  split
  · exact decides_hold
  · split
    · exact decides_hold
    · split
      · next hnew =>
        have hfresh : decide (isNew v.timestamp s) = true := decide_eq_true hnew
        have hnote : PendingMoves (noteReport v.timestamp v.power (notePrimary v s)) :=
          h.of_eq (Or.inr rfl)
        rw [hfresh]
        exact (decides_collectWindow hnote v true).of_pending (Or.inr rfl)
      · next hold =>
        have hstale : decide (isNew v.timestamp s) = false := decide_eq_false hold
        have hprimary : PendingMoves (notePrimary v s) := h.of_eq (Or.inl rfl)
        rw [hstale]
        exact (decides_collectWindow hprimary v false).of_pending (Or.inl rfl)

/-- The checks answer with the base command. -/
theorem examine_still {a : Proposal} {r : Result} (h : examine a s = .answered r) {previous : ℤ}
    (hp : integer a.previousSetpoint = some previous) {i : Issued} (hi : r.1 = some i) :
    i.decision.delta = 0 ∧ i.decision.setpoint = (integer a.baseSetpoint).getD previous := by
  have hanswered {base' previous' : ℤ} {now : ℚ} {reason : String} {s' : SubmeterTrim}
      (hbase : base' = (integer a.baseSetpoint).getD previous)
      (hr : Examined.answered (hold base' previous' now reason s') = .answered r) :
      i.decision.delta = 0 ∧
        i.decision.setpoint = (integer a.baseSetpoint).getD previous := by
    injection hr with hr
    rw [← hr] at hi
    obtain rfl := Option.some.inj hi
    exact ⟨rfl, by simp [newDecision, hbase]⟩
  unfold examine at h
  rw [hp] at h
  simp only at h
  unfold examineClock at h
  split at h
  case h_2 => exact hanswered rfl h
  case h_1 =>
    split at h
    · exact hanswered rfl h
    split at h
    · exact hanswered rfl h
    unfold examineMode at h
    split at h
    · exact hanswered rfl h
    split at h
    · exact hanswered rfl h
    split at h
    · next hnone => exact hanswered (by rw [hnone]; rfl) h
    split at h
    · exact hanswered rfl h
    next heq =>
    have hbase : previous = (integer a.baseSetpoint).getD previous := (not_not.mp heq).symm
    unfold examineLimits at h
    split at h
    case h_2 => exact hanswered hbase h
    case h_1 =>
      split at h
      · exact hanswered hbase h
      unfold examineSource at h
      split at h
      case h_2 => exact hanswered hbase h
      case h_1 =>
        split at h
        · exact hanswered hbase h
        unfold examineSample at h
        split at h
        · exact hanswered hbase h
        · cases h

/-- **A proposal without a delta keeps the base command or the previous one.** -/
theorem still_propose (h : Core s) {a : Proposal} {base previous : ℤ}
    (hbase : a.baseSetpoint = .int base)
    (hprevious : a.previousSetpoint = .int previous) : Still base previous (propose a s) := by
  rcases propose_cases h a with ⟨-, hr⟩ | ⟨p, hp, ⟨r, hx⟩, -⟩ | ⟨v, s', hp, hx, -, hready, -⟩
  · rw [hr]
    intro i hi
    cases hi
  · obtain rfl : p = previous := eq_of_integer_int (hprevious ▸ hp)
    rw [propose, hx]
    intro i hi hdelta
    rw [(examine_still hx hp hi).2, hbase]
    cases hb : integer (.int base) with
    | none => exact Or.inr rfl
    | some n => exact Or.inl (eq_of_integer_int hb)
  · obtain rfl : v.previous = previous := eq_of_integer_int (hprevious ▸ hp)
    rw [propose, hx]
    intro i hi hdelta
    rcases decides_proposeWindow hready.core.pendingMoves v i hi with ⟨-, hset⟩ | ⟨hmoves, -⟩
    · exact Or.inr hset
    · exact absurd hdelta hmoves

/-- A proposal whose decision moves the setpoint. -/
theorem propose_moves (h : Core s) {a : Proposal} {i : Issued} (hi : (propose a s).1 = some i)
    (hdelta : i.decision.delta ≠ 0) :
    ∃ v s', examine a s = .passed v s' ∧ Passed a v.previous s v s' ∧ Ready v (updateBaseline v s') ∧
      Answer (ownReport v) v.previous (updateBaseline v s') (propose a s) ∧
      ((updateBaseline v s').pending = some i ∨
        (isNew v.timestamp (updateBaseline v s') ∧ i.decision.measurementTime = some v.timestamp ∧
          i.decision.proposedAt = v.clock)) := by
  rcases propose_cases h a with ⟨-, hr⟩ | ⟨p, hp, ⟨r, hx⟩, -⟩ | ⟨v, s', hp, hx, hpassed, hready, hanswer⟩
  · rw [hr] at hi
    cases hi
  · rw [propose, hx] at hi
    exact absurd (examine_still hx hp hi).1 hdelta
  · refine ⟨v, s', hx, hpassed, hready, hanswer, ?_⟩
    rw [propose, hx] at hi
    rcases decides_proposeWindow hready.core.pendingMoves v i hi with ⟨hzero, -⟩ |
      ⟨-, hpending | ⟨hnew, hown⟩⟩
    · exact absurd hzero hdelta
    · exact Or.inl hpending
    · exact Or.inr ⟨of_decide_eq_true hnew, hown⟩

/-- A decision that is returned is the issued one. -/
theorem propose_issued (h : Core s) {a : Proposal} {i : Issued} (hi : (propose a s).1 = some i) :
    (propose a s).2.issued = some i := by
  have hanswered {new : Report → Prop} {previous : ℤ} {s' : SubmeterTrim}
      (hr : Answer new previous s' (propose a s)) : (propose a s).2.issued = some i := by
    obtain ⟨j, hj, hissued, -⟩ := hr.issued
    rw [hissued, ← hj, hi]
  rcases propose_cases h a with ⟨-, hr⟩ | ⟨p, -, -, hr⟩ | ⟨v, s', -, -, -, -, hr⟩
  · rw [hr] at hi
    cases hi
  · exact hanswered hr
  · exact hanswered hr

/-! ### The reports of a proposal -/

/-- The checks that answer a proposal clear the window. -/
theorem examine_cleared {a : Proposal} {r : Result} (h : examine a s = .answered r) {previous : ℤ}
    (hp : integer a.previousSetpoint = some previous) : r.2.reports = [] := by
  have hanswered {base' previous' : ℤ} {now : ℚ} {reason : String} {s' : SubmeterTrim}
      (hs : s'.reports = [])
      (hr : Examined.answered (hold base' previous' now reason s') = .answered r) : r.2.reports =
        [] := by
    injection hr with hr
    rw [← hr]
    exact hs
  unfold examine at h
  rw [hp] at h
  simp only at h
  unfold examineClock at h
  split at h
  case h_2 => exact hanswered rfl h
  case h_1 =>
    split at h
    · exact hanswered rfl h
    split at h
    · exact hanswered rfl h
    unfold examineMode at h
    split at h
    · exact hanswered rfl h
    split at h
    · exact hanswered rfl h
    split at h
    · exact hanswered rfl h
    split at h
    · exact hanswered rfl h
    unfold examineLimits at h
    split at h
    case h_2 => exact hanswered rfl h
    case h_1 =>
      split at h
      · exact hanswered rfl h
      unfold examineSource at h
      split at h
      case h_2 => exact hanswered rfl h
      case h_1 =>
        split at h
        · exact hanswered rfl h
        unfold examineSample at h
        split at h
        · exact hanswered rfl h
        · cases h

theorem reissue_lastMeasurement (v : View) (fresh : Bool) (s : SubmeterTrim) :
    (reissue v fresh s).2.lastMeasurement = s.lastMeasurement := by
  unfold reissue decideWindow boundedTrimDecision
  split
  · rfl
  · split_ifs
    · rfl
    · rfl
    · split
      · rfl
      · split_ifs <;> rfl

theorem collectWindow_lastMeasurement (v : View) (fresh : Bool) (s : SubmeterTrim) :
    (collectWindow v fresh s).2.lastMeasurement = s.lastMeasurement := by
  have hsettle (s' : SubmeterTrim) : (settleWindow v fresh s').2.lastMeasurement =
    s'.lastMeasurement := by
    have hnote : (noteAverage s').lastMeasurement = s'.lastMeasurement := by
      unfold noteAverage
      split_ifs <;> rfl
    unfold settleWindow
    split
    · rfl
    · split
      · rfl
      · split_ifs
        · exact hnote
        · exact (reissue_lastMeasurement v fresh _).trans hnote
  unfold collectWindow
  split
  · rfl
  · split_ifs
    · rfl
    · exact hsettle _
    · exact hsettle _

/-- No report of the window is later than the proposal's. -/
theorem Ready.reports_le (h : Ready v s) {x : Report} (hx : x ∈ (proposeWindow v s).2.reports) :
    x.timestamp ≤ v.timestamp := by
  have hknown := (proposeWindow_answer h).sound.known x hx
  have hlast : (proposeWindow v s).2.reports = [] ∨
    (proposeWindow v s).2.lastMeasurement = some v.timestamp := by
    unfold proposeWindow
    split
    · exact Or.inl rfl
    · split
      · exact Or.inl rfl
      · next he =>
        right
        split_ifs with hnew
        · exact collectWindow_lastMeasurement v true _
        · rw [collectWindow_lastMeasurement]
          exact (last_of_not_new he hnew).1
  rcases hlast with hnil | hlast
  · rw [hnil] at hx
    cases hx
  · obtain ⟨t, ht, hle⟩ := hknown
    rw [hlast] at ht
    exact hle.trans_eq (Option.some.inj ht).symm

/-- **The reports after a proposal** that is answered are some of those before it, and the
proposal's own. -/
theorem propose_reports (h : Core s) {a : Proposal} {i : Issued} (hi : (propose a s).1 = some i)
    {x : Report} (hx : x ∈ (propose a s).2.reports) :
    ∃ v s', examine a s = .passed v s' ∧ (x ∈ s.reports ∨ ownReport v x) ∧
      x.timestamp ≤ v.timestamp := by
  rcases propose_cases h a with ⟨-, hr⟩ | ⟨previous, hp, ⟨r, hanswered⟩, -⟩ |
    ⟨v, s', -, hpassed, hpast, hready, hanswer⟩
  · rw [hr] at hi
    cases hi
  · rw [propose, hanswered] at hx
    rw [examine_cleared hanswered hp] at hx
    cases hx
  · refine ⟨v, s', hpassed, ?_, ?_⟩
    · rcases hanswer.reports x hx with hold | hown
      · exact Or.inl ((hpast.stage.reports x ((updateBaseline_subset v s').2.2 x hold)).resolve_right id)
      · exact Or.inr hown
    · rw [propose, hpassed] at hx
      exact hready.reports_le hx

/-- **The pending trim after a proposal** is the one before it, or was proposed now. -/
theorem propose_pending (h : Core s) {a : Proposal} {p : Issued}
    (hp : (propose a s).2.pending = some p) :
    s.pending = some p ∨ number a.now = some p.decision.proposedAt := by
  have hreturned (hi : (propose a s).1 = some p) (hmoves : p.decision.delta ≠ 0) :
      s.pending = some p ∨ number a.now = some p.decision.proposedAt := by
    obtain ⟨v, s', hx, hpassed, -, -, hpending | ⟨-, -, hnow⟩⟩ := propose_moves h hi hmoves
    · exact Or.inl (hpassed.stage.pending p ((updateBaseline_subset v s').1 p hpending))
    · rw [hnow]
      exact Or.inr (granted_of_passed hx).clock
  rcases propose_cases h a with ⟨-, hr⟩ | ⟨previous, -, -, hanswer⟩ | ⟨v, s', -, -, hpassed, -, hanswer⟩
  · rw [hr] at hp
    exact Or.inl hp
  · rcases hanswer.pends p hp with hold | hi
    · exact Or.inl hold
    · exact hreturned hi (hanswer.sound.toCore.pendingMoves p hp)
  · rcases hanswer.pends p hp with hold | hi
    · exact Or.inl (hpassed.stage.pending p ((updateBaseline_subset v s').1 p hold))
    · exact hreturned hi (hanswer.sound.toCore.pendingMoves p hp)

/-- An issued trim is the pending one. -/
theorem Sound.pending_of_issued (h : Sound s) {i : Issued} (hi : s.issued = some i)
    (hdelta : i.decision.delta ≠ 0) :
    s.pending = some i := by
  have hformed := (h.formed i hi).1
  refine h.trim_pending i hi ?_
  unfold Formed at hformed
  cases hk : i.decision.kind with
  | trim => rfl
  | base =>
    rw [hk] at hformed
    exact absurd hformed.1 hdelta
  | hold =>
    rw [hk] at hformed
    exact absurd hformed.1 hdelta

theorem Answer.pending {new : Report → Prop} {previous : ℤ} {r : Result}
    (h : Answer new previous s r) {i : Issued} (hi : r.1 = some i)
    (hdelta : i.decision.delta ≠ 0) : r.2.issued = some i ∧
    r.2.pending = some i := by
  obtain ⟨j, hj, hissued, -⟩ := h.issued
  obtain rfl : j = i := Option.some.inj (hj.symm.trans hi)
  exact ⟨hissued, h.sound.pending_of_issued hissued hdelta⟩

/-- What a proposal shows that returns the pending trim once more. -/
structure Reissued (a : Proposal) (s : SubmeterTrim) (p : Issued) : Prop where
  issued : (propose a s).2.issued = some p
  previous : integer a.previousSetpoint = some p.decision.previous
  setpoint : p.decision.setpoint = p.decision.previous + p.decision.delta
  limits : ∃ low high, number a.minSetpoint = some low ∧ number a.maxSetpoint = some high ∧
    low < p.decision.setpoint ∧ (p.decision.setpoint : ℚ) < high

/-- A baseline that starts anew has no window. -/
theorem Answer.not_restarted {v : View} {s' : SubmeterTrim} {r : Result}
    (h : Answer (ownReport v) v.previous (updateBaseline v s') r) {i : Issued} (hi : r.1 = some i)
    (hdelta : i.decision.delta ≠ 0) : ¬ restarts v s' := by
  intro hrestarts
  have hempty : (updateBaseline v s').reports = [] := by
    rw [updateBaseline, if_pos hrestarts]
    rfl
  have hown : ∀ x ∈ r.2.reports, x.timestamp = v.timestamp := by
    intro x hx
    rcases h.reports x hx with hold | hnew
    · rw [hempty] at hold
      cases hold
    · exact hnew.1
  obtain ⟨b, c, hb, hc, hspan, -, -⟩ := (h.sound.pending i (h.pending hi hdelta).2).1.span
  rw [hown b (List.mem_of_mem_head? hb), hown c (List.mem_of_getLast? hc), sub_self] at hspan
  exact absurd hspan (by norm_num [minSpan])

/-- **A decision that equals the pending trim is that object.** -/
theorem propose_again (hs : Sound s) {a : Proposal} {i p : Issued} (hp : s.pending = some p)
    (hi : (propose a s).1 = some i) (heq : i.decision = p.decision) : Reissued a s p := by
  have hdelta : i.decision.delta ≠ 0 := by
    rw [heq]
    exact hs.toCore.pendingMoves p hp
  obtain ⟨v, s', hx, hpassed, hready, hanswer, hmoves⟩ := propose_moves hs.toCore hi hdelta
  have hgranted := granted_of_passed hx
  have hsame : (updateBaseline v s').pending = some i := by
    refine hmoves.resolve_right fun ⟨hnew, htime, _⟩ => ?_
    have hkept : (updateBaseline v s').lastMeasurement = s.lastMeasurement := by
      rw [updateBaseline, if_neg (hanswer.not_restarted hi hdelta), hgranted.after]
      unfold Model.pinIdentity noteLimits
      split_ifs <;> rfl
    obtain ⟨b, c, -, -, -, hmeasured, hlast⟩ := (hs.pending p hp).1.span
    rw [heq, hmeasured] at htime
    have hless := hnew c.timestamp (hkept.trans hlast)
    rw [Option.some.inj htime] at hless
    exact lt_irrefl _ hless
  obtain rfl : i = p := by
    have hbefore := hpassed.stage.pending i ((updateBaseline_subset v s').1 i hsame)
    exact Option.some.inj (hbefore.symm.trans hp)
  have hwindow := (hready.core.pending i hsame).1
  have hprevious : v.previous = i.decision.previous :=
    Option.some.inj (hready.accepted.symm.trans hwindow.accepted)
  obtain ⟨low, high, hlimits, hlow, hhigh⟩ := hwindow.limits
  obtain ⟨rfl, rfl⟩ := Prod.mk.inj (Option.some.inj (hready.limits.symm.trans hlimits))
  exact ⟨(hanswer.pending hi hdelta).1, hprevious ▸ hgranted.previous, hwindow.setpoint,
    ⟨v.low, v.high, hgranted.low, hgranted.high, hlow, hhigh⟩⟩

end InverterControl.Trim.Steps
