import InverterControl.Telemetry.Steps

/-!
# The pinned measurement

The powers that are shown come from a cache of their own, which outlives every invalidation.  Where a
power field holds a value the cache holds its rounding (`Backed`), and a valid snapshot requires the
fields.  The first valid snapshot pins the source and the phases for good (`Pinned`).
-/

namespace InverterControl.Telemetry.Pinning

open InverterControl.Lib.Runs InverterControl.Python InverterControl.Telemetry.Model
open InverterControl.Telemetry.Steps

variable {t : GridTelemetry} {now : ℚ}

/-! ### The cache of the powers -/

/-- The cache holds the rounding of every power that is held. -/
def Backed (t : GridTelemetry) : Prop :=
  ∀ p v, t.fields (.power p) = some v → ∃ q, v = .number q ∧ t.lastGood p = pyRound q

theorem Backed.congr {t' : GridTelemetry} (h : Backed t) (hfields : t'.fields = t.fields)
    (hlastGood : t'.lastGood = t.lastGood) : Backed t' := by
  unfold Backed
  rw [hfields, hlastGood]
  exact h

theorem stored_power (p : Phase) (raw : Raw) : stored (.power p) raw = raw.number.map .number := by
  cases raw <;> rfl

theorem noteGood_of_ne {path : GridPath} {p : Phase} (h : path ≠ .power p) (value : Option Value)
    (lastGood : Phase → ℤ) : noteGood path value lastGood p = lastGood p := by
  unfold noteGood
  split
  · exact Function.update_of_ne (fun heq => h (by rw [heq])) _ _
  · rfl

theorem backed_updateField (h : Backed t) (path : GridPath) (raw : Raw) :
    Backed (updateField t path raw now) := by
  intro p v hv
  by_cases hp : path = .power p
  · subst hp
    simp only [updateField, Function.update_self] at hv ⊢
    rw [stored_power] at hv ⊢
    cases hq : raw.number with
    | none =>
      rw [hq] at hv
      cases hv
    | some q =>
      obtain rfl : Value.number q = v := by simpa [hq] using hv
      exact ⟨q, rfl, Function.update_self _ _ _⟩
  · have hold : (updateField t path raw now).fields (.power p) = t.fields (.power p) :=
      Function.update_of_ne (Ne.symm hp) _ _
    rw [hold] at hv
    obtain ⟨q, rfl, hq⟩ := h p v hv
    exact ⟨q, rfl, (noteGood_of_ne hp _ _).trans hq⟩

theorem backed_updateAll (values : GridPath → Raw) (paths : List GridPath) :
    ∀ {t : GridTelemetry}, Backed t → Backed (updateAll t values now paths) := by
  induction paths with
  | nil => exact fun h => h
  | cons p paths ih => exact fun h => ih (backed_updateField h p (values p))

theorem backed_next (h : Backed t) (e : Event) : Backed (next t e) := by
  obtain ⟨op, now⟩ := e
  cases op with
  | update text raw =>
    simp only [next, update]
    cases gridPath text with
    | none => exact h
    | some p =>
      simp only [updateGrid]
      split
      · exact backed_updateField (t := bump t) h p raw
      · exact backed_updateField h p raw
  | replace values token =>
    simp only [next, replace]
    split
    · have hall : Backed (updateAll (bump t) values now GridPath.all) := backed_updateAll values _ h
      exact hall.congr rfl rfl
    · exact h
  | updateMeter service text raw token =>
    simp only [next]
    rcases updateMeter_cases t now service text raw token with
      ⟨hu, -⟩ | ⟨name, p, -, -, -, -, hu⟩
    · rw [hu]
      exact h
    · obtain ⟨n, d, hm⟩ := acceptMeterUpdate_frame t now name p raw token
      rw [hu, hm]
      exact h
  | replaceMeter service reply token =>
    simp only [next]
    rcases replaceMeter_cases t now service reply token with
      ⟨hr, -⟩ | ⟨-, -, ⟨-, hr⟩ | ⟨r, -, hr⟩⟩
    · rw [hr]
      exact h
    · rw [hr]
      exact h
    · rw [hr]
      exact h
  | ownerChanged service =>
    simp only [next, ownerChanged]
    split
    · rintro p v ⟨⟩
    · exact h
  | unavailable reason => rintro p v ⟨⟩
  | snapshot =>
    obtain ⟨n, s, i, hs⟩ := snapshot_frame (t := t) now
    simp only [next, hs]
    exact h

/-! ### What is pinned -/

/-- A source is established, with a phase count. -/
structure Pinned (source : String) (inst phases : ℤ) (t : GridTelemetry) : Prop where
  source : t.source = some source
  sourceInstance : t.sourceInstance = some inst
  phases : phases ≤ t.requiredPhases

theorem Pinned.of_pins {source : String} {inst phases : ℤ} {t t' : GridTelemetry}
    (h : Pinned source inst phases t) (heq : pins t' = pins t) : Pinned source inst phases t' := by
  obtain ⟨hn, hs, hi⟩ : t'.requiredPhases = t.requiredPhases ∧ t'.source = t.source ∧
      t'.sourceInstance = t.sourceInstance := by simpa [pins] using heq
  exact ⟨hs.trans h.source, hi.trans h.sourceInstance, hn ▸ h.phases⟩

/-- A snapshot that is taken under a pin shows the pinned source, and keeps it. -/
theorem pinned_snapshot {source : String} {inst phases : ℤ} (h : Pinned source inst phases t) (now : ℚ) :
    Pinned source inst phases (snapshot t now).2 := by
  cases hv : (snapshot t now).1.valid with
  | false => rwa [snapshot_invalid hv]
  | true =>
    obtain ⟨m, hm, -, hsnap⟩ := snapshot_valid hv
    obtain ⟨-, -, i, hsrc, -⟩ := measure_ok hm
    rw [hsnap]
    refine ⟨?_, ?_, h.phases.trans (le_max_left _ _)⟩
    · rcases hsrc.source with hno | hs
      · rw [h.source] at hno
        cases hno
      · exact hs.symm.trans h.source
    · rcases hsrc.sourceInstance with hno | hi
      · rw [h.sourceInstance] at hno
        cases hno
      · exact hi.symm.trans h.sourceInstance

/-- **Nothing unpins.** -/
theorem pinned_exec {source : String} {inst phases : ℤ} (h : Pinned source inst phases t)
    (es : List Event) : Pinned source inst phases (exec next t es) := by
  refine exec_invariant h fun x _ hx => ?_
  by_cases hop : x.input.op = .snapshot
  · simp only [next, hop]
    exact pinned_snapshot hx _
  · exact hx.of_pins (next_pins x.before x.input hop).1

/-! ### The contract -/

/-- The value that a path holds was observed within the maximal age, and not touched since. -/
def ObservedWithin (t0 : GridTelemetry) (past : List Event) (now : ℚ) (path : GridPath) : Prop :=
  ∃ w, LastObserved (observation · · path) ((exec next t0 past).fields path) w (trace next t0 past) ∧
    now - w ≤ t0.maxAge

/-- The same of a field of a meter. -/
def MeterObservedWithin (t0 : GridTelemetry) (past : List Event) (now : ℚ)
    (key : String × MeterPath) : Prop :=
  ∃ w, LastObserved (meterObservation · · key) ((exec next t0 past).meterFields key) w
    (trace next t0 past) ∧ now - w ≤ t0.maxAge

/-- What stands behind a snapshot that is valid: of a source at an input. -/
structure Trusted (t0 : GridTelemetry) (past : List Event) (now : ℚ) (s : Snapshot) (source : String)
    (inst phases : ℤ) (i : Input) : Prop where
  shown : s.source = some source ∧ s.sourceInstance = some inst ∧ s.phases = some phases
  count : (exec next t0 past).fields .phaseCount = some (.number phases)
  supported : phases = 1 ∨ phases = 2
  /-- `gt` is of the powers that are held. -/
  total : ∃ q1, (exec next t0 past).fields (.power .L1) = some (.number q1) ∧
    (phases = 1 → s.gt = pyRound q1) ∧
    (phases = 2 → ∃ q2, (exec next t0 past).fields (.power .L2) = some (.number q2) ∧
      s.gt = pyRound q1 + pyRound q2)
  configuredPhases : t0.expectedPhases ≠ 0 → phases = t0.expectedPhases
  configuredSource : ∀ name, t0.source = some name → source = name
  descriptor : (source, inst, i) ∈ sourceCandidates (exec next t0 past)
  unambiguous : ∀ c ∈ sourceCandidates (exec next t0 past), (c.1, c.2.1) = (source, inst)
  observed : ∀ path ∈ .phaseCount :: (phasesOf phases).map .power ++ sourcePaths i,
    ObservedWithin t0 past now path
  meter : startsWith source gridServicePrefix →
    (exec next t0 past).meterFields (source, .connected) = some 1 ∧
      MeterObservedWithin t0 past now (source, .connected)

/-- The observation times that a measurement rests on. -/
def times (t : GridTelemetry) (m : Measurement) : List (Option ℚ) :=
  m.requiredPaths.map t.updated ++
    if startsWith m.source gridServicePrefix then [t.meterUpdated (m.source, .connected)] else []

/-- The call observes one of the fields that a measurement rests on. -/
def Refreshes (t : GridTelemetry) (e : Event) (m : Measurement) : Prop :=
  (∃ path ∈ m.requiredPaths, observation t e path ≠ none) ∨
    (startsWith m.source gridServicePrefix ∧ meterObservation t e (m.source, .connected) ≠ none)

/-- The snapshot after the calls of the past. -/
def snapshotAt (t0 : GridTelemetry) (past : List Event) (now : ℚ) : Snapshot :=
  (snapshot (exec next t0 past) now).1

/-- A source that is configured stays. -/
theorem source_exec {name : String} (h : t.source = some name) (es : List Event) :
    (exec next t es).source = some name := by
  refine exec_invariant (P := fun t : GridTelemetry => t.source = some name) h fun x _ hx => ?_
  by_cases hop : x.input.op = .snapshot
  · simp only [next, hop]
    cases hv : (snapshot x.before x.input.now).1.valid with
    | false => rwa [snapshot_invalid hv]
    | true =>
      obtain ⟨m, hm, -, hsnap⟩ := snapshot_valid hv
      obtain ⟨-, -, i, hsrc, -⟩ := measure_ok hm
      rw [hsnap]
      rcases hsrc.source with hno | hs
      · rw [hx] at hno
        cases hno
      · exact hs.symm.trans hx
  · have hp := (next_pins x.before x.input hop).1
    have hs : (next x.before x.input).source = x.before.source := congrArg (·.2.1) hp
    exact hs.trans hx

/-- A path that is young enough was observed within the maximal age. -/
theorem observedWithin_of_age {t0 : GridTelemetry} {past : List Event} {path : GridPath}
    (h0 : t0.updated path = none)
    (h : ageOf now ((exec next t0 past).updated path) ≤ (t0.maxAge : WithTop ℚ)) :
    ObservedWithin t0 past now path := by
  obtain ⟨w, hw, hle⟩ := ageOf_le h
  exact ⟨w, (next_field path).lastObserved h0 past w hw, hle⟩

theorem meterObservedWithin_of_age {t0 : GridTelemetry} {past : List Event}
    {key : String × MeterPath} (h0 : t0.meterUpdated key = none)
    (h : ageOf now ((exec next t0 past).meterUpdated key) ≤ (t0.maxAge : WithTop ℚ)) :
    MeterObservedWithin t0 past now key := by
  obtain ⟨w, hw, hle⟩ := ageOf_le h
  exact ⟨w, (next_meterField key).lastObserved h0 past w hw, hle⟩

/-- The total that a valid snapshot shows is of the powers that are held. -/
theorem held_total {m : Measurement} (hb : Backed t) (h : Powered t m.phases)
    (age : Option (WithTop ℚ)) :
    ∃ q1, t.fields (.power .L1) = some (.number q1) ∧
      (m.phases.num = 1 → (report (establish t m) none age).gt = pyRound q1) ∧
      (m.phases.num = 2 → ∃ q2, t.fields (.power .L2) = some (.number q2) ∧
        (report (establish t m) none age).gt = pyRound q1 + pyRound q2) := by
  have hreq : (establish t m).requiredPhases = m.phases.num := by
    have hle := h.established
    rw [← h.num_cast] at hle
    exact max_eq_right (by exact_mod_cast hle)
  have hpow (p : Phase) (hp : p ∈ phasesOf m.phases) :
      ∃ q, t.fields (.power p) = some (.number q) ∧ t.lastGood p = pyRound q := by
    obtain ⟨v, hv⟩ := Option.ne_none_iff_exists'.mp (h.powers p hp)
    obtain ⟨q, rfl, hq⟩ := hb p v hv
    exact ⟨q, hv, hq⟩
  obtain ⟨q1, hq1, hg1⟩ := hpow .L1 (by unfold phasesOf; split_ifs <;> simp)
  have hgt : (report (establish t m) none age).gt =
      pyRound q1 + if m.phases.num = 2 then t.lastGood .L2 else 0 := by
    simp only [report, secondPhase, hreq, ← hg1]
    rfl
  refine ⟨q1, hq1, fun hone => ?_, fun htwo => ?_⟩
  · rw [hgt, if_neg (by omega), add_zero]
  · have hne : m.phases ≠ 1 := by
      rintro hone
      rw [hone] at htwo
      cases htwo
    obtain ⟨q2, hq2, hg2⟩ := hpow .L2 (by rw [phasesOf, if_neg hne]; simp)
    exact ⟨q2, hq2, by rw [hgt, if_pos htwo, hg2]⟩

/-- Nothing was observed yet. -/
structure Unseen (t : GridTelemetry) : Prop where
  fields : ∀ path, t.fields path = none
  updated : ∀ path, t.updated path = none
  meterUpdated : ∀ key, t.meterUpdated key = none

theorem unseen_init (maxAge : ℚ) (expectedService : String) (expectedPhases : ℤ) :
    Unseen (init maxAge expectedService expectedPhases) :=
  ⟨fun _ => rfl, fun _ => rfl, fun _ => rfl⟩

/-- **A valid snapshot is of observations that are young, and of one source.** -/
theorem valid_trusted {t0 : GridTelemetry} (h0 : Unseen t0) (past : List Event)
    (hv : (snapshotAt t0 past now).valid = true) :
    ∃ source inst phases i, Trusted t0 past now (snapshotAt t0 past now) source inst phases i := by
  obtain ⟨m, hm, hage, hsnap⟩ := snapshot_valid hv
  obtain ⟨-, hpow, i, hsrc, hreq⟩ := measure_ok hm
  have hb : Backed (exec next t0 past) := by
    refine exec_invariant (P := Backed) (fun p v hv => ?_) fun x _ hx => backed_next hx x.input
    rw [h0.fields] at hv
    cases hv
  obtain ⟨hmax, hexp⟩ : (exec next t0 past).maxAge = t0.maxAge ∧
      (exec next t0 past).expectedPhases = t0.expectedPhases := by
    simpa [settings] using exec_settings t0 past
  rw [hmax, measurementAge_le] at hage
  have hshow : snapshotAt t0 past now = report (establish (exec next t0 past) m) none
      (some (measurementAge (exec next t0 past) now m)) := congrArg Prod.fst hsnap
  rw [hshow]
  refine ⟨m.source, m.sourceInstance, m.phases.num, i, ?_⟩
  constructor
  case shown =>
    have hle := hpow.established
    rw [← hpow.num_cast] at hle
    have hestablished : max (exec next t0 past).requiredPhases m.phases.num = m.phases.num :=
      max_eq_right (by exact_mod_cast hle)
    have hne : m.phases.num ≠ 0 := by
      rcases hpow.supported with h | h
      · rw [h]
        decide
      · rw [h]
        decide
    refine ⟨rfl, rfl, ?_⟩
    simp only [report, establish, hestablished, if_neg hne]
  case count => rw [hpow.num_cast]; exact hpow.count
  case supported =>
    rcases hpow.supported with h | h
    · exact Or.inl (by rw [h]; rfl)
    · exact Or.inr (by rw [h]; rfl)
  case total => exact held_total hb hpow _
  case configuredPhases =>
    intro hne
    have hconf := hpow.configured (by rwa [hexp])
    rw [hexp, ← hpow.num_cast] at hconf
    exact_mod_cast hconf
  case configuredSource =>
    intro name hname
    have hkept := source_exec hname past
    rcases hsrc.source with hno | hs
    · rw [hkept] at hno
      cases hno
    · exact Option.some.inj (hs.symm.trans hkept)
  case descriptor => exact hsrc.descriptor
  case unambiguous => exact hsrc.unambiguous
  case observed =>
    intro path hpath
    rw [hpow.num_cast, ← hreq] at hpath
    exact observedWithin_of_age (h0.updated path) (hage.2 path hpath)
  case meter =>
    intro hservice
    obtain ⟨-, hconn, -, hmeter⟩ := hsrc.meter hservice
    exact ⟨hconn, meterObservedWithin_of_age (h0.meterUpdated _) (hmeter ▸ hage.1)⟩

/-- After a valid snapshot its source is pinned. -/
theorem pinned_of_valid {t0 : GridTelemetry} {past : List Event} {source : String} {inst phases : ℤ}
    (hv : (snapshotAt t0 past now).valid = true)
    (hs : (snapshotAt t0 past now).source = some source)
    (hi : (snapshotAt t0 past now).sourceInstance = some inst)
    (hp : (snapshotAt t0 past now).phases = some phases) :
    Pinned source inst phases (exec next t0 (past ++ [⟨.snapshot, now⟩])) := by
  obtain ⟨m, -, -, hsnap⟩ := snapshot_valid hv
  have hshow : snapshotAt t0 past now = report (establish (exec next t0 past) m) none
      (some (measurementAge (exec next t0 past) now m)) := congrArg Prod.fst hsnap
  have hnext : exec next t0 (past ++ [⟨.snapshot, now⟩]) = establish (exec next t0 past) m := by
    rw [exec_snoc]
    exact congrArg Prod.snd hsnap
  rw [hshow] at hs hi hp
  rw [hnext]
  refine ⟨hs, hi, ?_⟩
  simp only [report] at hp
  split_ifs at hp
  exact (Option.some.inj hp).ge

/-- Under a pin a snapshot shows the pinned source. -/
theorem Pinned.shown {t0 : GridTelemetry} {past : List Event} {source : String} {inst phases : ℤ}
    (h : Pinned source inst phases (exec next t0 past)) (now : ℚ) :
    (snapshotAt t0 past now).source = some source ∧
      (snapshotAt t0 past now).sourceInstance = some inst ∧
      ∀ p, (snapshotAt t0 past now).phases = some p → phases ≤ p := by
  have hp := pinned_snapshot h now
  refine ⟨hp.source, hp.sourceInstance, fun p hphases => ?_⟩
  simp only [snapshotAt, snapshot, report] at hphases
  split_ifs at hphases
  exact hp.phases.trans (Option.some.inj hphases).le

/-- What a call does not observe does not get younger. -/
theorem times_next {e : Event} {m : Measurement} (hm : Model.measure (next t e) now = .ok m)
    (h : ¬ Refreshes t e m) : times (next t e) m = times t m := by
  obtain ⟨-, hpow, i, -, -⟩ := measure_ok hm
  unfold Refreshes at h
  push Not at h
  have hinv : ¬ invalidates t e := by
    intro hinv
    obtain ⟨error, hc⟩ := next_of_invalidates hinv
    have hcount := hpow.count
    rw [hc] at hcount
    cases hcount
  have hpath (path : GridPath) (hpath : path ∈ m.requiredPaths) :
      (next t e).updated path = t.updated path := by
    rcases next_field path t e with ⟨v, hobs, -⟩ | ⟨-, hinv', -⟩ | ⟨-, -, -, hu⟩
    · cases (h.1 path hpath).symm.trans hobs
    · exact absurd hinv' hinv
    · exact hu
  have hmeter (hservice : startsWith m.source gridServicePrefix) :
      (next t e).meterUpdated (m.source, .connected) = t.meterUpdated (m.source, .connected) := by
    rcases next_meterField (m.source, .connected) t e with ⟨v, hobs, -⟩ | ⟨-, hinv', -⟩ | ⟨-, -, -, hu⟩
    · cases (h.2 hservice).symm.trans hobs
    · exact absurd hinv' hinv
    · exact hu
  unfold times
  congr 1
  · exact List.map_congr_left hpath
  · split_ifs with hservice
    · rw [hmeter hservice]
    · rfl

/-- **The pinned measurement contract.**  A snapshot that is valid is of young observations and of one
source; every later valid one shows the same source with as many phases at least; and a call that does
not observe a field of the measurement leaves the times it rests on. -/
theorem pinned_contract (maxAge : ℚ) (expectedService : String) (expectedPhases : ℤ)
    (es : List Event) :
    (∀ past now rest, es = past ++ ⟨.snapshot, now⟩ :: rest →
      (snapshotAt (init maxAge expectedService expectedPhases) past now).valid = true →
      ∃ source inst phases i, Trusted (init maxAge expectedService expectedPhases) past now
        (snapshotAt (init maxAge expectedService expectedPhases) past now) source inst phases i) ∧
    (∀ past now between now' rest,
      es = past ++ ⟨.snapshot, now⟩ :: (between ++ ⟨.snapshot, now'⟩ :: rest) →
      ∀ s s', s = snapshotAt (init maxAge expectedService expectedPhases) past now →
      s' = snapshotAt (init maxAge expectedService expectedPhases)
        (past ++ ⟨.snapshot, now⟩ :: between) now' →
      s.valid = true → s'.valid = true →
      s'.source = s.source ∧ s'.sourceInstance = s.sourceInstance ∧
        ∃ p p', s.phases = some p ∧ s'.phases = some p' ∧ p ≤ p') ∧
    (∀ past e rest, es = past ++ e :: rest →
      ∀ t, t = exec next (init maxAge expectedService expectedPhases) past →
      (∀ text raw, e.op = .update text raw → gridPath text = none → next t e = t) ∧
      ∀ now m, Model.measure (next t e) now = .ok m → ¬ Refreshes t e m →
        times (next t e) m = times t m) := by
  have h0 := unseen_init maxAge expectedService expectedPhases
  refine ⟨fun past now rest _ hv => valid_trusted h0 past hv, ?_, ?_⟩
  · rintro past now between now' rest - s s' rfl rfl hv hv'
    obtain ⟨source, inst, phases, i, htrust⟩ := valid_trusted h0 past hv
    obtain ⟨source', inst', phases', i', htrust'⟩ := valid_trusted h0 _ hv'
    obtain ⟨hs, hi, hp⟩ := htrust.shown
    have hpin := pinned_exec (pinned_of_valid hv hs hi hp) between
    rw [← exec_append, List.append_assoc, List.singleton_append] at hpin
    obtain ⟨hs', hi', hp'⟩ := hpin.shown now'
    exact ⟨hs'.trans hs.symm, hi'.trans hi.symm, phases, phases', hp, htrust'.shown.2.2,
      hp' _ htrust'.shown.2.2⟩
  · rintro past e rest - t rfl
    refine ⟨fun text raw hop hpath => ?_, fun now m hm hno => times_next hm hno⟩
    simp only [next, hop, update, hpath]

/-- A complete reply of the system: one phase of a meter. -/
def oneMeter : GridPath → Raw
  | .phaseCount => .other (some 1)
  | .power .L1 => .other (some 420)
  | .source .in0 => .other (some 1)
  | .serviceName .in0 => .text "com.victronenergy.grid.meter" none
  | .deviceInstance .in0 => .other (some 30)
  | _ => .none

/-- The meter is read, and the power changes before the second snapshot. -/
def meterRun : List Event :=
  [⟨.replace oneMeter none, 0⟩,
    ⟨.replaceMeter "com.victronenergy.grid.meter" (some ⟨.other (some 1), some (.other (some 1))⟩) 1, 1⟩,
    ⟨.snapshot, 2⟩, ⟨.update "/Ac/Grid/L1/Power" (.other (some (-35 / 2))), 3⟩, ⟨.snapshot, 4⟩]

/-- Both snapshots of the run are valid, and of the same source. -/
theorem pinned_contract_meter :
    (snapshotAt (init 10 "" 0) (meterRun.take 2) 2).valid = true ∧
    (snapshotAt (init 10 "" 0) (meterRun.take 4) 4).valid = true ∧
    (snapshotAt (init 10 "" 0) (meterRun.take 4) 4).gt = -18 ∧
    (snapshotAt (init 10 "" 0) (meterRun.take 4) 4).source =
      (snapshotAt (init 10 "" 0) (meterRun.take 2) 2).source := by
  have hv : (snapshotAt (init 10 "" 0) (meterRun.take 2) 2).valid = true := by decide +kernel
  have hv' : (snapshotAt (init 10 "" 0) (meterRun.take 4) 4).valid = true := by decide +kernel
  refine ⟨hv, hv', by decide +kernel, ?_⟩
  exact ((pinned_contract 10 "" 0 meterRun).2.1 (meterRun.take 2) 2 [meterRun[3]] 4 [] rfl _ _ rfl rfl
    hv hv').1

end InverterControl.Telemetry.Pinning
