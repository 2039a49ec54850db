import InverterControl.Energy.Steps

/-!
# A complete day is complete

The observation before is still the one that the ledger holds when a day is seeded (`Fresh`), so a day
that is proved complete has two successive observations around its midnight (`ProvedBy`).  The energy of
a day is the sum of the increases between the observations that the ledger holds on that date
(`Attributed`); a restart forgets the observations that were not saved.
-/

namespace InverterControl.Energy.Complete

open InverterControl.Lib.Runs InverterControl.Energy.Model InverterControl.Energy.Steps

variable {zone : Zone} {l : GridEnergyLedger} {o : Observation} {e : Event} {s : State} {es : List Event}
  {os : List Observation}

/-! ### What an observation makes of the state -/

/-- Where nothing changed, the observation is of the same meter and zone, and not before the last. -/
structure Unchanged (l : GridEnergyLedger) (s : State) (o : Observation) : Prop where
  source : o.source = s.source
  timeZone : o.timeZone = s.timeZone
  counters : ¬ o.counters.less s.latest
  clock : ¬ clockChanged l s o

theorem unchanged_of_reason (hs : l.state = some s) (h : reseedReason l o = none) : Unchanged l s o := by
  rw [reseedReason, hs] at h
  simp only [Option.bind_some, changeReason] at h
  split at h
  · next hpending =>
    rw [h] at hpending
    cases hpending
  · split at h
    · cases h
    · next hsource =>
      split at h
      · cases h
      · next hzone =>
        split at h
        · cases h
        · next hcounters =>
          split at h
          · cases h
          · next hclock => exact ⟨not_not.mp hsource, not_not.mp hzone, hcounters, hclock⟩

/-- An observation seeds the state, or continues the day of the state before. -/
theorem observedState_cases (l : GridEnergyLedger) (o : Observation) :
    observedState l o = seed l o ∨
    ∃ s, l.state = some s ∧ observedState l o = continued s o ∧ Unchanged l s o ∧
      s.date = o.day.date := by
  unfold observedState
  cases hs : l.state with
  | none => exact Or.inl rfl
  | some s =>
    by_cases h : (reseedReason l o).isSome ∨ s.date ≠ o.day.date
    · exact Or.inl (if_pos h)
    · push Not at h
      refine Or.inr ⟨s, rfl, if_neg ?_, unchanged_of_reason hs (by simpa using h.1), h.2⟩
      rintro (hno | hno)
      · exact h.1 hno
      · exact hno h.2

/-- The state of an observation is of its date, meter and zone, with its readings as the latest. -/
theorem observedState_eq (l : GridEnergyLedger) (o : Observation) :
    (observedState l o).date = o.day.date ∧ (observedState l o).source = o.source ∧
    (observedState l o).timeZone = o.timeZone ∧ (observedState l o).latest = o.counters ∧
    (observedState l o).observedAt = o.time := by
  rcases observedState_cases l o with h | ⟨s, -, h, hsame, hdate⟩
  · rw [h]
    exact ⟨rfl, rfl, rfl, rfl, rfl⟩
  · rw [h]
    exact ⟨hdate, hsame.source.symm, hsame.timeZone.symm, rfl, rfl⟩

/-! ### The observation before -/

/-- The observation that a state holds as its latest, read at `mono`. -/
structure Latest (s : State) (mono : ℚ) (o : Observation) : Prop where
  date : o.day.date = s.date
  source : o.source = s.source
  timeZone : o.timeZone = s.timeZone
  counters : o.counters = s.latest
  time : o.time = s.observedAt
  mono : o.mono = mono

/-- Where no read failed since, the latest observation is the last of the run. -/
def Fresh (zone : Zone) (es : List Event) (l : GridEnergyLedger) : Prop :=
  ∀ s mono, l.state = some s → l.observedMono = some mono → truthy l.readError = none →
    ∃ o, Latest s mono o ∧ Since (Quiet zone) (fun e => accepted zone e = some o) es

theorem fresh_next (he : ∀ reason reset, e = .invalidate reason reset → reason ≠ "")
    (h : Fresh zone es l) : Fresh zone (es ++ [e]) (next zone l e) := by
  intro s mono hs hmono herror
  cases ho : accepted zone e with
  | some o =>
    rw [next_accepted ho] at hs hmono
    obtain rfl := Option.some.inj hs
    obtain rfl := Option.some.inj hmono
    obtain ⟨hdate, hsource, hzone, hlatest, htime⟩ := observedState_eq l o
    refine ⟨o, ⟨hdate.symm, hsource.symm, hzone.symm, hlatest.symm, htime.symm, rfl⟩, ?_⟩
    exact since_snoc.mpr (Or.inl ho)
  | none =>
    rcases next_state (l := l) ho with ⟨hquiet, hs', hm', hr'⟩ | ⟨-, -, -, hnamed⟩ | ⟨readable, rfl⟩
    · rw [hs'] at hs
      rw [hm'] at hmono
      rw [hr'] at herror
      obtain ⟨o, hlatest, hsince⟩ := h s mono hs hmono herror
      exact ⟨o, hlatest, since_snoc.mpr (Or.inr ⟨hquiet, hsince⟩)⟩
    · exact absurd herror (hnamed he)
    · cases hmono

/-! ### A midnight that is proved -/

/-- Two observations around a midnight, close on both clocks, with the same counters. -/
structure Bracket (before after : Observation) : Prop where
  source : after.source = before.source
  timeZone : after.timeZone = before.timeZone
  date : after.day.date = before.day.date + 1
  wall : 0 ≤ after.time - before.time ∧ after.time - before.time ≤ 30
  mono : 0 ≤ after.mono - before.mono ∧ after.mono - before.mono ≤ 30
  counters : after.counters = before.counters

/-- The day of the state begins between two successive observations of the run. -/
structure ProvedBy (zone : Zone) (es : List Event) (s : State) (before after : Observation) : Prop where
  successive : ∃ early e quiet e' late, es = early ++ e :: (quiet ++ e' :: late) ∧
    accepted zone e = some before ∧ accepted zone e' = some after ∧ ∀ q ∈ quiet, Quiet zone q
  bracket : Bracket before after
  date : s.date = after.day.date
  source : s.source = after.source
  timeZone : s.timeZone = after.timeZone
  startedAt : s.startedAt = after.day.boundary
  baseline : s.baseline = after.counters

/-- A state that says complete is proved. -/
def Proved (zone : Zone) (es : List Event) (s : State) : Prop :=
  s.complete = true → ∃ before after, ProvedBy zone es s before after

theorem Proved.snoc (h : Proved zone es s) (e : Event) : Proved zone (es ++ [e]) s := by
  intro hc
  obtain ⟨before, after, ⟨early, e1, quiet, e2, late, hes, h1, h2, hq⟩, hb, hd, hs, hz, hst,
    hbase⟩ := h hc
  refine ⟨before, after, ⟨early, e1, quiet, e2, late ++ [e], ?_, h1, h2, hq⟩, hb, hd, hs, hz, hst, hbase⟩
  rw [hes]
  simp

theorem proved_seed (h : Fresh zone es l) (ho : accepted zone e = some o) :
    Proved zone (es ++ [e]) (seed l o) := by
  intro hc
  change midnightProved l o = true at hc
  have hproved := hc
  unfold midnightProved at hproved
  split at hproved
  · next previous mono hprev hmono =>
    simp only [Bool.and_eq_true, Option.isNone_iff_eq_none, decide_eq_true_eq] at hproved
    obtain ⟨⟨hreason, herror⟩, hdate, hm, ht, hcounters⟩ := hproved
    have hsame := unchanged_of_reason hprev hreason
    obtain ⟨before, hlatest, early, e1, quiet, hes, h1, hq⟩ := h previous mono hprev hmono herror
    refine ⟨before, o, ⟨early, e1, quiet, e, [], by simp [hes], h1, ho, hq⟩,
      ⟨?_, ?_, ?_, ?_, ?_, ?_⟩, rfl, rfl, rfl, if_pos hc, rfl⟩
    · exact hsame.source.trans hlatest.source.symm
    · exact hsame.timeZone.trans hlatest.timeZone.symm
    · rw [hlatest.date, hdate]
    · rw [hlatest.time]
      exact ht
    · rw [hlatest.mono]
      exact hm
    · exact hcounters.trans hlatest.counters.symm
  · cases hproved

theorem proved_observed (hf : Fresh zone es l) (h : Copies (Proved zone es) l)
    (ho : accepted zone e = some o) : Proved zone (es ++ [e]) (observedState l o) := by
  rcases observedState_cases l o with hseed | ⟨s, hold, hcont, -, -⟩
  · rw [hseed]
    exact proved_seed hf ho
  · intro hc
    rw [hcont] at hc ⊢
    obtain ⟨before, after, hsucc, hb, hd, hsrc, hz, hst, hbase⟩ := (h.state s hold).snoc e hc
    exact ⟨before, after, hsucc, hb, hd, hsrc, hz, hst, hbase⟩

theorem run_proved (he : Explained es) :
    Fresh zone es (exec (next zone) init es) ∧
      Copies (Proved zone es) (exec (next zone) init es) := by
  induction es using List.reverseRecOn with
  | nil =>
    refine ⟨fun s mono hs => ?_, copies_init _⟩
    cases hs
  | append_singleton es e ih =>
    obtain ⟨hf, ha⟩ := ih fun e' he' => he e' (by simp [he'])
    rw [exec_snoc]
    exact ⟨fresh_next (he e (by simp)) hf,
      copies_next (ha.mono fun s hs => hs.snoc e) fun o ho => proved_observed hf ha ho⟩

/-- **A complete day is proved.** -/
theorem complete_proved (he : Explained es) (hs : (exec (next zone) init es).state = some s)
    (hc : s.complete = true) : ∃ before after, ProvedBy zone es s before after := by
  exact (run_proved he).2.state s hs hc

/-! ### The energy since midnight -/

/-- The instant begins the date, among the observations in the zone. -/
def Begins (P : Observation → Prop) (name : String) (date : ℤ) (instant : ℚ) : Prop :=
  ∀ o, P o → o.timeZone = name →
    (o.day.date = date → instant ≤ o.time) ∧ (o.day.date < date → o.time < instant)

/-- A physical meter: its counters never decrease. -/
structure Meter where
  reads : ℚ → Counters
  importMono : Monotone fun t => (reads t).importKwh
  exportMono : Monotone fun t => (reads t).exportKwh

theorem ProvedBy.seen {before after : Observation} (h : ProvedBy zone es s before after) :
    Seen zone es before ∧ Seen zone es after := by
  obtain ⟨early, e, quiet, e', late, rfl, hbefore, hafter, -⟩ := h.successive
  exact ⟨⟨e, by simp, hbefore⟩, ⟨e', by simp, hafter⟩⟩

theorem ProvedBy.begins {before after : Observation} (h : ProvedBy zone es s before after)
    (hz : Calendar (Seen zone es)) (honce : MidnightOnce (Seen zone es)) :
    Begins (Seen zone es) s.timeZone s.date s.startedAt := by
  obtain ⟨-, hafter⟩ := h.seen
  rw [h.timeZone, h.date, h.startedAt]
  intro o ho hzone
  refine ⟨fun hdate => ?_, fun hdate => honce ho hafter hzone hdate⟩
  rw [← hz.same ho hafter hzone hdate]
  exact hz.start ho

/-- The midnight is between the two observations. -/
theorem ProvedBy.between {before after : Observation} (h : ProvedBy zone es s before after)
    (hz : Calendar (Seen zone es)) (honce : MidnightOnce (Seen zone es)) :
    before.time < s.startedAt ∧ s.startedAt ≤ after.time := by
  obtain ⟨hbefore, hafter⟩ := h.seen
  obtain ⟨-, hnew⟩ := h.begins hz honce before hbefore (by rw [h.timeZone, h.bracket.timeZone])
  obtain ⟨hold, -⟩ := h.begins hz honce after hafter h.timeZone.symm
  have hdate := h.bracket.date
  exact ⟨hnew (by rw [h.date]; omega), hold h.date.symm⟩

/-- Between two equal readings a meter stood still. -/
theorem Meter.still (m : Meter) {t t' x : ℚ} (hx : t ≤ x ∧ x ≤ t') (h : m.reads t = m.reads t') :
    m.reads x = m.reads t' := by
  have hi := m.importMono hx.1
  have hi' := m.importMono hx.2
  have he := m.exportMono hx.1
  have he' := m.exportMono hx.2
  simp only [h] at hi he
  cases hr : m.reads x with
  | mk i x' =>
    cases hr' : m.reads t' with
    | mk j y =>
      simp only [hr, hr'] at hi hi' he he'
      rw [le_antisymm hi' hi, le_antisymm he' he]

/-! ### The observations that are held -/

/-- The observations behind the state, behind the save in flight and behind the file. -/
structure Held where
  state : List Observation := []
  saving : List Observation := []
  disk : List Observation := []

/-- What a call does to them: a restart falls back to those that are saved. -/
def hold (zone : Zone) (h : Held) (x : Taken GridEnergyLedger Event) : Held :=
  match x.input with
  | .observe _ _ _ _ _ => { h with state := h.state ++ (accepted zone x.input).toList }
  | .beginSave now =>
    if (beginSave x.before now).saving = x.before.saving then h else { h with saving := h.state }
  | .replaceFile => if x.before.saving.isSome then { h with disk := h.saving } else h
  | .restart readable =>
    { h with state := if (load zone x.before.disk readable).isSome then h.disk else [] }
  | _ => h

/-- The observations that are held after a run. -/
def heldAfter (zone : Zone) (es : List Event) : Held := (trace (next zone) init es).foldl (hold zone) {}

@[simp] theorem heldAfter_snoc (es : List Event) (e : Event) : heldAfter zone (es ++ [e]) =
    hold zone (heldAfter zone es) ⟨exec (next zone) init es, e⟩ := by
  simp [heldAfter]

/-- The increases of a counter between successive observations that are both on the date. -/
def increases (counter : Observation → ℚ) (date : ℤ) : List Observation → ℚ
  | o :: o' :: os =>
    (if o.day.date = date ∧ o'.day.date = date then counter o' - counter o else 0) +
      increases counter date (o' :: os)
  | _ => 0

/-- The energy of the state is of a window of the observations, all of its date. -/
def Attributed (os : List Observation) (s : State) : Prop :=
  ∃ early first rest last, os = early ++ first :: rest ∧ (first :: rest).getLast? = some last ∧
    (∀ o ∈ first :: rest, o.day.date = s.date) ∧ s.baseline = first.counters ∧
    s.latest = last.counters

/-- Over a window of one date the increases add up. -/
theorem increases_window (counter : Observation → ℚ) {date : ℤ} {last : Observation} :
    ∀ {first : Observation} {rest : List Observation}, (first :: rest).getLast? = some last →
      (∀ o ∈ first :: rest, o.day.date = date) →
      increases counter date (first :: rest) = counter last - counter first := by
  intro first rest
  induction rest generalizing first with
  | nil =>
    intro hlast _
    obtain rfl : first = last := by simpa using hlast
    simp [increases]
  | cons o rest ih =>
    intro hlast hdate
    rw [List.getLast?_cons_cons] at hlast
    have hrest := ih hlast fun o' ho' => hdate o' (List.mem_cons_of_mem _ ho')
    rw [increases, if_pos ⟨hdate first (by simp), hdate o (by simp)⟩, hrest]
    ring

theorem attributed_observed (h : ∀ s, l.state = some s → Attributed os s) (o : Observation) :
    Attributed (os ++ [o]) (observedState l o) := by
  rcases observedState_cases l o with hseed | ⟨s, hold, hcont, -, hdate⟩
  · rw [hseed]
    exact ⟨os, o, [], o, rfl, rfl, fun o' ho' => by rw [List.mem_singleton.mp ho']; rfl, rfl, rfl⟩
  · obtain ⟨early, first, rest, last, hos, -, hdates, hbase, -⟩ := h s hold
    rw [hcont]
    refine ⟨early, first, rest ++ [o], o, by simp [hos], ?_, fun o' ho' => ?_, hbase, rfl⟩
    · rw [← List.cons_append, List.getLast?_concat]
    · rw [← List.cons_append, List.mem_append, List.mem_singleton] at ho'
      rcases ho' with ho' | rfl
      · exact hdates o' ho'
      · exact hdate.symm

/-- Every copy of the state has its own observations behind it. -/
structure AllAttributed (h : Held) (l : GridEnergyLedger) : Prop where
  state : ∀ s, l.state = some s → Attributed h.state s
  saving : ∀ save, l.saving = some save → Attributed h.saving save.state
  disk : ∀ s, l.disk = some s → Attributed h.disk s

theorem allAttributed_next {h : Held} (ha : AllAttributed h l) :
    AllAttributed (hold zone h ⟨l, e⟩) (next zone l e) := by
  cases e with
  | observe service fields timeZone time mono =>
    cases ho : accepted zone (.observe service fields timeZone time mono) with
    | some o =>
      rw [next_accepted ho]
      simp only [hold, ho, Option.toList_some]
      refine ⟨fun s hs => ?_, ha.saving, ha.disk⟩
      obtain rfl := Option.some.inj hs
      exact attributed_observed ha.state o
    | none =>
      obtain ⟨reason, -, hr⟩ := next_refused (l := l) ho
      rw [hr]
      simp only [hold, ho, Option.toList_none, List.append_nil]
      exact ⟨ha.state, ha.saving, ha.disk⟩
  | invalidate reason reset => exact ⟨ha.state, ha.saving, ha.disk⟩
  | beginSave now =>
    simp only [hold, next]
    rcases beginSave_cases l now with hb | ⟨s, hnone, hs, -, -, hb⟩
    · rw [hb, if_pos rfl]
      exact ha
    · rw [hb, if_neg (by simp [hnone])]
      refine ⟨ha.state, fun save hsave => ?_, ha.disk⟩
      obtain rfl := Option.some.inj hsave
      exact ha.state s hs
  | replaceFile =>
    simp only [hold, next]
    rcases replaceFile_cases l with ⟨hnone, hr⟩ | ⟨save, hsave, hr⟩
    · rw [hr, if_neg (by simp [hnone])]
      exact ha
    · rw [hr, if_pos (by simp [hsave])]
      refine ⟨ha.state, fun save' hsave' => ?_, fun s hs => ?_⟩
      · obtain rfl := Option.some.inj hsave'
        exact ha.saving save hsave
      · obtain rfl := Option.some.inj hs
        exact ha.saving save hsave
  | failSave =>
    simp only [hold, next]
    rcases failSave_cases l with hr | hr
    · rw [hr]
      exact ha
    · rw [hr]
      exact ⟨ha.state, fun save hsave => (Option.some_ne_none save hsave.symm).elim, ha.disk⟩
  | finishSave =>
    simp only [hold, next]
    rcases finishSave_cases l with hr | ⟨save, -, -, hr⟩
    · rw [hr]
      exact ha
    · rw [hr]
      exact ⟨ha.state, fun save hsave => (Option.some_ne_none save hsave.symm).elim, ha.disk⟩
  | restart readable =>
    refine ⟨fun s hs => ?_, fun save hsave => (Option.some_ne_none save hsave.symm).elim, ha.disk⟩
    have hload : load zone l.disk readable = some s := hs
    simp only [hold, hload, Option.isSome_some, if_true]
    exact ha.disk s (restart_state hs)

theorem run_attributed (es : List Event) :
    AllAttributed (heldAfter zone es) (exec (next zone) init es) := by
  induction es using List.reverseRecOn with
  | nil =>
    refine ⟨fun s hs => ?_, fun save hs => ?_, fun s hs => ?_⟩
    all_goals cases hs
  | append_singleton es e ih =>
    rw [exec_snoc, heldAfter_snoc]
    exact allAttributed_next ih

/-- Without a restart every accepted observation is held. -/
theorem heldAfter_of_no_restart (h : ∀ readable, Event.restart readable ∉ es) :
    (heldAfter zone es).state = es.filterMap (accepted zone) := by
  induction es using List.reverseRecOn with
  | nil => rfl
  | append_singleton es e ih =>
    have hold' := ih fun readable hmem => h readable (List.mem_append_left _ hmem)
    rw [heldAfter_snoc, List.filterMap_append, ← hold']
    cases e with
    | observe service fields timeZone time mono =>
      simp only [hold]
      cases ho : accepted zone (.observe service fields timeZone time mono) with
      | none => simp [ho]
      | some o => simp [ho]
    | beginSave now =>
      simp only [hold]
      split <;> simp [accepted]
    | replaceFile =>
      simp only [hold]
      split <;> simp [accepted]
    | restart readable => exact absurd (by simp) (h readable)
    | _ => simp [hold, accepted]

/-! ### What a state and its snapshots say -/

/-- The counters that a snapshot shows are of the state. -/
theorem snapshot_shows {time mono : ℚ} {snap : Snapshot} (hs : l.state = some s)
    (h : snapshot zone l time mono = some snap) :
    (∀ kwh, snap.importKwh = some kwh → kwh = round9 (s.latest.importKwh - s.baseline.importKwh)) ∧
    ∀ kwh, snap.exportKwh = some kwh → kwh = round9 (s.latest.exportKwh - s.baseline.exportKwh) := by
  unfold snapshot at h
  rw [hs] at h
  obtain ⟨a, -, rfl⟩ := Option.map_eq_some_iff.mp h
  refine ⟨fun kwh hk => ?_, fun kwh hk => ?_⟩
  · simp only [stateSnapshot] at hk
    split_ifs at hk
    exact (Option.some.inj hk).symm
  · simp only [stateSnapshot] at hk
    split_ifs at hk
    exact (Option.some.inj hk).symm

/-- **A complete day is complete, and no increase is given to a date that it does not belong to.**  The
observations that the ledger holds are the accepted ones, less those that a restart forgot. -/
theorem complete_day (zone : Zone) (es : List Event) (hz : Calendar (Seen zone es))
    (honce : MidnightOnce (Seen zone es)) (he : Explained es) (s : State)
    (hs : (exec (next zone) init es).state = some s) :
    (s.complete = true → Begins (Seen zone es) s.timeZone s.date s.startedAt ∧
      ∃ before after, ProvedBy zone es s before after ∧
        before.time < s.startedAt ∧ s.startedAt ≤ after.time ∧
        ∀ (m : Meter) (t x t' : ℚ), t ≤ x ∧ x ≤ t' → m.reads t = before.counters →
          m.reads t' = after.counters → s.baseline = m.reads x ∧
          ∀ time mono snap, snapshot zone (exec (next zone) init es) time mono = some snap →
            (∀ kwh, snap.importKwh = some kwh →
              kwh = round9 (s.latest.importKwh - (m.reads x).importKwh)) ∧
            ∀ kwh, snap.exportKwh = some kwh →
              kwh = round9 (s.latest.exportKwh - (m.reads x).exportKwh)) ∧
    (∃ early window, (heldAfter zone es).state = early ++ window ∧ window ≠ [] ∧
      (∀ o ∈ window, o.day.date = s.date) ∧
      s.latest.importKwh - s.baseline.importKwh =
        increases (·.counters.importKwh) s.date window ∧
      s.latest.exportKwh - s.baseline.exportKwh =
        increases (·.counters.exportKwh) s.date window) ∧
    ((∀ readable, Event.restart readable ∉ es) →
      (heldAfter zone es).state = es.filterMap (accepted zone)) := by
  refine ⟨fun hc => ?_, ?_, heldAfter_of_no_restart⟩
  · obtain ⟨before, after, h⟩ := complete_proved he hs hc
    obtain ⟨hbefore, hafter⟩ := h.between hz honce
    refine ⟨h.begins hz honce, before, after, h, hbefore, hafter, fun m t x t' hx hread hread' => ?_⟩
    have hstill : s.baseline = m.reads x := by
      rw [m.still hx (by rw [hread, hread', h.bracket.counters]), hread', h.baseline]
    refine ⟨hstill, fun time mono snap hsnap => ?_⟩
    rw [← hstill]
    exact snapshot_shows hs hsnap
  · obtain ⟨early, first, rest, last, hos, hlast, hdates, hbase, hlatest⟩ :=
      (run_attributed es).state s hs
    refine ⟨early, first :: rest, hos, List.cons_ne_nil _ _, hdates, ?_, ?_⟩
    · rw [increases_window _ hlast hdates, hbase, hlatest]
    · rw [increases_window _ hlast hdates, hbase, hlatest]

/-- A zone without offset. -/
def utc : Zone := fun _ t => some ⟨⌊t / 86400⌋, ⌊t / 86400⌋ * 86400⟩

theorem utc_day {o : Observation} {es : List Event} (h : Seen utc es o) :
    o.day = ⟨⌊o.time / 86400⌋, ⌊o.time / 86400⌋ * 86400⟩ :=
  (Option.some.inj (calendar_some h.genuine.day).2.2).symm

theorem midnightOnce_utc (es : List Event) : MidnightOnce (Seen utc es) := by
  intro o o' ho ho' _ hdate
  rw [utc_day ho, utc_day ho'] at hdate
  rw [utc_day ho']
  have hlt := Int.lt_floor_add_one (o.time / 86400)
  have hle : (⌊o.time / 86400⌋ : ℚ) + 1 ≤ ⌊o'.time / 86400⌋ := by exact_mod_cast hdate
  exact (div_lt_iff₀ (by norm_num)).mp (hlt.trans_le hle)

theorem calendar_utc (es : List Event) : Calendar (Seen utc es) where
  same := by
    intro o o' ho ho' _ hdate
    rw [utc_day ho, utc_day ho'] at hdate ⊢
    simp only at hdate ⊢
    rw [hdate]
  start := by
    intro o ho
    rw [utc_day ho]
    exact (le_div_iff₀ (by norm_num)).mp (Int.floor_le (o.time / 86400))
  epoch := by
    intro o o' ho ho' hzone hdate
    exact ho.genuine.time.trans (midnightOnce_utc es ho ho' hzone hdate).le

/-- A reply with that import. -/
def reply (imported : ℚ) : Option MeterFields := some
  { forward := some imported
    reverse := some 20
    deviceInstance := some 40
    serial := .missing
    connected := some 1 }

/-- The reply is read at that time, on both clocks. -/
def reading (imported time : ℚ) : Event :=
  .observe (some "com.victronenergy.grid.meter") (reply imported) (some "UTC") time time

/-- Equal readings around midnight, and one more. -/
def midnightRun : List Event := [reading 100 86390, reading 100 86410, reading (401 / 4) 86420]

/-- The day of the run is complete from its midnight on. -/
theorem complete_day_midnight : ∃ s, (exec (next utc) init midnightRun).state = some s ∧
    s.complete = true ∧ Begins (Seen utc midnightRun) s.timeZone s.date 86400 := by
  have hs : ((exec (next utc) init midnightRun).state).any
      (fun s => s.complete ∧ s.startedAt = 86400) := by decide +kernel
  obtain ⟨s, hsome, hprop⟩ := (Option.any_eq_true _ _).mp hs
  obtain ⟨hc, hstart⟩ := of_decide_eq_true hprop
  refine ⟨s, hsome, hc, ?_⟩
  rw [← hstart]
  have hexplained : Explained midnightRun := by
    intro e he reason reset h
    fin_cases he <;> cases h
  exact ((complete_day utc midnightRun (calendar_utc _) (midnightOnce_utc _) hexplained s hsome).1 hc).1

/-- The reading after midnight is forgotten by the restart, and the wall clock is set back. -/
def clockSetBack : List Event :=
  [reading 100 86340, .beginSave 86341, .replaceFile, .finishSave, reading 105 86410, .restart true,
    reading (526 / 5) 86370]

/-- The date is given 5.2 kWh, though no two successive observations are both on it. -/
theorem increase_of_lost : ∃ s, (exec (next utc) init clockSetBack).state = some s ∧
    s.date = 0 ∧ s.latest.importKwh - s.baseline.importKwh = 26 / 5 ∧
    ∀ early window, clockSetBack.filterMap (accepted utc) = early ++ window →
      increases (·.counters.importKwh) s.date window = 0 := by
  have hs : ((exec (next utc) init clockSetBack).state).any
      (fun s => s.date = 0 ∧ s.latest.importKwh - s.baseline.importKwh = 26 / 5) := by
    decide +kernel
  obtain ⟨s, hsome, hprop⟩ := (Option.any_eq_true _ _).mp hs
  obtain ⟨hdate, hkwh⟩ := of_decide_eq_true hprop
  refine ⟨s, hsome, hdate, hkwh, fun early window hsplit => ?_⟩
  have hlength : early.length ≤ 3 := by
    have hthree : (clockSetBack.filterMap (accepted utc)).length = 3 := by decide +kernel
    rw [hsplit, List.length_append] at hthree
    omega
  have hwindow : window = (clockSetBack.filterMap (accepted utc)).drop early.length := by
    rw [hsplit, List.drop_left]
  have hzero : ∀ n ≤ 3, increases (·.counters.importKwh) 0
      ((clockSetBack.filterMap (accepted utc)).drop n) = 0 := by decide +kernel
  rw [hwindow, hdate]
  exact hzero early.length hlength

/-- A zone that puts the clock back by an hour a minute after midnight, as `America/St_Johns` did on
2010-11-07: the midnight comes twice, and `datetime.combine` takes the first one. -/
def putBack : Zone := fun _ t =>
  if t < 86460 then some ⟨⌊t / 86400⌋, ⌊t / 86400⌋ * 86400⟩
  else some ⟨⌊(t - 3600) / 86400⌋,
    if t < 176400 then ⌊(t - 3600) / 86400⌋ * 86400 else ⌊(t - 3600) / 86400⌋ * 86400 + 3600⟩

/-- A reading after the first midnight, and equal ones around the second. -/
def secondMidnight : List Event := [reading 100 86430, reading 105 89990, reading 105 90010]

/-- The day is complete from its first midnight on, with the counters of the second. -/
theorem midnight_repeated : ∃ s, (exec (next putBack) init secondMidnight).state = some s ∧
    s.complete = true ∧ s.startedAt = 86400 ∧
    ∃ o, Seen putBack secondMidnight o ∧ o.day.date = s.date ∧ s.startedAt < o.time ∧
      o.counters.importKwh + 5 = s.baseline.importKwh := by
  have hs : ((exec (next putBack) init secondMidnight).state).any fun s =>
      s.complete = true ∧ s.startedAt = 86400 ∧ s.date = 1 ∧ s.baseline.importKwh = 105 := by
    decide +kernel
  obtain ⟨s, hsome, hprop⟩ := (Option.any_eq_true _ _).mp hs
  obtain ⟨hcomplete, hstart, hdate, hbaseline⟩ := of_decide_eq_true hprop
  have hfirst : (accepted putBack (reading 100 86430)).any fun o =>
      o.day.date = 1 ∧ o.time = 86430 ∧ o.counters.importKwh = 100 := by decide +kernel
  obtain ⟨o, ho, hread⟩ := (Option.any_eq_true _ _).mp hfirst
  obtain ⟨hday, htime, himport⟩ := of_decide_eq_true hread
  refine ⟨s, hsome, hcomplete, hstart, o, ⟨_, List.mem_cons_self, ho⟩, hday.trans hdate.symm, ?_, ?_⟩
  · rw [hstart, htime]
    norm_num
  · rw [himport, hbaseline]
    norm_num

/-- What a lost reading and a repeated midnight do. -/
theorem increase_across_dates :
    (∃ s, (exec (next utc) init clockSetBack).state = some s ∧
      s.date = 0 ∧ s.latest.importKwh - s.baseline.importKwh = 26 / 5 ∧
      ∀ early window, clockSetBack.filterMap (accepted utc) = early ++ window →
        increases (·.counters.importKwh) s.date window = 0) ∧
    ∃ s, (exec (next putBack) init secondMidnight).state = some s ∧ s.complete = true ∧
      s.startedAt = 86400 ∧
      ∃ o, Seen putBack secondMidnight o ∧ o.day.date = s.date ∧ s.startedAt < o.time ∧
        o.counters.importKwh + 5 = s.baseline.importKwh :=
  ⟨increase_of_lost, midnight_repeated⟩

end InverterControl.Energy.Complete
