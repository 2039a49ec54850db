import InverterControl.Energy.Saved

/-!
# The segments of the ledger

A segment is a run of states with one generation: it has one baseline, and its counters do not fall
(`Grows`).  What a process remembers of its own observations is `Remembers`: the last accepted one, and
a reset that came after it.  An observation that differs from the one before starts a segment, and until
the next one every snapshot says reset.
-/

namespace InverterControl.Energy.Segments

open InverterControl.Lib.Runs InverterControl.Python InverterControl.Energy.Model
open InverterControl.Energy.Steps InverterControl.Energy.Complete InverterControl.Energy.Saved

variable {zone : Zone} {l : GridEnergyLedger} {o before : Observation} {e : Event} {s s' : State}
  {es : List Event}

/-- `__init__` over a file that holds `disk`, which may not be readable. -/
def process (zone : Zone) (disk : Option State) (readable : Bool) : GridEnergyLedger :=
  restart zone { disk := disk } readable

/-- No process is started again in the run. -/
def OneProcess (es : List Event) : Prop := ∀ readable, Event.restart readable ∉ es

theorem OneProcess.left (h : OneProcess (a ++ b)) : OneProcess a := fun readable hr =>
  h readable (List.mem_append_left b hr)

theorem OneProcess.right (h : OneProcess (a ++ b)) : OneProcess b := fun readable hr =>
  h readable (List.mem_append_right a hr)

theorem OneProcess.tail (h : OneProcess (e :: b)) : OneProcess b := fun readable hr =>
  h readable (List.mem_cons_of_mem e hr)

theorem OneProcess.ne_restart (h : OneProcess (a ++ e :: b)) (readable : Bool) :
    e ≠ .restart readable := by
  rintro rfl
  exact h readable (List.mem_append_right a List.mem_cons_self)

/-! ### One segment -/

/-- A later state begins another segment, or continues this one. -/
def Grows (s s' : State) : Prop :=
  s.generation < s'.generation ∨
    (s'.generation = s.generation ∧ s'.baseline = s.baseline ∧ ¬ s'.latest.less s.latest)

theorem Grows.refl (s : State) : Grows s s := Or.inr ⟨rfl, rfl, not_less_self _⟩

theorem Grows.trans {s'' : State} (h : Grows s s') (h' : Grows s' s'') : Grows s s'' := by
  rcases h with h | ⟨hg, hb, hl⟩
  · left
    rcases h' with h' | ⟨hg', -, -⟩
    · omega
    · omega
  · rcases h' with h' | ⟨hg', hb', hl'⟩
    · left
      omega
    · exact Or.inr ⟨hg'.trans hg, hb'.trans hb, not_less_trans hl' hl⟩

theorem grows_observed (hs : l.state = some s) (o : Observation) : Grows s (observedState l o) := by
  rcases observedState_cases l o with h | ⟨s', hs', h, hsame, -⟩
  · left
    rw [h]
    simp only [seed, hs]
    omega
  · obtain rfl := Option.some.inj (hs.symm.trans hs')
    rw [h]
    exact Or.inr ⟨rfl, rfl, hsame.counters⟩

/-- A call of the process keeps the state, or observes. -/
theorem next_state_cases (zone : Zone) (l : GridEnergyLedger) (h : ∀ readable, e ≠ .restart readable) :
    (accepted zone e = none ∧ (next zone l e).state = l.state) ∨
    ∃ o, accepted zone e = some o ∧ (next zone l e).state = some (observedState l o) := by
  cases ho : accepted zone e with
  | some o =>
    rw [next_accepted ho]
    exact Or.inr ⟨o, rfl, rfl⟩
  | none =>
    left
    rcases next_state (l := l) ho with ⟨-, hs, -⟩ | ⟨-, hs, -⟩ | ⟨readable, hr⟩
    · exact ⟨rfl, hs⟩
    · exact ⟨rfl, hs⟩
    · exact absurd hr (h readable)

/-- **A run of the process only grows the state.** -/
theorem grows_exec (hrun : OneProcess es) (hs : l.state = some s) :
    ∃ s', (exec (next zone) l es).state = some s' ∧ Grows s s' := by
  refine exec_invariant (P := fun l' : GridEnergyLedger => ∃ s', l'.state = some s' ∧ Grows s s')
    ⟨s, hs, Grows.refl s⟩ fun x hx hP => ?_
  obtain ⟨s', hs', hgrows⟩ := hP
  obtain ⟨a, b, rfl, -⟩ := (mem_trace _).mp hx
  have hno := hrun.ne_restart
  rcases next_state_cases zone x.before hno with ⟨-, h⟩ | ⟨o, -, h⟩
  · exact ⟨s', h.trans hs', hgrows⟩
  · exact ⟨_, h, hgrows.trans (grows_observed hs' o)⟩

/-- The counters are not less than the baseline. -/
def Above (l : GridEnergyLedger) : Prop := ∀ s, l.state = some s → ¬ s.latest.less s.baseline

theorem above_exec (disk : Option State) (readable : Bool) (hrun : OneProcess es) :
    Above (exec (next zone) (process zone disk readable) es) := by
  refine exec_invariant (P := Above) ?_ fun x hx hP => ?_
  · intro s hs
    simp only [process, restart, load] at hs
    split_ifs at hs
    have hvalid := (Option.filter_eq_some_iff.mp hs).2
    obtain ⟨-, -, hreadings⟩ := of_decide_eq_true hvalid
    exact hreadings.2.2.2.2.2
  · obtain ⟨a, b, rfl, -⟩ := (mem_trace _).mp hx
    have hno := hrun.ne_restart
    intro s hs
    rcases next_state_cases zone x.before hno with ⟨-, h⟩ | ⟨o, -, h⟩
    · exact hP s (h.symm.trans hs)
    · obtain rfl := Option.some.inj (h.symm.trans hs)
      rcases observedState_cases x.before o with hseed | ⟨s', hs', hcont, hsame, -⟩
      · rw [hseed]
        exact not_less_self _
      · rw [hcont]
        exact not_less_trans hsame.counters (hP s' hs')

/-! ### What the process remembers -/

/-- A reset invalidation. -/
def resets (e : Event) : Prop := ∃ reason, e = .invalidate reason true

/-- The last accepted observation of the process, and whether a reset came after it. -/
structure Remembers (zone : Zone) (past : List Event) (l : GridEnergyLedger) : Prop where
  last : ∀ o, Since (fun e => accepted zone e = none) (fun e => accepted zone e = some o) past →
    ∃ s, l.state = some s ∧ Latest s o.mono o ∧ l.observedMono = some o.mono
  reset : Since (fun e => accepted zone e = none) resets past → truthy l.resetPending ≠ none

theorem next_observedMono (h : accepted zone e = none) (hno : ∀ readable, e ≠ .restart readable) :
    (next zone l e).state = l.state ∧ (next zone l e).observedMono = l.observedMono := by
  rcases next_state (l := l) h with ⟨-, hs, hm, -⟩ | ⟨-, hs, hm, -⟩ | ⟨readable, hr⟩
  · exact ⟨hs, hm⟩
  · exact ⟨hs, hm⟩
  · exact absurd hr (hno readable)

/-- Without an observation a pending reset stays, and the mark of the last observation too. -/
theorem next_pending (h : accepted zone e = none) (hno : ∀ readable, e ≠ .restart readable)
    (he : ∀ reason reset, e = .invalidate reason reset → reason ≠ "") :
    (next zone l e).resetObservation = l.resetObservation ∧
      (truthy l.resetPending ≠ none ∨ resets e → truthy (next zone l e).resetPending ≠ none) := by
  cases e with
  | observe service fields timeZone time mono =>
    obtain ⟨reason, -, hr⟩ := next_refused (l := l) h
    rw [hr]
    refine ⟨rfl, ?_⟩
    rintro (hp | ⟨reason', hr'⟩)
    · exact hp
    · cases hr'
  | invalidate reason reset =>
    refine ⟨rfl, ?_⟩
    rintro (hp | ⟨reason', hr'⟩)
    · simp only [next, invalidate]
      split_ifs
      · simp [truthy, he reason reset rfl]
      · exact hp
    · obtain ⟨rfl, rfl⟩ : reason = reason' ∧ reset = true := by simpa using hr'
      simp [next, invalidate, truthy, he reason true rfl]
  | beginSave now =>
    have hother : ¬ resets (.beginSave now) := by rintro ⟨reason, hr⟩; cases hr
    simp only [next]
    rcases beginSave_cases l now with hb | ⟨s, -, -, -, -, hb⟩
    · rw [hb]
      exact ⟨rfl, fun hp => hp.resolve_right hother⟩
    · rw [hb]
      exact ⟨rfl, fun hp => hp.resolve_right hother⟩
  | replaceFile =>
    have hother : ¬ resets .replaceFile := by rintro ⟨reason, hr⟩; cases hr
    simp only [next]
    rcases replaceFile_cases l with ⟨-, hr⟩ | ⟨save, -, hr⟩
    · rw [hr]
      exact ⟨rfl, fun hp => hp.resolve_right hother⟩
    · rw [hr]
      exact ⟨rfl, fun hp => hp.resolve_right hother⟩
  | failSave =>
    have hother : ¬ resets .failSave := by rintro ⟨reason, hr⟩; cases hr
    simp only [next]
    rcases failSave_cases l with hr | hr
    · rw [hr]
      exact ⟨rfl, fun hp => hp.resolve_right hother⟩
    · rw [hr]
      exact ⟨rfl, fun hp => hp.resolve_right hother⟩
  | finishSave =>
    have hother : ¬ resets .finishSave := by rintro ⟨reason, hr⟩; cases hr
    simp only [next]
    rcases finishSave_cases l with hr | ⟨save, -, -, hr⟩
    · rw [hr]
      exact ⟨rfl, fun hp => hp.resolve_right hother⟩
    · rw [hr]
      exact ⟨rfl, fun hp => hp.resolve_right hother⟩
  | restart readable => exact absurd rfl (hno readable)

/-- **Every call of the process keeps what it remembers.** -/
theorem Remembers.next {past : List Event} (h : Remembers zone past l)
    (hno : ∀ readable, e ≠ .restart readable)
    (he : ∀ reason reset, e = .invalidate reason reset → reason ≠ "") :
    Remembers zone (past ++ [e]) (next zone l e) := by
  cases ho : accepted zone e with
  | none =>
    obtain ⟨hs, hm⟩ := next_observedMono (l := l) ho hno
    constructor
    · intro o hsince
      rw [hs, hm]
      rcases since_snoc.mp hsince with hacc | ⟨-, hsince⟩
      · rw [ho] at hacc
        cases hacc
      · exact h.last o hsince
    · intro hsince
      refine (next_pending (l := l) ho hno he).2 ?_
      rcases since_snoc.mp hsince with hr | ⟨-, hsince⟩
      · exact Or.inr hr
      · exact Or.inl (h.reset hsince)
  | some o =>
    rw [next_accepted ho]
    constructor
    · intro o' hsince
      rcases since_snoc.mp hsince with hacc | ⟨hnone, -⟩
      · obtain rfl := Option.some.inj (ho.symm.trans hacc)
        obtain ⟨hdate, hsource, hzone, hlatest, htime⟩ := observedState_eq l o
        exact ⟨_, rfl, ⟨hdate.symm, hsource.symm, hzone.symm, hlatest.symm, htime.symm, rfl⟩, rfl⟩
      · rw [ho] at hnone
        cases hnone
    · intro hsince
      rcases since_snoc.mp hsince with ⟨reason, hr⟩ | ⟨hnone, -⟩
      · rw [hr] at ho
        cases ho
      · rw [ho] at hnone
        cases hnone

theorem remembers_exec (zone : Zone) (l : GridEnergyLedger) (hrun : OneProcess es) (he : Explained es) :
    Remembers zone es (exec (next zone) l es) := by
  induction es using List.reverseRecOn with
  | nil => exact ⟨fun o h => absurd h not_since_nil, fun h => absurd h not_since_nil⟩
  | append_singleton es e ih =>
    have hbefore := ih hrun.left
      (fun e' he' => he e' (by simp [he']))
    rw [exec_snoc]
    exact hbefore.next hrun.ne_restart (he e (by simp))

/-! ### The end of a segment -/

/-- The observation does not continue the one before: a counter fell, the meter or the time zone is
another, the wall clock went back, or the clocks disagree. -/
def Ends (before o : Observation) : Prop :=
  o.counters.less before.counters ∨ o.source ≠ before.source ∨ o.timeZone ≠ before.timeZone ∨
    o.time < before.time ∨ clockTolerance < |o.time - before.time - (o.mono - before.mono)|

theorem reseedReason_of_ends (hs : l.state = some s) (hlast : Latest s before.mono before)
    (hmono : l.observedMono = some before.mono) (h : Ends before o) : reseedReason l o ≠ none := by
  intro hnone
  have hsame := unchanged_of_reason hs hnone
  rcases h with h | h | h | h | h
  · rw [hlast.counters] at h
    exact hsame.counters h
  · exact h (hsame.source.trans hlast.source.symm)
  · exact h (hsame.timeZone.trans hlast.timeZone.symm)
  · refine hsame.clock (Or.inl ?_)
    rw [← hlast.time]
    linarith
  · refine hsame.clock (Or.inr ⟨before.mono, hmono, ?_⟩)
    rwa [← hlast.time]

theorem reseedReason_of_pending (hs : l.state = some s) (h : truthy l.resetPending ≠ none) :
    reseedReason l o ≠ none := by
  rw [reseedReason, hs, Option.bind_some, changeReason, if_pos (Option.isSome_iff_ne_none.mpr h)]
  exact h

/-- A snapshot that says reset, and shows no value. -/
def SaysReset (zone : Zone) (l : GridEnergyLedger) : Prop :=
  ∀ time mono, ∃ snap, snapshot zone l time mono = some snap ∧ snap.status = .reset ∧
    snap.importKwh = none ∧ snap.exportKwh = none

theorem saysReset_of_mark (hs : l.state = some s) (h : l.resetObservation = true) :
    SaysReset zone l := by
  intro time mono
  have hav : availability zone l s time mono =
      some (.reset, (truthy l.resetPending).or (some s.reason)) := if_pos (Or.inr h)
  refine ⟨stateSnapshot l s .reset ((truthy l.resetPending).or (some s.reason)), ?_, rfl, rfl, rfl⟩
  rw [snapshot, hs]
  simp only [hav, Option.map_some]

/-- Until the next accepted observation the mark stays. -/
theorem saysReset_exec {l : GridEnergyLedger} (hrun : OneProcess es) (he : Explained es)
    (hes : ∀ e ∈ es, accepted zone e = none) (hs : l.state = some s)
    (h : l.resetObservation = true) : SaysReset zone (exec (next zone) l es) := by
  have hrun' : ∃ s, (exec (next zone) l es).state = some s ∧
      (exec (next zone) l es).resetObservation = true := by
    refine exec_invariant (P := fun l' : GridEnergyLedger => ∃ s, l'.state = some s ∧
      l'.resetObservation = true) ⟨s, hs, h⟩ fun x hx hP => ?_
    obtain ⟨s', hs', hmark⟩ := hP
    obtain ⟨a, b, rfl, -⟩ := (mem_trace _).mp hx
    have hno := hrun.ne_restart
    have hnone := hes x.input (by simp)
    refine ⟨s', (next_observedMono hnone hno).1.trans hs', ?_⟩
    exact (next_pending hnone hno (he x.input (by simp))).1.trans hmark
  obtain ⟨s', hs', hmark⟩ := hrun'
  exact saysReset_of_mark hs' hmark

/-! ### What is shown -/

/-- A snapshot shows a value. -/
def Shows (snap : Snapshot) : Prop := snap.importKwh ≠ none ∨ snap.exportKwh ≠ none

/-- A value is shown after a read that did not fail, is not old, and is of the same date. -/
theorem snapshot_live {time mono : ℚ} {snap : Snapshot} (hs : l.state = some s)
    (h : snapshot zone l time mono = some snap) (hshows : Shows snap) :
    truthy l.readError = none ∧ ∃ observed day, l.observedMono = some observed ∧
      0 ≤ mono - observed ∧ mono - observed ≤ maxAge ∧
      calendar zone (some s.timeZone) time = some day ∧ day.date = s.date := by
  unfold snapshot at h
  rw [hs] at h
  obtain ⟨a, ha, rfl⟩ := Option.map_eq_some_iff.mp h
  have hstatus : a.1.shows = true := by
    by_contra hno
    rcases hshows with hi | hx
    · exact hi (by simp [stateSnapshot, hno])
    · exact hx (by simp [stateSnapshot, hno])
  unfold availability at ha
  split at ha
  · obtain rfl := Option.some.inj ha
    cases hstatus
  · split at ha
    · obtain rfl := Option.some.inj ha
      cases hstatus
    · next observed hobserved =>
      by_cases hclock : mono - observed < 0 ∨
          clockTolerance < |time - s.observedAt - (mono - observed)|
      · rw [if_pos hclock] at ha
        obtain rfl := Option.some.inj ha
        cases hstatus
      by_cases herror : (truthy l.readError).isSome
      · rw [if_neg hclock, if_pos herror] at ha
        obtain rfl := Option.some.inj ha
        cases hstatus
      by_cases hage : maxAge < mono - observed
      · rw [if_neg hclock, if_neg herror, if_pos hage] at ha
        obtain rfl := Option.some.inj ha
        cases hstatus
      rw [if_neg hclock, if_neg herror, if_neg hage] at ha
      obtain ⟨day, hday, rfl⟩ := Option.map_eq_some_iff.mp ha
      obtain ⟨hback, -⟩ := not_or.mp hclock
      refine ⟨by simpa using herror, observed, day, hobserved, not_lt.mp hback, not_lt.mp hage,
        hday, ?_⟩
      by_contra hdate
      rw [if_pos hdate] at hstatus
      cases hstatus

theorem fresh_exec (disk : Option State) (readable : Bool) (he : Explained es) :
    Fresh zone es (exec (next zone) (process zone disk readable) es) := by
  induction es using List.reverseRecOn with
  | nil =>
    intro s mono hs hmono
    cases hmono
  | append_singleton es e ih =>
    rw [exec_snoc]
    exact fresh_next (he e (by simp)) (ih fun e' he' => he e' (by simp [he']))

/-! ### Two snapshots of one process -/

theorem round9_mono {x y : ℚ} (h : x ≤ y) : round9 x ≤ round9 y := by
  unfold round9
  have hround : pyRound (x * 10 ^ 9) ≤ pyRound (y * 10 ^ 9) :=
    pyRound_mono (mul_le_mul_of_nonneg_right h (by norm_num))
  exact div_le_div_of_nonneg_right (by exact_mod_cast hround) (by norm_num)

theorem round9_nonneg {x : ℚ} (h : 0 ≤ x) : 0 ≤ round9 x := by
  have h0 : round9 0 = 0 := by decide +kernel
  rw [← h0]
  exact round9_mono h

/-- Two snapshots of one segment show no less later. -/
def Monotone (zone : Zone) (l l' : GridEnergyLedger) : Prop :=
  ∀ s s', l.state = some s → l'.state = some s' → s.generation = s'.generation →
    ∀ time mono time' mono' snap snap', snapshot zone l time mono = some snap →
      snapshot zone l' time' mono' = some snap' →
      (∀ x y, snap.importKwh = some x → snap'.importKwh = some y → 0 ≤ x ∧ x ≤ y) ∧
      ∀ x y, snap.exportKwh = some x → snap'.exportKwh = some y → 0 ≤ x ∧ x ≤ y

theorem monotone_of_grows {l' : GridEnergyLedger} (habove : Above l)
    (hgrows : ∀ s, l.state = some s → ∃ s', l'.state = some s' ∧ Grows s s') : Monotone zone l l' := by
  intro s s' hs hs' hgen time mono time' mono' snap snap' hsnap hsnap'
  obtain ⟨s'', hs'', hg⟩ := hgrows s hs
  obtain rfl := Option.some.inj (hs'.symm.trans hs'')
  obtain ⟨-, hbase, hlatest⟩ := hg.resolve_left (by omega)
  have hpos := habove s hs
  simp only [Counters.less, not_or, not_lt] at hpos hlatest
  obtain ⟨himport, hexport⟩ := snapshot_shows hs hsnap
  obtain ⟨himport', hexport'⟩ := snapshot_shows hs' hsnap'
  constructor
  · intro x y hx hy
    rw [himport x hx, himport' y hy, hbase]
    exact ⟨round9_nonneg (by linarith [hpos.1]), round9_mono (by linarith [hlatest.1])⟩
  · intro x y hx hy
    rw [hexport x hx, hexport' y hy, hbase]
    exact ⟨round9_nonneg (by linarith [hpos.2]), round9_mono (by linarith [hlatest.2])⟩

/-- A call that brings `o` starts a segment, and until the next observation every snapshot says
reset. -/
structure StartsSegment (zone : Zone) (l : GridEnergyLedger) (e : Event) (rest : List Event) : Prop where
  generation : ∃ s s', l.state = some s ∧ (next zone l e).state = some s' ∧
    s'.generation = s.generation + 1
  reset : ∀ quiet late, rest = quiet ++ late → (∀ q ∈ quiet, accepted zone q = none) →
    SaysReset zone (exec (next zone) (next zone l e) quiet)

theorem startsSegment {rest : List Event} (hrest : OneProcess rest) (he : Explained rest)
    (hs : l.state = some s) (ho : accepted zone e = some o) (h : reseedReason l o ≠ none) :
    StartsSegment zone l e rest := by
  have hnext := next_accepted (l := l) ho
  have hsome : (reseedReason l o).isSome := Option.isSome_iff_ne_none.mpr h
  have hseed : observedState l o = seed l o := by
    unfold observedState
    rw [hs]
    exact if_pos (Or.inl hsome)
  have hstate : (next zone l e).state = some (seed l o) := by
    rw [hnext, ← hseed]
    rfl
  have hmark : (next zone l e).resetObservation = true := by
    rw [hnext]
    exact hsome
  constructor
  · refine ⟨s, seed l o, hs, hstate, ?_⟩
    simp only [seed, hs]
  · rintro quiet late rfl hquiet
    refine saysReset_exec (fun readable hr => hrest readable (by simp [hr]))
      (fun q hq => he q (by simp [hq])) hquiet hstate hmark

/-- **The segments of the ledger**, in every run of one process over any file.  Within a generation the
values that snapshots show do not fall; an observation that does not continue the one before, or follows
a reset, starts a new generation, and until the next one every snapshot says reset; and a value is shown
only while the last read succeeded, is at most 90 s old and is of the same local date. -/
theorem ledger_segments (zone : Zone) (disk : Option State) (readable : Bool) (es : List Event)
    (hrun : OneProcess es) (he : Explained es) :
    (∀ a b, es = a ++ b → Monotone zone (exec (next zone) (process zone disk readable) a)
      (exec (next zone) (process zone disk readable) es)) ∧
    (∀ a e b before o, es = a ++ e :: b →
      Since (fun e => accepted zone e = none) (fun e => accepted zone e = some before) a →
      accepted zone e = some o →
      Ends before o ∨ Since (fun e => accepted zone e = none) resets a →
      StartsSegment zone (exec (next zone) (process zone disk readable) a) e b) ∧
    ∀ time mono snap,
      snapshot zone (exec (next zone) (process zone disk readable) es) time mono = some snap →
      Shows snap → ∃ o day, Since (Quiet zone) (fun e => accepted zone e = some o) es ∧
        mono - o.mono ≤ maxAge ∧ calendar zone (some o.timeZone) time = some day ∧
        day.date = o.day.date := by
  refine ⟨?_, ?_, ?_⟩
  · rintro a b rfl
    refine monotone_of_grows (above_exec disk readable hrun.left) fun s hs => ?_
    rw [exec_append]
    exact grows_exec hrun.right hs
  · rintro a e b before o rfl hbefore ho hends
    have hea : Explained a := fun e' he' => he e' (by simp [he'])
    have heb : Explained b := fun e' he' => he e' (by simp [he'])
    have hrem := remembers_exec zone (process zone disk readable) hrun.left hea
    obtain ⟨s, hs, hlast, hmono⟩ := hrem.last before hbefore
    refine startsSegment hrun.right.tail heb hs ho ?_
    rcases hends with hends | hreset
    · exact reseedReason_of_ends hs hlast hmono hends
    · exact reseedReason_of_pending hs (hrem.reset hreset)
  · intro time mono snap hsnap hshows
    cases hs : (exec (next zone) (process zone disk readable) es).state with
    | none =>
      rw [snapshot, hs] at hsnap
      obtain rfl := Option.some.inj hsnap
      rcases hshows with h | h
      · exact absurd rfl h
      · exact absurd rfl h
    | some s =>
      obtain ⟨herror, observed, day, hobserved, -, hage, hday, hdate⟩ := snapshot_live hs hsnap hshows
      obtain ⟨o, hlast, hsince⟩ := fresh_exec disk readable he s observed hs hobserved herror
      refine ⟨o, day, hsince, by rw [hlast.mono]; exact hage, ?_, hdate.trans hlast.date.symm⟩
      rw [hlast.timeZone]
      exact hday

/-- The counter falls at 200 s, and rises by 1 kWh at 210 s and at 220 s. -/
def fallingRun : List Event := [reading 100 100, reading 90 200, reading 91 210, reading 92 220]

/-- The second segment shows nothing before its second reading, and then 1 kWh and 2 kWh. -/
theorem ledger_segments_falling :
    SaysReset utc (exec (next utc) (process utc none true) (fallingRun.take 2)) ∧
    ((snapshot utc (exec (next utc) (process utc none true) (fallingRun.take 3)) 210 210).bind
      (·.importKwh) = some 1 ∧
      Monotone utc (exec (next utc) (process utc none true) (fallingRun.take 3))
        (exec (next utc) (process utc none true) fallingRun)) ∧
    ∃ snap o day, snapshot utc (exec (next utc) (process utc none true) fallingRun) 220 220 = some snap ∧
      snap.importKwh = some 2 ∧ Since (Quiet utc) (fun e => accepted utc e = some o) fallingRun ∧
      220 - o.mono ≤ maxAge ∧ calendar utc (some o.timeZone) 220 = some day ∧ day.date = o.day.date := by
  have hrun : OneProcess fallingRun := by
    intro readable hr
    simp [fallingRun, reading] at hr
  have he : Explained fallingRun := by
    intro e hmem reason reset hr
    fin_cases hmem <;> cases hr
  have hfirst : accepted utc (reading 100 100) = some ⟨⟨"com.victronenergy.grid.meter", 40, none⟩, "UTC",
      ⟨0, 0⟩, ⟨100, 20⟩, 100, 100⟩ := by decide +kernel
  have hsecond : accepted utc (reading 90 200) = some ⟨⟨"com.victronenergy.grid.meter", 40, none⟩, "UTC",
      ⟨0, 0⟩, ⟨90, 20⟩, 200, 200⟩ := by decide +kernel
  obtain ⟨hmonotone, hsegments, hshown⟩ := ledger_segments utc none true fallingRun hrun he
  refine ⟨?_, ⟨by decide +kernel, hmonotone (fallingRun.take 3) [reading 92 220] rfl⟩, ?_⟩
  · have hstarts := hsegments [reading 100 100] (reading 90 200) [reading 91 210, reading 92 220] _ _ rfl
      ⟨[], _, [], rfl, hfirst, by simp⟩ hsecond (Or.inl (Or.inl (Or.inl (by norm_num))))
    exact hstarts.reset [] _ rfl (by simp)
  · have hlast : ((snapshot utc (exec (next utc) (process utc none true) fallingRun) 220 220).bind
        (·.importKwh)) = some 2 := by
      decide +kernel
    obtain ⟨snap, hsnap, himport⟩ := Option.bind_eq_some_iff.mp hlast
    obtain ⟨o, day, hsince, hage, hday, hdate⟩ := hshown 220 220 snap hsnap
      (Or.inl (by rw [himport]; exact Option.some_ne_none _))
    exact ⟨snap, o, day, hsnap, himport, hsince, hage, hday, hdate⟩

end InverterControl.Energy.Segments
