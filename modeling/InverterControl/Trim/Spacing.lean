import InverterControl.Trim.Steps

/-!
# Every accepted trim has a fresh settled window

`Settled` relates the window to the past of the run: who sent its reports, and when the last command
or warm-up began.  From it: the reports of an accepted trim are later than everything the trim
before it could see, and two accepted trims are at least fifteen seconds apart.
-/

namespace InverterControl.Trim.Spacing

open InverterControl.Lib.Runs InverterControl.Python InverterControl.Trim.Model
open InverterControl.Trim.Steps

/-! ### What the calls say -/

/-- The wall clock reading of a call. -/
def wallReading : Call → Option ℚ
  | .propose a => number a.wallTime
  | .commit _ _ wallTime => number wallTime
  | .reset _ => none

/-- The decision a successful commit accepts, and when. -/
def accepts (x : Taken SubmeterTrim Call) : Option (TrimDecision × ℚ) :=
  match x.input with
  | .commit h now wallTime => (commits h now wallTime x.before).map fun c => (c.1.decision, c.2.2)
  | _ => none

/-- The wall time of a call that starts a baseline or a warm-up, or accepts a command. -/
def startsAt (x : Taken SubmeterTrim Call) : Option ℚ :=
  match x.input with
  | .propose a =>
    match examine a x.before with
    | .passed v s => if restarts v x.before ∨ s.needsWarmup = true then some v.wall else none
    | .answered _ => none
  | .commit h now wallTime =>
    match commits h now wallTime x.before with
    | some (i, _, wall) =>
      if i.decision.setpoint ≠ i.decision.previous ∨ x.before.acceptedSetpoint = none then some wall
      else none
    | none => none
  | .reset _ => none

/-- The wall time of the last command or warm-up. -/
def lastStart (past : List (Taken SubmeterTrim Call)) : Option ℚ :=
  past.foldl (fun o x => (startsAt x).or o) none

theorem lastStart_snoc (past : List (Taken SubmeterTrim Call)) (x : Taken SubmeterTrim Call) :
    lastStart (past ++ [x]) = (startsAt x).or (lastStart past) := by
  simp [lastStart, List.foldl_append]

/-- The report `r` came in a proposal of the run, of the source and submeter `context`, and not from
the future. -/
def reportedIn (context : Option Context) (r : Report) (y : Taken SubmeterTrim Call) : Prop :=
  ∃ a v s', y.input = .propose a ∧ examine a y.before = .passed v s' ∧ context = some v.context ∧
    r.timestamp = v.timestamp ∧ r.power = v.power ∧ number a.wallTime = some v.wall ∧
    v.timestamp ≤ v.wall + maxFuture

variable {s : SubmeterTrim} {past : List (Taken SubmeterTrim Call)} {d : TrimDecision}

/-! ### One call -/

theorem wallReading_of_startsAt {x : Taken SubmeterTrim Call} (hs : Core x.before) {w : ℚ}
    (h : startsAt x = some w) : wallReading x.input = some w := by
  obtain ⟨s, c⟩ := x
  cases c with
  | propose a =>
    simp only [startsAt] at h
    rcases examine_outcome hs a with hx | ⟨_, -, hx⟩
    · rw [hx] at h; cases h
    · cases hx' : examine a s with
      | answered r => rw [hx'] at h; cases h
      | passed v s' =>
        rw [hx'] at h hx
        cases hx with
        | passed _ _ hv =>
          simp only at h
          split_ifs at h
          exact (Option.some.inj h) ▸ hv.wall
  | commit hd now wallTime =>
    simp only [startsAt] at h
    cases hc : commits hd now wallTime s with
    | none => rw [hc] at h; cases h
    | some y =>
      obtain ⟨i, clock, wall⟩ := y
      rw [hc] at h
      simp only at h
      split_ifs at h
      exact (Option.some.inj h) ▸ (commits_iff.mp hc).2.2.2.1
  | reset reason => cases h

/-- **The command's wall time moves exactly when a call says so.** -/
theorem commandWall_next (hs : Sound s) (c : Call) :
    (next s c).commandWall = (startsAt ⟨s, c⟩).or s.commandWall := by
  cases c with
  | propose a =>
    simp only [next, startsAt]
    rcases propose_cases hs.toCore a with ⟨hx, h⟩ | ⟨_, -, ⟨r, hx⟩, h⟩ |
      ⟨v, s', -, hx, hv, -, h⟩
    · rw [h, hx]; rfl
    · rw [h.commandWall, hx]; rfl
    · have hres : restarts v s' ↔ restarts v s := by
        unfold restarts
        rw [hv.stage.context, hv.stage.accepted]
      rw [h.commandWall, hx, ← hv.stage.commandWall]
      simp only [← hres]
      unfold updateBaseline
      by_cases hr : restarts v s'
      · simp [hr, restartBaseline]
      · by_cases hwarm : s'.needsWarmup = true <;> simp [hr, hwarm]
  | commit hd now wallTime =>
    simp only [next, startsAt]
    cases hc : commits hd now wallTime s with
    | none => rw [(commit_of_not_commits hc).2]; rfl
    | some y =>
      obtain ⟨i, clock, wall⟩ := y
      have hne := setpoint_ne_previous (hs.formed i (commits_iff.mp hc).2.1).1
      rcases commit_cases hs hc with ⟨hk, -, h'⟩ | ⟨hk, -, h'⟩ | ⟨hk, ha, h'⟩ | ⟨hk, ha, h'⟩
      · simp [h', hne, hk]
      · simp [h', hne, hk]
      · simp [h', ha]
      · simp [h', ha, hne, hk]
  | reset reason => rfl

/-- The reports of the window after a call came in a proposal of its context, now or before. -/
theorem reported_next (hs : Sound s)
    (hr : ∀ r ∈ s.reports, ∃ y ∈ past, reportedIn s.context r y) (c : Call) :
    ∀ r ∈ (next s c).reports, ∃ y ∈ past ++ [⟨s, c⟩], reportedIn (next s c).context r y := by
  have hold : ∀ {r ctx}, (∃ y ∈ past, reportedIn ctx r y) →
      ∃ y ∈ past ++ [⟨s, c⟩], reportedIn ctx r y := by
    rintro r ctx ⟨y, hy, h⟩
    exact ⟨y, List.mem_append_left _ hy, h⟩
  cases c with
  | propose a =>
    simp only [next]
    intro r hrep
    rcases propose_cases hs.toCore a with ⟨-, h⟩ | ⟨_, -, -, h⟩ |
      ⟨v, s', -, hx, hv, hready, h⟩
    · rw [h] at hrep ⊢
      exact hold (hr r hrep)
    · rw [h.context]
      rcases h.reports r hrep with hmem | hmem
      · exact hold (hr r hmem)
      · cases hmem
    · rw [h.context, hready.context]
      rcases h.reports r hrep with hmem | hmem
      · -- A report that was there before: the baseline was not started anew.
        have hkeep : ¬ restarts v s' := by
          intro hres
          rw [updateBaseline, if_pos hres] at hmem
          cases hmem
        unfold restarts at hkeep
        push Not at hkeep
        rw [← hkeep.1, hv.stage.context]
        rcases hv.stage.reports r ((updateBaseline_subset v s').2.2 r hmem) with h' | h'
        · exact hold (hr r h')
        · cases h'
      · exact ⟨⟨s, .propose a⟩, by simp, a, v, s', rfl, hx, rfl, hmem.1, hmem.2.1, hv.wall,
          hv.not_future⟩
  | commit hd now wallTime =>
    simp only [next]
    intro r hrep
    cases hc : commits hd now wallTime s with
    | none =>
      rw [(commit_of_not_commits hc).2] at hrep ⊢
      exact hold (hr r hrep)
    | some y =>
      obtain ⟨i, clock, wall⟩ := y
      rcases commit_cases hs hc with ⟨-, -, h'⟩ | ⟨-, -, h'⟩ | ⟨-, -, h'⟩ | ⟨-, -, h'⟩ <;>
        rw [h'] at hrep ⊢
      · cases hrep
      · cases hrep
      · exact hold (hr r hrep)
      · exact hold (hr r hrep)
  | reset reason => intro r hrep; cases hrep

/-! ### Runs -/

/-- The window and the command time come from the past; the command time is not before any accepted
command's. -/
structure Settled (past : List (Taken SubmeterTrim Call)) (s : SubmeterTrim) : Prop where
  sound : Sound s
  started : s.commandWall = lastStart past
  reported : ∀ r ∈ s.reports, ∃ y ∈ past, reportedIn s.context r y
  after : ∀ y ∈ past, ∀ d w, accepts y = some (d, w) → d.setpoint ≠ d.previous →
    ∃ start, s.commandWall = some start ∧ w ≤ start

theorem Settled.init (enabled : Bool) (service : Option String) (deviceInstance : Option ℤ) :
    Settled [] (init enabled service deviceInstance) :=
  ⟨Sound.init enabled service deviceInstance, rfl, fun r hr => (by cases hr),
    fun y hy => (by cases hy)⟩

theorem wallReading_of_accepts {x : Taken SubmeterTrim Call} {d : TrimDecision} {w : ℚ}
    (h : accepts x = some (d, w)) : wallReading x.input = some w := by
  obtain ⟨s, c⟩ := x
  cases c with
  | propose a => cases h
  | reset reason => cases h
  | commit hd now wallTime =>
    simp only [accepts, Option.map_eq_some_iff] at h
    obtain ⟨⟨i, clock, wall⟩, hc, heq⟩ := h
    obtain ⟨rfl, rfl⟩ := Prod.mk.inj heq
    exact (commits_iff.mp hc).2.2.2.1

theorem startsAt_of_accepts {x : Taken SubmeterTrim Call} {d : TrimDecision} {w : ℚ}
    (h : accepts x = some (d, w)) (hd : d.setpoint ≠ d.previous) : startsAt x = some w := by
  obtain ⟨s, c⟩ := x
  cases c with
  | propose a => cases h
  | reset reason => cases h
  | commit hd' now wallTime =>
    simp only [accepts, Option.map_eq_some_iff] at h
    obtain ⟨⟨i, clock, wall⟩, hc, heq⟩ := h
    obtain ⟨rfl, rfl⟩ := Prod.mk.inj heq
    simp [startsAt, hc, hd]

/-- **Every call keeps `Settled`**, when no wall clock reading is before an earlier one. -/
theorem Settled.next (h : Settled past s) (c : Call)
    (hmono : ∀ y ∈ past, ∀ w w', wallReading y.input = some w → wallReading c = some w' → w ≤ w') :
    Settled (past ++ [⟨s, c⟩]) (next s c) := by
  have hwall := commandWall_next h.sound c
  refine ⟨h.sound.next c, ?_, reported_next h.sound h.reported c, fun y hy d w hacc hd => ?_⟩
  · rw [hwall, lastStart_snoc, h.started]
  · rcases List.mem_append.mp hy with hy | hy
    · obtain ⟨start, hstart, hle⟩ := h.after y hy d w hacc hd
      cases hs : startsAt ⟨s, c⟩ with
      | none => exact ⟨start, by rw [hwall, hs, hstart]; rfl, hle⟩
      | some w' =>
        refine ⟨w', by rw [hwall, hs]; rfl, ?_⟩
        exact hmono y hy w w' (wallReading_of_accepts hacc)
          (wallReading_of_startsAt (x := ⟨s, c⟩) h.sound.toCore hs)
    · obtain rfl := List.mem_singleton.mp hy
      exact ⟨w, by rw [hwall, startsAt_of_accepts hacc hd]; rfl, le_rfl⟩

/-- The window behind an accepted trim: its reports came one after the other from one submeter, and
at least six seconds after the last command or warm-up. -/
structure Justified (past : List (Taken SubmeterTrim Call)) (s : SubmeterTrim) (d : TrimDecision) :
    Prop where
  window : WindowOf s d
  sorted : s.reports.Pairwise fun a b => a.timestamp < b.timestamp
  settled : ∃ start, lastStart past = some start ∧
    ∀ r ∈ s.reports, start + measurementDelay ≤ r.timestamp
  reported : ∀ r ∈ s.reports, ∃ y ∈ past, reportedIn s.context r y

theorem pending_of_accepts (hs : Sound s) {c : Call} {d : TrimDecision} {w : ℚ}
    (h : accepts ⟨s, c⟩ = some (d, w)) (hk : d.kind = .trim) :
    ∃ i, s.pending = some i ∧ i.decision = d := by
  cases c with
  | propose a => cases h
  | reset reason => cases h
  | commit hd now wallTime =>
    simp only [accepts, Option.map_eq_some_iff] at h
    obtain ⟨⟨i, clock, wall⟩, hc, heq⟩ := h
    obtain ⟨rfl, rfl⟩ := Prod.mk.inj heq
    exact ⟨i, hs.trim_pending i (commits_iff.mp hc).2.1 hk, rfl⟩

theorem Settled.justified (h : Settled past s) {c : Call} {d : TrimDecision} {w : ℚ}
    (hacc : accepts ⟨s, c⟩ = some (d, w)) (hk : d.kind = .trim) : Justified past s d := by
  obtain ⟨i, hi, rfl⟩ := pending_of_accepts h.sound hacc hk
  have hwin := (h.sound.pending i hi).1
  refine ⟨hwin, h.sound.sorted, ?_, h.reported⟩
  obtain ⟨a, -, ha, -⟩ := hwin.span
  obtain ⟨start, hstart, -⟩ := h.sound.settled a (List.mem_of_head? ha)
  refine ⟨start, h.started ▸ hstart, fun r hr => ?_⟩
  obtain ⟨start', hstart', hle⟩ := h.sound.settled r hr
  rw [hstart] at hstart'
  exact (Option.some.inj hstart') ▸ hle

theorem setpoint_ne_of_trim (hwin : WindowOf s d) : d.setpoint ≠ d.previous := by
  have h1 := hwin.setpoint
  have h2 := hwin.one_le
  rintro h
  rw [h] at h1
  have : d.delta = 0 := by omega
  rw [this] at h2
  simp at h2

/-- The measurement of an accepted trim is the last report of its window, which no call had seen
before its wall time. -/
theorem measurement_le (hj : Justified past s d) : ∃ b ∈ s.reports,
    d.measurementTime = some b.timestamp ∧
      ∃ y ∈ past, ∃ wall, wallReading y.input = some wall ∧ b.timestamp ≤ wall + maxFuture := by
  obtain ⟨-, b, -, hb, -, hmeas, -⟩ := hj.window.span
  obtain ⟨y, hy, a, v, s', hin, -, -, ht, -, hw, hle⟩ := hj.reported b (List.mem_of_getLast? hb)
  exact ⟨b, List.mem_of_getLast? hb, hmeas, y, hy, v.wall, by rw [hin]; exact hw, ht ▸ hle⟩

/-- The windows of a run whose wall clock does not go back. -/
theorem settled_run (enabled : Bool) (service : Option String) (deviceInstance : Option ℤ)
    (cs : List Call) (hwall : (cs.filterMap wallReading).Pairwise (· ≤ ·)) :
    Settled (trace next (Model.init enabled service deviceInstance) cs)
      (exec next (Model.init enabled service deviceInstance) cs) := by
  revert hwall
  refine history_induction (P := fun is s => (is.filterMap wallReading).Pairwise (· ≤ ·) →
    Settled (trace Model.next (Model.init enabled service deviceInstance) is) s) ?_ ?_ cs
  · exact fun _ => Settled.init enabled service deviceInstance
  · intro is c ih hwall
    rw [List.filterMap_append] at hwall
    obtain ⟨hpre, -, hcross⟩ := List.pairwise_append.mp hwall
    rw [trace_snoc]
    refine (ih hpre).next c fun y hy w w' hw hw' => hcross w ?_ w' ?_
    · obtain ⟨a, b, rfl, -⟩ := (mem_trace next).mp hy
      exact List.mem_filterMap.mpr ⟨y.input, by simp, hw⟩
    · exact List.mem_filterMap.mpr ⟨c, by simp, hw'⟩

/-- In a run whose wall clock does not go back, no call reads an earlier time than one before it. -/
theorem wallReading_le {s₀ : SubmeterTrim} {pre post : List Call} {c : Call} {w w' : ℚ}
    (hwall : ((pre ++ c :: post).filterMap wallReading).Pairwise (· ≤ ·))
    {y : Taken SubmeterTrim Call} (hy : y ∈ trace next s₀ pre) (hw : wallReading y.input = some w)
    (hw' : wallReading c = some w') : w ≤ w' := by
  rw [List.filterMap_append] at hwall
  obtain ⟨a, b, rfl, -⟩ := (mem_trace next).mp hy
  refine (List.pairwise_append.mp hwall).2.2 w ?_ w' ?_
  · exact List.mem_filterMap.mpr ⟨y.input, by simp, hw⟩
  · exact List.mem_filterMap.mpr ⟨c, by simp, hw'⟩

/-- **Two accepted trims.**  The second one's window lies after the first one's write. -/
theorem spacing_of_justified (h : Settled past s) {c : Call} {d' : TrimDecision} {w w' : ℚ}
    {x : Taken SubmeterTrim Call} (hx : x ∈ past) (hacc : accepts x = some (d, w))
    (hmove : d.setpoint ≠ d.previous) (hacc' : accepts ⟨s, c⟩ = some (d', w'))
    (hk' : d'.kind = .trim)
    (hmono : ∀ y ∈ past, ∀ v, wallReading y.input = some v → v ≤ w') :
    w + 15 ≤ w' ∧ ∃ t, d'.measurementTime = some t ∧ w + 16 ≤ t := by
  have hj := h.justified hacc' hk'
  obtain ⟨start, hstart, hle⟩ := h.after x hx d w hacc hmove
  obtain ⟨start', hstart', hset⟩ := hj.settled
  rw [← h.started, hstart] at hstart'
  obtain rfl := Option.some.inj hstart'
  obtain ⟨a, b, ha, hb, hspan, hmeas, -⟩ := hj.window.span
  have hfirst := hset a (List.mem_of_head? ha)
  obtain ⟨b', hb', hmeas', y, hy, wall, hwall, hfut⟩ := measurement_le hj
  rw [hmeas] at hmeas'
  have hbt : b.timestamp = b'.timestamp := Option.some.inj hmeas'
  have hlast := hmono y hy wall hwall
  unfold measurementDelay at hfirst
  unfold minSpan at hspan
  unfold maxFuture at hfut
  refine ⟨by linarith, b.timestamp, hmeas, by linarith⟩

/-- **Every accepted trim is justified by a fresh settled window**, and so any two are at least
fifteen seconds apart and measured one after the other, in every run whose wall clock does not go
back. -/
theorem trim_justified (enabled : Bool) (service : Option String) (deviceInstance : Option ℤ)
    (cs : List Call) (hwall : (cs.filterMap wallReading).Pairwise (· ≤ ·)) :
    (∀ pre c post, cs = pre ++ c :: post → ∀ d w,
      accepts ⟨exec next (Model.init enabled service deviceInstance) pre, c⟩ = some (d, w) →
      d.kind = .trim →
      Justified (trace next (Model.init enabled service deviceInstance) pre)
        (exec next (Model.init enabled service deviceInstance) pre) d) ∧
    ∀ pre c mid c' post, cs = (pre ++ c :: mid) ++ c' :: post → ∀ d w d' w',
      accepts ⟨exec next (Model.init enabled service deviceInstance) pre, c⟩ = some (d, w) →
      d.kind = .trim →
      accepts ⟨exec next (Model.init enabled service deviceInstance) (pre ++ c :: mid), c'⟩ =
        some (d', w') →
      d'.kind = .trim →
      w + 15 ≤ w' ∧
        ∃ t t', d.measurementTime = some t ∧ d'.measurementTime = some t' ∧ t < t' := by
  have hpre : ∀ {pre post}, cs = pre ++ post → (pre.filterMap wallReading).Pairwise (· ≤ ·) := by
    rintro pre post rfl
    rw [List.filterMap_append] at hwall
    exact (List.pairwise_append.mp hwall).1
  constructor
  · intro pre c post hcs d w hacc hk
    exact (settled_run enabled service deviceInstance pre (hpre hcs)).justified hacc hk
  · rintro pre c mid c' post hcs d w d' w' hacc hk hacc' hk'
    have hfirst := settled_run enabled service deviceInstance pre
      (hpre (hcs.trans (List.append_assoc _ _ _)))
    have hj := hfirst.justified hacc hk
    have hsecond := settled_run enabled service deviceInstance (pre ++ c :: mid) (hpre hcs)
    have hx : (⟨exec next (Model.init enabled service deviceInstance) pre, c⟩ :
        Taken SubmeterTrim Call) ∈
        trace next (Model.init enabled service deviceInstance) (pre ++ c :: mid) :=
      (mem_trace next).mpr ⟨pre, mid, rfl, rfl⟩
    obtain ⟨hw, t', ht', hlate⟩ := spacing_of_justified hsecond hx hacc
      (setpoint_ne_of_trim hj.window) hacc' hk' fun y hy v hv =>
        wallReading_le (hcs ▸ hwall) hy hv (wallReading_of_accepts hacc')
    refine ⟨hw, ?_⟩
    -- The first trim measured nothing later than a second after its own write.
    obtain ⟨b, -, hmeas, y, hy, wall, hread, hfut⟩ := measurement_le hj
    have hpair : ((pre ++ c :: mid).filterMap wallReading).Pairwise (· ≤ ·) := hpre hcs
    have hle : wall ≤ w := wallReading_le hpair hy hread (wallReading_of_accepts hacc)
    unfold maxFuture at hfut
    exact ⟨b.timestamp, t', hmeas, ht', by linarith⟩

/-! ### Two accepted trims

A steady 24 W at the submeter, reported every three seconds. -/

/-- The report of the second `t`. -/
def steadySample (t : ℕ) : Sample where
  available := .bool true
  service := .str "com.victronenergy.acload.em"
  deviceInstance := .int 40
  generation := some (.int 0)
  measurementTime := .int t
  power := .int 24
  ageSeconds := .int 0

/-- The proposal of the second `t`. -/
def steadyProposal (previous : ℤ) (t : ℕ) : Call :=
  .propose
    { now := .int t
      wallTime := .int t
      previousSetpoint := .int previous
      baseSetpoint := .int previous
      sample := some (steadySample t)
      eligible := .bool true
      reason := ""
      rawGrid := .int 10
      filteredGrid := .int 10
      minSetpoint := .int (-2300)
      maxSetpoint := .int 2250
      sourceKey := some [.str "com.victronenergy.grid.main", .int 30, .int 0] }

/-- The proposals up to the first trim. -/
def firstWindow : List Call := (List.range 7).map fun k => steadyProposal 0 (1000 + 3 * k)

/-- The proposals from the first trim to the second. -/
def secondWindow : List Call := (List.range 6).map fun k => steadyProposal (-4) (1021 + 3 * k)

def firstCommit : Call := .commit (.decision 6) (.int 1018) (.int 1018)

def secondCommit : Call := .commit (.decision 12) (.int 1036) (.int 1036)

theorem trim_justified_twice :
    ∃ d w d' w',
      accepts ⟨exec next (init true none none) firstWindow, firstCommit⟩ = some (d, w) ∧
      accepts ⟨exec next (init true none none) (firstWindow ++ firstCommit :: secondWindow),
        secondCommit⟩ = some (d', w') ∧
      Justified (trace next (init true none none) firstWindow)
        (exec next (init true none none) firstWindow) d ∧
      w + 15 ≤ w' ∧
        ∃ t t', d.measurementTime = some t ∧ d'.measurementTime = some t' ∧ t < t' := by
  have hwall : (((firstWindow ++ firstCommit :: secondWindow) ++ secondCommit :: []).filterMap
      wallReading).Pairwise (· ≤ ·) := by
    decide +kernel
  have hfirst : accepts ⟨exec next (init true none none) firstWindow, firstCommit⟩ =
      some (⟨-4, -4, some 1018, "trim", 0, .trim, 1018⟩, 1018) := by
    decide +kernel
  have hsecond : accepts ⟨exec next (init true none none)
      (firstWindow ++ firstCommit :: secondWindow), secondCommit⟩ =
      some (⟨-8, -4, some 1036, "trim", -4, .trim, 1036⟩, 1036) := by
    decide +kernel
  obtain ⟨hjust, hspace⟩ := trim_justified true none none _ hwall
  refine ⟨_, _, _, _, hfirst, hsecond, hjust _ _ (secondWindow ++ [secondCommit]) ?_ _ _ hfirst rfl,
    hspace _ _ _ _ [] rfl _ _ _ _ hfirst rfl hsecond rfl⟩
  simp

end InverterControl.Trim.Spacing
