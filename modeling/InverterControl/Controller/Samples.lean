import InverterControl.Controller.Baseline

/-!
# Once per sample

While the backup meter is selected the calculator's result is accepted at most once for each
measurement time.  An accepted write notes the time of its sample (`lastBackupMeasurement`), a
calculation refuses that time (`heldSample`), and only a new selection forgets it: so once a result
was accepted, every later cycle of the selection that calculates has a sample newer than the noted
one (`Armed`).  A held sample repeats the baseline, which nobody moves before the write
(`Baseline.watched_exec`).
-/

namespace InverterControl.Controller.Samples

open InverterControl.Lib.Runs InverterControl.Python InverterControl.Logic.Model
open InverterControl.Controller.Model InverterControl.Controller.Threads
open InverterControl.Controller.Steps InverterControl.Controller.Baseline
open InverterControl.Backup.Model (GridStatus)
open InverterControl.Watchdog.Model (Env)

/-! ### Reads and applied samples -/

/-- The grid that a step of the control thread reads. -/
def gridRead (s : System) : Event → Option GridStatus
  | .control i =>
    match s.pc with
    | .begun _ | .calculated _ => some i.grid
    | _ => none
  | _ => none

def gridsRead (past : List (Taken System Event)) : List GridStatus :=
  past.filterMap fun x => gridRead x.before x.input

/-- The grids are those of one selection of the backup, and its measurement times do not decrease. -/
structure InSelection (n : ℕ) (grids : List GridStatus) : Prop where
  backup : ∀ g ∈ grids, g.backup = true
  selection : ∀ g ∈ grids, g.selectionGeneration = n
  measured : ∀ g ∈ grids, g.measurementTime.isSome
  ordered : (grids.filterMap (·.measurementTime)).Pairwise (· ≤ ·)

/-- The command came from the setpoint calculator. -/
def fromCalculator : Origin → Bool
  | .calculated .. => true
  | _ => false

/-- The measurement time of the sample whose calculated setpoint is accepted in the event. -/
def appliedSample (s : System) (e : Event) : Option ℚ :=
  (accepted s e).bind fun k =>
    if k.pendingManual = none ∧ fromCalculator k.origin = true then k.sys.measurementTime else none

def appliedSamples (past : List (Taken System Event)) : List ℚ :=
  past.filterMap fun x => appliedSample x.before x.input

/-- The command of a held sample, at the baseline `previous`. -/
def repeats (previous : ℤ) (command : Command) : Prop :=
  command = (previous, [.submeterHold]) ∨ command = (min 0 previous, [.submeterHold, .chargeTou])

/-- An accepted automatic write that repeats a sample: the accepted setpoint once more, as the
ceiling of the calculation and the checks of the write leave it. -/
structure RepeatsBaseline (s : System) (i : Inputs) (k : Locals) (value : ℤ) : Prop where
  command : repeats s.controller.previousSetpoint k.command
  value : value = guardedSetpoint i.write k.command.1 s.controller

/-- The feedback of the backup over a run. -/
structure OncePerSample (s : System) (es : List Event) : Prop where
  once : (appliedSamples (trace Threads.next s es)).Nodup
  repeats : ∀ x ∈ trace Threads.next s es, ∀ k' ∈ accepted x.before x.input, k'.pendingManual = none →
    fromCalculator k'.origin = false → ∃ i k current, x.input = .control i ∧
    x.before.pc = .writing k current ∧
      RepeatsBaseline x.before i k k'.command.1
  unchanged : ∀ x ∈ trace Threads.next s es, ∀ k current, x.before.pc = .writing k current →
    (accepted x.before x.input).isSome → current.selectionGeneration = k.sys.selectionGeneration ∧
      current.measurementTime = k.sys.measurementTime

/-! ### The grids of a cycle -/

/-- The grids that the rest of the cycle goes by. -/
def gridsOf : ControlPc → List GridStatus
  | .gate caller g _ => g :: ((callerCycle caller).map (·.sys)).toList
  | .ready _ sys => [sys]
  | .trimming k _ _ | .calculated k => [k.sys]
  | .writing k current => [current, k.sys]
  | _ => []

/-- The cycle that has not been written yet. -/
def pending : ControlPc → Option Locals
  | .gate caller _ _ => callerCycle caller
  | .trimming k _ _ | .calculated k | .writing k _ => some k
  | _ => none

/-- The grid that is read once more before the write. -/
def reread : ControlPc → Option (Locals × GridStatus)
  | .gate (.second k) g _ | .writing k g => some (k, g)
  | _ => none

variable {s : System} {e : Event} {i : Inputs}

theorem answerGate_grids {caller : Caller} {g g' : GridStatus} {ready : Bool} {c : InverterController}
    (h : g' ∈ gridsOf (answerGate caller g ready c s).pc) : g' ∈ gridsOf (.gate caller g .start) := by
  cases caller with
  | override => cases h
  | first generation =>
    cases ready
    · cases h
    · simpa [answerGate, gridsOf, callerCycle] using h
  | second k =>
    cases ready
    · cases h
    · simpa [answerGate, gridsOf, callerCycle] using h

theorem stepGate_grids {caller : Caller} {g g' : GridStatus} {stage : GateStage} {env : Env}
    (h : g' ∈ gridsOf (stepGate caller g stage env s).1.pc) : g' ∈ gridsOf (.gate caller g stage) := by
  cases stage with
  | start =>
    simp only [stepGate, startGate, checkSelection] at h
    split_ifs at h
    · exact h
    · exact answerGate_grids h
    · exact h
  | readTriggered =>
    simp only [stepGate] at h
    split_ifs at h <;> exact h
  | checkInvalid => exact h
  | checkTriggered => exact h
  | update ready => exact answerGate_grids h

/-- **A step keeps the grids of the cycle**, or reads one. -/
theorem gridsOf_of_stepControl {g : GridStatus} (h : g ∈ gridsOf (stepControl i s).1.pc) :
    g ∈ gridsOf s.pc ∨ gridRead s (.control i) = some g := by
  unfold stepControl at h
  unfold gridRead
  cases hpc : s.pc with
  | idle => rw [hpc] at h; cases h
  | begun generation =>
    simp only [hpc, readSystem] at h
    refine Or.inr ?_
    split_ifs at h <;> exact congrArg some (List.mem_singleton.mp h).symm
  | gate caller g' stage =>
    rw [hpc] at h
    exact Or.inl (stepGate_grids h)
  | overrideCheck => rw [hpc] at h; cases h
  | overrideUpdate => rw [hpc] at h; cases h
  | ready generation sys =>
    simp only [hpc, Threads.calculate, calculateSetpoint] at h
    refine Or.inl ?_
    split at h
    · exact h
    · split_ifs at h <;> exact h
  | trimming k chargeBattery result =>
    simp only [hpc, applyTrim] at h
    refine Or.inl ?_
    split at h
    · cases h
    · exact h
  | calculated k =>
    simp only [hpc, readGrid] at h
    split_ifs at h
    · cases h
    · rcases List.mem_cons.mp h with rfl | h
      · exact Or.inr rfl
      · exact Or.inl (by simpa [callerCycle, gridsOf] using h)
  | writing k current =>
    simp only [hpc] at h
    cases write_cases k current i.write s with
    | notReady c hx hcore heq => rw [heq] at h; cases h
    | accepted x hx hr heq => rw [heq] at h; cases h
    | refused x hx hr heq => rw [heq] at h; cases h
    | raised x hx hr heq => rw [heq] at h; cases h
  | written k ok =>
    simp only [hpc, finish] at h
    split_ifs at h <;> cases h
  | finalUpdate => rw [hpc] at h; cases h

theorem gridsOf_of_next {g : GridStatus} (h : g ∈ gridsOf (Threads.next s e).pc) :
    g ∈ gridsOf s.pc ∨ gridRead s e = some g := by
  by_cases he : ∃ i, e = .control i
  · obtain ⟨i, rfl⟩ := he
    exact gridsOf_of_stepControl h
  · rcases next_pc (s := s) (e := e) fun i hi => he ⟨i, hi⟩ with hpc | hpc
    · exact Or.inl (hpc ▸ h)
    · rw [hpc] at h
      cases h

theorem answerGate_pending {caller : Caller} {g : GridStatus} {ready : Bool}
    {c : InverterController} {k : Locals}
    (h : pending (answerGate caller g ready c s).pc = some k) :
    callerCycle caller = some k ∧ (answerGate caller g ready c s).pc = .writing k g := by
  cases caller with
  | override => cases h
  | first generation => cases ready <;> cases h
  | second k' =>
    cases ready
    · cases h
    · obtain rfl := Option.some.inj h
      exact ⟨rfl, rfl⟩

theorem stepGate_pending {caller : Caller} {g : GridStatus} {stage : GateStage} {env : Env} {k : Locals}
    (h : pending (stepGate caller g stage env s).1.pc = some k) : callerCycle caller = some k ∧
      ∀ k' chargeBattery result, (stepGate caller g stage env s).1.pc ≠
        .trimming k' chargeBattery result := by
  have hanswer {ready : Bool} {c : InverterController}
      (h : pending (answerGate caller g ready c s).pc = some k) :
      callerCycle caller = some k ∧ ∀ k' chargeBattery result,
        (answerGate caller g ready c s).pc ≠ .trimming k' chargeBattery result := by
    obtain ⟨hk, hpc⟩ := answerGate_pending h
    refine ⟨hk, fun k' cb result => ?_⟩
    rw [hpc]
    exact ControlPc.noConfusion
  cases stage with
  | start =>
    simp only [stepGate, startGate, checkSelection] at h ⊢
    split
    · next hvalid =>
      rw [if_pos hvalid] at h
      exact ⟨h, fun _ _ _ => ControlPc.noConfusion⟩
    · next hvalid =>
      rw [if_neg hvalid] at h
      split at h
      · next hselection =>
        rw [if_pos hselection]
        exact hanswer h
      · next hselection =>
        rw [if_neg hselection]
        exact ⟨h, fun _ _ _ => ControlPc.noConfusion⟩
  | readTriggered =>
    simp only [stepGate] at h ⊢
    split at h
    · next htriggered =>
      rw [if_pos htriggered]
      exact ⟨h, fun _ _ _ => ControlPc.noConfusion⟩
    · next htriggered =>
      rw [if_neg htriggered]
      exact ⟨h, fun _ _ _ => ControlPc.noConfusion⟩
  | checkInvalid => exact ⟨h, fun _ _ _ => ControlPc.noConfusion⟩
  | checkTriggered => exact ⟨h, fun _ _ _ => ControlPc.noConfusion⟩
  | update ready => exact hanswer h

/-- The ways a step of the control thread comes to a pending cycle. -/
inductive PendingCase (i : Inputs) (s : System) (k : Locals) : Prop
  | kept (h : pending s.pc = some k)
      (hne : ∀ k' chargeBattery result, (stepControl i s).1.pc ≠ .trimming k' chargeBattery result)
  | trimmed (k' : Locals) (chargeBattery : Bool) (result : ControlResult) (command : Command)
      (hpc : s.pc = .trimming k' chargeBattery result) (hk : k = { k' with command := command })
      (hnext : (stepControl i s).1.pc = .calculated k)
  | calculated (generation : ℕ) (sys : GridStatus) (hpc : s.pc = .ready generation sys)
      (hk : pending (Threads.calculate generation sys i.readings s).pc = some k)

theorem pending_cases {k : Locals} (h : pending (stepControl i s).1.pc = some k) :
    PendingCase i s k := by
  cases hpc : s.pc with
  | idle => simp only [stepControl, hpc] at h; cases h
  | begun generation =>
    simp only [stepControl, hpc, readSystem] at h
    split_ifs at h <;> cases h
  | gate caller g stage =>
    have hstep : stepControl i s = stepGate caller g stage i.env s := by simp only [stepControl, hpc]
    rw [hstep] at h
    obtain ⟨hk, hne⟩ := stepGate_pending h
    exact .kept (by rw [hpc]; exact hk) (by rw [hstep]; exact hne)
  | overrideCheck => simp only [stepControl, hpc] at h; cases h
  | overrideUpdate => simp only [stepControl, hpc] at h; cases h
  | ready generation sys =>
    simp only [stepControl, hpc] at h
    exact .calculated generation sys hpc h
  | trimming k' chargeBattery result =>
    have hstep : (stepControl i s).1 = applyTrim k' chargeBattery result i.trim s := by
      simp only [stepControl, hpc]
    rw [hstep] at h
    unfold applyTrim at h hstep
    split at h
    · cases h
    · next command c heq =>
      obtain rfl := Option.some.inj h
      refine .trimmed k' chargeBattery result command hpc rfl ?_
      rw [hstep, heq]
      rfl
  | calculated k' =>
    have hstep : (stepControl i s).1 = readGrid k' i.grid s := by simp only [stepControl, hpc]
    rw [hstep] at h
    unfold readGrid at h hstep
    split at h
    · cases h
    · next hsame =>
      obtain rfl := Option.some.inj h
      refine .kept (by rw [hpc]; rfl) fun _ _ _ => ?_
      rw [hstep, if_neg hsame]
      exact ControlPc.noConfusion
  | writing k' current =>
    simp only [stepControl, hpc] at h
    cases write_cases k' current i.write s with
    | notReady c hx hcore heq => rw [heq] at h; cases h
    | accepted x hx hr heq => rw [heq] at h; cases h
    | refused x hx hr heq => rw [heq] at h; cases h
    | raised x hx hr heq => rw [heq] at h; cases h
  | written k' ok =>
    simp only [stepControl, hpc, finish] at h
    split_ifs at h <;> cases h
  | finalUpdate => simp only [stepControl, hpc] at h; cases h

/-! ### What notes a sample -/

/-- What the controller knows of the backup's samples. -/
structure Feedback where
  selection : ℕ
  last : Option ℚ

def feedback (c : InverterController) : Feedback := ⟨c.controlGridSelection, c.lastBackupMeasurement⟩

section Feedback

variable (x : TrimReadings) (g : GridStatus) (c : InverterController)

theorem noteGeneration_feedback : feedback (noteGeneration c) = feedback c := by
  unfold noteGeneration
  split_ifs <;> rfl

theorem noteInvalid_feedback : feedback (noteInvalid c) = feedback c := by
  unfold noteInvalid
  split_ifs <;> rfl

theorem updateGridLossState_feedback : feedback (updateGridLossState c) = feedback c := by
  unfold updateGridLossState
  split
  · rfl
  · split_ifs <;> rfl

theorem applySubmeterTrim_feedback (chargeBattery : Bool) (result : ControlResult) :
    feedback (applySubmeterTrim x g chargeBattery result c).2 = feedback c := by
  obtain ⟨t, d, ctx, m, h⟩ := applySubmeterTrim_state x g c chargeBattery result
  rw [h]
  rfl

theorem attempt_feedback {k : Locals} {current : GridStatus} {w : WriteReadings}
    {y : Command × InverterController}
    (h : attempt k current w c = some y) : feedback y.2 = feedback c := by
  obtain ⟨t, d, ctx, charge, hy⟩ := attempt_state h
  rw [hy]
  rfl

end Feedback

/-- The same selection goes on. -/
theorem checkSelection_feedback (caller : Caller) {g : GridStatus} (c : InverterController)
    (h : g.selectionGeneration = c.controlGridSelection) :
    feedback (checkSelection caller g c s).controller = feedback c := by
  unfold checkSelection
  rw [if_neg (not_not.mpr h)]
  rfl

theorem stepGate_feedback {caller : Caller} {g : GridStatus} (stage : GateStage) (env : Env)
    (h : g.selectionGeneration = s.controller.controlGridSelection) :
    feedback (stepGate caller g stage env s).1.controller = feedback s.controller := by
  cases stage with
  | start =>
    simp only [stepGate, startGate]
    split_ifs
    · rfl
    · have hchecked := checkSelection_feedback (s := s) caller
        (stepWatchdog Watchdog.Model.markDbusUpdate env s.controller).1 h
      exact hchecked.trans rfl
  | readTriggered =>
    simp only [stepGate]
    split_ifs <;> rfl
  | checkInvalid => exact noteInvalid_feedback _
  | checkTriggered => rfl
  | update ready =>
    simp only [stepGate, answerGate_controller]
    exact updateGridLossState_feedback _

/-- A write notes its sample at most. -/
theorem write_feedback (k : Locals) (current : GridStatus) (i : Inputs)
    (hpc : s.pc = .writing k current) :
    feedback (write k current i.write s).1.controller = feedback s.controller ∨
      (accepted s (.control i)).isSome ∧ feedback (write k current i.write s).1.controller =
        ⟨s.controller.controlGridSelection, if k.sys.backup then k.sys.measurementTime else none⟩ := by
  cases write_cases k current i.write s with
  | notReady c hx hcore heq hreset =>
    obtain ⟨reason, rfl⟩ := hreset
    obtain ⟨t, hready⟩ := trimWriteReady_state i.write.trim current s.controller
    rw [heq, hready]
    exact Or.inl rfl
  | accepted x hx hr heq =>
    have hstep : Threads.next s (.control i) = (write k current i.write s).1 := by
      simp only [Threads.next, perform, stepControl, hpc]
    have hfeedback := attempt_feedback _ hx
    rw [heq] at hstep ⊢
    refine Or.inr ⟨?_, ?_⟩
    · simp only [accepted, hpc, hstep, goTo_pc]
      rfl
    · have hselection : x.2.controlGridSelection = s.controller.controlGridSelection :=
        congrArg Feedback.selection hfeedback
      rw [← hselection]
      rfl
  | refused x hx hr heq =>
    rw [heq]
    exact Or.inl (attempt_feedback _ hx)
  | raised x hx hr heq =>
    rw [heq]
    exact Or.inl (attempt_feedback _ hx)

/-- **One event** within a selection notes the sample of an accepted write at most. -/
theorem next_feedback
    (h : ∀ g ∈ gridsOf s.pc, g.selectionGeneration = s.controller.controlGridSelection) :
    feedback (Threads.next s e).controller = feedback s.controller ∨
      ∃ k current, s.pc = .writing k current ∧ (accepted s e).isSome ∧
        feedback (Threads.next s e).controller =
          ⟨s.controller.controlGridSelection, if k.sys.backup then k.sys.measurementTime else none⟩ := by
  cases e with
  | control i =>
    have hnext : Threads.next s (.control i) = (stepControl i s).1 := rfl
    rw [hnext]
    unfold stepControl
    cases hpc : s.pc with
    | idle => exact Or.inl (noteGeneration_feedback _)
    | begun generation =>
      simp only [readSystem]
      split_ifs <;> exact Or.inl rfl
    | gate caller g stage =>
      refine Or.inl (stepGate_feedback stage i.env (h g ?_))
      rw [hpc]
      exact List.mem_cons_self
    | overrideCheck => exact Or.inl rfl
    | overrideUpdate => exact Or.inl (updateGridLossState_feedback _)
    | ready generation sys =>
      simp only [Threads.calculate, calculateSetpoint]
      split
      · exact Or.inl rfl
      · split_ifs <;> exact Or.inl rfl
    | trimming k chargeBattery result =>
      have happlied := applySubmeterTrim_feedback i.trim k.sys s.controller chargeBattery result
      simp only [applyTrim]
      split
      · next heq =>
        rw [heq] at happlied
        exact Or.inl happlied
      · next heq =>
        rw [heq] at happlied
        exact Or.inl happlied
    | calculated k =>
      simp only [readGrid]
      split_ifs <;> exact Or.inl rfl
    | writing k current =>
      exact (write_feedback k current i hpc).imp_right fun hwrite => ⟨k, current, rfl, hwrite⟩
    | written k ok =>
      simp only [finish]
      split_ifs <;> exact Or.inl rfl
    | finalUpdate => exact Or.inl (updateGridLossState_feedback _)
  | abort =>
    simp only [Threads.next, perform, abort]
    cases s.pc <;> exact Or.inl rfl
  | mqtt arg requestId env =>
    simp only [Threads.next, perform, stepMqtt]
    cases s.mqtt with
    | idle => exact Or.inl rfl
    | clearing => exact Or.inl rfl
    | updating => exact Or.inl (updateGridLossState_feedback _)
  | setPowerLimits min max =>
    simp only [Threads.next, perform, stepSetter, setPowerLimits]
    split_ifs <;> exact Or.inl rfl
  | selectEssMode =>
    simp only [Threads.next, perform, stepSetter, selectEssMode]
    split_ifs <;> exact Or.inl rfl
  | _ => exact Or.inl rfl

/-! ### Samples that were applied -/

/-- The sample of the time `t` was noted last: the rest of the cycle goes by samples no older, and
what it has calculated by a newer one. -/
structure Armed (n : ℕ) (t : ℚ) (s : System) : Prop where
  selection : s.controller.controlGridSelection = n
  last : s.controller.lastBackupMeasurement = some t
  grids : ∀ g ∈ gridsOf s.pc, ∀ t' ∈ g.measurementTime, t ≤ t'
  cycle : ∀ k, pending s.pc = some k → fromCalculator k.origin = true →
    ∀ t' ∈ k.sys.measurementTime, t < t'

/-- The state of a selection whose reads had the `times`, and whose applied samples are `applied`. -/
structure Feeding (n : ℕ) (times applied : List ℚ) (s : System) : Prop where
  grids : ∀ g ∈ gridsOf s.pc, g.backup = true ∧ g.selectionGeneration = n ∧
    ∃ t ∈ times, g.measurementTime = some t
  selected : heard s.pc = true → s.controller.controlGridSelection = n
  nodup : applied.Nodup
  armed : applied ≠ [] → ∃ t ∈ times, (∀ m ∈ applied, m ≤ t) ∧ Armed n t s

variable {n : ℕ} {t : ℚ} {times applied : List ℚ}

/-- A calculation of the calculator has a sample that was not noted. -/
theorem pending_of_calculate {generation : ℕ} {sys : GridStatus} {r : Readings} {k : Locals}
    (h : pending (Threads.calculate generation sys r s).pc = some k)
    (hk : fromCalculator k.origin = true) :
    k.sys = sys ∧ ¬ heldSample sys (forgetDecision s.controller) := by
  unfold Threads.calculate calculateSetpoint at h
  split at h
  · obtain rfl := Option.some.inj h
    cases hk
  · split_ifs at h with hheld
    · obtain rfl := Option.some.inj h
      cases hk
    · obtain rfl := Option.some.inj h
      exact ⟨rfl, hheld⟩

theorem pending_of_next {k : Locals} (h : pending (Threads.next s e).pc = some k)
    (hk : fromCalculator k.origin = true) :
    (∃ k', pending s.pc = some k' ∧ k'.sys = k.sys ∧ fromCalculator k'.origin = true) ∨
      ∃ generation, s.pc = .ready generation k.sys ∧ ¬ heldSample k.sys s.controller := by
  by_cases he : ∃ i, e = .control i
  · obtain ⟨i, rfl⟩ := he
    cases pending_cases h with
    | kept hk' hne => exact Or.inl ⟨k, hk', rfl, hk⟩
    | trimmed k' chargeBattery result command hpc hk' hnext =>
      refine Or.inl ⟨k', by rw [hpc]; rfl, ?_, ?_⟩
      · rw [hk']
      · rw [hk'] at hk
        exact hk
    | calculated generation sys hpc hcalc =>
      obtain ⟨rfl, hheld⟩ := pending_of_calculate hcalc hk
      exact Or.inr ⟨generation, hpc, hheld⟩
  · rcases next_pc (s := s) (e := e) fun i hi => he ⟨i, hi⟩ with hpc | hpc
    · rw [hpc] at h
      exact Or.inl ⟨k, h, rfl, hk⟩
    · rw [hpc] at h
      cases h

/-- **One event** without an accepted write. -/
theorem Armed.next (h : Armed n t s)
    (hgrids : ∀ g ∈ gridsOf s.pc, g.backup = true ∧ g.selectionGeneration = n)
    (hread : ∀ g ∈ gridRead s e, ∀ t' ∈ g.measurementTime, t ≤ t') (hno : accepted s e = none) :
    Armed n t (Threads.next s e) := by
  have hfeedback : feedback (Threads.next s e).controller = feedback s.controller := by
    refine (next_feedback fun g hg => (hgrids g hg).2.trans h.selection.symm).resolve_right ?_
    rintro ⟨k, current, -, hsome, -⟩
    rw [hno] at hsome
    cases hsome
  refine ⟨(congrArg Feedback.selection hfeedback).trans h.selection,
    (congrArg Feedback.last hfeedback).trans h.last,
    fun g hg => ?_, fun k hk hcalculated t' ht' => ?_⟩
  · rcases gridsOf_of_next hg with hg | hg
    · exact h.grids g hg
    · exact hread g hg
  · rcases pending_of_next hk hcalculated with ⟨k', hk', hsys, hcalculated'⟩ | ⟨generation, hpc, hheld⟩
    · exact h.cycle k' hk' hcalculated' t' (hsys ▸ ht')
    · have hmem : k.sys ∈ gridsOf s.pc := by simp [hpc, gridsOf]
      refine lt_of_le_of_ne (h.grids _ hmem t' ht') fun heq => hheld ⟨(hgrids _ hmem).1, ?_⟩
      rw [h.last, heq]
      exact ht'

/-- **One event** ends with an accepted write: its sample is the one noted last. -/
theorem armed_of_accepted {k : Locals} {current : GridStatus} (hpc : s.pc = .writing k current)
    (haccepted : (accepted s e).isSome) (hselection : s.controller.controlGridSelection = n)
    (hgrids : ∀ g ∈ gridsOf s.pc, g.backup = true ∧ g.selectionGeneration = n)
    (ht : k.sys.measurementTime = some t) : Armed n t (Threads.next s e) := by
  obtain ⟨k', hk'⟩ := Option.isSome_iff_exists.mp haccepted
  obtain ⟨i, k'', current', x, rfl, haccepts, -⟩ := accepted_eq_some hk'
  obtain ⟨rfl, rfl⟩ := ControlPc.writing.inj (hpc.symm.trans haccepts.pc)
  have hbackup : k.sys.backup = true := (hgrids k.sys (by simp [hpc, gridsOf])).1
  have hcontroller := congrArg (fun s' : System => feedback s'.controller) haccepts.next
  have hx := attempt_feedback _ haccepts.attempted
  have hnext : (Threads.next s (.control i)).pc = .written (writtenCycle k x) true := by
    rw [haccepts.next, goTo_pc]
  refine ⟨?_, ?_, fun g hg => ?_, fun k'' hk'' => ?_⟩
  · exact (congrArg Feedback.selection hcontroller).trans
      ((congrArg Feedback.selection hx).trans hselection)
  · refine (congrArg Feedback.last hcontroller).trans ?_
    show (if k.sys.backup then k.sys.measurementTime else none) = some t
    rw [if_pos hbackup, ht]
  · rw [hnext] at hg
    cases hg
  · rw [hnext] at hk''
    cases hk''

/-- The times of an optional read. -/
def readTimes (g : Option GridStatus) : List ℚ := (g.bind (·.measurementTime)).toList

/-- Past a valid read the selection is the one of the grids. -/
theorem selected_next (h : heard s.pc = true → s.controller.controlGridSelection = n)
    (hgrids : ∀ g ∈ gridsOf s.pc, g.backup = true ∧ g.selectionGeneration = n)
    (hheard : heard (Threads.next s e).pc = true) :
    (Threads.next s e).controller.controlGridSelection = n := by
  have hsame (hpc : heard s.pc = true) : (Threads.next s e).controller.controlGridSelection = n := by
    rcases next_feedback (e := e) fun g hg => (hgrids g hg).2.trans (h hpc).symm with hf |
      ⟨k, current, -, -, hf⟩
    · exact (congrArg Feedback.selection hf).trans (h hpc)
    · exact (congrArg Feedback.selection hf).trans (h hpc)
  by_cases he : ∃ i, e = .control i
  · obtain ⟨i, rfl⟩ := he
    rcases heard_of_stepControl hheard with ⟨hpc, -⟩ | ⟨caller, g, hpc, hvalid⟩
    · exact hsame hpc
    · have hg := (hgrids g (by simp [hpc, gridsOf])).2
      have hnext : Threads.next s (.control i) = checkSelection caller g
          (stepWatchdog Watchdog.Model.markDbusUpdate i.env s.controller).1 s := by
        simp [Threads.next, perform, stepControl, hpc, stepGate, startGate, hvalid]
      rw [hnext] at hheard ⊢
      by_cases hselection : g.selectionGeneration = s.controller.controlGridSelection
      · have hf := checkSelection_feedback (s := s) caller
          (stepWatchdog Watchdog.Model.markDbusUpdate i.env s.controller).1 hselection
        exact (congrArg Feedback.selection hf).trans (hselection.symm.trans hg)
      · unfold checkSelection at hheard
        split at hheard
        · cases heard_answerGate hheard
        · next heq => exact absurd (not_not.mp heq) hselection
  · rcases next_pc (s := s) (e := e) fun i hi => he ⟨i, hi⟩ with hpc | hpc
    · exact hsame (hpc ▸ hheard)
    · rw [hpc] at hheard
      cases hheard

theorem Feeding.next (h : Feeding n times applied s) (e : Event)
    (hread : ∀ g ∈ gridRead s e, g.backup = true ∧ g.selectionGeneration = n ∧
      ∃ t', g.measurementTime = some t' ∧ ∀ t ∈ times, t ≤ t') :
    Feeding n (times ++ readTimes (gridRead s e)) (applied ++ (appliedSample s e).toList)
      (Threads.next s e) := by
  have hgrids : ∀ g ∈ gridsOf s.pc, g.backup = true ∧ g.selectionGeneration = n :=
    fun g hg => ⟨(h.grids g hg).1, (h.grids g hg).2.1⟩
  have hmono {t : ℚ} (ht : t ∈ times) : t ∈ times ++ readTimes (gridRead s e) :=
    List.mem_append_left _ ht
  have hgrids' : ∀ g ∈ gridsOf (Threads.next s e).pc, g.backup = true ∧ g.selectionGeneration = n ∧
      ∃ t ∈ times ++ readTimes (gridRead s e), g.measurementTime = some t := by
    intro g hg
    rcases gridsOf_of_next hg with hg | hg
    · obtain ⟨hb, hn, t, ht, heq⟩ := h.grids g hg
      exact ⟨hb, hn, t, hmono ht, heq⟩
    · obtain ⟨hb, hn, t, heq, -⟩ := hread g hg
      exact ⟨hb, hn, t, List.mem_append_right _ (by simp [readTimes, hg, heq]), heq⟩
  have hselected := selected_next (e := e) h.selected hgrids
  cases haccepted : accepted s e with
  | none =>
    have happlied : appliedSample s e = none := by simp [appliedSample, haccepted]
    rw [happlied, Option.toList_none, List.append_nil]
    refine ⟨hgrids', hselected, h.nodup, fun hne => ?_⟩
    obtain ⟨t, ht, hle, harmed⟩ := h.armed hne
    refine ⟨t, hmono ht, hle, harmed.next hgrids (fun g hg t' ht' => ?_) haccepted⟩
    obtain ⟨-, -, t'', heq, hbound⟩ := hread g hg
    rw [heq, Option.mem_some_iff] at ht'
    exact ht' ▸ hbound t ht
  | some k' =>
    obtain ⟨i, k, current, x, rfl, haccepts, rfl⟩ := accepted_eq_some haccepted
    have hmem : k.sys ∈ gridsOf s.pc := by simp [haccepts.pc, gridsOf]
    obtain ⟨hbackup, -, t, ht, htime⟩ := h.grids k.sys hmem
    have hselection := h.selected (by rw [haccepts.pc]; rfl)
    have harmed := armed_of_accepted haccepts.pc (by rw [haccepted]; rfl) hselection hgrids htime
    have hle : ∀ m ∈ applied, m ≤ t := by
      intro m hm
      obtain ⟨t', -, hle, harmed'⟩ := h.armed (List.ne_nil_of_mem hm)
      exact (hle m hm).trans (harmed'.grids _ hmem t htime)
    have happlied : ∀ m ∈ appliedSample s (.control i), m = t ∧ fromCalculator k.origin = true := by
      intro m hm
      simp only [appliedSample, haccepted, Option.bind_some, writtenCycle] at hm
      split_ifs at hm with hcond
      · rw [htime] at hm
        exact ⟨(Option.some.inj hm).symm, hcond.2⟩
      · cases hm
    refine ⟨hgrids', hselected, ?_, fun _ => ⟨t, hmono ht, fun m hm => ?_, harmed⟩⟩
    · refine List.nodup_append.mpr ⟨h.nodup, ?_, fun m hm m' hm' heq => ?_⟩
      · cases appliedSample s (.control i) <;> simp
      · obtain ⟨rfl, hcalculated⟩ := happlied m' (Option.mem_toList.mp hm')
        obtain ⟨t', -, hle', harmed'⟩ := h.armed (List.ne_nil_of_mem hm)
        have hlt := harmed'.cycle k (by rw [haccepts.pc]; rfl) hcalculated m' htime
        exact absurd (hle' m hm) (not_le.mpr (heq ▸ hlt))
    · rcases List.mem_append.mp hm with hm | hm
      · exact hle m hm
      · exact (happlied m (Option.mem_toList.mp hm)).1.le

theorem InSelection.of_append {grids grids' : List GridStatus} (h : InSelection n (grids ++ grids')) :
    InSelection n grids where
  backup g hg := h.backup g (List.mem_append_left _ hg)
  selection g hg := h.selection g (List.mem_append_left _ hg)
  measured g hg := h.measured g (List.mem_append_left _ hg)
  ordered := by
    have hordered := h.ordered
    rw [List.filterMap_append] at hordered
    exact (List.pairwise_append.mp hordered).1

theorem gridsRead_snoc (past : List (Taken System Event)) (x : Taken System Event) :
    gridsRead (past ++ [x]) = gridsRead past ++ (gridRead x.before x.input).toList := by
  cases h : gridRead x.before x.input <;> simp [gridsRead, List.filterMap_append, h]

theorem appliedSamples_snoc (past : List (Taken System Event)) (x : Taken System Event) :
    appliedSamples (past ++ [x]) = appliedSamples past ++ (appliedSample x.before x.input).toList := by
  cases h : appliedSample x.before x.input <;> simp [appliedSamples, List.filterMap_append, h]

/-- **Run.**  Within a selection the samples that were applied are older than what is calculated next. -/
theorem feeding_exec (hs : s.pc = .idle) (es : List Event)
    (h : InSelection n (gridsRead (trace Threads.next s es))) :
    Feeding n ((gridsRead (trace Threads.next s es)).filterMap (·.measurementTime))
      (appliedSamples (trace Threads.next s es)) (exec Threads.next s es) := by
  revert h
  refine history_induction (P := fun is (t : System) =>
    InSelection n (gridsRead (trace Threads.next s is)) →
    Feeding n ((gridsRead (trace Threads.next s is)).filterMap (·.measurementTime))
      (appliedSamples (trace Threads.next s is)) t) (fun _ => ?_) (fun is e ih h => ?_) es
  · refine ⟨fun g hg => ?_, fun hheard => ?_, List.nodup_nil, fun hne => absurd rfl hne⟩
    · rw [hs] at hg
      cases hg
    · rw [hs] at hheard
      cases hheard
  · rw [trace_snoc, gridsRead_snoc] at h
    rw [trace_snoc, gridsRead_snoc, appliedSamples_snoc, List.filterMap_append]
    have hread : ∀ g ∈ gridRead (exec Threads.next s is) e, g.backup = true ∧ g.selectionGeneration = n ∧
        ∃ t', g.measurementTime = some t' ∧
          ∀ t ∈ (gridsRead (trace Threads.next s is)).filterMap (·.measurementTime), t ≤ t' := by
      intro g hg
      have hmem : g ∈ gridsRead (trace Threads.next s is) ++
        (gridRead (exec Threads.next s is) e).toList :=
        List.mem_append_right _ (Option.mem_toList.mpr hg)
      obtain ⟨t', ht'⟩ := Option.isSome_iff_exists.mp (h.measured g hmem)
      refine ⟨h.backup g hmem, h.selection g hmem, t', ht', fun t ht => ?_⟩
      have hordered := h.ordered
      rw [List.filterMap_append] at hordered
      exact (List.pairwise_append.mp hordered).2.2 t ht t' (by
        rw [Option.mem_def] at hg
        simp [hg, ht'])
    have htimes : (gridRead (exec Threads.next s is) e).toList.filterMap (·.measurementTime) =
        readTimes (gridRead (exec Threads.next s is) e) := by
      cases hg : gridRead (exec Threads.next s is) e with
      | none => rfl
      | some g => cases ht : g.measurementTime <;> simp [readTimes, ht]
    rw [htimes]
    exact (ih h.of_append).next e hread

/-! ### Samples that are held -/

/-- The baseline that a held sample repeats is still there, or the cycle is obsolete. -/
structure Holding (s : System) : Prop where
  cycle : ∀ k, pending s.pc = some k → passed s.pc = some k.generation → k.pendingManual = none →
    fromCalculator k.origin = false →
      k.generation < s.controller.watchdog.controlGeneration ∨
      repeats s.controller.previousSetpoint k.command
  trimming : ∀ k chargeBattery result, s.pc = .trimming k chargeBattery result →
    fromCalculator k.origin = true

theorem holding_of_idle (h : s.pc = .idle) : Holding s :=
  ⟨fun k hk => (Option.some_ne_none k (hk.symm.trans (by rw [h]; rfl))).elim,
    fun _ _ _ hpc => ControlPc.noConfusion (h.symm.trans hpc)⟩

/-- A cycle that goes on keeps the command that a held sample gave it. -/
theorem Holding.of_keeps (h : Holding s) (hwatched : Watched s) {s' : System} {k : Locals}
    (hk : pending s.pc = some k) (hp : passed s.pc = some k.generation)
    (hkeeps : Undisturbed k.generation s → Keeps k.generation s s')
    (hgeneration : s.controller.watchdog.controlGeneration ≤ s'.controller.watchdog.controlGeneration)
    (hmanual : k.pendingManual = none) (hheld : fromCalculator k.origin = false) :
    k.generation < s'.controller.watchdog.controlGeneration ∨
    repeats s'.controller.previousSetpoint k.command := by
  rcases h.cycle k hk hp hmanual hheld with hlt | hcommand
  · exact Or.inl (hlt.trans_le hgeneration)
  · rcases (hkeeps (hwatched.undisturbed hp)).previous with hlt | hprevious
    · exact Or.inl hlt
    · rw [hprevious]
      exact Or.inr hcommand

theorem repeats_of_calculate {generation : ℕ} {sys : GridStatus} {r : Readings} {k : Locals}
    (h : pending (Threads.calculate generation sys r s).pc = some k) (hmanual : k.pendingManual = none)
    (hheld : fromCalculator k.origin = false) :
    repeats (Threads.calculate generation sys r s).controller.previousSetpoint k.command := by
  unfold Threads.calculate calculateSetpoint at h ⊢
  split at h
  · obtain rfl := Option.some.inj h
    cases hmanual
  · split at h
    · next heq =>
      rw [if_pos heq]
      obtain rfl := Option.some.inj h
      show repeats s.controller.previousSetpoint (holdSample r (forgetDecision s.controller)).1
      unfold holdSample
      simp only
      split
      · exact Or.inr rfl
      · exact Or.inl rfl
    · obtain rfl := Option.some.inj h
      cases hheld

/-- Only the calculator's result is trimmed. -/
theorem trimming_of_calculate {generation : ℕ} {sys : GridStatus} {r : Readings} {k : Locals}
    {chargeBattery : Bool} {result : ControlResult}
    (h : (Threads.calculate generation sys r s).pc = .trimming k chargeBattery result) :
    fromCalculator k.origin = true := by
  unfold Threads.calculate calculateSetpoint at h
  split at h
  · cases h
  · split_ifs at h
    · cases h
    · injection h with hk
      rw [← hk]
      rfl

/-- **One event.** -/
theorem Holding.next (h : Holding s) (hwatched : Watched s) (e : Event) :
    Holding (Threads.next s e) := by
  have hgeneration := controlGeneration_le s e
  by_cases he : ∃ i, e = .control i
  · obtain ⟨i, rfl⟩ := he
    refine ⟨fun k hk hp hmanual hheld => ?_, fun k chargeBattery result hpc => ?_⟩
    · cases pending_cases hk with
      | kept hk' hne =>
        rcases passed_of_stepControl hp with ⟨hbefore, hop⟩ | ⟨g, hpc⟩
        · refine h.of_keeps hwatched hk' hbefore (fun hundisturbed => ?_) hgeneration hmanual hheld
          refine hundisturbed.next hop (accepted_eq_none fun k' hk' => ?_)
          rw [hk'] at hk
          cases hk
        · rw [hpc] at hk'
          cases hk'
      | trimmed k' chargeBattery result command hpc hk' hnext =>
        have hcalculated := h.trimming k' chargeBattery result hpc
        rw [hk', hcalculated] at hheld
        cases hheld
      | calculated generation sys hpc hcalc =>
        have hnext : Threads.next s (.control i) = Threads.calculate generation sys i.readings s := by
          simp only [Threads.next, perform, stepControl, hpc]
        rw [hnext]
        exact Or.inr (repeats_of_calculate hcalc hmanual hheld)
    · have hk : pending (stepControl i s).1.pc = some k := by
        have hpc' : (stepControl i s).1.pc = .trimming k chargeBattery result := hpc
        rw [hpc']
        rfl
      cases pending_cases hk with
      | kept hk' hne => exact absurd hpc (hne k chargeBattery result)
      | trimmed k' chargeBattery' result' command hpc' hk' hnext =>
        exact ControlPc.noConfusion (hnext.symm.trans hpc)
      | calculated generation sys hpc' hcalc =>
        have htrimming : (Threads.calculate generation sys i.readings s).pc =
          .trimming k chargeBattery result := by
          simpa only [Threads.next, perform, stepControl, hpc'] using hpc
        exact trimming_of_calculate htrimming
  · have he' : ∀ i, e ≠ .control i := fun i hi => he ⟨i, hi⟩
    rcases next_pc (s := s) he' with hpc | hpc
    · refine ⟨fun k hk hp hmanual hheld => ?_, fun k chargeBattery result hk => ?_⟩
      · rw [hpc] at hk hp
        refine h.of_keeps hwatched hk hp (fun hundisturbed => ?_) hgeneration hmanual hheld
        exact hundisturbed.next (fun ev hev => operation_other he' hev) (accepted_other he')
      · exact h.trimming k chargeBattery result (hpc ▸ hk)
    · exact holding_of_idle hpc

theorem holding_exec (p : Setup) (now : ℚ) (es : List Event) :
    Holding (exec Threads.next (Threads.init p now) es) := by
  refine exec_invariant (P := fun t : System => Holding t) (holding_of_idle rfl) fun x hx hholding => ?_
  obtain ⟨before, -, -, hb⟩ := (mem_trace Threads.next).mp hx
  refine hholding.next ?_ x.input
  rw [hb]
  exact watched_exec p now before

/-- The accepted write of a held sample repeats the baseline. -/
theorem Holding.repeats_of_accepted (h : Holding s) {k' : Locals} (hk' : accepted s e = some k')
    (hmanual : k'.pendingManual = none) (hheld : fromCalculator k'.origin = false) :
    ∃ i k current, e = .control i ∧ s.pc = .writing k current ∧ RepeatsBaseline s i k k'.command.1 := by
  obtain ⟨i, k, current, x, rfl, haccepts, rfl⟩ := accepted_eq_some hk'
  refine ⟨i, k, current, rfl, haccepts.pc, ?_, attempt_setpoint haccepts.attempted hmanual⟩
  have hpassed : passed s.pc = some k.generation := by rw [haccepts.pc]; rfl
  refine (h.cycle k (by rw [haccepts.pc]; rfl) hpassed hmanual hheld).resolve_left fun hlt => ?_
  exact haccepts.free (Or.inr (Or.inl hlt.ne))

/-! ### The grid before the write -/

/-- The grid that was read once more is the sample of the calculation. -/
def SameSample (pc : ControlPc) : Prop :=
  ∀ k g, reread pc = some (k, g) → g.selectionGeneration = k.sys.selectionGeneration ∧
    g.measurementTime = k.sys.measurementTime

theorem answerGate_reread {caller : Caller} {g g' : GridStatus} {ready : Bool}
    {c : InverterController} {k : Locals}
    (h : reread (answerGate caller g ready c s).pc = some (k, g')) : caller = .second k ∧ g' = g := by
  cases caller with
  | override => cases h
  | first generation => cases ready <;> cases h
  | second k' =>
    cases ready
    · cases h
    · obtain ⟨rfl, rfl⟩ := Prod.mk.inj (Option.some.inj h)
      exact ⟨rfl, rfl⟩

theorem stepGate_reread {caller : Caller} {g g' : GridStatus} {stage : GateStage} {env : Env}
    {k : Locals}
    (h : reread (stepGate caller g stage env s).1.pc = some (k, g')) : caller = .second k ∧ g' = g := by
  have hgate {stage : GateStage}
      (h : reread (.gate caller g stage) = some (k, g')) : caller = .second k ∧ g' = g := by
    cases caller with
    | second k' =>
      obtain ⟨rfl, rfl⟩ := Prod.mk.inj (Option.some.inj h)
      exact ⟨rfl, rfl⟩
    | _ => cases h
  cases stage with
  | start =>
    simp only [stepGate, startGate, checkSelection] at h
    split_ifs at h
    · exact hgate h
    · exact answerGate_reread h
    · exact hgate h
  | readTriggered =>
    simp only [stepGate] at h
    split_ifs at h <;> exact hgate h
  | checkInvalid => exact hgate h
  | checkTriggered => exact hgate h
  | update ready => exact answerGate_reread h

theorem SameSample.stepControl (h : SameSample s.pc) (i : Inputs) :
    SameSample (stepControl i s).1.pc := by
  intro k g hreread
  unfold Threads.stepControl at hreread
  cases hpc : s.pc with
  | idle => rw [hpc] at hreread; cases hreread
  | begun generation =>
    simp only [hpc, readSystem] at hreread
    split_ifs at hreread <;> cases hreread
  | gate caller g' stage =>
    rw [hpc] at hreread
    obtain ⟨rfl, rfl⟩ := stepGate_reread hreread
    exact h k g (by rw [hpc]; rfl)
  | overrideCheck => rw [hpc] at hreread; cases hreread
  | overrideUpdate => rw [hpc] at hreread; cases hreread
  | ready generation sys =>
    simp only [hpc, Threads.calculate, calculateSetpoint] at hreread
    split at hreread
    · cases hreread
    · split_ifs at hreread <;> cases hreread
  | trimming k' chargeBattery result =>
    simp only [hpc, applyTrim] at hreread
    split at hreread <;> cases hreread
  | calculated k' =>
    simp only [hpc, readGrid] at hreread
    split at hreread
    · cases hreread
    · next hsame =>
      obtain ⟨rfl, rfl⟩ := Prod.mk.inj (Option.some.inj hreread)
      exact not_or.mp hsame |>.imp not_not.mp not_not.mp
  | writing k' current =>
    simp only [hpc] at hreread
    cases write_cases k' current i.write s with
    | notReady c hx hcore heq => rw [heq] at hreread; cases hreread
    | accepted x hx hr heq => rw [heq] at hreread; cases hreread
    | refused x hx hr heq => rw [heq] at hreread; cases hreread
    | raised x hx hr heq => rw [heq] at hreread; cases hreread
  | written k' ok =>
    simp only [hpc, finish] at hreread
    split_ifs at hreread <;> cases hreread
  | finalUpdate => rw [hpc] at hreread; cases hreread

/-- **Run.**  The write goes by the sample of its calculation. -/
theorem sameSample_exec (p : Setup) (now : ℚ) (es : List Event) :
    SameSample (exec Threads.next (Threads.init p now) es).pc := by
  refine exec_invariant (P := fun t : System => SameSample t.pc)
    (fun k g h => by cases h) fun x _ hsame => ?_
  by_cases he : ∃ i, x.input = .control i
  · obtain ⟨i, hi⟩ := he
    rw [hi]
    exact hsame.stepControl i
  · rcases next_pc (s := x.before) fun i hi => he ⟨i, hi⟩ with hpc | hpc
    · rw [hpc]
      exact hsame
    · rw [hpc]
      intro k g h
      cases h

/-! ### One selection -/

/-- **Backup feedback is applied once per sample**, in every run of cycles within one selection. -/
theorem once_per_sample (p : Setup) (now : ℚ) (before es : List Event) (n : ℕ)
    (hidle : (exec Threads.next (Threads.init p now) before).pc = .idle)
    (h : InSelection n
      (gridsRead (trace Threads.next (exec Threads.next (Threads.init p now) before) es))) :
    OncePerSample (exec Threads.next (Threads.init p now) before) es where
  once := (feeding_exec hidle es h).nodup
  repeats := by
    intro x hx k' hk' hmanual hheld
    obtain ⟨a, b, -, hbefore⟩ := (mem_trace Threads.next).mp hx
    have hholding : Holding x.before := by
      rw [hbefore, ← exec_append]
      exact holding_exec p now (before ++ a)
    exact hholding.repeats_of_accepted hk' hmanual hheld
  unchanged := by
    intro x hx k current hpc _
    obtain ⟨a, b, -, hbefore⟩ := (mem_trace Threads.next).mp hx
    have hsame : SameSample x.before.pc := by
      rw [hbefore, ← exec_append]
      exact sameSample_exec p now (before ++ a)
    exact hsame k current (by rw [hpc]; rfl)

/-- The backup reads 400 W, measured at the time `t`. -/
def backupGrid (t : ℚ) : GridStatus where
  valid := true
  backup := true
  primaryValid := false
  source := some "com.victronenergy.acload.vue"
  sourceInstance := some 41
  selectionGeneration := 2
  measurementTime := some t
  gt := 400
  backupStatus := ⟨true, "com.victronenergy.acload.vue", 1, some 41, some 400, some t, some 1⟩

/-- `n` steps of the control thread at the time `t`, on the sample of the time `m`. -/
def backupSteps (n : ℕ) (t m : ℚ) : List Event :=
  List.replicate n (.control { quietInputs t 400 with grid := backupGrid m })

/-- A cycle that notes the selection, two on one sample and one on the next. -/
def repeatedSample : List Event := backupSteps 3 1 10 ++ backupSteps 13 2 10 ++
    backupSteps 12 3 10 ++ backupSteps 13 4 12

theorem once_per_sample_repeated :
    appliedSamples (trace Threads.next (Threads.init plainSetup 0) repeatedSample) = [10, 12] ∧
      OncePerSample (Threads.init plainSetup 0) repeatedSample :=
  ⟨by decide +kernel,
    once_per_sample plainSetup 0 [] repeatedSample 2 rfl
      ⟨by decide +kernel, by decide +kernel, by decide +kernel, by decide +kernel⟩⟩

end InverterControl.Controller.Samples
