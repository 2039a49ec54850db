import InverterControl.Controller.Intents
import InverterControl.Controller.Samples
import InverterControl.Controller.Trims

/-!
# The trim at the actuator

A decision that a calculation adopts reaches the write of its cycle as it is, or the cycle ends
without a write (`carried_exec`).  The write asks the trim once more: under its lock every mode is
off and the decision still fits (`Checked`), and an answer that equals the decision is that object,
so the acceptance commits it.  The TOU ceiling alone drops the decision of a command that it may
leave unchanged: what is left to show is that it never meets a trim (`actuator_iff`).
-/

namespace InverterControl.Controller.Actuator

open InverterControl.Lib.Runs InverterControl.Python InverterControl.Logic.Model
open InverterControl.Controller.Model InverterControl.Controller.Threads
open InverterControl.Controller.Steps InverterControl.Controller.Baseline
  InverterControl.Controller.Trims
open InverterControl.Controller.Intents (InCycle phase next_phase)
open InverterControl.Controller.Samples (pending pending_cases)
open InverterControl.Backup.Model (GridStatus)
open InverterControl.Trim.Model (Issued SubmeterTrim TrimDecision)
open InverterControl.Trim.Steps (Reissued propose_again)
open InverterControl.Watchdog.Model (Env)

/-! ### The property -/

/-- The decision that a calculation adopts. -/
def adopted (s : System) : Event → Option Issued
  | .control i =>
    match s.pc with
    | .trimming .. => (Threads.next s (.control i)).controller.trimDecision
    | _ => none
  | _ => none

/-- The cycle that adopts the decision `d` with a delta in the event `x` has its write accepted in
the step `i`, and the value written includes the delta. -/
structure TrimWrite (s : System) (a : List Event) (x : Event) (b : List Event) (i : Inputs) (d : Issued)
    (k : Locals) : Prop where
  adopted : adopted (exec Threads.next s a) x = some d
  moves : d.decision.delta ≠ 0
  cycle : InCycle (exec Threads.next s (a ++ [x])) b
  written : accepted (exec Threads.next s (a ++ x :: b)) (.control i) = some k
  value : k.command.1 = d.decision.setpoint

/-- What is checked in the step of the write: `c` is the controller there, `current` the grid that
was read again, and `noted` the source key, the sample and the mode generation of the
calculation. -/
structure Checked (noted : TrimContext) (w : WriteReadings) (current : GridStatus) (d : TrimDecision)
    (c : InverterController) : Prop where
  flags : c.controlFlags.any = false
  precharge : c.preChargeRequested = false
  manual : c.manualSetpoint = none
  override : c.watchdog.overrideValue = none
  triggered : c.watchdog.triggered = false
  valid : current.valid = true ∧ current.primaryValid = true
  primary : current.backup = false
  creep : c.calculator.config.creepRate = 0
  ess : w.trim.essExternal = true
  context : submeterTrimContext current c = noted
  setpoint : d.setpoint = c.previousSetpoint + d.delta
  limits : c.powerLimits.min < d.setpoint ∧ d.setpoint < c.powerLimits.max
  delta : |d.delta| ≤ deltaLimit c.calculator
  hold : trimStaysInPrimaryHold d.delta c

/-- The trim at the actuator, over a run. -/
structure TrimAtActuator (s : System) (es : List Event) : Prop where
  /-- A write that includes a delta is checked in its step. -/
  checked : ∀ a x b i c d k, es = a ++ x :: (b ++ .control i :: c) → TrimWrite s a x b i d k →
    ∃ k' current, (exec Threads.next s (a ++ x :: b)).pc = .writing k' current ∧
      Checked (submeterTrimContext k.sys (exec Threads.next s a).controller) i.write current d.decision
        (exec Threads.next s (a ++ x :: b)).controller
  /-- Its acceptance commits the decision, and nothing else in the run does. -/
  committed : ∀ a x b i c d k, es = a ++ x :: (b ++ .control i :: c) → TrimWrite s a x b i d k →
    committedIn (exec Threads.next s (a ++ x :: b)) (.control i) = some d ∧
      (committedOver (trace Threads.next s es)).count d.id = 1
  /-- A decision that is committed has the value that is written. -/
  matching : ∀ y ∈ trace Threads.next s es, ∀ d ∈ committedIn y.before y.input,
    ∃ k, accepted y.before y.input = some k ∧ k.command.1 = d.decision.setpoint

/-- The acceptance can commit the decision: no TOU ceiling applies, the monotonic clock has not gone back
since the proposal, and the wall clock is positive. -/
structure Committable (w : WriteReadings) (d : TrimDecision) (c : InverterController) : Prop where
  noCeiling : touCeiling w.tou c = false
  clock : d.proposedAt ≤ w.commitMonotonic
  wall : 0 < w.commitWall

variable {s : System} {e : Event} {i : Inputs} {k : Locals} {c : InverterController}

/-! ### From the calculation to the write -/

/-- The cycle that has calculated and may still write. -/
def carrying : ControlPc → Option Locals
  | .calculated k | .writing k _ => some k
  | .gate (.second k) _ .start | .gate (.second k) _ .readTriggered |
    .gate (.second k) _ (.update true) => some k
  | _ => none

/-- The controller's part of the trim. -/
structure TrimPart where
  trim : SubmeterTrim
  decision : Option Issued
  context : Option TrimContext

def trimPart (c : InverterController) : TrimPart := ⟨c.submeterTrim, c.trimDecision, c.trimContext⟩

theorem trimPart_updateGridLossState (c : InverterController) :
    trimPart (updateGridLossState c) = trimPart c := by
  unfold updateGridLossState
  split
  · rfl
  · split_ifs <;> rfl

theorem answerGate_carrying {caller : Caller} {g : GridStatus} {ready : Bool}
    (h : carrying (answerGate caller g ready c s).pc = some k) : caller = .second k ∧ ready = true := by
  cases caller with
  | override => cases h
  | first generation => cases ready <;> cases h
  | second k' =>
    cases ready with
    | false => cases h
    | true =>
      obtain rfl := Option.some.inj h
      exact ⟨rfl, rfl⟩

theorem stepGate_carrying {caller : Caller} {g : GridStatus} {stage : GateStage} {env : Env}
    (h : carrying (stepGate caller g stage env s).1.pc = some k) :
    carrying (.gate caller g stage) = some k ∧
      trimPart (stepGate caller g stage env s).1.controller = trimPart s.controller := by
  cases stage with
  | start =>
    simp only [stepGate, startGate, checkSelection] at h ⊢
    split_ifs at h ⊢
    · cases caller <;> cases h
    · cases (answerGate_carrying h).2
    · refine ⟨?_, rfl⟩
      cases caller with
      | second k' => exact h
      | _ => cases h
  | readTriggered =>
    simp only [stepGate] at h ⊢
    split_ifs at h ⊢
    · cases caller <;> cases h
    · refine ⟨?_, rfl⟩
      cases caller with
      | second k' => exact h
      | _ => cases h
  | checkInvalid => cases caller <;> cases h
  | checkTriggered => cases caller <;> cases h
  | update ready =>
    obtain ⟨rfl, rfl⟩ := answerGate_carrying h
    simp only [stepGate, answerGate_controller]
    exact ⟨rfl, trimPart_updateGridLossState _⟩

/-- The ways a step of the control thread comes to a cycle that may write. -/
inductive CarryCase (i : Inputs) (s : System) (k : Locals) : Prop
  | kept (h : carrying s.pc = some k)
    (hpart : trimPart (stepControl i s).1.controller = trimPart s.controller)
  | adopted (k' : Locals) (chargeBattery : Bool) (result : ControlResult) (command : Command)
      (hpc : s.pc = .trimming k' chargeBattery result) (hk : k = { k' with command := command })
      (happly : applySubmeterTrim i.trim k'.sys chargeBattery result s.controller =
        (some command, (stepControl i s).1.controller))
  | undecided (hready : ∃ generation sys, s.pc = .ready generation sys)
      (hnone : (stepControl i s).1.controller.trimDecision = none)

theorem carrying_cases (h : carrying (stepControl i s).1.pc = some k) : CarryCase i s k := by
  cases hpc : s.pc with
  | idle => simp only [stepControl, hpc] at h; cases h
  | begun generation =>
    simp only [stepControl, hpc, readSystem] at h
    split_ifs at h <;> cases h
  | gate caller g stage =>
    have hstep : stepControl i s = stepGate caller g stage i.env s := by simp only [stepControl, hpc]
    rw [hstep] at h
    obtain ⟨hk, hpart⟩ := stepGate_carrying h
    exact .kept (by rw [hpc]; exact hk) (by rw [hstep]; exact hpart)
  | overrideCheck => simp only [stepControl, hpc] at h; cases h
  | overrideUpdate => simp only [stepControl, hpc] at h; cases h
  | ready generation sys =>
    have hstep : (stepControl i s).1 = Threads.calculate generation sys i.readings s := by
      simp only [stepControl, hpc]
    refine .undecided ⟨generation, sys, hpc⟩ ?_
    rw [hstep]
    unfold Threads.calculate
    split
    · rfl
    · unfold calculateSetpoint
      split_ifs <;> rfl
  | trimming k' chargeBattery result =>
    have hstep : (stepControl i s).1 = applyTrim k' chargeBattery result i.trim s := by
      simp only [stepControl, hpc]
    have hgoal := hstep
    rw [hstep] at h
    unfold applyTrim at h hgoal
    split at h
    · cases h
    · next command c' heq =>
      obtain rfl := Option.some.inj h
      rw [heq] at hgoal
      exact .adopted k' chargeBattery result command hpc rfl (by rw [heq, hgoal]; rfl)
  | calculated k' =>
    have hstep : (stepControl i s).1 = readGrid k' i.grid s := by simp only [stepControl, hpc]
    rw [hstep] at h
    unfold readGrid at h hstep
    split at h
    · cases h
    · next hsame =>
      obtain rfl := Option.some.inj h
      rw [if_neg hsame] at hstep
      exact .kept (by rw [hpc]; rfl) (by rw [hstep]; rfl)
  | writing k' current =>
    simp only [stepControl, hpc] at h
    cases write_cases k' current i.write s with
    | notReady c hx hcore heq => rw [heq] at h; cases h
    | accepted x hx hr heq => rw [heq] at h; cases h
    | refused x hx hr heq => rw [heq] at h; cases h
    | raised x hx hr heq => rw [heq] at h; cases h
  | written k' ok =>
    simp only [stepControl, hpc, finish] at h
    split_ifs at h <;> cases h
  | finalUpdate => simp only [stepControl, hpc] at h; cases h

/-- The other threads leave the trim alone, unless they end the cycle. -/
theorem trimPart_other (he : ∀ i, e ≠ .control i) (hidle : (Threads.next s e).pc ≠ .idle) :
    (Threads.next s e).pc = s.pc ∧ trimPart (Threads.next s e).controller = trimPart s.controller := by
  refine ⟨(next_pc he).resolve_right hidle, ?_⟩
  cases e with
  | control i => exact absurd rfl (he i)
  | abort =>
    simp only [Threads.next, perform, abort] at hidle ⊢
    split
    · rfl
    · next hpc =>
      split at hidle
      · next hno => exact absurd hno hpc
      · exact absurd rfl hidle
  | mqtt arg requestId env =>
    simp only [Threads.next, perform, stepMqtt]
    cases s.mqtt with
    | idle => rfl
    | clearing => rfl
    | updating => exact trimPart_updateGridLossState _
  | setPowerLimits min max =>
    simp only [Threads.next, perform, stepSetter, setPowerLimits]
    split_ifs <;> rfl
  | selectEssMode =>
    simp only [Threads.next, perform, stepSetter, selectEssMode]
    split_ifs <;> rfl
  | _ => rfl

/-- **A decision stays as it is** from the calculation that adopted it to the write of its cycle. -/
theorem carried_exec {part : TrimPart} {b : List Event} (hcycle : InCycle s b)
    (hpc : s.pc = .calculated k) (hpart : trimPart s.controller = part) {k' : Locals}
    (hk : carrying (exec Threads.next s b).pc = some k') :
    k' = k ∧ trimPart (exec Threads.next s b).controller = part := by
  have hrun : 2 ≤ phase (exec Threads.next s b).pc ∧
      (∀ k' chargeBattery result, (exec Threads.next s b).pc ≠ .trimming k' chargeBattery result) ∧
      ∀ k', carrying (exec Threads.next s b).pc = some k' →
        k' = k ∧ trimPart (exec Threads.next s b).controller = part := by
    refine exec_invariant (P := fun t : System => 2 ≤ phase t.pc ∧
      (∀ k' chargeBattery result, t.pc ≠ .trimming k' chargeBattery result) ∧
      ∀ k', carrying t.pc = some k' → k' = k ∧ trimPart t.controller = part) ?_ ?_
    · rw [hpc]
      refine ⟨le_rfl, fun _ _ _ => ControlPc.noConfusion, fun k' hk' => ?_⟩
      obtain rfl := Option.some.inj hk'
      exact ⟨rfl, hpart⟩
    · rintro x hx ⟨hphase, htrimming, hcarried⟩
      have hin := hcycle x hx
      have hforward : phase x.before.pc ≤ phase (Threads.next x.before x.input).pc :=
        (next_phase x.before x.input).resolve_left hin
      refine ⟨hphase.trans hforward, ?_⟩
      by_cases he : ∃ i, x.input = .control i
      · obtain ⟨i, hi⟩ := he
        have hready : ∀ generation sys, x.before.pc ≠ .ready generation sys := by
          intro generation sys hpc'
          rw [hpc'] at hphase
          simp only [phase] at hphase
          omega
        rw [hi]
        constructor
        · intro k' chargeBattery result htrim
          have hpending : pending (stepControl i x.before).1.pc = some k' := by
            rw [show (stepControl i x.before).1.pc = _ from htrim]
            rfl
          cases pending_cases hpending with
          | kept h hne => exact hne k' chargeBattery result htrim
          | trimmed k'' cb r command hpc' hk'' hnext =>
            rw [show (stepControl i x.before).1.pc = _ from htrim] at hnext
            cases hnext
          | calculated generation sys hpc' hk'' => exact hready generation sys hpc'
        · intro k' hk'
          cases carrying_cases hk' with
          | kept h hkept =>
            obtain ⟨hsame, hbefore⟩ := hcarried k' h
            exact ⟨hsame, hkept.trans hbefore⟩
          | adopted k'' cb r command hpc' hk'' happly => exact absurd hpc' (htrimming k'' cb r)
          | undecided h hnone =>
            obtain ⟨generation, sys, hpc'⟩ := h
            exact absurd hpc' (hready generation sys)
      · obtain ⟨hsame, hkept⟩ := trimPart_other (s := x.before) (fun i hi => he ⟨i, hi⟩) hin
        rw [hsame, hkept]
        exact ⟨htrimming, hcarried⟩
  exact hrun.2.2 k' hk

/-! ### The decision of a calculation -/

/-- What the controller has of the decision `d` when it adopts it from the state `c` on the grid `g`. -/
structure Adopted (g : GridStatus) (c : InverterController) (d : Issued) (command : Command)
    (c' : InverterController) : Prop where
  setpoint : command.1 = d.decision.setpoint
  context : c'.trimContext = some (submeterTrimContext g c)
  issued : c'.submeterTrim.issued = some d

theorem adopted_of_apply {x : TrimReadings} {g : GridStatus} {chargeBattery : Bool}
    {result : ControlResult} {command : Command} {c' : InverterController} {d : Issued}
    (hsound : TrimSound c) (hnone : c.trimDecision = none)
    (happly : applySubmeterTrim x g chargeBattery result c = (some command, c'))
    (hd : c'.trimDecision = some d) :
    Adopted g c d command c' := by
  unfold applySubmeterTrim at happly
  split at happly
  · obtain ⟨-, rfl⟩ := Prod.mk.inj happly
    rw [hnone] at hd
    cases hd
  · have hgeneration : (noteTrimMode c).trimModeGeneration = c.trimModeGeneration :=
      congrArg Core.trimModeGeneration (noteTrimMode_core c)
    have hnoted : TrimSound (noteTrimMode c) := (resets_noteTrimMode c).uncommitted.sound hsound
    unfold applyNotedTrim at happly
    split at happly
    · cases happly
    · next i trim hpropose =>
      have hissued : (proposeTrim x g chargeBattery result (noteTrimMode c)).2.issued = some i :=
        Trim.Steps.propose_issued hnoted.toCore (congrArg Prod.fst hpropose)
      rw [hpropose] at hissued
      obtain ⟨hcommand, rfl⟩ := Prod.mk.inj happly
      obtain rfl := Option.some.inj hcommand
      unfold adoptTrim at hd ⊢
      split at hd
      · cases hd
      · next hlimit =>
        rw [if_neg hlimit]
        split at hd
        · cases hd
        · next hhold =>
          obtain rfl := Option.some.inj hd
          rw [if_neg hhold]
          refine ⟨rfl, ?_, hissued⟩
          simp only [submeterTrimContext, hgeneration]

/-- The decision of a cycle that may write is the issued one, and its setpoint the cycle's; a calculation
has not decided before its trim. -/
structure Decided (s : System) : Prop where
  trimming : ∀ k chargeBattery result, s.pc = .trimming k chargeBattery result →
    s.controller.trimDecision = none ∧ k.pendingManual = none
  carrying : ∀ k, carrying s.pc = some k → ∀ d, s.controller.trimDecision = some d →
    k.command.1 = d.decision.setpoint ∧ s.controller.submeterTrim.issued = some d ∧
    k.pendingManual = none

theorem trimming_of_calculate {generation : ℕ} {sys : GridStatus} {r : Readings} {chargeBattery : Bool}
    {result : ControlResult}
    (h : (Threads.calculate generation sys r s).pc = .trimming k chargeBattery result) :
    (Threads.calculate generation sys r s).controller.trimDecision = none ∧ k.pendingManual = none := by
  unfold Threads.calculate at h ⊢
  split at h
  · cases h
  · unfold calculateSetpoint at h ⊢
    split_ifs at h ⊢
    · cases h
    · injection h with hk
      rw [← hk]
      exact ⟨rfl, rfl⟩

theorem Decided.stepControl (h : Decided s) (hsound : TrimSound s.controller) (i : Inputs) :
    Decided (stepControl i s).1 := by
  constructor
  · intro k chargeBattery result hpc
    have hpending : pending (Threads.stepControl i s).1.pc = some k := by
      rw [hpc]
      rfl
    cases pending_cases hpending with
    | kept hk hne => exact absurd hpc (hne k chargeBattery result)
    | trimmed k' cb r command hpc' hk hnext =>
      rw [hpc] at hnext
      cases hnext
    | calculated generation sys hpc' hk =>
      have hstep : (Threads.stepControl i s).1 = Threads.calculate generation sys i.readings s := by
        simp only [Threads.stepControl, hpc']
      rw [hstep] at hpc ⊢
      exact trimming_of_calculate hpc
  · intro k hk d hd
    cases carrying_cases hk with
    | kept hbefore hpart =>
      have hsame : (Threads.stepControl i s).1.controller.trimDecision = s.controller.trimDecision :=
        congrArg TrimPart.decision hpart
      have htrim : (Threads.stepControl i s).1.controller.submeterTrim = s.controller.submeterTrim :=
        congrArg TrimPart.trim hpart
      rw [htrim]
      exact h.carrying k hbefore d (hsame ▸ hd)
    | adopted k' chargeBattery result command hpc hk' happly =>
      obtain ⟨hnone, hmanual⟩ := h.trimming k' chargeBattery result hpc
      have hadopted := adopted_of_apply hsound hnone happly hd
      rw [hk']
      exact ⟨hadopted.setpoint, hadopted.issued, hmanual⟩
    | undecided hready hnone =>
      rw [hnone] at hd
      cases hd

theorem Decided.next (h : Decided s) (hsound : TrimSound s.controller) (e : Event) :
    Decided (Threads.next s e) := by
  by_cases he : ∃ i, e = .control i
  · obtain ⟨i, rfl⟩ := he
    exact h.stepControl hsound i
  · by_cases hidle : (Threads.next s e).pc = .idle
    · constructor
      · intro k chargeBattery result hpc
        rw [hidle] at hpc
        cases hpc
      · intro k hk
        rw [hidle] at hk
        cases hk
    · obtain ⟨hpc, hpart⟩ := trimPart_other (s := s) (fun i hi => he ⟨i, hi⟩) hidle
      have hsame : (Threads.next s e).controller.trimDecision = s.controller.trimDecision :=
        congrArg TrimPart.decision hpart
      have htrim : (Threads.next s e).controller.submeterTrim = s.controller.submeterTrim :=
        congrArg TrimPart.trim hpart
      constructor
      · rw [hpc, hsame]
        exact h.trimming
      · rw [hpc, hsame, htrim]
        exact h.carrying

/-- **Run.** -/
theorem decided_exec (p : Setup) (now : ℚ) (es : List Event) :
    Decided (exec Threads.next (Threads.init p now) es) := by
  have hinit : Decided (Threads.init p now) :=
    ⟨fun k chargeBattery result h => (by cases h), fun k h => (by cases h)⟩
  have hrun : TrimSound (exec Threads.next (Threads.init p now) es).controller ∧
      Decided (exec Threads.next (Threads.init p now) es) := by
    refine exec_invariant (P := fun t : System => TrimSound t.controller ∧ Decided t)
      ⟨trim_exec p now [], hinit⟩ fun x _ hx => ?_
    exact ⟨trimSound_next hx.1 x.input, hx.2.next hx.1 x.input⟩
  exact hrun.2

/-! ### The write -/

/-- What the absence of a reason to block the trim says. -/
structure Unblocked (x : TrimReadings) (g : GridStatus) (c : InverterController) : Prop where
  primary : primaryAvailable g = true
  precharge : c.preChargeRequested = false
  flags : c.controlFlags.any = false
  manual : c.manualSetpoint = none
  override : c.watchdog.overrideValue = none
  triggered : c.watchdog.triggered = false
  creep : c.calculator.config.creepRate = 0
  ess : x.essExternal = true

theorem unblocked {x : TrimReadings} {g : GridStatus} (h : trimBlockReason x g false c = "") :
    Unblocked x g c := by
  unfold trimBlockReason at h
  split at h
  · exact absurd h (by decide)
  next hprimary =>
  split at h
  · exact absurd h (by decide)
  split at h
  · exact absurd h (by decide)
  next hmode =>
  split at h
  · exact absurd h (by decide)
  next hmanual =>
  split at h
  · exact absurd h (by decide)
  next htriggered =>
  split at h
  · exact absurd h (by decide)
  next hfeedback =>
  split at h
  · exact absurd h (by decide)
  next hess =>
  simp only [Bool.false_or, Bool.or_eq_true, not_or, Bool.not_eq_true] at hmode
  push Not at hmanual hfeedback
  exact ⟨Bool.of_not_eq_false hprimary, hmode.1, hmode.2, hmanual.1, hmanual.2,
    Bool.eq_false_iff.mpr htriggered, hfeedback.1, Bool.of_not_eq_false hess⟩

/-- What the check of a write shows of the decision `d`, and the controller `c'` it leaves. -/
structure ReadyFor (w : WriteReadings) (current : GridStatus) (d : Issued)
    (c c' : InverterController) : Prop where
  allowed : trimStillAllowed w.trim current d c
  state : c' = { c with submeterTrim := c'.submeterTrim }
  issued : c'.submeterTrim.issued = some d
  setpoint : d.decision.setpoint = c.previousSetpoint + d.decision.delta
  limits : c.powerLimits.min < d.decision.setpoint ∧ d.decision.setpoint < c.powerLimits.max

/-- A power limit as the trim reads it. -/
theorem number_int {n : ℤ} {q : ℚ} (h : number (.int n) = some q) : q = n := by
  simp only [number] at h
  split at h
  · exact (Option.some.inj h).symm
  · cases h

theorem readyFor {w : WriteReadings} {current : GridStatus} {d : Issued} (hsound : TrimSound c)
    (hd : c.trimDecision = some d) (hdelta : d.decision.delta ≠ 0)
    (hpending : c.submeterTrim.pending = some d)
    (hready : (trimWriteReady w.trim current c).1 = some true) :
    ReadyFor w current d c (trimWriteReady w.trim current c).2 := by
  obtain ⟨t, hstate⟩ := trimWriteReady_state w.trim current c
  have hunfold : trimWriteReady w.trim current c =
      if ¬ trimStillAllowed w.trim current d c then (some false, c)
      else ((refreshTrim w.trim current c).1.map (·.decision = d.decision),
        { c with submeterTrim := (refreshTrim w.trim current c).2 }) := by
    unfold trimWriteReady
    rw [hd]
    simp only [if_neg hdelta]
  rw [hunfold] at hready ⊢
  split at hready
  · cases hready
  next hallowed =>
  rw [if_neg hallowed]
  obtain ⟨i, hi, heq⟩ := Option.map_eq_some_iff.mp hready
  have hagain : Reissued (trimProposal w.trim current c.previousSetpoint true "" (c.filteredGt.getD 0) c)
      c.submeterTrim d := propose_again hsound hpending hi (of_decide_eq_true heq)
  obtain ⟨low, high, hlow, hhigh, hmin, hmax⟩ := hagain.limits
  have hprevious : d.decision.previous = c.previousSetpoint := eq_of_integer_int hagain.previous
  rw [number_int hlow] at hmin
  rw [number_int hhigh] at hmax
  refine ⟨not_not.mp hallowed, rfl, hagain.issued, ?_, by exact_mod_cast hmin, by exact_mod_cast hmax⟩
  rw [hagain.setpoint, hprevious]

theorem ReadyFor.checked {w : WriteReadings} {current : GridStatus} {d : Issued}
    {c' : InverterController} {noted : TrimContext} (h : ReadyFor w current d c c')
    (hcontext : c.trimContext = some noted) :
    Checked noted w current d.decision c := by
  obtain ⟨hsame, hreason, hlimit, hhold⟩ := h.allowed
  have hfree := unblocked hreason
  have hprimary := hfree.primary
  simp only [primaryAvailable, Bool.and_eq_true, Bool.not_eq_true'] at hprimary
  have hdelta : d.decision.setpoint - c.previousSetpoint = d.decision.delta := by
    rw [h.setpoint]
    omega
  exact
    { flags := hfree.flags
      precharge := hfree.precharge
      manual := hfree.manual
      override := hfree.override
      triggered := hfree.triggered
      valid := hprimary.1
      primary := hprimary.2
      creep := hfree.creep
      ess := hfree.ess
      context := Option.some.inj (hsame.symm.trans hcontext)
      setpoint := h.setpoint
      limits := h.limits
      delta := hdelta ▸ hlimit
      hold := hhold }

/-- The limits and the unknown-EV guard leave the command of a decision alone. -/
theorem checkCommand_inside {w : WriteReadings} {command : Command} (hflags : c.controlFlags.any = false)
    (hlimits : c.powerLimits.min < command.1 ∧ command.1 < c.powerLimits.max) :
    ∃ flags, checkCommand true w command c = guardTouCharge w.tou (command.1, flags) c := by
  have hev : c.controlFlags.doNotSupplyCharger = false := by
    simp only [ControlFlags.any, Bool.or_eq_false_iff] at hflags
    exact hflags.1.1.2
  have hbounded : bounded command.1 c = command.1 := by
    unfold bounded clampTo
    omega
  have hbound : boundSetpoint command c = (command, c) := by
    simp only [boundSetpoint, hbounded, ne_eq, not_true_eq_false, if_false]
  have hguarded : evGuarded w.evPower command.1 c = (command.1, []) := by
    simp only [evGuarded, guardUnknownEvPower, hev, true_or, if_true]
  refine ⟨command.2.filter (!Flag.isEvDiagnostic ·) ++ [], ?_⟩
  simp only [checkCommand, guardCommand, if_true, hbound, guardEv, hguarded, ne_eq,
    not_true_eq_false, if_false]

/-- What the write of a cycle with the decision `d` starts from. -/
structure Carries (d : Issued) (k : Locals) (c : InverterController) : Prop where
  sound : TrimSound c
  decision : c.trimDecision = some d
  issued : c.submeterTrim.issued = some d
  setpoint : k.command.1 = d.decision.setpoint
  automatic : k.pendingManual = none

theorem Decided.carries {d : Issued} {current : GridStatus} (h : Decided s)
    (hsound : TrimSound s.controller) (hpc : s.pc = .writing k current)
    (hd : s.controller.trimDecision = some d) : Carries d k s.controller := by
  obtain ⟨hsetpoint, hissued, hmanual⟩ := h.carrying k (by rw [hpc]; rfl) d hd
  exact ⟨hsound, hd, hissued, hsetpoint, hmanual⟩

theorem Carries.ready {d : Issued} {current : GridStatus} {w : WriteReadings}
    {x : Command × InverterController} (h : Carries d k c) (hmoves : d.decision.delta ≠ 0)
    (hx : attempt k current w c = some x) :
    ReadyFor w current d c (trimWriteReady w.trim current c).2 :=
  readyFor h.sound h.decision hmoves (h.sound.pending_of_issued h.issued hmoves) (attempt_eq hx).1

/-- The controller that the callback finds: without a ceiling it still has the decision. -/
theorem Carries.attempt {d : Issued} {current : GridStatus} {w : WriteReadings}
    {x : Command × InverterController} (h : Carries d k c) (hmoves : d.decision.delta ≠ 0)
    (hx : attempt k current w c = some x) :
    if touCeiling w.tou c = true then x.2.trimDecision = none
    else x.2.trimDecision = some d ∧ x.2.submeterTrim.issued = some d := by
  have hready := h.ready hmoves hx
  obtain ⟨-, heq⟩ := attempt_eq hx
  rw [h.automatic, decide_eq_true rfl] at heq
  generalize (trimWriteReady w.trim current c).2 = c' at hready heq
  have hstate := hready.state
  have hflags : c'.controlFlags.any = false := by
    rw [hstate]
    exact (unblocked hready.allowed.2.1).flags
  have hlimits : c'.powerLimits.min < k.command.1 ∧ k.command.1 < c'.powerLimits.max := by
    rw [hstate, h.setpoint]
    exact hready.limits
  have hceiling : touCeiling w.tou c' = touCeiling w.tou c := by
    rw [hstate]
    rfl
  obtain ⟨flags, hchecked⟩ := checkCommand_inside (w := w) hflags hlimits
  rw [heq, hchecked]
  unfold guardTouCharge
  rw [hceiling]
  cases touCeiling w.tou c with
  | true => rfl
  | false =>
    refine ⟨?_, hready.issued⟩
    show c'.trimDecision = some d
    rw [hstate]
    exact h.decision

/-- **The acceptance of a trim write** commits its decision exactly when it can. -/
theorem Carries.committed_iff {d : Issued} {current : GridStatus} {x : Command × InverterController}
    (h : Carries d k s.controller) (hmoves : d.decision.delta ≠ 0) (hw : Accepts s i k current x) :
    committedIn s (.control i) = some d ↔ Committable i.write d.decision s.controller := by
  have hin : committedIn s (.control i) = committedDecision i.write x.2 := by
    simp only [committedIn, hw.pc, hw.attempted, hw.answered, if_true]
  have hfound := h.attempt hmoves hw.attempted
  rw [hin]
  unfold committedDecision
  by_cases hceiling : touCeiling i.write.tou s.controller = true
  · rw [if_pos hceiling] at hfound
    rw [hfound]
    constructor
    · intro hnone
      cases hnone
    · intro hc
      rw [hc.noCeiling] at hceiling
      cases hceiling
  · rw [if_neg hceiling] at hfound
    obtain ⟨hdecision, hissued⟩ := hfound
    rw [hdecision, Option.bind_some]
    unfold Trim.Accounting.committed
    rw [Option.map_eq_some_iff]
    constructor
    · rintro ⟨⟨j, clock, wall⟩, hcommits, rfl⟩
      obtain ⟨-, -, hclock, hwall, hafter, hpositive⟩ := Trim.Steps.commits_iff.mp hcommits
      obtain rfl := Option.some.inj hclock
      obtain rfl := Option.some.inj hwall
      exact ⟨Bool.eq_false_iff.mpr hceiling, hafter, hpositive⟩
    · intro hc
      exact ⟨(d, i.write.commitMonotonic, i.write.commitWall),
        Trim.Steps.commits_iff.mpr ⟨rfl, hissued, rfl, rfl, hc.clock, hc.wall⟩, rfl⟩

/-! ### The cycle of a trim write -/

theorem adopted_cases {d : Issued} (h : adopted s e = some d) :
    ∃ j k' chargeBattery result command c', e = .control j ∧ s.pc = .trimming k' chargeBattery result ∧
      applySubmeterTrim j.trim k'.sys chargeBattery result s.controller = (some command, c') ∧
      Threads.next s e = goTo (.calculated { k' with command := command }) c' s ∧
      c'.trimDecision = some d := by
  unfold adopted at h
  split at h
  · next j =>
    split at h
    · next k' chargeBattery result hpc =>
      have hnext : Threads.next s (.control j) = applyTrim k' chargeBattery result j.trim s := by
        simp only [Threads.next, perform, stepControl, hpc]
      rw [hnext] at h
      unfold applyTrim at h hnext
      split at h
      · cases h
      · next command c' heq =>
        rw [heq] at hnext
        exact ⟨j, k', chargeBattery, result, command, c', rfl, hpc, heq, hnext, h⟩
    · cases h
  · cases h

/-- The write of a cycle that adopted a decision with a delta. -/
structure Written (noted : TrimContext) (s : System) (i : Inputs) (d : Issued) : Prop where
  accepts : ∃ k' current x, Accepts s i k' current x ∧ Carries d k' s.controller
  context : s.controller.trimContext = some noted

theorem TrimWrite.reaches {p : Setup} {now : ℚ} {a b : List Event} {x : Event} {d : Issued}
    (h : TrimWrite (Threads.init p now) a x b i d k) :
    Written (submeterTrimContext k.sys (exec Threads.next (Threads.init p now) a).controller)
      (exec Threads.next (Threads.init p now) (a ++ x :: b)) i d := by
  have hdecided := decided_exec p now (a ++ x :: b)
  have hsound := trim_exec p now (a ++ x :: b)
  obtain ⟨j, k₀, chargeBattery, result, command, c', rfl, hpc, happly, hnext, hd⟩ :=
    adopted_cases h.adopted
  obtain ⟨hnone, -⟩ := (decided_exec p now a).trimming k₀ chargeBattery result hpc
  have hadopted := adopted_of_apply (trim_exec p now a) hnone happly hd
  have hcycle := h.cycle
  rw [exec_snoc, hnext] at hcycle
  have hend : exec Threads.next (Threads.init p now) (a ++ .control j :: b) =
      exec Threads.next (goTo (.calculated { k₀ with command := command }) c'
        (exec Threads.next (Threads.init p now) a)) b := by
    rw [exec_append, exec_cons, hnext]
  obtain ⟨i', k', current, y, hi, hw, rfl⟩ := accepted_eq_some h.written
  obtain rfl := Event.control.inj hi
  have hwriting := hw.pc
  rw [hend] at hwriting
  have hcarried := carried_exec hcycle (goTo_pc _ _ _) rfl (by rw [hwriting]; rfl)
  obtain ⟨rfl, hpart⟩ := hcarried
  rw [← hend] at hpart
  have hdecision := (congrArg TrimPart.decision hpart).trans hd
  have hcontext := (congrArg TrimPart.context hpart).trans hadopted.context
  exact ⟨⟨_, current, y, hw, hdecided.carries hsound hw.pc hdecision⟩, hcontext⟩

/-- A check that keeps the decision keeps the setpoint and the trim. -/
theorem checkCommand_keeps {automatic : Bool} {w : WriteReadings} {command : Command} {d : Issued}
    (h : (checkCommand automatic w command c).2.trimDecision = some d) :
    (checkCommand automatic w command c).1.1 = command.1 ∧
    (checkCommand automatic w command c).2.trimDecision =
      c.trimDecision ∧ (checkCommand automatic w command c).2.submeterTrim = c.submeterTrim := by
  have hbound {d : Issued} (hd : (boundSetpoint command c).2.trimDecision = some d) :
      boundSetpoint command c = (command, c) := by
    by_cases hsame : bounded command.1 c = command.1
    · simp only [boundSetpoint, hsame, ne_eq, not_true_eq_false, if_false]
    · simp only [boundSetpoint, ne_eq, hsame, not_false_eq_true, if_true] at hd
      cases hd
  have hev {command' : Command} {c' : InverterController} {d : Issued}
      (hd : (guardEv w.evPower command' c').2.trimDecision = some d) :
      (guardEv w.evPower command' c').1.1 = command'.1 ∧ (guardEv w.evPower command' c').2 = c' := by
    by_cases hsame : (evGuarded w.evPower command'.1 c').1 = command'.1
    · simp only [guardEv, hsame, ne_eq, not_true_eq_false, if_false, and_self]
    · simp only [guardEv, ne_eq, hsame, not_false_eq_true, if_true] at hd
      cases hd
  unfold checkCommand guardCommand at h ⊢
  cases automatic with
  | false =>
    have hkept := hbound h
    simp only [Bool.false_eq_true, if_false, hkept, and_self]
  | true =>
    simp only [if_true] at h ⊢
    unfold guardTouCharge at h ⊢
    split at h
    · next hceiling =>
      rw [if_pos hceiling]
      obtain ⟨hsetpoint, hsame⟩ := hev h
      have hd : (boundSetpoint command c).2.trimDecision = some d := hsame ▸ h
      rw [hbound hd] at hsetpoint hsame
      simp only [hbound hd, hsetpoint, hsame, and_self]
    · cases h

/-- A committed decision has the value that is written. -/
theorem matching_of_decided (h : Decided s) (hsound : TrimSound s.controller) {d : Issued}
    (hd : committedIn s e = some d) : ∃ k, accepted s e = some k ∧
    k.command.1 = d.decision.setpoint := by
  unfold committedIn at hd
  split at hd
  swap
  · cases hd
  next i =>
  split at hd
  swap
  · cases hd
  next k current hpc =>
  split at hd
  swap
  · cases hd
  next x hx =>
  split_ifs at hd with hanswer
  obtain ⟨j, hj, hcommitted⟩ := Option.bind_eq_some_iff.mp hd
  obtain ⟨⟨j', clock, wall⟩, hcommits, rfl⟩ := Option.map_eq_some_iff.mp hcommitted
  obtain ⟨hid, hissued, -⟩ := Trim.Steps.commits_iff.mp hcommits
  obtain ⟨hready, heq⟩ := attempt_eq hx
  obtain ⟨t, hstate⟩ := trimWriteReady_state i.write.trim current s.controller
  have hkept : x.1.1 = k.command.1 ∧ x.2.trimDecision =
    (trimWriteReady i.write.trim current s.controller).2.trimDecision ∧
      x.2.submeterTrim = (trimWriteReady i.write.trim current s.controller).2.submeterTrim := by
    rw [heq] at hj ⊢
    exact checkCommand_keeps hj
  obtain ⟨hsetpoint, hdecision, htrim⟩ := hkept
  have hcarried : s.controller.trimDecision = some j := by
    rw [← hj, hdecision, hstate]
  have hcarries := h.carries hsound hpc hcarried
  have hfound : (trimWriteReady i.write.trim current s.controller).2.submeterTrim.issued = some j := by
    by_cases hmoves : j.decision.delta = 0
    · unfold trimWriteReady
      rw [hcarried]
      simp only [hmoves, if_true]
      exact hcarries.issued
    · exact (hcarries.ready hmoves hx).issued
  have hsame : j' = j := by
    rw [htrim, hfound] at hissued
    exact (Option.some.inj hissued).symm
  have haccepted : accepted s (.control i) = some (writtenCycle k x) := by
    have hstep : Threads.next s (.control i) = (write k current i.write s).1 := by
      simp only [Threads.next, perform, stepControl, hpc]
    cases write_cases k current i.write s with
    | notReady c hx' hcore heq' hreset =>
      rw [hx] at hx'
      cases hx'
    | accepted x' hx' hr heq' =>
      obtain rfl := Option.some.inj (hx.symm.trans hx')
      simp only [accepted, hpc, hstep, heq', goTo_pc]
    | refused x' hx' hr heq' =>
      obtain rfl := Option.some.inj (hx.symm.trans hx')
      rw [hr] at hanswer
      cases hanswer
    | raised x' hx' hr heq' =>
      obtain rfl := Option.some.inj (hx.symm.trans hx')
      rw [hr] at hanswer
      cases hanswer
  refine ⟨writtenCycle k x, haccepted, ?_⟩
  show x.1.1 = j'.decision.setpoint
  rw [hsetpoint, hsame, hcarries.setpoint]

/-- **The writes of the trim.**  Every write that includes a delta is checked in its step, and every
committed decision has the value that is written; a write that includes a delta commits its decision, and
nothing else does, exactly when it can. -/
theorem actuator_iff (p : Setup) (now : ℚ) (es : List Event) :
    TrimAtActuator (Threads.init p now) es ↔
      ∀ a x b i c d k, es = a ++ x :: (b ++ .control i :: c) →
        TrimWrite (Threads.init p now) a x b i d k →
        Committable i.write d.decision (exec Threads.next (Threads.init p now) (a ++
          x :: b)).controller := by
  constructor
  · rintro h a x b i c d k hes hwrite
    obtain ⟨⟨k', current, y, hw, hcarries⟩, -⟩ := hwrite.reaches
    exact (hcarries.committed_iff hwrite.moves hw).mp (h.committed a x b i c d k hes hwrite).1
  · intro h
    constructor
    · rintro a x b i c d k - hwrite
      obtain ⟨⟨k', current, y, hw, hcarries⟩, hcontext⟩ := hwrite.reaches
      exact ⟨k', current, hw.pc, (hcarries.ready hwrite.moves hw.attempted).checked hcontext⟩
    · rintro a x b i c d k hes hwrite
      obtain ⟨⟨k', current, y, hw, hcarries⟩, -⟩ := hwrite.reaches
      have hcommits := (hcarries.committed_iff hwrite.moves hw).mpr (h a x b i c d k hes hwrite)
      refine ⟨hcommits, List.count_eq_one_of_mem (committed_nodup p now es) ?_⟩
      refine List.mem_flatMap.mpr ⟨⟨exec Threads.next (Threads.init p now) (a ++ x :: b),
        .control i⟩, ?_, ?_⟩
      · exact (mem_trace Threads.next).mpr ⟨a ++ x :: b, c, by simp [hes], rfl⟩
      · simp only [hcommits]
        exact List.mem_singleton.mpr rfl
    · intro y hy d hd
      obtain ⟨a, b, -, hbefore⟩ := (mem_trace Threads.next).mp hy
      rw [hbefore] at hd ⊢
      exact matching_of_decided (decided_exec p now a) (trim_exec p now a) hd

end InverterControl.Controller.Actuator
