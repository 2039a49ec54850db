import InverterControl.Controller.Intents
import InverterControl.Controller.Samples

/-!
# Forced charging and the expensive window

The write reads the tariff window once more, and puts a ceiling of zero on a command whose
calculation noted a charge (`touCeiling`).  What a calculation notes follows from its origin, and
stays as it is up to the write (`noted_exec`).  A calculation that is not asked to charge, reads the
window as inactive and follows a forced charge notes nothing: when the window is active at its
write, the rest of the charge gets through (`entersUnnoticed`).  In all other runs a forced charge
ends at the window (`charge_ends`).
-/

namespace InverterControl.Controller.TouWindow

open InverterControl.Lib.Runs InverterControl.Python InverterControl.Logic.Model
open InverterControl.Controller.Model InverterControl.Controller.Threads
open InverterControl.Controller.Steps InverterControl.Controller.Baseline
open InverterControl.Controller.Intents (InCycle phase next_phase)
open InverterControl.Controller.Samples (pending PendingCase pending_cases)
open InverterControl.Backup.Model (GridStatus)

variable {s : System} {e : Event} {i : Inputs}

/-! ### The property -/

/-- The calculation itself forced charging. -/
def forcesCharge : Origin → Bool
  | .calculated requested window _ => requested && !window
  | _ => false

/-- The cycle whose automatic write is accepted in the event, when the write reads the window as
active. -/
def acceptedInWindow (s : System) : Event → Option Locals
  | .control i =>
    (accepted s (.control i)).filter fun k => k.pendingManual = none ∧
      inExpensiveWindow i.write.tou = true
  | _ => none

/-- **A forced charge does not survive into the window.**  A cycle goes from `exec next s a` to its
accepted write `z`. -/
def ChargeEnds (s : System) (es : List Event) : Prop :=
  ∀ a b z c, es = a ++ (b ++ z :: c) → (exec next s a).pc = .idle → InCycle (exec next s a) b →
    ∀ k ∈ acceptedInWindow (exec next s (a ++ b)) z,
      forcesCharge k.origin = true ∨ (exec next s a).controller.lastSetpointWasCharge = true →
        k.command.1 ≤ 0

/-- The write reads the window as active, and the calculation read it as inactive, was not asked to
charge and followed a forced charge. -/
def entersUnnoticed (s : System) : Event → Prop
  | .control i =>
    match s.pc with
    | .writing k _ =>
      k.pendingManual = none ∧ k.origin = .calculated false false true ∧
        inExpensiveWindow i.write.tou = true
    | _ => False
  | _ => False

instance : (s : System) → (e : Event) → Decidable (entersUnnoticed s e)
  | ⟨_, .writing k _, _⟩, .control i =>
    inferInstanceAs (Decidable (k.pendingManual = none ∧ k.origin = .calculated false false true ∧
      inExpensiveWindow i.write.tou = true))
  | ⟨_, .idle, _⟩, .control _ | ⟨_, .begun _, _⟩, .control _ | ⟨_, .gate .., _⟩, .control _
  | ⟨_, .overrideCheck, _⟩, .control _ | ⟨_, .overrideUpdate, _⟩, .control _
  | ⟨_, .ready .., _⟩, .control _ | ⟨_, .trimming .., _⟩, .control _
  | ⟨_, .calculated _, _⟩, .control _ | ⟨_, .written .., _⟩, .control _
  | ⟨_, .finalUpdate, _⟩, .control _ => .isFalse id
  | _, .abort | _, .watchdog .. | _, .mqtt .. | _, .setControlFlag .. | _, .setPowerLimits ..
  | _, .setDryRun _ | _, .setManualSetpoint _ | _, .acceptPrecharge _ | _, .selectEssMode => .isFalse id

/-! ### What the controller knows of charging -/

structure Charging where
  calculated : Bool
  last : Bool

def charging (c : InverterController) : Charging := ⟨c.calculatedChargeBattery, c.lastSetpointWasCharge⟩

theorem charging_quiet (h : isQuiet s.pc = true) :
    charging (stepControl i s).1.controller = charging s.controller := by
  obtain ⟨watchdog, previous, hcore⟩ := stepControl_quiet (i := i) h
  have hcalculated := congrArg Core.calculatedChargeBattery hcore
  have hlast := congrArg Core.lastSetpointWasCharge hcore
  exact congrArg₂ Charging.mk hcalculated hlast

theorem charging_updateGridLossState (c : InverterController) :
    charging (updateGridLossState c) = charging c := by
  unfold updateGridLossState
  split
  · rfl
  · split_ifs <;> rfl

/-- Only the control thread changes it. -/
theorem charging_other (he : ∀ i, e ≠ .control i) :
    charging (Threads.next s e).controller = charging s.controller := by
  cases e with
  | control i => exact absurd rfl (he i)
  | abort =>
    simp only [Threads.next, perform, abort]
    split <;> rfl
  | mqtt arg requestId env =>
    simp only [Threads.next, perform, stepMqtt]
    cases s.mqtt with
    | idle => rfl
    | clearing => rfl
    | updating => exact charging_updateGridLossState _
  | setPowerLimits min max =>
    simp only [Threads.next, perform, stepSetter, setPowerLimits]
    split_ifs <;> rfl
  | selectEssMode =>
    simp only [Threads.next, perform, stepSetter, selectEssMode]
    split_ifs <;> rfl
  | _ => rfl

/-- **Only an accepted write** says whether the last command was a forced charge. -/
theorem last_next (h : accepted s e = none) :
    (Threads.next s e).controller.lastSetpointWasCharge = s.controller.lastSetpointWasCharge := by
  by_cases he : ∃ i, e = .control i
  · obtain ⟨i, rfl⟩ := he
    have hnext : Threads.next s (.control i) = (stepControl i s).1 := rfl
    cases hq : isQuiet s.pc with
    | true => exact congrArg Charging.last (charging_quiet hq)
    | false =>
      cases hpc : s.pc with
      | ready generation sys =>
        rw [hnext]
        simp only [stepControl, hpc, Threads.calculate, calculateSetpoint]
        split
        · rfl
        · split_ifs <;> rfl
      | writing k current =>
        have hwrite : (stepControl i s).1 = (write k current i.write s).1 := by
          simp only [stepControl, hpc]
        cases write_cases k current i.write s with
        | notReady c hx hcore heq =>
          rw [hnext, hwrite, heq]
          exact congrArg Core.lastSetpointWasCharge hcore
        | accepted x hx hr heq =>
          simp only [accepted, hpc, hnext, hwrite, heq, goTo_pc] at h
          cases h
        | refused x hx hr heq =>
          obtain ⟨charge, hcore⟩ := attempt_core hx
          rw [hnext, hwrite, heq]
          exact congrArg Core.lastSetpointWasCharge hcore
        | raised x hx hr heq =>
          obtain ⟨charge, hcore⟩ := attempt_core hx
          rw [hnext, hwrite, heq]
          exact congrArg Core.lastSetpointWasCharge hcore
      | written k ok =>
        rw [hnext]
        simp only [stepControl, hpc, finish]
        split_ifs <;> rfl
      | _ => rw [hpc] at hq; cases hq
  · exact congrArg Charging.last (charging_other fun i hi => he ⟨i, hi⟩)

/-! ### What a calculation notes -/

/-- What the calculation of a pending cycle has noted. -/
def Noted (k : Locals) (c : InverterController) : Prop :=
  match k.origin with
  | .manual => k.pendingManual ≠ none
  | .held => c.calculatedChargeBattery = c.lastSetpointWasCharge
  | .calculated requested window last =>
    c.lastSetpointWasCharge = last ∧ c.calculatedChargeBattery =
      ((requested && !window) || (last && window))

theorem Noted.of_charging {k : Locals} {c c' : InverterController} (h : Noted k c)
    (hc : charging c' = charging c) :
    Noted k c' := by
  have hcalculated : c'.calculatedChargeBattery = c.calculatedChargeBattery :=
    congrArg Charging.calculated hc
  have hlast : c'.lastSetpointWasCharge = c.lastSetpointWasCharge := congrArg Charging.last hc
  unfold Noted at h ⊢
  rw [hcalculated, hlast]
  exact h

/-- A cycle that waits for its write carries what its calculation has noted. -/
def Noting (s : System) : Prop := ∀ k, pending s.pc = some k → Noted k s.controller

theorem noted_calculate {generation : ℕ} {sys : GridStatus} {r : Readings} {k : Locals}
    (h : pending (Threads.calculate generation sys r s).pc = some k) :
    Noted k (Threads.calculate generation sys r s).controller := by
  unfold Threads.calculate at h ⊢
  split at h
  · obtain rfl := Option.some.inj h
    exact Option.some_ne_none _
  · unfold calculateSetpoint at h ⊢
    split_ifs at h ⊢
    · obtain rfl := Option.some.inj h
      rfl
    · obtain rfl := Option.some.inj h
      exact ⟨rfl, rfl⟩

theorem pending_write {k k' : Locals} {current : GridStatus} (hpc : s.pc = .writing k current)
    (h : pending (stepControl i s).1.pc = some k') : False := by
  simp only [stepControl, hpc] at h
  cases write_cases k current i.write s with
  | notReady c hx hcore heq => rw [heq] at h; cases h
  | accepted x hx hr heq => rw [heq] at h; cases h
  | refused x hx hr heq => rw [heq] at h; cases h
  | raised x hx hr heq => rw [heq] at h; cases h

theorem Noting.stepControl (h : Noting s) (i : Inputs) : Noting (stepControl i s).1 := by
  intro k hk
  cases pending_cases hk with
  | kept hpending hne =>
    have hq : isQuiet s.pc = true := by
      cases hpc : s.pc with
      | ready generation sys => rw [hpc] at hpending; cases hpending
      | writing k' current => exact (pending_write hpc hk).elim
      | written k' ok => rw [hpc] at hpending; cases hpending
      | _ => rfl
    exact (h k hpending).of_charging (charging_quiet hq)
  | trimmed k' chargeBattery result command hpc hk' hnext =>
    have hnoted : Noted k' s.controller := h k' (by rw [hpc]; rfl)
    have hq : isQuiet s.pc = true := by rw [hpc]; rfl
    rw [hk']
    exact Noted.of_charging (k := { k' with command := command }) hnoted (charging_quiet hq)
  | calculated generation sys hpc hpending =>
    have hstep : (Threads.stepControl i s).1 = Threads.calculate generation sys i.readings s := by
      simp only [Threads.stepControl, hpc]
    rw [hstep]
    exact noted_calculate hpending

theorem Noting.next (h : Noting s) (e : Event) : Noting (Threads.next s e) := by
  by_cases he : ∃ i, e = .control i
  · obtain ⟨i, rfl⟩ := he
    exact h.stepControl i
  · have hother : ∀ i, e ≠ .control i := fun i hi => he ⟨i, hi⟩
    intro k hk
    rcases next_pc (s := s) hother with hpc | hpc
    · rw [hpc] at hk
      exact (h k hk).of_charging (charging_other hother)
    · rw [hpc] at hk
      cases hk

/-- **Run.** -/
theorem noted_exec (p : Setup) (now : ℚ) (es : List Event) :
    Noting (exec Threads.next (Threads.init p now) es) := by
  have hinit : Noting (Threads.init p now) := fun k hk => by cases hk
  exact exec_invariant (P := fun t : System => Noting t) hinit fun x _ hx => hx.next x.input

/-! ### The cycle -/

/-- Nothing is accepted in a cycle before its write. -/
theorem last_of_inCycle {b : List Event} (hcycle : InCycle s b)
    (hphase : phase (exec Threads.next s b).pc ≤ 2) :
    (exec Threads.next s b).controller.lastSetpointWasCharge = s.controller.lastSetpointWasCharge := by
  have hkept : phase (exec Threads.next s b).pc ≤ 2 →
      (exec Threads.next s b).controller.lastSetpointWasCharge = s.controller.lastSetpointWasCharge := by
    refine exec_invariant (P := fun t : System => phase t.pc ≤ 2 →
      t.controller.lastSetpointWasCharge = s.controller.lastSetpointWasCharge)
      (fun _ => rfl) fun x hx hp hle => ?_
    have hforward : phase x.before.pc ≤ phase (Threads.next x.before x.input).pc :=
      (next_phase x.before x.input).resolve_left (hcycle x hx)
    have hno : accepted x.before x.input = none := by
      refine accepted_eq_none fun k hpc => ?_
      rw [hpc] at hle
      simp only [phase] at hle
      omega
    rw [last_next hno]
    exact hp (by omega)
  exact hkept hphase

/-- **The write.**  A cycle that forced charging or follows a forced charge has noted it, unless the
window came in between. -/
theorem charge_noted {k : Locals} (hnoted : Noted k s.controller) (hauto : k.pendingManual = none)
    (hno : k.origin ≠ .calculated false false true)
    (hcharge : forcesCharge k.origin = true ∨ s.controller.lastSetpointWasCharge = true) :
    s.controller.calculatedChargeBattery = true := by
  unfold Noted at hnoted
  cases horigin : k.origin with
  | manual =>
    rw [horigin] at hnoted
    exact absurd hauto hnoted
  | held =>
    rw [horigin] at hnoted hcharge
    exact hnoted.trans (hcharge.resolve_left Bool.false_ne_true)
  | calculated requested window last =>
    rw [horigin] at hnoted hcharge hno
    obtain ⟨hlast, hcalculated⟩ := hnoted
    rw [hlast] at hcharge
    rw [hcalculated]
    cases window with
    | true =>
      have hl : last = true := hcharge.resolve_left (by simp [forcesCharge])
      simp [hl]
    | false =>
      cases requested with
      | true => rfl
      | false =>
        have hl : last = true := hcharge.resolve_left Bool.false_ne_true
        exact absurd (by rw [hl]) hno

/-- **Forced charging ends at the window**, in every run in which no write enters it unnoticed. -/
theorem charge_ends (p : Setup) (now : ℚ) (es : List Event)
    (hnoticed : ∀ x ∈ trace Threads.next (Threads.init p now) es, ¬ entersUnnoticed x.before x.input) :
    ChargeEnds (Threads.init p now) es := by
  rintro a b z c rfl - hcycle k hk hcharge
  have hz := hnoticed ⟨exec Threads.next (Threads.init p now) (a ++ b), z⟩
    ((mem_trace Threads.next).mpr ⟨a ++ b, c, by simp, rfl⟩)
  have hnoting := noted_exec p now (a ++ b)
  have hlast : phase (exec Threads.next (Threads.init p now) (a ++ b)).pc ≤ 2 →
      (exec Threads.next (Threads.init p now) (a ++ b)).controller.lastSetpointWasCharge =
        (exec Threads.next (Threads.init p now) a).controller.lastSetpointWasCharge := by
    rw [exec_append]
    exact last_of_inCycle hcycle
  generalize exec Threads.next (Threads.init p now) (a ++ b) = t at hk hz hnoting hlast
  cases z with
  | control i =>
    obtain ⟨haccepted, hkept⟩ := Option.filter_eq_some_iff.mp hk
    obtain ⟨hauto, hwindow⟩ := of_decide_eq_true hkept
    obtain ⟨i', k', current, x, hi, hw, rfl⟩ := accepted_eq_some haccepted
    obtain rfl := Event.control.inj hi
    have hpc := hw.pc
    have hno : k'.origin ≠ .calculated false false true := by
      intro horigin
      refine hz ?_
      simp only [entersUnnoticed, hpc]
      exact ⟨hauto, horigin, hwindow⟩
    have hnoted : Noted k' t.controller := hnoting k' (by rw [hpc]; rfl)
    have hphase : phase t.pc ≤ 2 := by
      rw [hpc]
      exact le_rfl
    rw [← hlast hphase] at hcharge
    have hcalculated := charge_noted hnoted hauto hno hcharge
    have hceiling : touCeiling i.write.tou t.controller = true := by
      simp [touCeiling, hcalculated, hwindow]
    have hvalue : x.1.1 = guardedSetpoint i.write k'.command.1 t.controller :=
      attempt_setpoint hw.attempted hauto
    show x.1.1 ≤ 0
    rw [hvalue, guardedSetpoint, if_pos hceiling]
    exact min_le_left _ _
  | _ => cases hk

/-! ### Runs into the window -/

/-- What the control thread reads at the time `t` when the window becomes active between the
calculation and the write. -/
def enteringInputs (t gt : ℚ) : Inputs :=
  { quietInputs t gt with write := { (quietInputs t gt).write with tou := activeTariff } }

/-- A forced charge of 1980 W is accepted. -/
def charged : List Event :=
  .setControlFlag .chargeBattery true :: quietSteps 3 1 0 ++ quietSteps 13 2 0

/-- The steps of the next cycle up to its write, at which the window is active. -/
def entering : List Event := List.replicate 11 (.control (enteringInputs 3 0))

/-- The flag is still set in the cycle that enters the window. -/
def enteredNoticed : List Event := charged ++ (entering ++ [.control (enteringInputs 3 0)])

theorem charge_ends_noticed : ChargeEnds (Threads.init plainSetup 0) enteredNoticed :=
  charge_ends plainSetup 0 enteredNoticed (by decide +kernel)

/-- The flag is cleared before that cycle. -/
def cleared : List Event := charged ++ [.setControlFlag .chargeBattery false]

/-- 1980 W of the forced charge are written in the window. -/
theorem charge_survives :
    ¬ ChargeEnds (Threads.init plainSetup 0)
      (cleared ++ (entering ++ .control (enteringInputs 3 0) :: [])) := by
  intro h
  have hwritten : (acceptedInWindow (exec Threads.next (Threads.init plainSetup 0) (cleared ++ entering))
      (.control (enteringInputs 3 0))).map (fun k => k.command.1) = some 1980 := by decide +kernel
  obtain ⟨k, hk, hvalue⟩ := Option.map_eq_some_iff.mp hwritten
  have hle := h cleared entering (.control (enteringInputs 3 0))
      [] rfl (by decide +kernel) (by decide +kernel) k hk
    (Or.inr (by decide +kernel))
  omega

end InverterControl.Controller.TouWindow
