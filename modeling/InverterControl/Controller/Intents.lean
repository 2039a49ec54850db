import InverterControl.Controller.Steps

/-!
# Pending one-shot intents

A pending manual setpoint ends with its write.  A pending pre-charge request ends with the
calculation that takes it, before the last checks decide whether the cycle writes at all, and a
second request overwrites the expiry of the first.  So the requests survive the cycles that do not
write, and reach the next calculation, in the runs where every cycle that takes a request attempts
its write and no request shortens a pending one (`intents_survive`).
-/

namespace InverterControl.Controller.Intents

open InverterControl.Lib.Runs InverterControl.Python InverterControl.Logic.Model
open InverterControl.Controller.Model InverterControl.Controller.Threads
open InverterControl.Controller.Steps
open InverterControl.Backup.Model (GridStatus)

variable {s : System} {e : Event}

/-! ### What the steps of a cycle do -/

/-- What the calculator's step reads (`none`: the event is no such step). -/
def calculation (s : System) : Event → Option Readings
  | .control i =>
    match s.pc with
    | .ready _ sys =>
      if s.controller.manualSetpoint = none ∧ ¬ heldSample sys s.controller then some i.readings
      else none
    | _ => none
  | _ => none

/-- The event hands a command to the watchdog. -/
def attemptsWrite (s : System) : Event → Bool
  | .control i =>
    match s.pc with
    | .writing k current => (attempt k current i.write s.controller).isSome
    | _ => false
  | _ => false

/-- The control thread is in a cycle after every event. -/
def InCycle (s : System) (es : List Event) : Prop :=
  ∀ x ∈ trace next s es, (next x.before x.input).pc ≠ .idle

instance (s : System) (es : List Event) : Decidable (InCycle s es) := by
  unfold InCycle; infer_instance

/-- The cycle goes on, without an attempt to write. -/
def InCycleUnwritten (s : System) (es : List Event) : Prop :=
  ∀ x ∈ trace next s es, (next x.before x.input).pc ≠ .idle ∧ attemptsWrite x.before x.input = false

instance (s : System) (es : List Event) : Decidable (InCycleUnwritten s es) := by
  unfold InCycleUnwritten; infer_instance

/-- The cycle ends because the grid is not ready or has changed. -/
def endsAtGrid (s : System) (e : Event) : Prop :=
  (next s e).pc = .idle ∧ (∃ i, e = .control i) ∧
    ((∃ generation g stage, s.pc = .gate (.first generation) g stage) ∨
      (∃ k, s.pc = .calculated k) ∨ ∃ k g stage, s.pc = .gate (.second k) g stage)

/-- An operator's command sets the pending manual setpoint, or ends it. -/
def changesManual (s : System) : Event → Bool
  | .setManualSetpoint _ => true
  | .mqtt .. => s.mqtt = .clearing
  | _ => false

/-- The expensive window is not active at the calculation's readings. -/
def windowInactive (r : Readings) : Prop :=
  inExpensiveWindow r.prechargeTou = false ∧ inExpensiveWindow r.tou = false

instance (r : Readings) : Decidable (windowInactive r) := by unfold windowInactive; infer_instance

/-! ### The property -/

/-- **Pending intents survive the cycles that do not write.**  A cycle goes from `exec next s a` to its
last step `z`, at which the grid is not ready or has changed. -/
def IntentsSurvive (s : System) (es : List Event) : Prop :=
  ∀ a b z c, es = a ++ (b ++ z :: c) → (exec next s a).pc = .idle → InCycle (exec next s a) b →
    endsAtGrid (exec next s (a ++ b)) z →
    (∀ value, (exec next s a).controller.manualSetpoint = some value →
      (∀ x ∈ trace next (exec next s a) (b ++ [z]), changesManual x.before x.input = false) →
      (exec next s (a ++ b ++ [z])).controller.manualSetpoint = some value) ∧
    ((exec next s a).controller.preChargeRequested = true →
      (∀ x ∈ trace next (exec next s a) b, ∀ r ∈ calculation x.before x.input,
        r.wallTime < (exec next s a).controller.preChargeExpiresAt ∧ windowInactive r) →
      (exec next s (a ++ b ++ [z])).controller.preChargeRequested = true)

/-- A later event of the same cycle attempts a write. -/
def WritesLater (s : System) (es : List Event) : Prop :=
  ∃ a z c, es = a ++ z :: c ∧ InCycle s a ∧ attemptsWrite (exec next s a) z = true

/-- **An accepted request forces the charge of the next calculation of a cycle that writes**: of the
calculation `x`, when it was unexpired at every calculation since its acceptance, the window is inactive,
and no calculation in between belongs to a cycle that attempted its write. -/
def RequestsForce (s : System) (es : List Event) : Prop :=
  ∀ a expiresAt b x c, es = a ++ .acceptPrecharge expiresAt :: (b ++ x :: c) → ∀ r,
    calculation (exec next s (a ++ .acceptPrecharge expiresAt :: b)) x = some r →
    windowInactive r → r.wallTime < expiresAt →
    (∀ y ∈ trace next (exec next s (a ++ [.acceptPrecharge expiresAt])) b,
      ∀ r' ∈ calculation y.before y.input, r'.wallTime < expiresAt) →
    (∀ b1 y b2, b = b1 ++ y :: b2 →
      calculation (exec next s (a ++ .acceptPrecharge expiresAt :: b1)) y ≠ none →
      ¬ WritesLater (exec next s (a ++ .acceptPrecharge expiresAt :: (b1 ++ [y]))) b2) →
    chargeRequested r (exec next s (a ++ .acceptPrecharge expiresAt :: b)).controller = true

/-! ### The condition -/

/-- The calculation takes a request that has not expired. -/
def takesRequest (s : System) (e : Event) : Prop :=
  s.controller.preChargeRequested = true ∧
    ∃ r ∈ calculation s e, r.wallTime < s.controller.preChargeExpiresAt

instance (s : System) (e : Event) : Decidable (takesRequest s e) := by
  unfold takesRequest; infer_instance

/-- Every cycle that takes a request attempts to write before it ends. -/
def TakenToWrite (s : System) (es : List Event) : Prop :=
  ∀ a u d, es = a ++ u :: d → takesRequest (exec next s a) u →
    ∀ b z c, d = b ++ z :: c → InCycleUnwritten (next (exec next s a) u) b →
      (next (exec next (next (exec next s a) u) b) z).pc = .idle →
      attemptsWrite (exec next (next (exec next s a) u) b) z = true

instance (s : System) (es : List Event) : Decidable (TakenToWrite s es) := by
  unfold TakenToWrite; infer_instance

/-- A second request shortens the one that is pending. -/
def shortens (s : System) : Event → Prop
  | .acceptPrecharge expiresAt =>
    s.controller.preChargeRequested = true ∧ expiresAt < s.controller.preChargeExpiresAt
  | _ => False

instance (s : System) (e : Event) : Decidable (shortens s e) := by
  unfold shortens
  split <;> infer_instance

/-! ### A pending request -/

/-- A request is pending, and stays so until `expiresAt` at least. -/
structure Pending (expiresAt : ℚ) (s : System) : Prop where
  requested : s.controller.preChargeRequested = true
  expiry : expiresAt ≤ s.controller.preChargeExpiresAt

variable {expiresAt : ℚ}

theorem Pending.of_core {s' : System} (h : Pending expiresAt s)
    (hr : (core s'.controller).preChargeRequested = s.controller.preChargeRequested)
    (he : (core s'.controller).preChargeExpiresAt = s.controller.preChargeExpiresAt) :
    Pending expiresAt s' := ⟨hr.trans h.requested, h.expiry.trans_eq he.symm⟩

/-- The control thread only takes a request in a calculation. -/
theorem Pending.stepControl (h : Pending expiresAt s) (i : Inputs)
    (hc : calculation s (.control i) = none) : Pending expiresAt (stepControl i s).1 := by
  cases hq : isQuiet s.pc with
  | true =>
    obtain ⟨watchdog, previous, hcore⟩ := stepControl_quiet (i := i) hq
    exact h.of_core (by rw [hcore]; rfl) (by rw [hcore]; rfl)
  | false =>
    unfold Threads.stepControl
    cases hpc : s.pc with
    | ready generation sys =>
      simp only [calculation, hpc] at hc
      simp only [Threads.calculate, calculateSetpoint]
      split
      · exact ⟨h.requested, h.expiry⟩
      · next hmanual =>
        split_ifs with hheld
        · exact ⟨h.requested, h.expiry⟩
        · rw [if_pos ⟨hmanual, hheld⟩] at hc
          cases hc
    | writing k current =>
      obtain ⟨watchdog, previous, charge, last, hcore⟩ := write_core k current i.write s
      exact h.of_core (by simp only [hcore]; rfl) (by simp only [hcore]; rfl)
    | written k ok =>
      simp only [finish]
      split_ifs <;> exact ⟨h.requested, h.expiry⟩
    | _ => rw [hpc] at hq; cases hq

/-- A pending request survives every event that neither takes nor shortens it. -/
theorem Pending.next (h : Pending expiresAt s) (hc : calculation s e = none)
    (hshort : ¬ shortens s e) : Pending expiresAt (Threads.next s e) := by
  cases e with
  | control i => exact h.stepControl i hc
  | abort =>
    simp only [Threads.next, perform, abort]
    cases s.pc <;> exact ⟨h.requested, h.expiry⟩
  | watchdog op env => exact ⟨h.requested, h.expiry⟩
  | mqtt arg requestId env =>
    simp only [Threads.next, perform, stepMqtt]
    cases s.mqtt with
    | idle => exact ⟨h.requested, h.expiry⟩
    | clearing => exact ⟨h.requested, h.expiry⟩
    | updating =>
      obtain ⟨previous, hcore⟩ := updateGridLossState_core s.controller
      exact h.of_core (by simp only [hcore]; rfl) (by simp only [hcore]; rfl)
  | setControlFlag key value => exact ⟨h.requested, h.expiry⟩
  | setPowerLimits min max =>
    simp only [Threads.next, perform, stepSetter, setPowerLimits]
    split_ifs <;> exact ⟨h.requested, h.expiry⟩
  | setDryRun enabled => exact ⟨h.requested, h.expiry⟩
  | setManualSetpoint value => exact ⟨h.requested, h.expiry⟩
  | acceptPrecharge later =>
    refine ⟨rfl, ?_⟩
    have : ¬ later < s.controller.preChargeExpiresAt := fun hlt => hshort ⟨h.requested, hlt⟩
    exact h.expiry.trans (not_lt.mp this)
  | selectEssMode =>
    simp only [Threads.next, perform, stepSetter, selectEssMode]
    split_ifs <;> exact ⟨h.requested, h.expiry⟩

/-- A calculation before `expiresAt` takes the pending request. -/
theorem Pending.takes (h : Pending expiresAt s) {r : Readings} (hc : calculation s e = some r)
    (hlt : r.wallTime < expiresAt) : takesRequest s e :=
  ⟨h.requested, r, hc, lt_of_lt_of_le hlt h.expiry⟩

/-- A pending request survives a run of which no step takes it, when it is unexpired at every
calculation. -/
theorem Pending.exec (h : Pending expiresAt s) {es : List Event}
    (hshort : ∀ x ∈ trace Threads.next s es, ¬ shortens x.before x.input)
    (htaken : ∀ x ∈ trace Threads.next s es, ¬ takesRequest x.before x.input)
    (hlive : ∀ x ∈ trace Threads.next s es, ∀ r ∈ calculation x.before x.input,
      r.wallTime < expiresAt) : Pending expiresAt (exec Threads.next s es) := by
  refine exec_invariant h fun x hx hp => hp.next ?_ (hshort x hx)
  cases hc : calculation x.before x.input with
  | none => rfl
  | some r => exact absurd (hp.takes hc (hlive x hx r hc)) (htaken x hx)

/-! ### The phases of a cycle -/

def callerPhase : Caller → ℕ
  | .second _ => 2
  | _ => 1

/-- A cycle has not begun, reads, has calculated, has written. -/
def phase : ControlPc → ℕ
  | .idle => 0
  | .gate caller _ _ => callerPhase caller
  | .trimming .. | .calculated _ | .writing .. => 2
  | .written .. | .finalUpdate => 3
  | _ => 1

theorem answerGate_phase (caller : Caller) (g : GridStatus) (ready : Bool) (c : InverterController)
    (s : System) : (answerGate caller g ready c s).pc = .idle ∨
      callerPhase caller ≤ phase (answerGate caller g ready c s).pc := by
  cases caller with
  | override => exact Or.inr le_rfl
  | first generation =>
    cases ready
    · exact Or.inl rfl
    · exact Or.inr le_rfl
  | second k =>
    cases ready
    · exact Or.inl rfl
    · exact Or.inr le_rfl

theorem stepGate_phase (caller : Caller) (g : GridStatus) (stage : GateStage)
    (env : Watchdog.Model.Env) (s : System) : (stepGate caller g stage env s).1.pc = .idle ∨
      callerPhase caller ≤ phase (stepGate caller g stage env s).1.pc := by
  cases stage with
  | start =>
    simp only [stepGate, startGate]
    split_ifs
    · exact Or.inr le_rfl
    · simp only [checkSelection]
      split_ifs
      · exact answerGate_phase _ _ _ _ _
      · exact Or.inr le_rfl
  | readTriggered =>
    simp only [stepGate]
    split_ifs
    · exact Or.inr le_rfl
    · exact Or.inr le_rfl
  | checkInvalid => exact Or.inr le_rfl
  | checkTriggered => exact Or.inr le_rfl
  | update ready => exact answerGate_phase _ _ _ _ _

theorem stepControl_phase (i : Inputs) (s : System) : (stepControl i s).1.pc = .idle ∨
    phase s.pc ≤ phase (stepControl i s).1.pc := by
  unfold stepControl
  cases hpc : s.pc with
  | idle => exact Or.inr (Nat.zero_le _)
  | begun generation =>
    simp only [readSystem]
    split_ifs
    · exact Or.inr le_rfl
    · exact Or.inr le_rfl
  | gate caller g stage => exact stepGate_phase caller g stage i.env s
  | overrideCheck => exact Or.inr le_rfl
  | overrideUpdate => exact Or.inl rfl
  | ready generation sys =>
    simp only [Threads.calculate, calculateSetpoint]
    right
    split
    · exact Nat.le_succ 1
    · split_ifs
      · exact Nat.le_succ 1
      · exact Nat.le_succ 1
  | trimming k chargeBattery result =>
    simp only [applyTrim]
    split
    · exact Or.inl rfl
    · exact Or.inr le_rfl
  | calculated k =>
    simp only [readGrid]
    split_ifs
    · exact Or.inl rfl
    · exact Or.inr le_rfl
  | writing k current =>
    simp only
    cases write_cases k current i.write s with
    | notReady c hx hcore h => rw [h]; exact Or.inl rfl
    | accepted x hx hr h => rw [h]; exact Or.inr (Nat.le_succ 2)
    | refused x hx hr h => rw [h]; exact Or.inr (Nat.le_succ 2)
    | raised x hx hr h => rw [h]; exact Or.inl rfl
  | written k ok =>
    simp only [finish]
    split_ifs
    · exact Or.inr le_rfl
    · exact Or.inl rfl
    · exact Or.inl rfl
  | finalUpdate => exact Or.inl rfl

/-- **A cycle does not go back** to an earlier phase before it ends. -/
theorem next_phase (s : System) (e : Event) :
    (next s e).pc = .idle ∨ phase s.pc ≤ phase (next s e).pc := by
  cases e with
  | control i => exact stepControl_phase i s
  | abort =>
    simp only [Threads.next, perform, abort]
    split
    · exact Or.inr le_rfl
    · exact Or.inl rfl
  | mqtt arg requestId env =>
    right
    simp only [Threads.next, perform, stepMqtt]
    cases s.mqtt <;> exact le_rfl
  | _ => exact Or.inr le_rfl

theorem phase_exec (es : List Event) (h : InCycle s es) : phase s.pc ≤ phase (exec next s es).pc := by
  refine exec_invariant (P := fun t : System => phase s.pc ≤ phase t.pc) le_rfl fun x hx hp => ?_
  rcases next_phase x.before x.input with hidle | hle
  · exact absurd hidle (h x hx)
  · exact hp.trans hle

theorem InCycleUnwritten.inCycle {es : List Event} (h : InCycleUnwritten s es) : InCycle s es :=
  fun x hx => (h x hx).1

/-- A calculation is in its phase, and leaves it. -/
theorem calculation_phase {r : Readings} (h : calculation s e = some r) :
    phase s.pc = 1 ∧ phase (next s e).pc = 2 := by
  cases e with
  | control i =>
    simp only [calculation] at h
    split at h
    · next generation sys hpc =>
      split_ifs at h with hcond
      refine ⟨by rw [hpc]; rfl, ?_⟩
      simp only [next, perform, stepControl, hpc, Threads.calculate, hcond.1, calculateSetpoint]
      rw [if_neg (show ¬ heldSample sys (forgetDecision s.controller) from hcond.2)]
      rfl
    · cases h
  | _ => cases h

/-- After an attempt to write the cycle has ended or has written. -/
theorem attemptsWrite_phase (h : attemptsWrite s e = true) :
    (next s e).pc = .idle ∨ phase (next s e).pc = 3 := by
  cases e with
  | control i =>
    simp only [attemptsWrite] at h
    split at h
    · next k current hpc =>
      simp only [next, perform, stepControl, hpc]
      cases write_cases k current i.write s with
      | notReady c hx hcore heq => rw [heq]; exact Or.inl rfl
      | accepted x hx hr heq => rw [heq]; exact Or.inr rfl
      | refused x hx hr heq => rw [heq]; exact Or.inr rfl
      | raised x hx hr heq => rw [heq]; exact Or.inl rfl
    · cases h
  | _ => cases h

theorem endsAtGrid_phase (h : endsAtGrid s e) : phase s.pc ≤ 2 ∧ attemptsWrite s e = false ∧
    ∀ k ok, s.pc ≠ .written k ok := by
  obtain ⟨-, ⟨i, rfl⟩, ⟨generation, g, stage, hpc⟩ | ⟨k, hpc⟩ | ⟨k, g, stage, hpc⟩⟩ := h
  · exact ⟨by rw [hpc]; exact Nat.le_succ 1, by simp [attemptsWrite, hpc], by simp [hpc]⟩
  · exact ⟨by rw [hpc]; exact le_rfl, by simp [attemptsWrite, hpc], by simp [hpc]⟩
  · exact ⟨by rw [hpc]; exact le_rfl, by simp [attemptsWrite, hpc], by simp [hpc]⟩

/-! ### The theorem -/

/-- In a cycle that ends at the grid nothing is written. -/
theorem unwritten_of_endsAtGrid {es : List Event} (h : InCycle s es)
    (hz : endsAtGrid (exec next s es) e) : InCycleUnwritten s es := by
  intro x hx
  refine ⟨h x hx, ?_⟩
  by_contra hw
  rw [Bool.not_eq_false] at hw
  obtain ⟨a, b, rfl, hb⟩ := (mem_trace next).mp hx
  rcases attemptsWrite_phase hw with hidle | hphase
  · exact h x hx hidle
  · have hrest : InCycle (next x.before x.input) b := by
      intro y hy
      refine h y ?_
      rw [trace_append, ← hb]
      exact List.mem_append_right _ (List.mem_cons_of_mem _ hy)
    have hle := phase_exec _ hrest
    rw [hphase] at hle
    rw [exec_append, exec_cons, ← hb] at hz
    have := (endsAtGrid_phase hz).1
    omega

/-- A cycle that takes a request and ends at the grid is one that does not attempt its write. -/
theorem not_takes_of_endsAtGrid {a b c : List Event} {z : Event}
    (h : TakenToWrite s (a ++ (b ++ z :: c))) (hcycle : InCycle (exec next s a) b)
    (hz : endsAtGrid (exec next s (a ++ b)) z) :
    ∀ x ∈ trace next (exec next s a) b, ¬ takesRequest x.before x.input := by
  intro x hx htakes
  obtain ⟨b1, b2, rfl, hb⟩ := (mem_trace next).mp hx
  rw [exec_append] at hz
  have hunwritten := unwritten_of_endsAtGrid hcycle hz
  have hbefore : exec next s (a ++ b1) = x.before := by rw [exec_append, hb]
  have hend : exec next (exec next s a) (b1 ++ x.input :: b2) =
      exec next (next x.before x.input) b2 := by rw [exec_append, exec_cons, ← hb]
  have hattempt := h (a ++ b1) x.input (b2 ++ z :: c) (by simp) (by rw [hbefore]; exact htakes)
    b2 z c rfl
  rw [hbefore, ← hend] at hattempt
  refine absurd (hattempt (fun y hy => hunwritten y ?_) hz.1) ?_
  · rw [trace_append, ← hb]
    exact List.mem_append_right _ (List.mem_cons_of_mem _ hy)
  · rw [(endsAtGrid_phase hz).2.1]
    exact Bool.false_ne_true

/-- A step of a cycle that does not end with a write leaves the manual setpoint to the operator. -/
theorem manual_next {value : ℤ} (h : s.controller.manualSetpoint = some value)
    (hchange : changesManual s e = false)
    (hstay : (next s e).pc ≠ .idle ∨ ∀ k ok, s.pc ≠ .written k ok) :
    (next s e).controller.manualSetpoint = some value := by
  cases e with
  | control i =>
    rcases stepControl_manual i s with h' | ⟨-, hidle, k, ok, hpc⟩
    · exact h'.trans h
    · rcases hstay with hstay | hstay
      · exact absurd hidle hstay
      · exact absurd hpc (hstay k ok)
  | abort =>
    simp only [Threads.next, perform, abort]
    cases s.pc <;> exact h
  | watchdog op env => exact h
  | mqtt arg requestId env =>
    simp only [Threads.next, perform, stepMqtt]
    cases hm : s.mqtt with
    | idle => exact h
    | clearing => simp [changesManual, hm] at hchange
    | updating =>
      obtain ⟨previous, hcore⟩ := updateGridLossState_core s.controller
      exact (congrArg Core.manualSetpoint hcore).trans h
  | setControlFlag key value => exact h
  | setPowerLimits min max =>
    simp only [Threads.next, perform, stepSetter, setPowerLimits]
    split_ifs <;> exact h
  | setDryRun enabled => exact h
  | setManualSetpoint value => cases hchange
  | acceptPrecharge expiresAt => exact h
  | selectEssMode =>
    simp only [Threads.next, perform, stepSetter, selectEssMode]
    split_ifs <;> exact h

/-- A calculation that took a request belongs to a cycle that attempts its write before the next
calculation. -/
theorem writesLater_of_takes {a b c : List Event} {u x : Event} {r : Readings}
    (h : TakenToWrite s (a ++ u :: (b ++ x :: c))) (htakes : takesRequest (exec next s a) u)
    (hx : calculation (exec next s (a ++ u :: b)) x = some r) :
    WritesLater (exec next s (a ++ [u])) b := by
  obtain ⟨-, r', hr', -⟩ := id htakes
  have hstart : phase (next (exec next s a) u).pc = 2 := (calculation_phase hr').2
  rw [exec_append, exec_cons] at hx
  have hend : phase (exec next (next (exec next s a) u) b).pc = 1 := (calculation_phase hx).1
  have hfirst : ∃ y ∈ trace next (next (exec next s a) u) b,
      (next y.before y.input).pc = .idle ∨ attemptsWrite y.before y.input = true := by
    by_contra hnone
    push Not at hnone
    have hle := phase_exec (s := next (exec next s a) u) b fun y hy => (hnone y hy).1
    omega
  obtain ⟨d, z, f, rfl, hz, hbefore⟩ := exists_first hfirst
  rw [exec_snoc]
  have hunwritten : InCycleUnwritten (next (exec next s a) u) d := fun y hy => by
    have := hbefore y hy
    push Not at this
    exact ⟨this.1, by simpa using this.2⟩
  refine ⟨d, z, f, rfl, hunwritten.inCycle, ?_⟩
  rcases hz with hidle | hz
  · exact h a u _ rfl htakes d z (f ++ x :: c) (by simp) hunwritten hidle
  · exact hz

/-- **Intents survive.**  In every run in which every cycle that takes a request attempts its write, and
no request shortens a pending one, the intents survive the cycles that do not write, and an accepted
request forces the next calculation that counts. -/
theorem intents_survive (p : Setup) (now : ℚ) (es : List Event)
    (htaken : TakenToWrite (Threads.init p now) es)
    (hshort : ∀ x ∈ trace next (Threads.init p now) es, ¬ shortens x.before x.input) :
    IntentsSurvive (Threads.init p now) es ∧ RequestsForce (Threads.init p now) es := by
  constructor
  · rintro a b z c rfl - hcycle hz
    have hz' := hz
    rw [exec_append] at hz'
    have hsnoc : exec next (Threads.init p now) (a ++ b ++ [z]) =
        next (exec next (exec next (Threads.init p now) a) b) z := by rw [exec_snoc, exec_append]
    constructor
    · intro value hvalue hchange
      rw [hsnoc]
      have hb : (exec next (exec next (Threads.init p now) a) b).controller.manualSetpoint =
          some value := by
        refine exec_invariant (P := fun t : System => t.controller.manualSetpoint = some value) hvalue
          fun x hx hv => manual_next hv (hchange x ?_) (Or.inl (hcycle x hx))
        rw [trace_snoc]
        exact List.mem_append_left _ hx
      refine manual_next hb (hchange ⟨_, z⟩ ?_) (Or.inr (endsAtGrid_phase hz').2.2)
      rw [trace_snoc]
      exact List.mem_append_right _ (List.mem_singleton.mpr rfl)
    · intro hrequested hlive
      rw [hsnoc]
      have hpending : Pending (exec next (Threads.init p now) a).controller.preChargeExpiresAt
          (exec next (exec next (Threads.init p now) a) b) := by
        refine Pending.exec ⟨hrequested, le_rfl⟩ (fun x hx => hshort x ?_)
          (not_takes_of_endsAtGrid htaken hcycle hz) fun x hx r hr => (hlive x hx r hr).1
        rw [trace_append, trace_append]
        exact List.mem_append_right _ (List.mem_append_left _ hx)
      refine (hpending.next ?_ (hshort ⟨_, z⟩ ?_)).requested
      · obtain ⟨-, ⟨i, rfl⟩, ⟨generation, g, stage, hpc⟩ | ⟨k, hpc⟩ | ⟨k, g, stage, hpc⟩⟩ := hz'
        · simp [calculation, hpc]
        · simp [calculation, hpc]
        · simp [calculation, hpc]
      · rw [trace_append, trace_append]
        refine List.mem_append_right _ (List.mem_append_right _ ?_)
        exact List.mem_cons_self
  · rintro a expiresAt b x c rfl r hx ⟨hwindow, -⟩ hlt hlive hnone
    have hpending : Pending expiresAt (exec next (Threads.init p now)
        (a ++ .acceptPrecharge expiresAt :: b)) := by
      rw [exec_append, exec_cons]
      have hstart : Pending expiresAt (next (exec next (Threads.init p now) a)
          (.acceptPrecharge expiresAt)) := ⟨rfl, le_rfl⟩
      have hstate : exec next (Threads.init p now) (a ++ [.acceptPrecharge expiresAt]) =
          next (exec next (Threads.init p now) a) (.acceptPrecharge expiresAt) := exec_snoc _ _ _ _
      rw [hstate] at hlive
      refine hstart.exec (fun y hy => hshort y ?_) (fun y hy htakes => ?_) hlive
      · rw [trace_append, trace_cons, trace_append]
        exact List.mem_append_right _ (List.mem_cons_of_mem _ (List.mem_append_left _ hy))
      · obtain ⟨b1, b2, rfl, hb⟩ := (mem_trace next).mp hy
        have hbefore : exec next (Threads.init p now) (a ++ .acceptPrecharge expiresAt :: b1) =
            y.before := by rw [exec_append, exec_cons, hb]
        refine hnone b1 y.input b2 rfl ?_ ?_
        · obtain ⟨-, r', hr', -⟩ := htakes
          rw [hbefore, hr']
          exact Option.some_ne_none r'
        · have hw := writesLater_of_takes (s := Threads.init p now)
            (a := a ++ .acceptPrecharge expiresAt :: b1) (u := y.input) (b := b2) (c := c) (x := x)
            (r := r) (by simpa using htaken) (by rw [hbefore]; exact htakes) (by simpa using hx)
          simpa using hw
    unfold chargeRequested prechargeDue
    have hexpiry : r.wallTime < (exec next (Threads.init p now)
        (a ++ .acceptPrecharge expiresAt :: b)).controller.preChargeExpiresAt :=
      lt_of_lt_of_le hlt hpending.expiry
    simp [hpending.requested, hexpiry, hwindow]

/-- A request is accepted, and the next cycle takes it and writes. -/
def requestWritten : List Event :=
  .acceptPrecharge 400 :: quietSteps 3 100 0 ++ quietSteps 13 101 0

theorem intents_survive_written :
    IntentsSurvive (Threads.init plainSetup 0) requestWritten ∧
      RequestsForce (Threads.init plainSetup 0) requestWritten :=
  intents_survive plainSetup 0 requestWritten (by decide +kernel) (by decide +kernel)

/-- What the control thread reads when another source is selected after the calculation. -/
def sourceEdge : Inputs :=
  { quietInputs 102 0 with grid := { primaryGrid 102 0 with selectionGeneration := 2 } }

/-- The source changes after the calculation has taken a request. -/
def requestLost : List Event :=
  (.acceptPrecharge 400 :: quietSteps 3 100 0) ++ (quietSteps 7 101 0 ++ .control sourceEdge :: [])

/-- A request until 400 s is followed by one until 150 s, and the next calculation is at 161 s. -/
def requestShortened : List Event :=
  [] ++ .acceptPrecharge 400 :: ((.acceptPrecharge 150 :: quietSteps 3 160 0 ++ quietSteps 5 161 0) ++
    .control (quietInputs 161 0) :: [])

/-- A cycle that does not write loses a request, and a later request ends the earlier one. -/
theorem request_lost : ¬ IntentsSurvive (Threads.init plainSetup 0) requestLost ∧
    ¬ RequestsForce (Threads.init plainSetup 0) requestShortened := by
  constructor
  · intro h
    have hpc : (cycleOf (exec next (Threads.init plainSetup 0)
        ((.acceptPrecharge 400 :: quietSteps 3 100 0) ++ quietSteps 7 101 0)).pc).map
          ControlPc.calculated = some (exec next (Threads.init plainSetup 0)
        ((.acceptPrecharge 400 :: quietSteps 3 100 0) ++ quietSteps 7 101 0)).pc := by
      decide +kernel
    obtain ⟨k, -, hk⟩ := Option.map_eq_some_iff.mp hpc
    obtain ⟨-, hkept⟩ := h (.acceptPrecharge 400 :: quietSteps 3 100 0) (quietSteps 7 101 0)
      (.control sourceEdge) [] rfl (by decide +kernel) (by decide +kernel)
      ⟨by decide +kernel, ⟨_, rfl⟩, Or.inr (Or.inl ⟨k, hk.symm⟩)⟩
    exact absurd (hkept (by decide +kernel) (by decide +kernel)) (by decide +kernel)
  · intro h
    have hforced := h [] 400 (.acceptPrecharge 150 :: quietSteps 3 160 0 ++ quietSteps 5 161 0)
      (.control (quietInputs 161 0)) [] rfl (quietInputs 161 0).readings (by decide +kernel)
      (by decide +kernel) (by decide +kernel) (by decide +kernel) ?_
    · exact absurd hforced (by decide +kernel)
    · intro b1 y b2 hb hcalc
      have hnone : ∀ x ∈ trace next (next (Threads.init plainSetup 0) (.acceptPrecharge 400))
          (.acceptPrecharge 150 :: quietSteps 3 160 0 ++ quietSteps 5 161 0),
          calculation x.before x.input = none := by decide +kernel
      exact absurd (hnone ⟨_, y⟩ ((mem_trace next).mpr ⟨b1, b2, hb, rfl⟩)) hcalc

end InverterControl.Controller.Intents
