import InverterControl.Controller.Steps
import InverterControl.Trim.Accounting

/-!
# The trim of the controller

Every event goes on with the trim by its own calls: it resets the trim, asks it for a proposal or
commits a decision.  So a run of the system is a run of the trim, whose commits are those of the
accepted writes (`reaches_exec`): what holds of the trim between its calls holds in the system
(`trim_exec`), and no decision is committed twice (`committed_nodup`).
-/

namespace InverterControl.Controller.Trims

open InverterControl.Lib.Runs InverterControl.Python InverterControl.Logic.Model
open InverterControl.Controller.Model InverterControl.Controller.Threads
open InverterControl.Controller.Steps
open InverterControl.Backup.Model (GridStatus)
open InverterControl.Trim.Model (Call Handle Issued Proposal SubmeterTrim commits)
open InverterControl.Trim.Steps (Sound)
open InverterControl.Trim.Accounting (committed committedIds)
open InverterControl.Watchdog.Model (Env)

/-! ### Runs of the trim -/

/-- Calls lead from the trim `t` to `t'`, and commit the objects `ids`. -/
def Reaches (ids : List ℕ) (t t' : SubmeterTrim) : Prop :=
  ∃ cs, exec Trim.Model.next t cs = t' ∧ committedIds (trace Trim.Model.next t cs) = ids

variable {ids ids' : List ℕ} {t t' t'' : SubmeterTrim}

theorem Reaches.refl (t : SubmeterTrim) : Reaches [] t t := ⟨[], rfl, rfl⟩

theorem Reaches.trans (h : Reaches ids t t') (h' : Reaches ids' t' t'') :
    Reaches (ids ++ ids') t t'' := by
  obtain ⟨cs, rfl, rfl⟩ := h
  obtain ⟨cs', rfl, rfl⟩ := h'
  refine ⟨cs ++ cs', exec_append _ _ _ _, ?_⟩
  rw [trace_append]
  exact List.filterMap_append

theorem reaches_call (c : Call) (t : SubmeterTrim) :
    Reaches ((committed t c).map (·.id)).toList t (Trim.Model.next t c) := by
  refine ⟨[c], rfl, ?_⟩
  cases h : committed t c <;> simp [committedIds, h]

theorem reaches_reset (reason : String) (t : SubmeterTrim) : Reaches [] t (Trim.Model.reset reason t) :=
  reaches_call (.reset reason) t

theorem reaches_propose (a : Proposal) (t : SubmeterTrim) : Reaches [] t (Trim.Model.propose a t).2 :=
  reaches_call (.propose a) t

theorem Reaches.sound (h : Reaches ids t t') (hs : Sound t) : Sound t' := by
  obtain ⟨cs, rfl, -⟩ := h
  exact hs.exec cs

/-! ### The cycle -/

variable {s : System} {c c' c'' : InverterController} {e : Event}

/-- The trim of the controller goes on by calls that commit nothing. -/
abbrev Uncommitted (c c' : InverterController) : Prop := Reaches [] c.submeterTrim c'.submeterTrim

theorem Reaches.after (h : Uncommitted c c') (h' : Uncommitted c' c'') : Uncommitted c c'' := h.trans h'

/-- The trim of the controller stays as it is, or is reset. -/
def Resets (c c' : InverterController) : Prop :=
  c'.submeterTrim = c.submeterTrim ∨ ∃ reason, c'.submeterTrim = Trim.Model.reset reason c.submeterTrim

theorem resets_of_eq (h : c'.submeterTrim = c.submeterTrim) : Resets c c' := Or.inl h

theorem resets_reset (reason : String) (c : InverterController) :
    Resets c (resetSubmeterTrim reason c) :=
  Or.inr ⟨reason, rfl⟩

theorem Resets.trans (h : Resets c c') (h' : Resets c' c'') : Resets c c'' := by
  rcases h with h | ⟨reason, h⟩ <;> rcases h' with h' | ⟨reason', h'⟩
  · exact Or.inl (h'.trans h)
  · exact Or.inr ⟨reason', by rw [h', h]⟩
  · exact Or.inr ⟨reason, by rw [h', h]⟩
  · exact Or.inr ⟨reason', by rw [h', h]; rfl⟩

theorem Resets.uncommitted (h : Resets c c') : Uncommitted c c' := by
  unfold Uncommitted
  rcases h with h | ⟨reason, h⟩
  · rw [h]
    exact Reaches.refl _
  · rw [h]
    exact reaches_reset reason c.submeterTrim

theorem resets_noteGeneration (c : InverterController) : Resets c (noteGeneration c) := by
  unfold noteGeneration
  split_ifs
  · exact resets_reset _ c
  · exact resets_of_eq rfl

theorem resets_noteInvalid (c : InverterController) : Resets c (noteInvalid c) := by
  unfold noteInvalid
  split_ifs <;> exact resets_of_eq rfl

theorem resets_updateGridLossState (c : InverterController) : Resets c (updateGridLossState c) := by
  unfold updateGridLossState
  split
  · exact resets_of_eq rfl
  · split_ifs <;> exact resets_of_eq rfl

theorem resets_checkSelection (caller : Caller) (g : GridStatus) (c : InverterController) (s : System) :
    Resets c (checkSelection caller g c s).controller := by
  unfold checkSelection
  split_ifs
  · rw [answerGate_controller]
    exact resets_reset _ c
  · exact resets_of_eq rfl

theorem resets_stepGate (caller : Caller) (g : GridStatus) (stage : GateStage) (env : Env) (s : System) :
    Resets s.controller (stepGate caller g stage env s).1.controller := by
  cases stage with
  | start =>
    simp only [stepGate, startGate]
    split_ifs
    · exact resets_reset _ s.controller
    · exact resets_checkSelection caller g
        (stepWatchdog Watchdog.Model.markDbusUpdate env s.controller).1 s
  | readTriggered =>
    simp only [stepGate]
    split_ifs
    · exact resets_reset _ s.controller
    · exact resets_of_eq rfl
  | checkInvalid =>
    exact resets_noteInvalid (stepWatchdog Watchdog.Model.checkGridLoss env s.controller).1
  | checkTriggered => exact resets_of_eq rfl
  | update ready =>
    simp only [stepGate, answerGate_controller]
    exact resets_updateGridLossState _

theorem resets_calculate (generation : ℕ) (sys : GridStatus) (r : Readings) (s : System) :
    Resets s.controller (Threads.calculate generation sys r s).controller := by
  unfold Threads.calculate
  split
  · exact resets_reset _ s.controller
  · unfold calculateSetpoint
    split_ifs
    · exact resets_reset _ s.controller
    · exact resets_of_eq rfl

/-! ### The trim's own steps -/

theorem resets_noteTrimMode (c : InverterController) : Resets c (noteTrimMode c) := by
  unfold noteTrimMode
  split_ifs
  · exact resets_reset _ c
  · exact resets_of_eq rfl

theorem resets_adoptTrim (i : Issued) (g : GridStatus) (result : ControlResult)
    (c : InverterController) :
    Resets c (adoptTrim i g result c).2 := by
  unfold adoptTrim
  split
  · exact resets_reset _ c
  · split
    · exact resets_reset _ c
    · exact resets_of_eq rfl

theorem uncommitted_applySubmeterTrim (x : TrimReadings) (g : GridStatus) (chargeBattery : Bool)
    (result : ControlResult) (c : InverterController) :
    Uncommitted c (applySubmeterTrim x g chargeBattery result c).2 := by
  unfold applySubmeterTrim
  split_ifs
  · exact (resets_of_eq rfl).uncommitted
  · have hnoted := (resets_noteTrimMode c).uncommitted
    have hproposed : Reaches [] (noteTrimMode c).submeterTrim
        (proposeTrim x g chargeBattery result (noteTrimMode c)).2 := reaches_propose _ _
    unfold applyNotedTrim
    split
    · next heq =>
      rw [heq] at hproposed
      exact hnoted.trans hproposed
    · next i trim heq =>
      rw [heq] at hproposed
      have hadopted :=
          (resets_adoptTrim i g result { noteTrimMode c with submeterTrim := trim }).uncommitted
      exact (hnoted.trans hproposed).trans hadopted

theorem uncommitted_applyTrim (k : Locals) (chargeBattery : Bool) (result : ControlResult)
    (x : TrimReadings)
    (s : System) : Uncommitted s.controller (applyTrim k chargeBattery result x s).controller := by
  have happlied := uncommitted_applySubmeterTrim x k.sys chargeBattery result s.controller
  unfold applyTrim
  split
  · next c heq =>
    rw [heq] at happlied
    exact happlied.after (resets_reset _ c).uncommitted
  · next heq =>
    rw [heq] at happlied
    exact happlied

theorem uncommitted_trimWriteReady (x : TrimReadings) (g : GridStatus) (c : InverterController) :
    Uncommitted c (trimWriteReady x g c).2 := by
  unfold trimWriteReady
  split
  · exact (resets_of_eq rfl).uncommitted
  · split_ifs
    · exact (resets_of_eq rfl).uncommitted
    · exact reaches_propose _ _
    · exact (resets_of_eq rfl).uncommitted

theorem resets_checkCommand (automatic : Bool) (w : WriteReadings) (command : Command)
    (c : InverterController) :
    Resets c (checkCommand automatic w command c).2 := by
  have hbound : Resets c (boundSetpoint command c).2 := by
    unfold boundSetpoint
    simp only
    split_ifs
    · exact resets_reset _ c
    · exact resets_of_eq rfl
  unfold checkCommand guardCommand
  split_ifs
  · have hev :
      Resets c (guardEv w.evPower (boundSetpoint command c).1 (boundSetpoint command c).2).2 := by
      unfold guardEv
      simp only
      split_ifs
      · exact hbound.trans (resets_reset _ _)
      · exact hbound
    unfold guardTouCharge
    split
    · exact hev
    · exact hev.trans (Or.inr ⟨"tou_changed_before_write", rfl⟩)
  · exact hbound

theorem uncommitted_attempt {k : Locals} {current : GridStatus} {w : WriteReadings}
    {x : Command × InverterController}
    (h : attempt k current w c = some x) : Uncommitted c x.2 := by
  rw [(attempt_eq h).2]
  exact (uncommitted_trimWriteReady w.trim current c).after
    (resets_checkCommand _ w k.command _).uncommitted

/-! ### Commits -/

/-- The decision that the accept callback commits. -/
def committedDecision (w : WriteReadings) (c : InverterController) : Option Issued :=
  c.trimDecision.bind fun i =>
    committed c.submeterTrim (.commit (.decision i.id) (.float w.commitMonotonic) (.float w.commitWall))

/-- The decision that an accepted write commits. -/
def committedIn (s : System) : Event → Option Issued
  | .control i =>
    match s.pc with
    | .writing k current =>
      match attempt k current i.write s.controller with
      | some x =>
        if (answer k i.write x.1.1 s.controller).2 = .accepted then committedDecision i.write x.2
          else none
      | none => none
    | _ => none
  | _ => none

/-- The decisions that a run commits. -/
def committedOver (past : List (Taken System Event)) : List ℕ :=
  past.flatMap fun x => ((committedIn x.before x.input).map (·.id)).toList

theorem reaches_commitDecision (w : WriteReadings) (c : InverterController) :
    Reaches ((committedDecision w c).map (·.id)).toList c.submeterTrim (commitDecision w c) := by
  unfold committedDecision commitDecision
  cases c.trimDecision with
  | none => exact Reaches.refl _
  | some i =>
    exact reaches_call (.commit (.decision i.id) (.float w.commitMonotonic) (.float w.commitWall))
      c.submeterTrim

theorem reaches_write {k : Locals} {current : GridStatus} {i : Inputs}
    (hpc : s.pc = .writing k current) :
    Reaches ((committedIn s (.control i)).map (·.id)).toList s.controller.submeterTrim
      (write k current i.write s).1.controller.submeterTrim := by
  cases write_cases k current i.write s with
  | notReady c hx hcore heq hreset =>
    obtain ⟨reason, rfl⟩ := hreset
    have hnone : committedIn s (.control i) = none := by simp only [committedIn, hpc, hx]
    rw [hnone, heq]
    exact (uncommitted_trimWriteReady i.write.trim current s.controller).after
      (resets_reset _ _).uncommitted
  | accepted x hx hr heq =>
    have hsome : committedIn s (.control i) = committedDecision i.write x.2 := by
      simp only [committedIn, hpc, hx, hr, if_true]
    rw [hsome, heq]
    exact (uncommitted_attempt hx).trans (reaches_commitDecision i.write x.2)
  | refused x hx hr heq =>
    have hnone : committedIn s (.control i) = none := by
      simp only [committedIn, hpc, hx, hr]
      rfl
    rw [hnone, heq]
    exact (uncommitted_attempt hx).after (resets_reset "write_rejected" x.2).uncommitted
  | raised x hx hr heq =>
    have hnone : committedIn s (.control i) = none := by
      simp only [committedIn, hpc, hx, hr]
      rfl
    rw [hnone, heq]
    exact (uncommitted_attempt hx).after (resets_reset "cycle_error" x.2).uncommitted

/-! ### Runs -/

/-- Only a write commits. -/
theorem committedIn_eq_none (h : ∀ k current, s.pc ≠ .writing k current) (i : Inputs) :
    committedIn s (.control i) = none := by
  cases hpc : s.pc with
  | writing k current => exact absurd hpc (h k current)
  | _ => simp only [committedIn, hpc]

/-- A step that neither asks for a trim nor writes. -/
theorem resets_stepControl
    (htrimming : ∀ k chargeBattery result, s.pc ≠ .trimming k chargeBattery result)
    (hwriting : ∀ k current, s.pc ≠ .writing k current) (i : Inputs) :
    Resets s.controller (stepControl i s).1.controller := by
  unfold stepControl
  cases hpc : s.pc with
  | idle => exact resets_noteGeneration (forgetDecision s.controller)
  | begun generation =>
    simp only [readSystem]
    split_ifs
    · exact resets_reset _ s.controller
    · exact resets_of_eq rfl
  | gate caller g stage => exact resets_stepGate caller g stage i.env s
  | overrideCheck => exact resets_of_eq rfl
  | overrideUpdate => exact resets_updateGridLossState s.controller
  | ready generation sys => exact resets_calculate generation sys i.readings s
  | trimming k chargeBattery result => exact absurd hpc (htrimming k chargeBattery result)
  | calculated k =>
    simp only [readGrid]
    split_ifs
    · exact resets_reset _ s.controller
    · exact resets_of_eq rfl
  | writing k current => exact absurd hpc (hwriting k current)
  | written k ok =>
    simp only [finish]
    split_ifs
    · exact resets_reset _ s.controller
    · exact resets_of_eq rfl
    · exact resets_of_eq rfl
  | finalUpdate => exact resets_updateGridLossState s.controller

theorem uncommitted_stepControl (h : ∀ k current, s.pc ≠ .writing k current) (i : Inputs) :
    Uncommitted s.controller (stepControl i s).1.controller := by
  cases hpc : s.pc with
  | trimming k chargeBattery result =>
    simp only [stepControl, hpc]
    exact uncommitted_applyTrim k chargeBattery result i.trim s
  | _ =>
    refine (resets_stepControl ?_ h i).uncommitted
    rw [hpc]
    exact fun _ _ _ => ControlPc.noConfusion

theorem resets_other (he : ∀ i, e ≠ .control i) : Resets s.controller (Threads.next s e).controller := by
  cases e with
  | control i => exact absurd rfl (he i)
  | abort =>
    simp only [Threads.next, perform, abort]
    split
    · exact resets_of_eq rfl
    · exact resets_reset _ s.controller
  | mqtt arg requestId env =>
    simp only [Threads.next, perform, stepMqtt]
    cases s.mqtt with
    | idle => exact resets_of_eq rfl
    | clearing => exact resets_of_eq rfl
    | updating => exact resets_updateGridLossState s.controller
  | setPowerLimits min max =>
    simp only [Threads.next, perform, stepSetter, setPowerLimits]
    split_ifs <;> exact resets_of_eq rfl
  | selectEssMode =>
    simp only [Threads.next, perform, stepSetter, selectEssMode]
    split_ifs <;> exact resets_of_eq rfl
  | _ => exact resets_of_eq rfl

/-- **One event** goes on with the trim, and commits what an accepted write commits. -/
theorem reaches_next (s : System) (e : Event) :
    Reaches ((committedIn s e).map (·.id)).toList s.controller.submeterTrim
      (Threads.next s e).controller.submeterTrim := by
  by_cases he : ∃ i, e = .control i
  · obtain ⟨i, rfl⟩ := he
    by_cases hw : ∃ k current, s.pc = .writing k current
    · obtain ⟨k, current, hpc⟩ := hw
      have hstep : Threads.next s (.control i) = (write k current i.write s).1 := by
        simp only [Threads.next, perform, stepControl, hpc]
      rw [hstep]
      exact reaches_write hpc
    · have hno : ∀ k current, s.pc ≠ .writing k current := fun k current hpc => hw ⟨k, current, hpc⟩
      rw [committedIn_eq_none hno i]
      exact uncommitted_stepControl hno i
  · have hother : ∀ i, e ≠ .control i := fun i hi => he ⟨i, hi⟩
    have hnone : committedIn s e = none := by
      cases e with
      | control i => exact absurd rfl (hother i)
      | _ => rfl
    rw [hnone]
    exact (resets_other hother).uncommitted

/-- **Run.** -/
theorem reaches_exec (s : System) (es : List Event) :
    Reaches (committedOver (trace Threads.next s es)) s.controller.submeterTrim
      (exec Threads.next s es).controller.submeterTrim := by
  refine history_induction (P := fun is (t : System) => Reaches (committedOver (trace Threads.next s is))
    s.controller.submeterTrim t.controller.submeterTrim) (Reaches.refl _) (fun is e h => ?_) es
  have hover : committedOver (trace Threads.next s (is ++ [e])) =
      committedOver (trace Threads.next s is) ++
      ((committedIn (exec Threads.next s is) e).map (·.id)).toList := by
    rw [trace_snoc, committedOver, List.flatMap_append]
    simp [committedOver]
  rw [hover]
  exact h.trans (reaches_next _ e)

/-- The trim is as it is between two calls. -/
abbrev TrimSound (c : InverterController) : Prop := Sound c.submeterTrim

theorem trimSound_next (h : TrimSound s.controller) (e : Event) :
    TrimSound (Threads.next s e).controller :=
  (reaches_next s e).sound h

theorem trim_exec (p : Setup) (now : ℚ) (es : List Event) :
    TrimSound (exec Threads.next (Threads.init p now) es).controller :=
  (reaches_exec _ es).sound (Trim.Steps.Sound.init _ _ _)

/-- **No decision is committed twice.** -/
theorem committed_nodup (p : Setup) (now : ℚ) (es : List Event) :
    (committedOver (trace Threads.next (Threads.init p now) es)).Nodup := by
  obtain ⟨cs, -, hids⟩ := reaches_exec (Threads.init p now) es
  rw [← hids]
  exact (Trim.Accounting.accounts_run _ _ _ cs).once

end InverterControl.Controller.Trims
