import InverterControl.Watchdog.Steps

/-!
# The operator owns the output

While an override is active every write passes its value; a calculation begun before an accepted
command is obsolete for ever, because the control generation only grows; an edit that fails leaves a
rejection message behind and nothing else.
-/

namespace InverterControl.Watchdog.Override

open InverterControl.Lib.Runs InverterControl.Watchdog.Model InverterControl.Watchdog.Steps

/-- A command that takes effect in `w`: an accepted Start or Edit, or the Stop of an active
override. -/
def takesEffect (w : HardwareWatchdog) (ev : Event) : Prop :=
  (∃ n requestId, ev.op = .setSetpointOverride (.int n) requestId ∧ isInt32 n ∧
    ev.env.hardware = .accepted) ∨
  ∃ requestId, ev.op = .setSetpointOverride .none requestId ∧ w.overrideValue ≠ none

/-- A command that fails: not an int32, or its write was not accepted. -/
def failedEdit (ev : Event) : Prop :=
  (∃ requestId, ev.op = .setSetpointOverride .other requestId) ∨
  ∃ n requestId, ev.op = .setSetpointOverride (.int n) requestId ∧
    (¬ isInt32 n ∨ ev.env.hardware ≠ .accepted)

/-! ### Every write passes the operator's value -/

theorem MadeBy.value_of_override {w : HardwareWatchdog} {ev : Event} {c : HwCall} {v : ℤ}
    (h : MadeBy w ev c) (hv : w.overrideValue = some v) :
    c.value = v ∨ ∃ requestId, ev.op = .setSetpointOverride (.int c.value) requestId := by
  cases h with
  | manual requestId hop hw => exact Or.inr ⟨requestId, hop⟩
  | refresh hv' hg hown =>
    rw [hv] at hv'
    exact Or.inl (Option.some.inj hv').symm
  | normal generation hop hfree hd hw =>
    refine absurd (Or.inl ?_) hfree
    simp [hv]
  | fallback ho hd hv' hg hown => rw [hv] at ho; cases ho
  | failsafe hop ho hd hlive hv' hg hown => rw [hv] at ho; cases ho
  | restore hop ho hd hlive hv' htr hf hg hown => rw [hv] at ho; cases ho

/-- The value an operator's command tries to write is its own, and it is tried once. -/
theorem calls_of_command {w : HardwareWatchdog} {ev : Event} {c : HwCall} {arg : OverrideArg}
    {requestId : Option String} (hop : ev.op = .setSetpointOverride arg requestId)
    (hc : c ∈ calls w ev) : calls w ev = [c] := by
  obtain ⟨op, e⟩ := ev
  simp only at hop
  subst hop
  obtain ⟨n, rfl, hn, rfl⟩ := setSetpointOverride_calls e hc
  simp only [calls, perform, setSetpointOverride, if_pos hn]
  cases e.hardware <;> rfl

/-! ### A calculation begun before the command is obsolete -/

theorem controlGeneration_mono (w : HardwareWatchdog) (ev : Event) :
    w.controlGeneration ≤ (next w ev).controlGeneration := by
  cases hop : ev.op with
  | setSetpointOverride arg requestId =>
    rw [next, perform, hop]
    rcases setSetpointOverride_cases ev.env w arg requestId with h | ⟨err, rej, req, h⟩
    · rw [h]; exact Nat.le_succ _
    · rw [h]
  | start =>
    simp only [next, perform, hop, start]
    split_ifs <;> exact Nat.le_refl _
  | setDryRun enabled => simp only [next, perform, hop]; exact Nat.le_refl _
  | _ =>
    refine Nat.le_of_eq (congrArg Owner.controlGeneration (next_owner ?_ w)).symm
    rw [hop]
    rfl

theorem controlGeneration_of_takesEffect {w : HardwareWatchdog} {ev : Event}
    (h : takesEffect w ev) : w.controlGeneration < (next w ev).controlGeneration := by
  obtain ⟨op, e⟩ := ev
  rcases h with ⟨n, requestId, hop, hn, hacc⟩ | ⟨requestId, hop, hv⟩
  · simp only at hop hacc
    subst hop
    simp [next, perform, setSetpointOverride, hn, hacc, installOverride]
  · simp only at hop
    subst hop
    simp [next, perform, setSetpointOverride, hv, installOverride]

theorem controlGeneration_run (w : HardwareWatchdog) (evs : List Event) :
    w.controlGeneration ≤ (exec next w evs).controlGeneration :=
  exec_mono controlGeneration_mono w evs

/-- A command that took effect in a run has moved the generation on. -/
theorem controlGeneration_lt_of_takesEffect {w : HardwareWatchdog} {evs : List Event}
    {x : Taken HardwareWatchdog Event} (hx : x ∈ trace next w evs)
    (h : takesEffect x.before x.input) :
    w.controlGeneration < (exec next w evs).controlGeneration := by
  obtain ⟨a, b, rfl, hb⟩ := (mem_trace next).mp hx
  calc w.controlGeneration
      ≤ (exec next w a).controlGeneration := controlGeneration_run w a
    _ < (next (exec next w a) x.input).controlGeneration := by
        rw [← hb]; exact controlGeneration_of_takesEffect h
    _ ≤ (exec next (next (exec next w a) x.input) b).controlGeneration := controlGeneration_run _ b
    _ = (exec next w (a ++ x.input :: b)).controlGeneration := by rw [exec_append, exec_cons]

/-! ### A failed edit leaves only its message -/

theorem next_of_failedEdit {w : HardwareWatchdog} {ev : Event} (h : failedEdit ev) :
    ∃ rej req, next w ev =
      { w with overrideRejectionError := rej, overrideRequestId := req } := by
  obtain ⟨op, e⟩ := ev
  rcases h with ⟨requestId, hop⟩ | ⟨n, requestId, hop, h⟩
  · simp only at hop
    subst hop
    exact ⟨_, _, rfl⟩
  · simp only at hop h
    subst hop
    simp only [next, perform, setSetpointOverride]
    split_ifs with hn
    · cases hh : e.hardware with
      | accepted => exact absurd hh (h.resolve_left (not_not.mpr hn))
      | rejected => exact ⟨_, _, rfl⟩
      | raised m => exact ⟨_, _, rfl⟩
    · exact ⟨_, _, rfl⟩

/-! ### Override ownership -/

/-- **The operator owns the output.**  In every run from `__init__`: while an override is active every
hardware call passes its value, but for the one write of a command itself; a calculation whose
generation was read before a command that took effect is refused, without a hardware call; a failed
edit leaves everything but its message as it was. -/
theorem override_ownership (timeoutSeconds : ℚ) (dryRun : Bool) (hold : Option ℚ)
    (evs : List Event) :
    (∀ x ∈ trace next (init timeoutSeconds dryRun hold) evs, ∀ c ∈ calls x.before x.input,
      ∀ v, c.watchdog.overrideValue = some v → c.value = v ∨
        ((∃ requestId, x.input.op = .setSetpointOverride (.int c.value) requestId) ∧
          calls x.before x.input = [c])) ∧
    (∀ pre post, evs = pre ++ post →
      (∃ x ∈ trace next (exec next (init timeoutSeconds dryRun hold) pre) post,
        takesEffect x.before x.input) →
      ∀ value dryRun' e,
        writeControlSetpoint value
            (exec next (init timeoutSeconds dryRun hold) pre).controlGeneration dryRun' e
            (exec next (init timeoutSeconds dryRun hold) evs) =
          ((exec next (init timeoutSeconds dryRun hold) evs, []), .refused)) ∧
    (∀ x ∈ trace next (init timeoutSeconds dryRun hold) evs, failedEdit x.input →
      ∃ rej req, next x.before x.input =
        { x.before with overrideRejectionError := rej, overrideRequestId := req }) := by
  refine ⟨fun x hx c hc v hv => ?_, ?_, fun x hx h => next_of_failedEdit h⟩
  · have hmade := calls_madeBy hc
    have hown : c.watchdog.overrideValue = x.before.overrideValue :=
      congrArg Owner.overrideValue hmade.owner_eq
    rcases MadeBy.value_of_override hmade (hown ▸ hv) with h | ⟨requestId, h⟩
    · exact Or.inl h
    · exact Or.inr ⟨⟨requestId, h⟩, calls_of_command h hc⟩
  · rintro pre post rfl ⟨x, hx, h⟩ value dryRun' e
    refine writeControlSetpoint_of_blocked e (Or.inr (Or.inl ?_)) value dryRun'
    rw [exec_append]
    exact (controlGeneration_lt_of_takesEffect hx h).ne

end InverterControl.Watchdog.Override
