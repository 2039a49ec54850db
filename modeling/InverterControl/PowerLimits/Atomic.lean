import InverterControl.PowerLimits.Model

/-!
# Updates of the power limits are atomic

A call that has the update lock is the only one that changes the file or the limits in memory, and
the file is replaced before the first assignment.  So what a call has changed is a function of its
stage (`At`), and with no call past the save the file and the memory are on the pair of one call
(`Settled`).
-/

namespace InverterControl.PowerLimits.Atomic

open InverterControl.Lib.Runs InverterControl.Lib.Json
open InverterControl.PowerLimits.Model

/-! ### Stages -/

/-- The call has the update lock. -/
def holds : Stage → Bool
  | .idle | .called | .locking | .returned | .raised => false
  | _ => true

/-- The call has the watchdog's lock. -/
def assigns : Stage → Bool
  | .setMin | .setMax | .setCalculatorMin | .setCalculatorMax | .count => true
  | _ => false

/-- The call is past the check of its arguments. -/
def checked : Stage → Bool
  | .idle | .called | .raised => false
  | _ => true

/-- The temporary file is written. -/
def written : Stage → Bool
  | .saving .flush | .saving .sync | .saving .replace | .saving .unlink => true
  | _ => false

/-- The call is past the save, and has not returned. -/
def late : Stage → Bool
  | .saving .unlink | .entering | .setMin | .setMax | .setCalculatorMin | .setCalculatorMax |
    .count | .leaving => true
  | _ => false

/-- The call is past its assignments. -/
def done : Stage → Bool
  | .leaving | .returned => true
  | _ => false

/-- The control write is between its two readings. -/
def reading : Cycle → Bool
  | .readMin | .readMax _ => true
  | _ => false

variable (ft : FloatText ℚ) (file : Option (List Char)) (p : Pair) (s : System) (i : ℕ)

/-- What a call that assigns the limits has assigned. -/
def Assigned : Prop :=
  match (s.calls i).stage with
  | .setMax => s.controller.min = (s.calls i).applied.min
  | .setCalculatorMin => s.controller = (s.calls i).applied
  | .setCalculatorMax =>
    s.controller = (s.calls i).applied ∧ s.calculator.min = (s.calls i).applied.min
  | .count | .leaving => s.controller = (s.calls i).applied ∧ s.calculator = (s.calls i).applied
  | _ => True

/-- What is true of a call at its stage. -/
structure At : Prop where
  holder : holds (s.calls i).stage = true ↔ s.updateLock = some i
  setter : assigns (s.calls i).stage = true ↔ s.watchdogLock = some (.setter i)
  ordered : checked (s.calls i).stage = true → (s.calls i).min ≤ (s.calls i).max
  temporary : written (s.calls i).stage = true → (s.calls i).temporary = text ft (s.calls i).applied
  saved : late (s.calls i).stage = true → (s.calls i).persist = true →
    s.file = some (text ft (s.calls i).applied)
  assigned : Assigned s i

/-- The pair is the one of the start, or of a call past its assignments. -/
def Source (q : Pair) : Prop := q = p ∨ ∃ k, done (s.calls k).stage = true ∧ (s.calls k).applied = q

/-- What is true of a control write. -/
structure Reads (j : ℕ) : Prop where
  holder : reading (s.cycles j) = true ↔ s.watchdogLock = some (.cycle j)
  minimum : ∀ m, s.cycles j = .readMax m → m = s.controller.min
  seen : ∀ q, s.cycles j = .seen q → Source p s q

/-- File and memory are as at the start, or on the pair of one call. -/
def Settled : Prop :=
  (s.file = file ∧ s.controller = p) ∨
    ∃ k, (s.calls k).stage = .returned ∧ s.controller = (s.calls k).applied ∧
      ((s.calls k).persist = true → s.file = some (text ft (s.calls k).applied))

structure Inv : Prop where
  calls : ∀ i, At ft s i
  cycles : ∀ j, Reads p s j
  memory : (∀ i, assigns (s.calls i).stage = false) → s.controller = s.calculator ∧
    Source p s s.controller
  settled : (∀ i, late (s.calls i).stage = false) → Settled ft file p s
  accepted : readPowerLimits ft s.file ≠ .invalid

variable {ft file p s i}

/-! ### What one step leaves alone -/

@[simp] theorem goTo_self (stage : Stage) :
    (goTo s i stage).calls i = { s.calls i with stage := stage } := by
  simp [goTo]

@[simp] theorem goTo_file (stage : Stage) : (goTo s i stage).file = s.file := rfl

@[simp] theorem goTo_controller (stage : Stage) : (goTo s i stage).controller = s.controller := rfl

@[simp] theorem goTo_calculator (stage : Stage) : (goTo s i stage).calculator = s.calculator := rfl

@[simp] theorem goTo_updateLock (stage : Stage) : (goTo s i stage).updateLock = s.updateLock := rfl

@[simp] theorem goTo_watchdogLock (stage : Stage) : (goTo s i stage).watchdogLock = s.watchdogLock := rfl

@[simp] theorem fail_self : (fail s i).calls i = { s.calls i with stage := .raised } := goTo_self _

/-- What a step of a call does. -/
inductive Stepped (ft : FloatText ℚ) (s : System) (i : ℕ) : System → Prop
  | stays : Stepped ft s i s
  | accepts (ordered : (s.calls i).min ≤ (s.calls i).max) (before : (s.calls i).stage = .called) :
    Stepped ft s i (goTo s i .locking)
  | rejects (before : (s.calls i).stage = .called) : Stepped ft s i (goTo s i .raised)
  | takesUpdate (free : s.updateLock = none) (stage : Stage)
    (after : stage = .saving .validate ∨ stage = .entering ∧ (s.calls i).persist = false)
    (before : (s.calls i).stage = .locking) :
    Stepped ft s i { goTo s i stage with updateLock := some i }
  | fails (save : Save) (unlink : save ≠ .unlink) (before : (s.calls i).stage = .saving save) :
    Stepped ft s i (fail s i)
  | saves (save save' : Save) (hwritten : written (.saving save') = true → written (.saving save) = true)
    (hlate : late (.saving save') = false) (unlink : save ≠ .unlink)
    (before : (s.calls i).stage = .saving save) :
    Stepped ft s i (goTo s i (.saving save'))
  | writes (before : (s.calls i).stage = .saving .write) :
    Stepped ft s i { s with
      calls := Function.update s.calls i
        { s.calls i with stage := .saving .flush, temporary := text ft (s.calls i).applied } }
  | replaces (before : (s.calls i).stage = .saving .replace) :
    Stepped ft s i { goTo s i (.saving .unlink) with file := some (s.calls i).temporary }
  | removes (before : (s.calls i).stage = .saving .unlink) : Stepped ft s i (goTo s i .entering)
  | enters (free : s.watchdogLock = none) (before : (s.calls i).stage = .entering) :
    Stepped ft s i { goTo s i .setMin with watchdogLock := some (.setter i) }
  | setsMin (before : (s.calls i).stage = .setMin) :
    Stepped ft s i
      { goTo s i .setMax with controller := { s.controller with min := (s.calls i).applied.min } }
  | setsMax (before : (s.calls i).stage = .setMax) :
    Stepped ft s i
      { goTo s i .setCalculatorMin with
        controller := { s.controller with max := (s.calls i).applied.max } }
  | setsCalculatorMin (before : (s.calls i).stage = .setCalculatorMin) :
    Stepped ft s i
      { goTo s i .setCalculatorMax with calculator := { s.calculator with min := s.controller.min } }
  | setsCalculatorMax (before : (s.calls i).stage = .setCalculatorMax) :
    Stepped ft s i { goTo s i .count with calculator := { s.calculator with max := s.controller.max } }
  | counts (before : (s.calls i).stage = .count) :
    Stepped ft s i
      { goTo s i .leaving with
        trimModeGeneration := s.trimModeGeneration + 1
        watchdogLock := none }
  | leaves (before : (s.calls i).stage = .leaving) :
    Stepped ft s i { goTo s i .returned with updateLock := none }

theorem stepSave_stepped (ft : FloatText ℚ) {save : Save} (h : (s.calls i).stage = .saving save)
    (ok : Bool) :
    Stepped ft s i (stepSave ft s i save ok) := by
  cases save with
  | validate =>
    simp only [stepSave]
    split
    · exact .saves .validate .makeDirectory id rfl Save.noConfusion h
    · exact .fails _ Save.noConfusion h
  | makeDirectory =>
    simp only [stepSave]
    split
    · exact .saves .makeDirectory .checkFile id rfl Save.noConfusion h
    · exact .fails _ Save.noConfusion h
  | checkFile =>
    simp only [stepSave]
    split
    · exact .saves .checkFile .makeTemporary id rfl Save.noConfusion h
    · exact .fails _ Save.noConfusion h
  | makeTemporary =>
    simp only [stepSave]
    split
    · exact .saves .makeTemporary .write id rfl Save.noConfusion h
    · exact .fails _ Save.noConfusion h
  | write =>
    simp only [stepSave]
    split
    · exact .writes h
    · exact .fails _ Save.noConfusion h
  | flush =>
    simp only [stepSave]
    split
    · exact .saves .flush .sync id rfl Save.noConfusion h
    · exact .fails _ Save.noConfusion h
  | sync =>
    simp only [stepSave]
    split
    · exact .saves .sync .replace id rfl Save.noConfusion h
    · exact .fails _ Save.noConfusion h
  | replace =>
    simp only [stepSave]
    split
    · exact .replaces h
    · exact .fails _ Save.noConfusion h
  | unlink => exact .removes h

/-- **Every step of a call is one of these.** -/
theorem stepCall_stepped (ft : FloatText ℚ) (s : System) (i : ℕ) (ok : Bool) :
    Stepped ft s i (stepCall ft s i ok) := by
  unfold stepCall
  cases hstage : (s.calls i).stage with
  | idle => exact .stays
  | called =>
    simp only
    split_ifs with hordered
    · exact .accepts hordered hstage
    · exact .rejects hstage
  | locking =>
    simp only
    split_ifs with hfree hpersist
    · exact .takesUpdate hfree _ (Or.inl rfl) hstage
    · exact .takesUpdate hfree _ (Or.inr ⟨rfl, Bool.eq_false_iff.mpr hpersist⟩) hstage
    · exact .stays
  | saving save => exact stepSave_stepped ft hstage ok
  | entering =>
    simp only
    split_ifs with hfree
    · exact .enters hfree hstage
    · exact .stays
  | setMin => exact .setsMin hstage
  | setMax => exact .setsMax hstage
  | setCalculatorMin => exact .setsCalculatorMin hstage
  | setCalculatorMax => exact .setsCalculatorMax hstage
  | count => exact .counts hstage
  | leaving => exact .leaves hstage
  | returned => exact .stays
  | raised => exact .stays

/-- A call changes no other call. -/
theorem stepCall_ne (ft : FloatText ℚ) {k : ℕ} (h : k ≠ i) (ok : Bool) :
    (stepCall ft s i ok).calls k = s.calls k := by
  have hstepped := stepCall_stepped ft s i ok
  generalize stepCall ft s i ok = s' at hstepped ⊢
  cases hstepped
  case stays => rfl
  all_goals exact Function.update_of_ne h _ _

/-- What a call was given stays. -/
theorem stepCall_given (ft : FloatText ℚ) (ok : Bool) :
    ((stepCall ft s i ok).calls i).applied = (s.calls i).applied ∧
      ((stepCall ft s i ok).calls i).persist = (s.calls i).persist := by
  have hstepped := stepCall_stepped ft s i ok
  generalize stepCall ft s i ok = s' at hstepped ⊢
  cases hstepped
  case stays => exact ⟨rfl, rfl⟩
  all_goals simp [Call.applied]

theorem stepCall_cycles (ok : Bool) : (stepCall ft s i ok).cycles = s.cycles := by
  have hstepped := stepCall_stepped ft s i ok
  generalize stepCall ft s i ok = s' at hstepped ⊢
  cases hstepped
  all_goals rfl

/-- Only a call with the watchdog's lock changes the limits in memory. -/
theorem stepCall_memory (ft : FloatText ℚ) (h : assigns (s.calls i).stage = false) (ok : Bool) :
    (stepCall ft s i ok).controller = s.controller ∧ (stepCall ft s i ok).calculator = s.calculator := by
  have hstepped := stepCall_stepped ft s i ok
  generalize stepCall ft s i ok = s' at hstepped ⊢
  cases hstepped
  case setsMin before => simp [before, assigns] at h
  case setsMax before => simp [before, assigns] at h
  case setsCalculatorMin before => simp [before, assigns] at h
  case setsCalculatorMax before => simp [before, assigns] at h
  all_goals exact ⟨rfl, rfl⟩

/-- Without the update lock a call changes neither the file nor the limits. -/
theorem stepCall_out (h : holds (s.calls i).stage = false) (ok : Bool) :
    (stepCall ft s i ok).file = s.file ∧ (stepCall ft s i ok).controller = s.controller ∧
      (stepCall ft s i ok).calculator = s.calculator := by
  have hassigns : assigns (s.calls i).stage = false := by
    revert h
    cases (s.calls i).stage <;> simp [holds, assigns]
  refine ⟨?_, stepCall_memory ft hassigns ok⟩
  have hstepped := stepCall_stepped ft s i ok
  generalize stepCall ft s i ok = s' at hstepped ⊢
  cases hstepped
  case replaces before => simp [before, holds] at h
  all_goals rfl

/-- A call takes the update lock when it is free, and gives back its own. -/
theorem stepCall_updateLock (h : At ft s i) (ok : Bool) :
    (stepCall ft s i ok).updateLock = s.updateLock ∨
      (∀ k, k ≠ i → s.updateLock ≠ some k ∧ (stepCall ft s i ok).updateLock ≠ some k) := by
  have hown : holds (s.calls i).stage = true → ∀ k, k ≠ i → s.updateLock ≠ some k := fun hh k hk heq =>
    hk (Option.some.inj (heq.symm.trans (h.holder.mp hh)))
  have hstepped := stepCall_stepped ft s i ok
  generalize stepCall ft s i ok = s' at hstepped ⊢
  cases hstepped
  case takesUpdate free stage after before =>
    exact Or.inr fun k hk => ⟨by simp [free], fun heq => hk (Option.some.inj heq).symm⟩
  case fails save unlink before =>
    exact Or.inr fun k hk => ⟨hown (by rw [before]; rfl) k hk, by simp [fail]⟩
  case leaves before => exact Or.inr fun k hk => ⟨hown (by rw [before]; rfl) k hk, by simp⟩
  all_goals exact Or.inl rfl

/-- So it is with the watchdog's lock. -/
theorem stepCall_watchdogLock (h : At ft s i) (ok : Bool) :
    (stepCall ft s i ok).watchdogLock = s.watchdogLock ∨
      (∀ o, o ≠ .setter i → s.watchdogLock ≠ some o ∧ (stepCall ft s i ok).watchdogLock ≠ some o) := by
  have hown : assigns (s.calls i).stage = true → ∀ o, o ≠ .setter i → s.watchdogLock ≠ some o :=
    fun hh o ho heq => ho (Option.some.inj (heq.symm.trans (h.setter.mp hh)))
  have hstepped := stepCall_stepped ft s i ok
  generalize stepCall ft s i ok = s' at hstepped ⊢
  cases hstepped
  case enters free before =>
    exact Or.inr fun o ho => ⟨by simp [free], fun heq => ho (Option.some.inj heq).symm⟩
  case counts before => exact Or.inr fun o ho => ⟨hown (by rw [before]; rfl) o ho, by simp⟩
  all_goals exact Or.inl rfl

/-! ### The calls -/

/-- The others see nothing of a call's step. -/
theorem at_of_ne {k : ℕ} (hi : At ft s i) (hk : At ft s k) (hne : k ≠ i) (ok : Bool) :
    At ft (stepCall ft s i ok) k := by
  have hcall := stepCall_ne ft (s := s) hne ok
  have hquiet : holds (s.calls k).stage = true →
      (stepCall ft s i ok).file = s.file ∧ (stepCall ft s i ok).controller = s.controller ∧
        (stepCall ft s i ok).calculator = s.calculator := by
    intro hh
    refine stepCall_out (Bool.eq_false_iff.mpr fun hholds => hne ?_) ok
    exact Option.some.inj ((hk.holder.mp hh).symm.trans (hi.holder.mp hholds))
  refine ⟨?_, ?_, ?_, ?_, ?_, ?_⟩
  · rw [hcall, hk.holder]
    rcases stepCall_updateLock hi ok with heq | hneither
    · rw [heq]
    · simp [hneither k hne]
  · rw [hcall, hk.setter]
    rcases stepCall_watchdogLock hi ok with heq | hneither
    · rw [heq]
    · have := hneither (.setter k) (by simpa using hne)
      simp [this]
  · rw [hcall]
    exact hk.ordered
  · rw [hcall]
    exact hk.temporary
  · intro hlate hpersist
    rw [hcall] at hlate hpersist ⊢
    rw [(hquiet (by revert hlate; cases (s.calls k).stage <;> simp [late, holds])).1]
    exact hk.saved hlate hpersist
  · have hassigned := hk.assigned
    unfold Assigned at hassigned ⊢
    rw [hcall]
    by_cases hh : holds (s.calls k).stage = true
    · rw [(hquiet hh).2.1, (hquiet hh).2.2]
      exact hassigned
    · revert hh
      cases (s.calls k).stage <;> simp [holds]

variable {s' : System}

/-- The update lock is the call's own from its `locking` to its end. -/
theorem Stepped.holder (hstepped : Stepped ft s i s') (h : At ft s i) :
    holds (s'.calls i).stage = true ↔ s'.updateLock = some i := by
  have hholder := h.holder
  cases hstepped
  case stays => exact hholder
  case takesUpdate free stage after before =>
    rcases after with rfl | ⟨rfl, -⟩
    · simp [holds]
    · simp [holds]
  case fails save unlink before => simp [fail, holds]
  case leaves before => simp [holds]
  all_goals
    rename_i before
    rw [before] at hholder
    simpa [holds] using hholder

/-- The watchdog's lock is its own from `entering` to `count`. -/
theorem Stepped.setter (hstepped : Stepped ft s i s') (h : At ft s i) :
    assigns (s'.calls i).stage = true ↔ s'.watchdogLock = some (.setter i) := by
  have hsetter := h.setter
  cases hstepped
  case stays => exact hsetter
  case takesUpdate free stage after before =>
    rw [before] at hsetter
    rcases after with rfl | ⟨rfl, -⟩
    · simpa [assigns] using hsetter
    · simpa [assigns] using hsetter
  case enters free before => simp [assigns]
  case counts before => simp [assigns]
  all_goals
    rename_i before
    rw [before] at hsetter
    simpa [fail, assigns] using hsetter

theorem Stepped.ordered (hstepped : Stepped ft s i s') (h : At ft s i)
    (hchecked : checked (s'.calls i).stage = true) : (s'.calls i).min ≤ (s'.calls i).max := by
  have hordered := h.ordered
  cases hstepped
  case stays => exact hordered hchecked
  case accepts ordered before => simpa using ordered
  case rejects before => simp [checked] at hchecked
  all_goals
    rename_i before
    rw [before] at hordered
    simpa using hordered rfl

theorem Stepped.temporary (hstepped : Stepped ft s i s') (h : At ft s i)
    (hwritten : written (s'.calls i).stage = true) :
    (s'.calls i).temporary = text ft (s'.calls i).applied := by
  have htemporary := h.temporary
  cases hstepped
  case stays => exact htemporary hwritten
  case saves save save' hmono hlate unlink before =>
    rw [before] at htemporary
    simp only [goTo_self] at hwritten
    simpa [Call.applied] using htemporary (hmono hwritten)
  case writes before => simp [Call.applied]
  case replaces before =>
    rw [before] at htemporary
    simpa [Call.applied] using htemporary rfl
  case takesUpdate free stage after before =>
    rcases after with rfl | ⟨rfl, -⟩ <;> simp [written] at hwritten
  all_goals simp [fail, written] at hwritten

/-- A call that is past its save has saved, if it persists. -/
theorem Stepped.saved (hstepped : Stepped ft s i s') (h : At ft s i)
    (hlate : late (s'.calls i).stage = true)
    (hpersist : (s'.calls i).persist = true) : s'.file = some (text ft (s'.calls i).applied) := by
  have hsaved := h.saved
  cases hstepped
  case stays => exact hsaved hlate hpersist
  case takesUpdate free stage after before =>
    rcases after with rfl | ⟨rfl, hnot⟩
    · simp [late] at hlate
    · simp [hnot] at hpersist
  case saves save save' hmono hnot unlink before => simp [hnot] at hlate
  case replaces before =>
    have htemporary := h.temporary (by rw [before]; rfl)
    simpa [Call.applied] using htemporary
  case accepts ordered before => simp [late] at hlate
  case rejects before => simp [late] at hlate
  case fails save unlink before => simp [late] at hlate
  case writes before => simp [late] at hlate
  case leaves before => simp [late] at hlate
  all_goals
    rename_i before
    rw [before] at hsaved
    have hpersist' : (s.calls i).persist = true := by simpa using hpersist
    simpa [Call.applied] using hsaved rfl hpersist'

/-- The copies are assigned one after the other. -/
theorem Stepped.assigned (hstepped : Stepped ft s i s') (h : At ft s i) : Assigned s' i := by
  have hassigned := h.assigned
  unfold Assigned at hassigned ⊢
  cases hstepped
  case stays => exact hassigned
  case takesUpdate free stage after before => rcases after with rfl | ⟨rfl, -⟩ <;> simp
  case setsMin before => simp [Call.applied]
  case setsMax before =>
    simp only [before] at hassigned
    simp [Call.applied, hassigned]
  case setsCalculatorMin before =>
    simp only [before] at hassigned
    simp [Call.applied, hassigned]
  case setsCalculatorMax before =>
    simp only [before] at hassigned
    simp [Call.applied, hassigned]
  case counts before =>
    simp only [before] at hassigned
    simpa [Call.applied] using hassigned
  all_goals simp [fail]

/-- A call goes on as its stage says. -/
theorem at_self (h : At ft s i) (ok : Bool) : At ft (stepCall ft s i ok) i :=
  have hstepped := stepCall_stepped ft s i ok
  ⟨hstepped.holder h, hstepped.setter h, hstepped.ordered h, hstepped.temporary h, hstepped.saved h,
    hstepped.assigned h⟩

/-! ### The copies -/

/-- The file changes to the text of the call's own pair, and that call is past its save then. -/
theorem stepCall_file (h : At ft s i) (ok : Bool) :
    (stepCall ft s i ok).file = s.file ∨
      ((stepCall ft s i ok).file = some (text ft (s.calls i).applied) ∧
        (s.calls i).min ≤ (s.calls i).max ∧ late ((stepCall ft s i ok).calls i).stage = true) := by
  have hstepped := stepCall_stepped ft s i ok
  generalize stepCall ft s i ok = s' at hstepped ⊢
  cases hstepped
  case replaces before =>
    have htemporary := h.temporary (by rw [before]; rfl)
    exact Or.inr ⟨congrArg some htemporary, h.ordered (by rw [before]; rfl), by simp [goTo, late]⟩
  all_goals exact Or.inl rfl

/-- The last assignment is followed by the release of the lock. -/
theorem stepCall_assigned {ok : Bool} (h : assigns (s.calls i).stage = true)
    (hafter : assigns ((stepCall ft s i ok).calls i).stage = false) :
    ((stepCall ft s i ok).calls i).stage = .leaving := by
  have hstepped := stepCall_stepped ft s i ok
  generalize stepCall ft s i ok = s' at hstepped hafter ⊢
  cases hstepped
  case stays => exact absurd (h.symm.trans hafter) Bool.noConfusion
  case counts before => simp
  case setsMin before => simp [assigns] at hafter
  case setsMax before => simp [assigns] at hafter
  case setsCalculatorMin before => simp [assigns] at hafter
  case setsCalculatorMax before => simp [assigns] at hafter
  all_goals
    rename_i before
    simp [before, assigns] at h

/-- A call past its save returns. -/
theorem stepCall_late {ok : Bool} (h : late (s.calls i).stage = true)
    (hafter : late ((stepCall ft s i ok).calls i).stage = false) :
    (s.calls i).stage = .leaving ∧ ((stepCall ft s i ok).calls i).stage = .returned := by
  have hstepped := stepCall_stepped ft s i ok
  generalize stepCall ft s i ok = s' at hstepped hafter ⊢
  cases hstepped
  case stays => exact absurd (h.symm.trans hafter) Bool.noConfusion
  case leaves before => exact ⟨before, by simp⟩
  case accepts ordered before => simp [before, late] at h
  case rejects before => simp [before, late] at h
  case takesUpdate free stage after before => simp [before, late] at h
  case writes before => simp [before, late] at h
  case saves save save' hwritten hlate unlink before =>
    rw [before] at h
    cases save <;> simp [late] at h unlink
  case fails save unlink before =>
    rw [before] at h
    cases save <;> simp [late] at h unlink
  all_goals simp [late] at hafter

/-- A call that is done with its assignments stays so. -/
theorem stepCall_done {k : ℕ} (h : done (s.calls k).stage = true) (ok : Bool) :
    done ((stepCall ft s i ok).calls k).stage = true ∧
    ((stepCall ft s i ok).calls k).applied = (s.calls k).applied := by
  by_cases hk : k = i
  · subst hk
    refine ⟨?_, (stepCall_given ft ok).1⟩
    have hstepped := stepCall_stepped ft s k ok
    generalize stepCall ft s k ok = s' at hstepped ⊢
    cases hstepped
    case stays => exact h
    case leaves before => simp [done]
    all_goals
      rename_i before
      simp [before, done] at h
  · rw [stepCall_ne ft hk]
    exact ⟨h, rfl⟩

theorem Source.stepCall {q : Pair} (h : Source p s q) (ok : Bool) : Source p (stepCall ft s i ok) q := by
  rcases h with rfl | ⟨k, hdone, rfl⟩
  · exact Or.inl rfl
  · exact Or.inr ⟨k, stepCall_done hdone ok⟩

/-! ### The invariant -/

theorem Inv.calls_stepCall (h : Inv ft file p s) (i : ℕ) (ok : Bool) (k : ℕ) :
    At ft (Model.stepCall ft s i ok) k := by
  by_cases hk : k = i
  · exact hk ▸ at_self (h.calls i) ok
  · exact at_of_ne (h.calls i) (h.calls k) hk ok

/-- A step of a call is between two control writes, or changes nothing that they read. -/
theorem Inv.cycles_stepCall (h : Inv ft file p s) (i : ℕ) (ok : Bool) (j : ℕ) :
    Reads p (Model.stepCall ft s i ok) j := by
  obtain ⟨hholder, hminimum, hseen⟩ := h.cycles j
  have hcycles : (Model.stepCall ft s i ok).cycles = s.cycles := stepCall_cycles ok
  refine ⟨?_, fun m hm => ?_, fun q hq => ?_⟩
  · rw [hcycles, hholder]
    rcases stepCall_watchdogLock (h.calls i) ok with heq | hneither
    · rw [heq]
    · simp [hneither (.cycle j) (by simp)]
  · -- a control write between its readings has the lock of the assignments
    rw [hcycles] at hm
    have hlock := hholder.mp (by rw [hm]; rfl)
    have hout : assigns (s.calls i).stage = false :=
      Bool.eq_false_iff.mpr fun hassigns => by simpa [hlock] using (h.calls i).setter.mp hassigns
    rw [(stepCall_memory ft hout ok).1]
    exact hminimum m hm
  · rw [hcycles] at hq
    exact (hseen q hq).stepCall ok

/-- With no call at its assignments controller and calculator agree. -/
theorem Inv.memory_stepCall (h : Inv ft file p s) {i : ℕ} {ok : Bool}
    (hnone : ∀ k, assigns ((Model.stepCall ft s i ok).calls k).stage = false) :
    (Model.stepCall ft s i ok).controller = (Model.stepCall ft s i ok).calculator ∧
      Source p (Model.stepCall ft s i ok) (Model.stepCall ft s i ok).controller := by
  by_cases hassigns : assigns (s.calls i).stage = true
  · have hleaving := stepCall_assigned hassigns (hnone i)
    have hassigned := (h.calls_stepCall i ok i).assigned
    simp only [Assigned, hleaving] at hassigned
    exact ⟨hassigned.1.trans hassigned.2.symm, Or.inr ⟨i, by rw [hleaving]; rfl, hassigned.1.symm⟩⟩
  · have hassigns := Bool.eq_false_iff.mpr hassigns
    have hbefore : ∀ k, assigns (s.calls k).stage = false := fun k => by
      by_cases hk : k = i
      · rw [hk]
        exact hassigns
      · rw [← stepCall_ne ft hk ok]
        exact hnone k
    obtain ⟨hcontroller, hcalculator⟩ := stepCall_memory ft hassigns ok
    obtain ⟨hagree, hsource⟩ := h.memory hbefore
    rw [hcontroller, hcalculator]
    exact ⟨hagree, hsource.stepCall ok⟩

/-- With no call past its save file and memory are settled. -/
theorem Inv.settled_stepCall (h : Inv ft file p s) {i : ℕ} {ok : Bool}
    (hnone : ∀ k, late ((Model.stepCall ft s i ok).calls k).stage = false) :
    Settled ft file p (Model.stepCall ft s i ok) := by
  by_cases hlate : late (s.calls i).stage = true
  · obtain ⟨hleaving, hreturned⟩ := stepCall_late hlate (hnone i)
    have hassigned := (h.calls i).assigned
    simp only [Assigned, hleaving] at hassigned
    obtain ⟨hfile, hcontroller⟩ : (Model.stepCall ft s i ok).file = s.file ∧
        (Model.stepCall ft s i ok).controller = s.controller := by
      simp only [Model.stepCall, hleaving]
      exact ⟨rfl, rfl⟩
    obtain ⟨happlied, hpersist⟩ := stepCall_given ft (s := s) (i := i) ok
    refine Or.inr ⟨i, hreturned, ?_, fun hp => ?_⟩
    · rw [happlied, hcontroller]
      exact hassigned.1
    · rw [happlied, hfile]
      exact (h.calls i).saved hlate (hpersist ▸ hp)
  · have hlate := Bool.eq_false_iff.mpr hlate
    have hbefore : ∀ k, late (s.calls k).stage = false := fun k => by
      by_cases hk : k = i
      · rw [hk]
        exact hlate
      · rw [← stepCall_ne ft hk ok]
        exact hnone k
    have hout : assigns (s.calls i).stage = false := by
      revert hlate
      cases (s.calls i).stage <;> simp [late, assigns]
    have hfile : (Model.stepCall ft s i ok).file = s.file := by
      rcases stepCall_file (h.calls i) ok with heq | ⟨-, -, hafter⟩
      · exact heq
      · rw [hnone i] at hafter
        cases hafter
    have hcontroller := (stepCall_memory ft hout ok).1
    unfold Settled
    rw [hfile, hcontroller]
    refine (h.settled hbefore).imp_right fun ⟨k, hreturned, hmemory, hsaved⟩ => ⟨k, ?_⟩
    have hsame : (Model.stepCall ft s i ok).calls k = s.calls k := by
      by_cases hk : k = i
      · subst hk
        simp only [Model.stepCall, hreturned]
      · exact stepCall_ne ft hk ok
    rw [hsame]
    exact ⟨hreturned, hmemory, hsaved⟩

theorem Inv.stepCall (h : Inv ft file p s) (i : ℕ) (ok : Bool) :
    Inv ft file p (Model.stepCall ft s i ok) where
  calls := h.calls_stepCall i ok
  cycles := h.cycles_stepCall i ok
  memory := h.memory_stepCall
  settled := h.settled_stepCall
  accepted := by
    rcases stepCall_file (h.calls i) ok with heq | ⟨heq, hordered, -⟩
    · rw [heq]
      exact h.accepted
    · rw [heq, readPowerLimits_text (Call.applied_valid hordered)]
      exact Reading.noConfusion

/-- A call that begins has no lock and has done nothing. -/
theorem Inv.call (h : Inv ft file p s) (i : ℕ) (min max : ℤ) (persist : Bool) :
    Inv ft file p (next ft s (.call i min max persist)) := by
  simp only [next]
  split
  case isFalse => exact h
  case isTrue hidle =>
    have hsame : ∀ k, k ≠ i →
        Function.update s.calls i { min := min, max := max, persist := persist, stage := .called }
          k = s.calls k :=
      fun k hk => Function.update_of_ne hk _ _
    have hcall : ∀ f : Stage → Bool, f .called = f .idle → ∀ k,
        f (Function.update s.calls i
          { min := min, max := max, persist := persist, stage := .called } k).stage =
          f (s.calls k).stage := fun f hf k => by
      by_cases hk : k = i
      · rw [hk, Function.update_self, hidle]
        exact hf
      · rw [hsame k hk]
    have hsource : ∀ q, Source p s q → Source p { s with
        calls := Function.update s.calls i
          { min := min, max := max, persist := persist, stage := .called } } q := by
      rintro q (rfl | ⟨k, hdone, rfl⟩)
      · exact Or.inl rfl
      · have hk : k ≠ i := fun hk => by
          rw [hk, hidle] at hdone
          cases hdone
        exact Or.inr ⟨k, by simpa only [hsame k hk] using hdone, by simp only [hsame k hk]⟩
    refine ⟨fun k => ?_, fun j => ?_, fun hnone => ?_, fun hnone => ?_, h.accepted⟩
    · obtain ⟨hholder, hsetter, hordered, htemporary, hsaved, hassigned⟩ := h.calls k
      by_cases hk : k = i
      · subst hk
        rw [hidle] at hholder hsetter
        refine ⟨?_, ?_, ?_, ?_, ?_, ?_⟩ <;>
          simp_all [holds, assigns, checked, written, late, Assigned]
      · unfold Assigned at hassigned
        refine ⟨?_, ?_, ?_, ?_, ?_, ?_⟩
        all_goals first | unfold Assigned | skip
        all_goals
          simp only [hsame k hk]
          assumption
    · obtain ⟨hholder, hminimum, hseen⟩ := h.cycles j
      exact ⟨hholder, hminimum, fun q hq => hsource q (hseen q hq)⟩
    · simp only [hcall assigns rfl] at hnone
      exact (h.memory hnone).imp_right (hsource _)
    · simp only [hcall late rfl] at hnone
      refine (h.settled hnone).imp_right fun ⟨k, hreturned, hrest⟩ => ⟨k, ?_⟩
      have hk : k ≠ i := fun hk => by
        rw [hk, hidle] at hreturned
        cases hreturned
      simp only [hsame k hk]
      exact ⟨hreturned, hrest⟩

/-- A control write changes nothing but its own place and lock. -/
theorem Inv.withCycle {j : ℕ} {c : Cycle} {lock : Option Owner} (h : Inv ft file p s)
    (hlock : ∀ o, o ≠ .cycle j → (lock = some o ↔ s.watchdogLock = some o))
    (hreads : Reads p { s with cycles := Function.update s.cycles j c, watchdogLock := lock } j) :
    Inv ft file p { s with cycles := Function.update s.cycles j c, watchdogLock := lock } := by
  refine ⟨fun i => ?_, fun k => ?_, h.memory, h.settled, h.accepted⟩
  · obtain ⟨hholder, hsetter, hordered, htemporary, hsaved, hassigned⟩ := h.calls i
    exact ⟨hholder, hsetter.trans (hlock (.setter i) (by simp)).symm, hordered, htemporary, hsaved,
      hassigned⟩
  · by_cases hk : k = j
    · exact hk ▸ hreads
    · obtain ⟨hholder, hminimum, hseen⟩ := h.cycles k
      have hsame : Function.update s.cycles j c k = s.cycles k := Function.update_of_ne hk _ _
      refine ⟨?_, ?_, ?_⟩
      · simp only [hsame]
        exact hholder.trans (hlock (.cycle k) (by simpa using hk)).symm
      · simp only [hsame]
        exact hminimum
      · simp only [hsame]
        exact hseen

/-- A control write reads the limits between two updates. -/
theorem Inv.cycle (h : Inv ft file p s) (j : ℕ) : Inv ft file p (next ft s (.cycle j)) := by
  obtain ⟨hholder, hminimum, hseen⟩ := h.cycles j
  simp only [next, stepCycle]
  split
  case h_1 hidle =>
    split
    case isFalse => exact h
    case isTrue hfree =>
      refine h.withCycle (fun o ho => ?_) ⟨?_, ?_, ?_⟩
      · rw [hfree]
        simp [Ne.symm ho]
      all_goals simp [reading]
  case h_2 hreadMin =>
    rw [hreadMin] at hholder
    refine h.withCycle (fun o _ => Iff.rfl) ⟨?_, ?_, ?_⟩
    · simpa [reading] using hholder
    · simp
    · simp
  case h_3 m hreadMax =>
    have hlock : s.watchdogLock = some (.cycle j) := hholder.mp (by rw [hreadMax]; rfl)
    have hnone : ∀ i, assigns (s.calls i).stage = false := fun i =>
      Bool.eq_false_iff.mpr fun hassigns => by simpa [hlock] using (h.calls i).setter.mp hassigns
    refine h.withCycle (fun o ho => ?_) ⟨?_, ?_, fun q hq => ?_⟩
    · rw [hlock]
      simp [Ne.symm ho]
    · simp [reading]
    · simp
    · have hq : q = s.controller := by
        simpa [hminimum m hreadMax, eq_comm] using hq
      rw [hq]
      exact (h.memory hnone).2
  case h_4 => exact h

theorem Inv.next (h : Inv ft file p s) (e : Event) : Inv ft file p (Model.next ft s e) := by
  cases e with
  | call i min max persist => exact h.call i min max persist
  | step i ok => exact h.stepCall i ok
  | cycle j => exact h.cycle j

theorem inv_init (h : readPowerLimits ft file ≠ .invalid) : Inv ft file p (init file p) :=
  ⟨fun _ => by constructor <;> simp [init, holds, assigns, checked, written, late, Assigned],
    fun _ => by constructor <;> simp [init, reading],
    fun _ => ⟨rfl, Or.inl rfl⟩, fun _ => Or.inl ⟨rfl, rfl⟩, h⟩

/-- **Run.** -/
theorem inv_exec (h : readPowerLimits ft file ≠ .invalid) (es : List Event) :
    Inv ft file p (exec (Model.next ft) (init file p) es) :=
  exec_invariant (inv_init h) fun x _ hx => hx.next x.input

/-! ### Histories -/

/-- The call has changed nothing. -/
def early : Stage → Bool
  | .idle | .called | .locking | .raised => true
  | .saving save => save ≠ .unlink
  | _ => false

/-- File, controller and calculator are the same. -/
def Same (s s' : System) : Prop :=
  s'.file = s.file ∧ s'.controller = s.controller ∧ s'.calculator = s.calculator

/-- The step that changes something is the end of that phase. -/
theorem stepCall_early {ok : Bool} (h : early ((stepCall ft s i ok).calls i).stage = true) :
    early (s.calls i).stage = true ∧ Same s (stepCall ft s i ok) := by
  have hstepped := stepCall_stepped ft s i ok
  generalize stepCall ft s i ok = s' at hstepped h ⊢
  cases hstepped
  case stays => exact ⟨h, rfl, rfl, rfl⟩
  case accepts ordered before => exact ⟨by rw [before]; rfl, rfl, rfl, rfl⟩
  case rejects before => exact ⟨by rw [before]; rfl, rfl, rfl, rfl⟩
  case takesUpdate free stage after before => exact ⟨by rw [before]; rfl, rfl, rfl, rfl⟩
  case fails save unlink before => exact ⟨by simpa [before, early] using unlink, rfl, rfl, rfl⟩
  case saves save save' hwritten hlate unlink before =>
    exact ⟨by simpa [before, early] using unlink, rfl, rfl, rfl⟩
  case writes before => exact ⟨by rw [before]; rfl, rfl, rfl, rfl⟩
  all_goals simp [early] at h

theorem next_early {e : Event} (h : early ((next ft s e).calls i).stage = true) :
    early (s.calls i).stage = true ∧ ∀ ok, e = .step i ok → Same s (next ft s e) := by
  cases e with
  | call k min max persist =>
    refine ⟨?_, by simp⟩
    simp only [next] at h
    split at h
    case isTrue hidle =>
      by_cases hk : i = k
      · rw [hk, hidle]
        rfl
      · simpa [Function.update_of_ne hk] using h
    case isFalse => exact h
  | step k ok =>
    by_cases hk : i = k
    · subst hk
      have := stepCall_early h
      exact ⟨this.1, fun _ _ => this.2⟩
    · simp only [next, stepCall_ne ft hk] at h
      exact ⟨h, by simp [Ne.symm hk]⟩
  | cycle j =>
    refine ⟨?_, by simp⟩
    simp only [next, stepCycle] at h
    split at h <;> (try split at h) <;> exact h

/-- What returned stays as it is. -/
theorem next_returned (h : (s.calls i).stage = .returned) (e : Event) :
    (next ft s e).calls i = s.calls i := by
  cases e with
  | call k min max persist =>
    simp only [next]
    split
    case isTrue hidle =>
      refine Function.update_of_ne (fun hk => ?_) _ _
      rw [← hk, h] at hidle
      cases hidle
    case isFalse => rfl
  | step k ok =>
    by_cases hk : i = k
    · subst hk
      simp only [next, stepCall, h]
    · exact stepCall_ne ft hk ok
  | cycle j =>
    simp only [next, stepCycle]
    split <;> (try split) <;> rfl

/-- A call returns from its last stage. -/
theorem next_leaving {e : Event} (h : ((next ft s e).calls i).stage = .returned)
    (hbefore : (s.calls i).stage ≠ .returned) : (s.calls i).stage = .leaving ∧ ∃ ok, e = .step i ok := by
  cases e with
  | call k min max persist =>
    simp only [next] at h
    split at h
    case isTrue hidle =>
      by_cases hk : i = k
      · simp [hk] at h
      · exact absurd (by simpa [Function.update_of_ne hk] using h) hbefore
    case isFalse => exact absurd h hbefore
  | step k ok =>
    by_cases hk : i = k
    · subst hk
      refine ⟨?_, ok, rfl⟩
      have hstepped := stepCall_stepped ft s i ok
      simp only [next] at h
      generalize stepCall ft s i ok = s' at hstepped h
      cases hstepped
      case stays => exact absurd h hbefore
      case leaves before => exact before
      case takesUpdate free stage after before => rcases after with rfl | ⟨rfl, -⟩ <;> simp at h
      all_goals simp [fail] at h
    · exact absurd (by simpa only [next, stepCall_ne ft hk] using h) hbefore
  | cycle j =>
    simp only [next, stepCycle] at h
    split at h <;> (try split at h) <;> exact absurd h hbefore

/-- The call has its pair in every copy, and no other call changes one of them. -/
structure Installed (ft : FloatText ℚ) (s : System) (i : ℕ) (q : Pair) : Prop where
  holder : s.updateLock = some i
  controller : s.controller = q
  calculator : s.calculator = q
  file : (s.calls i).persist = true → s.file = some (text ft q)

/-- The state after the events, from the configured pair on. -/
def after (ft : FloatText ℚ) (file : Option (List Char)) (p : Pair) (es : List Event) : System :=
  exec (next ft) (init file p) es

/-- The updates are atomic. -/
structure Consistent (ft : FloatText ℚ) (file : Option (List Char)) (p : Pair) (es : List Event) :
    Prop where
  /-- Outside the watchdog's lock the limits are in order, and the calculator has those of the
  controller. -/
  agree : (after ft file p es).watchdogLock = none →
    (after ft file p es).controller.Valid ∧
      (after ft file p es).calculator = (after ft file p es).controller
  /-- A call that returned has installed its clamped pair. -/
  installed : ∀ i, ((after ft file p es).calls i).stage = .returned →
    ((after ft file p es).calls i).applied.Valid ∧
      ∃ before rest, es = before ++ rest ∧
        ((after ft file p before).calls i).persist = ((after ft file p es).calls i).persist ∧
        Installed ft (after ft file p before) i ((after ft file p es).calls i).applied
  /-- A call that raised has changed nothing. -/
  kept : ∀ i, ((after ft file p es).calls i).stage = .raised →
    ∀ x ∈ trace (next ft) (init file p) es, ∀ ok, x.input = .step i ok →
      Same x.before (next ft x.before x.input)
  /-- Outside the update lock file and memory are of one call, unless that call was not to persist. -/
  single : (after ft file p es).updateLock = none →
    ((after ft file p es).file = file ∧ (after ft file p es).controller = p) ∨
      ∃ i, ((after ft file p es).calls i).stage = .returned ∧
        (after ft file p es).controller = ((after ft file p es).calls i).applied ∧
        (((after ft file p es).calls i).persist = true →
          (after ft file p es).file = some (text ft ((after ft file p es).calls i).applied))
  /-- A control write reads the pair of the start, or of one call. -/
  seen : ∀ j q, (after ft file p es).cycles j = .seen q →
    q.Valid ∧ Source p (after ft file p es) q
  /-- The file can be read. -/
  accepted : readPowerLimits ft (after ft file p es).file ≠ .invalid

theorem loadPowerLimits_eq_some {configured : Pair} (h : loadPowerLimits ft file configured = some p) :
    p.Valid ∧ readPowerLimits ft file ≠ .invalid := by
  unfold loadPowerLimits at h
  split at h
  case h_1 q hlimits =>
    obtain rfl : q = p := by simpa using h
    exact ⟨readPowerLimits_valid hlimits, by simp [hlimits]⟩
  case h_2 habsent =>
    split at h
    case isTrue hvalid =>
      obtain rfl : configured = p := by simpa using h
      exact ⟨hvalid, by simp [habsent]⟩
    case isFalse => cases h
  case h_3 => cases h

theorem Inv.source_valid (h : Inv ft file p s) (hp : p.Valid) {q : Pair} (hq : Source p s q) :
    q.Valid := by
  rcases hq with rfl | ⟨k, hdone, rfl⟩
  · exact hp
  · refine Call.applied_valid ((h.calls k).ordered ?_)
    revert hdone
    cases (s.calls k).stage <;> simp [done, checked]

/-- Before a call returned it had its pair in every copy. -/
theorem installed_of_returned (h : readPowerLimits ft file ≠ .invalid) (i : ℕ) (es : List Event) :
    ((after ft file p es).calls i).stage = .returned →
      ∃ before rest, es = before ++ rest ∧
        ((after ft file p before).calls i).persist = ((after ft file p es).calls i).persist ∧
        Installed ft (after ft file p before) i ((after ft file p es).calls i).applied := by
  refine history_induction (P := fun es (s : System) => (s.calls i).stage = .returned →
    ∃ before rest, es = before ++ rest ∧
    ((after ft file p before).calls i).persist = (s.calls i).persist ∧
      Installed ft (after ft file p before) i (s.calls i).applied) ?_ (fun es e ih hreturned => ?_) es
  · intro hreturned
    cases hreturned
  · by_cases hbefore : ((exec (next ft) (init file p) es).calls i).stage = .returned
    · obtain ⟨before, rest, rfl, hpersist, hinstalled⟩ := ih hbefore
      rw [next_returned hbefore]
      exact ⟨before, rest ++ [e], by simp, hpersist, hinstalled⟩
    · obtain ⟨hleaving, ok, rfl⟩ := next_leaving hreturned hbefore
      have hat := (inv_exec (p := p) h es).calls i
      have hgiven := stepCall_given ft (s := exec (next ft) (init file p) es) (i := i) ok
      have hassigned := hat.assigned
      simp only [Assigned, hleaving] at hassigned
      simp only [next, hgiven]
      refine ⟨es, [.step i ok], rfl, rfl, hat.holder.mp (by rw [hleaving]; rfl), hassigned.1,
        hassigned.2, ?_⟩
      exact hat.saved (by rw [hleaving]; rfl)

/-- What is still early has changed nothing. -/
theorem same_of_early (i : ℕ) (es : List Event) : early ((after ft file p es).calls i).stage = true →
    ∀ x ∈ trace (next ft) (init file p) es, ∀ ok, x.input = .step i ok →
      Same x.before (next ft x.before x.input) := by
  refine history_induction (P := fun es (s : System) => early (s.calls i).stage = true →
    ∀ x ∈ trace (next ft) (init file p) es, ∀ ok, x.input = .step i ok →
      Same x.before (next ft x.before x.input))
    ?_ (fun es e ih hearly x hx ok hinput => ?_) es
  · intro _ x hx
    cases hx
  · obtain ⟨hbefore, hsame⟩ := next_early hearly
    rw [trace_snoc] at hx
    rcases List.mem_append.mp hx with hx | hx
    · exact ih hbefore x hx ok hinput
    · rw [List.mem_singleton.mp hx] at hinput ⊢
      exact hsame ok hinput

/-- **Updates of the power limits are atomic**, in every order of the steps of the calls and of the
control writes, whatever file operation fails. -/
theorem power_limits_atomic {configured : Pair} (h : loadPowerLimits ft file configured = some p)
    (es : List Event) : Consistent ft file p es := by
  obtain ⟨hvalid, hreadable⟩ := loadPowerLimits_eq_some h
  have hinv : Inv ft file p (after ft file p es) := inv_exec hreadable es
  refine ⟨fun hfree => ?_, fun i hreturned => ⟨?_, installed_of_returned hreadable i es hreturned⟩,
    fun i hraised => same_of_early i es (by rw [hraised]; rfl), fun hfree => ?_, fun j q hq => ?_,
    hinv.accepted⟩
  · have hnone : ∀ i, assigns ((after ft file p es).calls i).stage = false := fun i =>
      Bool.eq_false_iff.mpr fun hassigns => by simpa [hfree] using (hinv.calls i).setter.mp hassigns
    obtain ⟨hagree, hsource⟩ := hinv.memory hnone
    exact ⟨hinv.source_valid hvalid hsource, hagree.symm⟩
  · exact Call.applied_valid ((hinv.calls i).ordered (by rw [hreturned]; rfl))
  · refine hinv.settled fun i => Bool.eq_false_iff.mpr fun hlate => ?_
    have hholds : holds ((after ft file p es).calls i).stage = true := by
      revert hlate
      cases ((after ft file p es).calls i).stage <;> simp [late, holds]
    simpa [hfree] using (hinv.calls i).holder.mp hholds
  · have hsource := (hinv.cycles j).seen q hq
    exact ⟨hinv.source_valid hvalid hsource, hsource⟩

/-- `repr` of the floats that are whole numbers below ten. -/
def digitText : FloatText ℚ where
  text q := Nat.toDigits 10 q.num.toNat ++ ['.', '0']
  parse cs := match cs with
    | [c, '.', '0'] => (parseNat [c]).map Nat.cast
    | _ => none

/-- A pair above the envelope is persisted; a call that cannot write its file comes after it. -/
def updatedRun : List Event :=
  .call 0 (-500) 4000 true :: (List.replicate 18 (.step 0 true) ++
    [.call 1 0 0 true, .step 1 true, .step 1 true, .step 1 true, .step 1 false, .cycle 0, .cycle 0,
      .cycle 0])

/-- The control write sees the clamped pair. -/
theorem power_limits_atomic_updated :
    Consistent digitText none ⟨-2300, 2250⟩ updatedRun ∧
      ((after digitText none ⟨-2300, 2250⟩ updatedRun).calls 0).stage = .returned ∧
      ((after digitText none ⟨-2300, 2250⟩ updatedRun).calls 1).stage = .raised ∧
      (after digitText none ⟨-2300, 2250⟩ updatedRun).cycles 0 = .seen ⟨-500, 3000⟩ :=
  ⟨power_limits_atomic
      (by decide : loadPowerLimits digitText none ⟨-2300, 2250⟩ = some ⟨-2300, 2250⟩) updatedRun,
    by decide +kernel, by decide +kernel, by decide +kernel⟩

end InverterControl.PowerLimits.Atomic
