import InverterControl.Logic.Modes

/-!
# The EV's power that is left out

A calculator that is fed the grid with the EV's power and told to leave it out, beside one that is
fed the grid of the house.  Both see the same house wherever the average of the derived grid has the
EV's power of this cycle in it (`Cancels`), and so give the same setpoints (`next_cancels`).  The
legacy average keeps the EV's power of earlier cycles, so there it must not have changed
(`cleanFrom_iff`).
-/

namespace InverterControl.Logic.Exclusion

open InverterControl.Lib.Runs InverterControl.Python
open InverterControl.Logic.Model InverterControl.Logic.Pipeline InverterControl.Logic.Modes

variable {c : SetpointCalculator} {f : Option ℚ} {s : SystemState} {e : ℚ}

/-! ### Two calculators -/

/-- The same house with an EV in front of the meter, whose power is to be left out. -/
def withEv (e : ℚ) (s : SystemState) : SystemState :=
  { s with
    gt := s.gt + e
    prefilteredGt := s.prefilteredGt.map (· + e)
    derivedGt := s.derivedGt.map (· + e)
    doNotSupplyCharger := true
    evPower := some e }

/-- The same calculator, with another average of the derived grid. -/
def withDerived (f : Option ℚ) (c : SetpointCalculator) : SetpointCalculator :=
  { c with filteredDerivedGt := f }

/-- The state of the house alone. -/
structure HouseOnly (s : SystemState) : Prop where
  exclusion : s.doNotSupplyCharger = false
  limit : s.limitToEv = false

/-- The average with the EV is the one without it, and the EV's power of this cycle. -/
def Cancels (c : SetpointCalculator) (f : Option ℚ) (s : SystemState) (e : ℚ) : Prop :=
  ∀ d ∈ s.derivedGt, c.config.gridSmoothingHomeWeight = 0 ∨
    filteredDerived (withDerived f c) (d + e) - e = filteredDerived c d

theorem evExclusion_withEv (he : 100 < e) : evExclusion (withEv e s) = e := if_pos ⟨rfl, he⟩

theorem HouseOnly.evExclusion (h : HouseOnly s) : evExclusion s = 0 := by
  unfold Model.evExclusion
  split
  · rw [if_neg fun hon => Bool.false_ne_true (h.exclusion.symm.trans hon.1)]
  · rfl

/-- The blend with the EV, in terms of the one without it. -/
theorem blendDerivedGrid_withEv (he : 100 < e) (h : HouseOnly s) (gt : ℚ) :
    blendDerivedGrid (withDerived f c) (withEv e s) gt = blendDerivedGrid c s gt +
      c.config.gridSmoothingHomeWeight * (s.derivedGt.elim 0 fun d =>
        filteredDerived (withDerived f c) (d + e) - e - filteredDerived c d) := by
  unfold blendDerivedGrid
  rw [evExclusion_withEv he, h.evExclusion]
  cases hd : s.derivedGt with
  | none => simp [withEv, hd]
  | some d =>
    simp only [withEv, hd, Option.map_some, Option.elim_some, withDerived]
    ring

/-- What the legacy average adds to the house's grid value. -/
def residue (c : SetpointCalculator) (f : Option ℚ) (s : SystemState) (e : ℚ) : ℚ :=
  c.config.gridSmoothingHomeWeight * (s.derivedGt.elim 0 fun d =>
    filteredDerived (withDerived f c) (d + e) - e - filteredDerived c d)

theorem residue_eq_zero_iff : residue c f s e = 0 ↔ Cancels c f s e := by
  unfold residue Cancels
  cases s.derivedGt with
  | none => simp
  | some d =>
    rw [Option.elim_some, mul_eq_zero, sub_eq_zero]
    simp

theorem effectiveGt_withEv (he : 100 < e) (h : HouseOnly s) :
    effectiveGt (withDerived f c) (withEv e s) = effectiveGt c s + residue c f s e := by
  have hgt : (withEv e s).gt = s.gt + e := rfl
  rw [effectiveGt, evExclusion_withEv he, hgt, add_sub_cancel_right, blendDerivedGrid_withEv he h,
    effectiveGt, h.evExclusion, sub_zero, residue]

theorem prefilteredGt_withEv (he : 100 < e) (h : HouseOnly s) :
    prefilteredGt (withDerived f c) (withEv e s) = (prefilteredGt c s).map (· + residue c f s e) := by
  have hgt : (withEv e s).prefilteredGt = s.prefilteredGt.map (· + e) := rfl
  rw [prefilteredGt, evExclusion_withEv he, hgt, Option.map_map, prefilteredGt, h.evExclusion,
    Option.map_map]
  refine congrArg (Option.map · s.prefilteredGt) (funext fun gt => ?_)
  simp only [Function.comp_apply]
  rw [add_sub_cancel_right, blendDerivedGrid_withEv he h, sub_zero, residue]

theorem oldFilteredGt_withEv (he : 100 < e) (h : HouseOnly s) (hzero : residue c f s e = 0) :
    oldFilteredGt (withDerived f c) (withEv e s) = oldFilteredGt c s := by
  have hfiltered : (withEv e s).filteredGt = s.filteredGt := rfl
  rw [oldFilteredGt, prefilteredGt_withEv he h, hzero, hfiltered, oldFilteredGt]
  simp

/-- The filtered value with the EV, in terms of the one without it. -/
theorem newFilteredGt_withEv (he : 100 < e) (h : HouseOnly s) :
    newFilteredGt (withDerived f c) (withEv e s) = newFilteredGt c s + residue c f s e *
      if prefilteredGt c s = none ∧ s.filteredGt ≠ none then c.config.emaAlpha else 1 := by
  have hfiltered : (withEv e s).filteredGt = s.filteredGt := rfl
  have hconfig : (withDerived f c).config = c.config := rfl
  unfold newFilteredGt
  rw [prefilteredGt_withEv he h, effectiveGt_withEv he h, hfiltered, hconfig]
  cases prefilteredGt c s <;> cases s.filteredGt <;> simp
  ring

/-! ### One cycle -/

theorem normalStrategy_withEv (hnew : newFilteredGt (withDerived f c) (withEv e s) = newFilteredGt c s) :
    (normalStrategy (withDerived f c) (filteredState (withDerived f c) (withEv e s))).1 =
      (normalStrategy c (filteredState c s)).1 := by
  have hsmoothed : smoothedGt (filteredState (withDerived f c) (withEv e s)) =
    smoothedGt (filteredState c s) := hnew
  rw [normalStrategy_fst, normalStrategy_fst, hsmoothed]
  rfl

/-- What the normal strategy reads of the grid decides it. -/
theorem normalCommand_withEv (heffective : effectiveGt (withDerived f c) (withEv e s) = effectiveGt c s)
    (hold : oldFilteredGt (withDerived f c) (withEv e s) = oldFilteredGt c s)
    (hnew : newFilteredGt (withDerived f c) (withEv e s) = newFilteredGt c s) :
    (normalCommand (withDerived f c) (withEv e s)).1.1 = (normalCommand c s).1.1 ∧
      (normalCommand (withDerived f c) (withEv e s)).2 = (normalCommand c s).2 := by
  have hburst : burstNormal (withDerived f c) (filteredState (withDerived f c) (withEv e s))
      (effectiveGt (withDerived f c) (withEv e s)) (oldFilteredGt (withDerived f c) (withEv e s)) =
      burstNormal c (filteredState c s) (effectiveGt c s) (oldFilteredGt c s) := by
    rw [burstNormal, normalStrategy_withEv hnew, heffective, hold, burstNormal]
    rfl
  have hholds : normalHolds (withDerived f c) (filteredState (withDerived f c) (withEv e s)) ↔
      normalHolds c (filteredState c s) := by
    have hsmoothed : smoothedGt (filteredState (withDerived f c) (withEv e s)) =
        smoothedGt (filteredState c s) := hnew
    unfold normalHolds
    rw [normalStrategy_withEv hnew, hsmoothed]
    rfl
  simp only [normalCommand, correctedNormal, brakedNormal]
  rw [hburst, heffective]
  refine ⟨?_, rfl⟩
  by_cases hhold : normalHolds c (filteredState c s)
  · rw [if_pos hhold, if_pos (hholds.mpr hhold)]
  · rw [if_neg hhold, if_neg fun h => hhold (hholds.mp h)]
    rfl

theorem HouseOnly.modeTarget (h : HouseOnly s) :
    modeTarget c.config (withEv e s) = modeTarget c.config s := by
  have hno : ¬ limitsToEv s := fun hl => Bool.false_ne_true (h.limit.symm.trans hl.1)
  have hno' : ¬ limitsToEv (withEv e s) := fun hl => Bool.false_ne_true (h.limit.symm.trans hl.1)
  unfold Modes.modeTarget
  rw [if_neg hno, if_neg hno']
  rfl

/-- The setpoint of one cycle, with its filtered value. -/
def output (c : SetpointCalculator) (s : SystemState) : ℤ × ℚ :=
  ((calculate c s).1.setpoint, (calculate c s).1.filteredGt)

/-- **A cycle in which the EV's power cancels** gives the same output. -/
theorem output_withEv (he : 100 < e) (h : HouseOnly s) (hcancels : Cancels c f s e) :
    output (withDerived f c) (withEv e s) = output c s := by
  have hzero := residue_eq_zero_iff.mpr hcancels
  have heffective := effectiveGt_withEv (c := c) (f := f) he h
  have hnew := newFilteredGt_withEv (c := c) (f := f) he h
  rw [hzero, add_zero] at heffective
  rw [hzero, zero_mul, add_zero] at hnew
  obtain ⟨hvalue, hfired⟩ := normalCommand_withEv heffective (oldFilteredGt_withEv he h hzero) hnew
  have hraw : (rawCommand (withDerived f c) (withEv e s)).1.1 = (rawCommand c s).1.1 := by
    cases hmode : modeTarget c.config s with
    | some target =>
      rw [rawCommand_target hmode]
      exact rawCommand_target (h.modeTarget.trans hmode)
    | none =>
      have hraw' := rawCommand_none (c := withDerived f c) (s := withEv e s) (h.modeTarget.trans hmode)
      rw [hvalue] at hraw'
      rw [rawCommand_none hmode]
      exact hraw'
  have hsnd : (rawCommand (withDerived f c) (withEv e s)).2 = (rawCommand c s).2 := hfired
  have hconverged : converged (withDerived f c) (withEv e s) = converged c s := by
    rw [converged, hraw, hsnd, converged]
    rfl
  have hfree : ¬ Floored s := fun hfloor => Bool.false_ne_true (h.exclusion.symm.trans hfloor.1)
  have hfree' : ¬ Floored (withEv e s) := fun hfloor => Option.some_ne_none e hfloor.2.1
  refine Prod.ext ?_ hnew
  simp only [output]
  rw [calculate_setpoint_of_not_floored hfree, calculate_setpoint_of_not_floored hfree', hconverged]
  rfl

/-- Where the average moves at all, an equal filtered value shows that the EV's power cancels. -/
theorem cancels_of_output (he : 100 < e) (h : HouseOnly s) (halpha : c.config.emaAlpha ≠ 0)
    (houtput : output (withDerived f c) (withEv e s) = output c s) : Cancels c f s e := by
  have hnew : newFilteredGt (withDerived f c) (withEv e s) = newFilteredGt c s :=
    congrArg Prod.snd houtput
  rw [newFilteredGt_withEv he h, add_eq_left, mul_eq_zero] at hnew
  refine residue_eq_zero_iff.mp (hnew.resolve_right ?_)
  split_ifs
  · exact halpha
  · exact one_ne_zero

/-- The calculators stay alike. -/
theorem after_withEv (he : 100 < e) (h : HouseOnly s) (hcancels : Cancels c f s e) :
    after (withDerived f c) (withEv e s) =
      withDerived (derivedAfter (withDerived f c) (withEv e s)) (after c s) := by
  have hzero := residue_eq_zero_iff.mpr hcancels
  have heffective := effectiveGt_withEv (c := c) (f := f) he h
  have hnew := newFilteredGt_withEv (c := c) (f := f) he h
  rw [hzero, add_zero] at heffective
  rw [hzero, zero_mul, add_zero] at hnew
  have hsmoothed : smoothedGt (filteredState (withDerived f c) (withEv e s)) =
    smoothedGt (filteredState c s) := hnew
  have hcreep : normalCreep (withDerived f c) (filteredState (withDerived f c) (withEv e s)) =
      normalCreep c (filteredState c s) := by
    unfold normalCreep
    rw [hsmoothed]
    rfl
  simp only [after, calculate]
  rw [heffective, hcreep]
  rfl

/-! ### Runs -/

/-- The outputs of a sequence of cycles. -/
def outputs : SetpointCalculator → List SystemState → List (ℤ × ℚ)
  | _, [] => []
  | c, s :: states => output c s :: outputs (after c s) states

/-- A state of the house, and the EV's power beside it. -/
abbrev Cycle := SystemState × ℚ

/-- The EV's power cancels in every cycle. -/
def CleanFrom : SetpointCalculator → Option ℚ → List Cycle → Prop
  | _, _, [] => True
  | c, f, (s, e) :: cycles =>
    Cancels c f s e ∧ CleanFrom (after c s) (derivedAfter (withDerived f c) (withEv e s)) cycles

/-- The house is measured without the car, which draws more than 100 W. -/
def Measured (cycles : List Cycle) : Prop := ∀ x ∈ cycles, HouseOnly x.1 ∧ 100 < x.2

/-- The run with the EV and the run of the house have the same outputs. -/
def SameOutputs (c : SetpointCalculator) (f : Option ℚ) (cycles : List Cycle) : Prop :=
  outputs (withDerived f c) (cycles.map fun x => withEv x.2 x.1) = outputs c (cycles.map Prod.fst)

variable {cycles : List Cycle}

theorem sameOutputs_of_cleanFrom (hmeasured : Measured cycles) (hclean : CleanFrom c f cycles) :
    SameOutputs c f cycles := by
  induction cycles generalizing c f with
  | nil => rfl
  | cons x cycles ih =>
    obtain ⟨s, e⟩ := x
    obtain ⟨hcancels, hrest⟩ := hclean
    obtain ⟨hhouse, he⟩ := hmeasured (s, e) List.mem_cons_self
    have hih := ih (fun y hy => hmeasured y (List.mem_cons_of_mem _ hy)) hrest
    unfold SameOutputs at hih ⊢
    rw [List.map_cons, List.map_cons, outputs, outputs, output_withEv he hhouse hcancels,
      after_withEv he hhouse hcancels, hih]

theorem cleanFrom_of_sameOutputs (hmeasured : Measured cycles) (halpha : c.config.emaAlpha ≠ 0)
    (hsame : SameOutputs c f cycles) : CleanFrom c f cycles := by
  induction cycles generalizing c f with
  | nil => trivial
  | cons x cycles ih =>
    obtain ⟨s, e⟩ := x
    obtain ⟨hhouse, he⟩ := hmeasured (s, e) List.mem_cons_self
    unfold SameOutputs at hsame
    rw [List.map_cons, List.map_cons, outputs, outputs, List.cons.injEq] at hsame
    have hcancels := cancels_of_output he hhouse halpha hsame.1
    refine ⟨hcancels, ih (fun y hy => hmeasured y (List.mem_cons_of_mem _ hy)) halpha ?_⟩
    rw [SameOutputs, ← after_withEv he hhouse hcancels]
    exact hsame.2

/-! ### When the legacy average is clean -/

/-- The EV's powers of the cycles that have a derived grid value. -/
def derivedPowers (cycles : List Cycle) : List ℚ :=
  (cycles.filter fun x => x.1.derivedGt.isSome).map Prod.snd

/-- The derived value is smoothed already, or has no weight, or the legacy average is its last
value; or no cycle has one; or the legacy average starts with the run and the EV's power does not
change in it. -/
def Clean (c : SetpointCalculator) (cycles : List Cycle) : Prop :=
  0 < c.config.gridSmoothingDerivedTau ∨ c.config.gridSmoothingHomeWeight = 0 ∨
    c.config.gridSmoothingDerivedAlpha = 1 ∨ derivedPowers cycles = [] ∨
    (c.filteredDerivedGt = none ∧ (derivedPowers cycles).Pairwise (· = ·))

instance (c : SetpointCalculator) (cycles : List Cycle) : Decidable (Clean c cycles) := by
  unfold Clean; infer_instance

/-- The settings under which every cycle is clean. -/
def AlwaysClean (config : Config) : Prop :=
  0 < config.gridSmoothingDerivedTau ∨ config.gridSmoothingHomeWeight = 0 ∨
  config.gridSmoothingDerivedAlpha = 1

theorem cancels_of_alwaysClean (h : AlwaysClean c.config) : Cancels c f s e := by
  intro d hd
  rcases h with htau | hweight | halpha
  · refine Or.inr ?_
    have htau' : 0 < (withDerived f c).config.gridSmoothingDerivedTau := htau
    rw [filteredDerived, if_pos htau', filteredDerived, if_pos htau, add_sub_cancel_right]
  · exact Or.inl hweight
  · refine Or.inr ?_
    have halpha' : (withDerived f c).config.gridSmoothingDerivedAlpha = 1 := halpha
    have hsame : ∀ (c : SetpointCalculator) (d : ℚ), c.config.gridSmoothingDerivedAlpha = 1 →
      filteredDerived c d = d := by
      intro c d hone
      unfold filteredDerived
      split
      · rfl
      · split
        · rfl
        · rw [hone]
          ring
    rw [hsame _ _ halpha', hsame _ _ halpha, add_sub_cancel_right]

theorem cleanFrom_of_alwaysClean (h : AlwaysClean c.config) : CleanFrom c f cycles := by
  induction cycles generalizing c f with
  | nil => trivial
  | cons x cycles ih => exact ⟨cancels_of_alwaysClean h, ih h⟩

theorem derivedPowers_cons_none (hd : s.derivedGt = none) :
    derivedPowers ((s, e) :: cycles) = derivedPowers cycles := by
  rw [derivedPowers, List.filter_cons_of_neg (by simp [hd]), derivedPowers]

theorem derivedPowers_cons_some {d : ℚ} (hd : s.derivedGt = some d) :
    derivedPowers ((s, e) :: cycles) = e :: derivedPowers cycles := by
  rw [derivedPowers, List.filter_cons_of_pos (by simp [hd]), List.map_cons, derivedPowers]

/-- A cycle without a derived grid value leaves the average. -/
theorem cleanFrom_cons_none (hd : s.derivedGt = none) :
    CleanFrom c f ((s, e) :: cycles) ↔ CleanFrom (after c s) f cycles := by
  have hev : (withEv e s).derivedGt = none := by
    rw [withEv, hd]
    rfl
  have hafter : derivedAfter (withDerived f c) (withEv e s) = f := by
    rw [derivedAfter, hev]
    rfl
  rw [CleanFrom, hafter, Cancels, hd]
  simp

theorem after_filteredDerivedGt : (after c s).filteredDerivedGt = derivedAfter c s := rfl

/-- The legacy average of a value. -/
theorem filteredDerived_legacy (h : ¬ AlwaysClean c.config) (d : ℚ) : filteredDerived c d =
    c.filteredDerivedGt.elim d fun old =>
      c.config.gridSmoothingDerivedAlpha * d + (1 - c.config.gridSmoothingDerivedAlpha) * old := by
  rw [filteredDerived, if_neg fun htau => h (Or.inl htau)]
  cases c.filteredDerivedGt <;> rfl

theorem derivedAfter_legacy (h : ¬ AlwaysClean c.config) {d : ℚ} (hd : s.derivedGt = some d) :
    derivedAfter c s = some (filteredDerived c d) := by
  rw [derivedAfter, hd]
  exact if_neg fun htau => h (Or.inl htau)

/-- The legacy average that carries the EV's power `x` is clean where the power stays at `x`. -/
theorem cleanFrom_shifted (cycles : List Cycle) (h : ¬ AlwaysClean c.config) {g x : ℚ}
    (hg : c.filteredDerivedGt = some g) :
    CleanFrom c (some (g + x)) cycles ↔ ∀ e ∈ derivedPowers cycles, e = x := by
  induction cycles generalizing c g with
  | nil => simp [CleanFrom, derivedPowers]
  | cons y cycles ih =>
    obtain ⟨s, e⟩ := y
    have hafter : ¬ AlwaysClean (after c s).config := h
    cases hd : s.derivedGt with
    | none =>
      rw [cleanFrom_cons_none hd, derivedPowers_cons_none hd]
      refine ih hafter ?_
      rw [after_filteredDerivedGt, derivedAfter, hd]
      exact hg
    | some d =>
      have hhouse := filteredDerived_legacy h d
      rw [hg, Option.elim_some] at hhouse
      have hmeasured : filteredDerived (withDerived (some (g + x)) c) (d + e) =
          c.config.gridSmoothingDerivedAlpha * (d + e) +
            (1 - c.config.gridSmoothingDerivedAlpha) * (g + x) :=
        filteredDerived_legacy (c := withDerived (some (g + x)) c) h (d + e)
      have hcancels : Cancels c (some (g + x)) s e ↔ e = x := by
        have hfactor : filteredDerived (withDerived (some (g + x)) c) (d + e) - e = filteredDerived c d ↔
            (1 - c.config.gridSmoothingDerivedAlpha) * (x - e) = 0 := by
          rw [hhouse, hmeasured, ← sub_eq_zero]
          ring_nf
        have hone : 1 - c.config.gridSmoothingDerivedAlpha ≠ 0 := fun hone =>
          h (Or.inr (Or.inr (sub_eq_zero.mp hone).symm))
        rw [Cancels, hd]
        simp only [Option.mem_some_iff, forall_eq']
        rw [hfactor, mul_eq_zero, or_iff_right hone, sub_eq_zero,
          or_iff_right fun hw => h (Or.inr (Or.inl hw)), eq_comm]
      rw [CleanFrom, derivedPowers_cons_some hd, List.forall_mem_cons, hcancels]
      refine and_congr_right fun heq => ?_
      have hshift : derivedAfter (withDerived (some (g + x)) c) (withEv e s) =
          some (filteredDerived c d + x) := by
        have hev : (withEv e s).derivedGt = some (d + e) := by
          rw [withEv, hd]
          rfl
        rw [derivedAfter_legacy (c := withDerived (some (g + x)) c) h hev, hmeasured, hhouse, heq]
        ring_nf
      rw [hshift]
      exact ih hafter (by rw [after_filteredDerivedGt, derivedAfter_legacy h hd])

/-- The legacy average that starts with the run is clean where the EV's power does not change. -/
theorem cleanFrom_none (h : ¬ AlwaysClean c.config) (hnone : c.filteredDerivedGt = none) :
    CleanFrom c none cycles ↔ (derivedPowers cycles).Pairwise (· = ·) := by
  induction cycles generalizing c with
  | nil => simp [CleanFrom, derivedPowers]
  | cons y cycles ih =>
    obtain ⟨s, e⟩ := y
    have hafter : ¬ AlwaysClean (after c s).config := h
    cases hd : s.derivedGt with
    | none =>
      rw [cleanFrom_cons_none hd, derivedPowers_cons_none hd]
      refine ih hafter ?_
      rw [after_filteredDerivedGt, derivedAfter, hd]
      exact hnone
    | some d =>
      have hhouse := filteredDerived_legacy h d
      rw [hnone, Option.elim_none] at hhouse
      have hmeasured : filteredDerived (withDerived none c) (d + e) = d + e :=
        filteredDerived_legacy (c := withDerived none c) h (d + e)
      have hcancels : Cancels c none s e := by
        intro d' hd'
        obtain rfl : d = d' := Option.some.inj (hd.symm.trans hd')
        rw [hmeasured, hhouse, add_sub_cancel_right]
        exact Or.inr rfl
      have hev : (withEv e s).derivedGt = some (d + e) := by
        rw [withEv, hd]
        rfl
      rw [CleanFrom, derivedAfter_legacy (c := withDerived none c) h hev, hmeasured,
        derivedPowers_cons_some hd, List.pairwise_cons, cleanFrom_shifted (g := d) _ hafter (by
          rw [after_filteredDerivedGt, derivedAfter_legacy h hd, hhouse])]
      refine ⟨fun hclean => ⟨fun e' he' => (hclean.2 e' he').symm, ?_⟩, fun hclean =>
        ⟨hcancels, fun e' he' => (hclean.1 e' he').symm⟩⟩
      exact List.pairwise_of_forall_mem_list fun a ha b hb => (hclean.2 a ha).trans (hclean.2 b hb).symm

/-- **When the EV's power cancels in every cycle**, from equal histories. -/
theorem cleanFrom_iff (hmeasured : Measured cycles) :
    CleanFrom c c.filteredDerivedGt cycles ↔ Clean c cycles := by
  by_cases h : AlwaysClean c.config
  · refine iff_of_true (cleanFrom_of_alwaysClean h) ?_
    rcases h with htau | hweight | halpha
    · exact Or.inl htau
    · exact Or.inr (Or.inl hweight)
    · exact Or.inr (Or.inr (Or.inl halpha))
  · have hlegacy : Clean c cycles ↔ derivedPowers cycles = [] ∨
        (c.filteredDerivedGt = none ∧ (derivedPowers cycles).Pairwise (· = ·)) :=
      ⟨fun hclean => ((hclean.resolve_left fun ht => h (Or.inl ht)).resolve_left fun hw =>
        h (Or.inr (Or.inl hw))).resolve_left fun ha => h (Or.inr (Or.inr ha)), fun hclean =>
        Or.inr (Or.inr (Or.inr hclean))⟩
    rw [hlegacy]
    cases hf : c.filteredDerivedGt with
    | none =>
      rw [cleanFrom_none h hf]
      refine ⟨fun hpairwise => Or.inr ⟨rfl, hpairwise⟩, ?_⟩
      rintro (hempty | ⟨-, hpairwise⟩)
      · rw [hempty]
        exact List.Pairwise.nil
      · exact hpairwise
    | some g =>
      have hshifted := cleanFrom_shifted (x := 0) cycles h hf
      rw [add_zero] at hshifted
      rw [hshifted]
      refine ⟨fun hzero => Or.inl (List.eq_nil_iff_forall_not_mem.mpr fun e he => ?_), ?_⟩
      · obtain ⟨x, hx, rfl⟩ := List.mem_map.mp he
        have hpower := (hmeasured x (List.mem_of_mem_filter hx)).2
        rw [hzero _ he] at hpower
        norm_num at hpower
      · rintro (hempty | ⟨hnone, -⟩)
        · rw [hempty]
          exact fun e he => absurd he List.not_mem_nil
        · cases hnone

/-- Of two equal calculators, the one behind the EV has the outputs of the one with the house alone. -/
def MatchesHouse (c : SetpointCalculator) (cycles : List Cycle) : Prop :=
  outputs c (cycles.map fun x => withEv x.2 x.1) = outputs c (cycles.map Prod.fst)

instance (c : SetpointCalculator) (cycles : List Cycle) : Decidable (MatchesHouse c cycles) := by
  unfold MatchesHouse; infer_instance

theorem matchesHouse_iff : MatchesHouse c cycles ↔ SameOutputs c c.filteredDerivedGt cycles := Iff.rfl

/-- **EV exclusion and the run of the house.**  From equal histories, the outputs are the same where the
derived value is smoothed already, and in the legacy average where the EV's power in it does not change;
and there only, if the average of the grid moves at all. -/
theorem ev_exclusion (c : SetpointCalculator) (cycles : List Cycle) (hmeasured : Measured cycles) :
    (Clean c cycles → MatchesHouse c cycles) ∧
    (c.config.emaAlpha ≠ 0 → (MatchesHouse c cycles ↔ Clean c cycles)) := by
  rw [← cleanFrom_iff (c := c) hmeasured, matchesHouse_iff]
  exact ⟨sameOutputs_of_cleanFrom hmeasured, fun halpha =>
    ⟨cleanFrom_of_sameOutputs hmeasured halpha, sameOutputs_of_cleanFrom hmeasured⟩⟩

/-- An import of 500 W by the house alone, with the derived value of the grid. -/
def housed : SystemState := { regulating 0 500 with derivedGt := some 500 }

/-- The default settings with the legacy average of the derived grid. -/
def legacyConfig : Config := { defaultConfig none 0 with gridSmoothingDerivedTau := 0 }

theorem measured_pair {e e' : ℚ} (he : 100 < e) (he' : 100 < e') :
    Measured [(housed, e), (housed, e')] := by
  intro x hx
  rcases List.mem_cons.mp hx with rfl | hx
  · exact ⟨⟨rfl, rfl⟩, he⟩
  · rw [List.mem_singleton.mp hx]
    exact ⟨⟨rfl, rfl⟩, he'⟩

theorem ev_exclusion_constant :
    MatchesHouse (fresh legacyConfig (-2300) 2250) [(housed, 200), (housed, 200)] :=
  (ev_exclusion (fresh legacyConfig (-2300) 2250) [(housed, 200), (housed, 200)]
    (measured_pair (by norm_num) (by norm_num))).1 (by decide +kernel)

/-- The legacy average still has the power of the first cycle in it. -/
theorem ev_exclusion_rising : Measured [(housed, 200), (housed, 9000)] ∧
    ¬ MatchesHouse (fresh legacyConfig (-2300) 2250) [(housed, 200), (housed, 9000)] :=
  ⟨measured_pair (by norm_num) (by norm_num), by decide +kernel⟩

end InverterControl.Logic.Exclusion
