import InverterControl.Dvcc.Model

/-!
# The range and the order of the curves

Every curve lies between 0 and the maximum when the currents of the configuration are not negative
(`computeCcl_mem`, `computeDcl_mem`); the thresholds need no order for it.  With ordered thresholds each
curve but that of the charging temperature is monotone, piece by piece, and so are the minima
(`protection_monotone`).
-/

namespace InverterControl.Dvcc.Curves

open InverterControl.Lib.Pieces InverterControl.Dvcc.Model

variable {c : Config} {q r : ℚ}

/-- The currents are not negative, and the factor is one. -/
structure Config.Currents (c : Config) : Prop where
  charge : 0 ≤ c.maxChargeCurrent
  discharge : 0 ≤ c.maxDischargeCurrent
  tail : 0 ≤ c.minChargeCurrent
  factor_nonneg : 0 ≤ c.socReduceFactor
  factor_le : c.socReduceFactor ≤ 1

/-- The thresholds are in order. -/
structure Config.Ordered (c : Config) : Prop where
  cellStart : c.cellStartLimit < c.cellBalanceVoltage
  cellBalance : c.cellBalanceVoltage < c.cellNearFull
  cellNear : c.cellNearFull < c.cellCutoff
  imbalanceStart : c.imbalanceStart < c.imbalanceAggressive
  imbalanceAggressive : c.imbalanceAggressive < c.imbalanceCritical
  tempMin : c.tempChargeMin < c.tempChargeReduced
  tempReduced : c.tempChargeReduced < c.tempChargeOptimal
  tempOptimal : c.tempChargeOptimal ≤ c.tempChargeLimit
  tempLimit : c.tempChargeLimit < c.tempChargeStop
  tempDischarge : c.tempDischargeMin < c.tempDischargeReduced
  socReduce : c.socReduceStart < 100
  socDischarge : c.socDischargeStop < c.socDischargeReduced

/-- Those of the charging temperature are. -/
structure Config.TempOrdered (c : Config) : Prop where
  tempMin : c.tempChargeMin < c.tempChargeReduced
  tempReduced : c.tempChargeReduced < c.tempChargeOptimal
  tempOptimal : c.tempChargeOptimal ≤ c.tempChargeLimit
  tempLimit : c.tempChargeLimit < c.tempChargeStop

theorem Config.Ordered.temps (ho : Config.Ordered c) : Config.TempOrdered c :=
  ⟨ho.tempMin, ho.tempReduced, ho.tempOptimal, ho.tempLimit⟩

/-- The defaults are in order. -/
theorem ordered_default : Config.Ordered {} := by
  constructor
  all_goals norm_num

theorem currents_default : Config.Currents {} := by
  constructor
  all_goals norm_num

/-! ### Factors -/

theorem clamp_nonneg (q : ℚ) : 0 ≤ clamp q := le_max_left _ _

theorem clamp_le_one (q : ℚ) : clamp q ≤ 1 := max_le zero_le_one (min_le_left _ _)

theorem clamp_mono (h : q ≤ r) : clamp q ≤ clamp r := max_le_max le_rfl (min_le_min le_rfl h)

theorem clamp_eq (h0 : 0 ≤ q) (h1 : q ≤ 1) : clamp q = q := by
  rw [clamp, min_eq_right h1, max_eq_right h0]

/-- A part of a current. -/
theorem part_mem {a t : ℚ} (ha : 0 ≤ a) (h0 : 0 ≤ t) (h1 : t ≤ 1) : 0 ≤ a * t ∧ a * t ≤ a :=
  ⟨mul_nonneg ha h0, mul_le_of_le_one_right ha h1⟩

/-! ### The range of the charge curves -/

theorem cclFromCellVoltage_nonneg (hc : Config.Currents c) (maxCell : Option ℚ) :
    0 ≤ (calculateCclFromCellVoltage c maxCell).1 := by
  have hmax := hc.charge
  have hmin := hc.tail
  cases maxCell with
  | none => exact hmax
  | some v =>
    simp only [calculateCclFromCellVoltage]
    split_ifs with hcut hnear hbal hstart hfull
    · exact le_rfl
    · exact le_max_left _ _
    · -- a mix of the tail current and a fifth of the maximum
      have h0 := ramp_nonneg hbal (not_le.mp hnear).le
      have h1 := ramp_le_one hbal (not_le.mp hnear).le
      have hmix : c.minChargeCurrent + (c.maxChargeCurrent * 0.20 - c.minChargeCurrent) *
          (1 - ramp c.cellBalanceVoltage c.cellNearFull v) =
            c.minChargeCurrent * ramp c.cellBalanceVoltage c.cellNearFull v +
              c.maxChargeCurrent * 0.20 * (1 - ramp c.cellBalanceVoltage c.cellNearFull v) := by
        ring
      have hfirst := mul_nonneg hmin h0
      have hsecond : 0 ≤ c.maxChargeCurrent * 0.20 *
          (1 - ramp c.cellBalanceVoltage c.cellNearFull v) :=
        mul_nonneg (by linarith) (by linarith)
      show 0 ≤ _ + _
      linarith
    · have h1 := ramp_le_one hstart (not_le.mp hbal).le
      exact mul_nonneg hmax (by linarith)
    · exact hmax
    · exact hmax

theorem cclFromImbalance_nonneg (hc : Config.Currents c) (cellDelta : Option ℚ) :
    0 ≤ (calculateCclFromImbalance c cellDelta).1 := by
  have hmax := hc.charge
  have hmin := hc.tail
  cases cellDelta with
  | none => exact hmax
  | some d =>
    simp only [calculateCclFromImbalance]
    split_ifs with hneg hstart hcrit hagg
    · exact hmax
    · exact hmax
    · exact hmin
    · have h0 := ramp_nonneg hagg (not_le.mp hcrit).le
      have h1 := ramp_le_one hagg (not_le.mp hcrit).le
      have hmix : c.minChargeCurrent + (c.maxChargeCurrent * 0.30 - c.minChargeCurrent) *
          (1 - ramp c.imbalanceAggressive c.imbalanceCritical d) =
            c.minChargeCurrent * ramp c.imbalanceAggressive c.imbalanceCritical d +
              c.maxChargeCurrent * 0.30 * (1 - ramp c.imbalanceAggressive c.imbalanceCritical d) := by
        ring
      have hfirst := mul_nonneg hmin h0
      have hsecond : 0 ≤ c.maxChargeCurrent * 0.30 *
          (1 - ramp c.imbalanceAggressive c.imbalanceCritical d) :=
        mul_nonneg (by linarith) (by linarith)
      show 0 ≤ _ + _
      linarith
    · have h1 := ramp_le_one (not_le.mp hstart).le (not_le.mp hagg).le
      exact mul_nonneg hmax (by linarith)

theorem cclAtTemperature_nonneg (hc : Config.Currents c) (temp : ℚ) :
    0 ≤ (cclAtTemperature c temp).1 := by
  have hmax := hc.charge
  have hmin := hc.tail
  unfold cclAtTemperature
  split_ifs
  · exact le_rfl
  · exact le_rfl
  · exact le_max_of_le_right hmin
  · exact le_max_of_le_right hmin
  · exact mul_nonneg hmax (le_max_of_le_left (by norm_num))
  · exact hmax

theorem cclFromTemperature_nonneg (hc : Config.Currents c) (minTemp maxTemp : Option ℚ) :
    0 ≤ (calculateCclFromTemperature c minTemp maxTemp).1 := by
  unfold calculateCclFromTemperature
  split
  · exact hc.charge
  · exact cclAtTemperature_nonneg hc _

/-- The factor of the state of charge lies between that of the configuration and 1. -/
theorem socFactor_mem (hc : Config.Currents c) {soc : ℚ} (hlo : c.socReduceStart ≤ soc)
    (hhi : soc ≤ 100) :
    c.socReduceFactor ≤ 1 - ramp c.socReduceStart 100 soc * (1 - c.socReduceFactor) ∧
      1 - ramp c.socReduceStart 100 soc * (1 - c.socReduceFactor) ≤ 1 := by
  have hf : 0 ≤ 1 - c.socReduceFactor := by linarith [hc.factor_le]
  have h0 := mul_nonneg (ramp_nonneg hlo hhi) hf
  have h1 := mul_le_of_le_one_left hf (ramp_le_one hlo hhi)
  constructor
  · linarith
  · linarith

theorem cclFromSoc_mem (hc : Config.Currents c) (soc : Option ℚ) :
    0 ≤ (calculateCclFromSoc c soc).1 ∧ (calculateCclFromSoc c soc).1 ≤ c.maxChargeCurrent := by
  have hmax := hc.charge
  cases soc with
  | none => exact ⟨hmax, le_rfl⟩
  | some soc =>
    simp only [calculateCclFromSoc]
    split_ifs with hstart hfull
    · exact ⟨hmax, le_rfl⟩
    · exact part_mem hmax hc.factor_nonneg hc.factor_le
    · obtain ⟨hlo, hhi⟩ := socFactor_mem hc (not_lt.mp hstart) (not_le.mp hfull).le
      exact part_mem hmax (hc.factor_nonneg.trans hlo) hhi

/-- **The charge limit lies between 0 and the maximum.** -/
theorem computeCcl_mem (hc : Config.Currents c) (maxCell cellDelta minTemp maxTemp soc : Option ℚ) :
    0 ≤ (computeCcl c maxCell cellDelta minTemp maxTemp soc).1 ∧
      (computeCcl c maxCell cellDelta minTemp maxTemp soc).1 ≤ c.maxChargeCurrent := by
  obtain ⟨hsoc, hsocmax⟩ := cclFromSoc_mem hc soc
  rw [computeCcl_fst]
  constructor
  · exact le_min (le_min (le_min (cclFromCellVoltage_nonneg hc maxCell)
      (cclFromImbalance_nonneg hc cellDelta)) (cclFromTemperature_nonneg hc minTemp maxTemp)) hsoc
  · exact (min_le_right _ _).trans hsocmax

/-! ### The range of the discharge curves -/

theorem dclFromCellVoltage_nonneg (hc : Config.Currents c) (minCell : Option ℚ) :
    0 ≤ (calculateDclFromCellVoltage c minCell).1 := by
  cases minCell with
  | none => exact hc.discharge
  | some v =>
    simp only [calculateDclFromCellVoltage]
    split_ifs
    · exact hc.discharge
    · exact le_rfl
    · exact le_max_right _ _
    · exact le_max_right _ _

theorem dclFromTemperature_nonneg (hc : Config.Currents c) (minTemp maxTemp : Option ℚ) :
    0 ≤ (calculateDclFromTemperature c minTemp maxTemp).1 := by
  unfold calculateDclFromTemperature
  split
  · exact hc.discharge
  · unfold dclAtTemperature
    split_ifs
    · exact le_rfl
    · exact le_max_right _ _
    · exact hc.discharge

theorem dclFromSoc_mem (hc : Config.Currents c) (soc : Option ℚ) :
    0 ≤ (calculateDclFromSoc c soc).1 ∧ (calculateDclFromSoc c soc).1 ≤ c.maxDischargeCurrent := by
  have hmax := hc.discharge
  cases soc with
  | none => exact ⟨hmax, le_rfl⟩
  | some soc =>
    simp only [calculateDclFromSoc]
    split_ifs
    · exact ⟨hmax, le_rfl⟩
    · exact ⟨le_rfl, hmax⟩
    · obtain ⟨h0, h1⟩ := part_mem hmax (clamp_nonneg (ramp c.socDischargeStop c.socDischargeReduced soc))
        (clamp_le_one _)
      exact ⟨le_max_right _ _, max_le (by linarith) hmax⟩

/-- **The discharge limit lies between 0 and the maximum.** -/
theorem computeDcl_mem (hc : Config.Currents c) (minCell minTemp maxTemp soc : Option ℚ) :
    0 ≤ (computeDcl c minCell minTemp maxTemp soc).1 ∧
      (computeDcl c minCell minTemp maxTemp soc).1 ≤ c.maxDischargeCurrent := by
  obtain ⟨hsoc, hsocmax⟩ := dclFromSoc_mem hc soc
  rw [computeDcl_fst]
  constructor
  · exact le_min (le_min (dclFromCellVoltage_nonneg hc minCell)
      (dclFromTemperature_nonneg hc minTemp maxTemp)) hsoc
  · exact (min_le_right _ _).trans hsocmax

/-! ### The order of the charge curves -/

theorem fall_le {lo hi x y : ℚ} (h : lo < hi) (hxy : x ≤ y) : 1 - ramp lo hi y ≤ 1 - ramp lo hi x := by
  have := ramp_mono h.le hxy
  linarith

/-- A falling piece between two currents. -/
theorem fall_mem {a b lo hi x : ℚ} (hab : a ≤ b) (hlo : lo ≤ x) (hhi : x ≤ hi) :
    a ≤ a + (b - a) * (1 - ramp lo hi x) ∧ a + (b - a) * (1 - ramp lo hi x) ≤ b :=
  mix_mem hab (by linarith [ramp_le_one hlo hhi]) (by linarith [ramp_nonneg hlo hhi])

theorem fall_antitoneOn {a b lo hi : ℚ} (S : Set ℚ) (hab : a ≤ b) (h : lo < hi) :
    AntitoneOn (fun x => a + (b - a) * (1 - ramp lo hi x)) S := by
  intro x _ y _ hxy
  have hle := mul_le_mul_of_nonneg_left (fall_le h hxy) (sub_nonneg.mpr hab)
  show a + _ ≤ a + _
  linarith

theorem cclFromCellVoltage_eq (c : Config) (v : ℚ) : (calculateCclFromCellVoltage c (some v)).1 =
    if c.cellCutoff ≤ v then 0
    else if c.cellNearFull ≤ v then
      max 0 (0 + (c.minChargeCurrent - 0) * (1 - ramp c.cellNearFull c.cellCutoff v))
    else if c.cellBalanceVoltage ≤ v then
      c.minChargeCurrent + (c.maxChargeCurrent * 0.20 - c.minChargeCurrent) *
        (1 - ramp c.cellBalanceVoltage c.cellNearFull v)
    else if c.cellStartLimit ≤ v then
      c.maxChargeCurrent * 0.20 + (c.maxChargeCurrent - c.maxChargeCurrent * 0.20) *
        (1 - ramp c.cellStartLimit c.cellBalanceVoltage v)
    else c.maxChargeCurrent := by
  have hreduce : c.maxChargeCurrent *
      (0.20 + 0.80 * (1 - ramp c.cellStartLimit c.cellBalanceVoltage v)) =
        c.maxChargeCurrent * 0.20 + (c.maxChargeCurrent - c.maxChargeCurrent * 0.20) *
          (1 - ramp c.cellStartLimit c.cellBalanceVoltage v) := by
    ring
  simp only [calculateCclFromCellVoltage, apply_ite Prod.fst, ite_self, hreduce, zero_add, sub_zero]

theorem cclFromCellVoltage_antitone (ho : Config.Ordered c) (hc : Config.Currents c)
    (hmin : c.minChargeCurrent ≤ c.maxChargeCurrent * 0.20) :
    Antitone fun v => (calculateCclFromCellVoltage c (some v)).1 := by
  have hmax : c.maxChargeCurrent * 0.20 ≤ c.maxChargeCurrent := by linarith [hc.charge]
  have htail := hc.tail
  rw [← antitoneOn_univ]
  simp only [cclFromCellVoltage_eq]
  refine antitoneOn_ite_upper (l := 0) (upper_ge _) antitoneOn_const ?_ (fun _ _ _ => le_rfl) ?_
  · refine antitoneOn_ite_upper (l := c.minChargeCurrent) (upper_ge _) ?_ ?_ ?_ ?_
    · intro x hx y hy hxy
      exact max_le_max le_rfl (fall_antitoneOn Set.univ htail ho.cellNear trivial trivial hxy)
    · refine antitoneOn_ite_upper (l := c.maxChargeCurrent * 0.20) (upper_ge _)
        (fall_antitoneOn _ hmin ho.cellBalance) ?_ ?_ ?_
      · refine antitoneOn_ite_upper (l := c.maxChargeCurrent) (upper_ge _)
          (fall_antitoneOn _ hmax ho.cellStart) antitoneOn_const ?_ (fun _ _ _ => le_rfl)
        intro v hv hstart
        exact (fall_mem hmax hstart (not_le.mp hv.2).le).2
      · intro v hv hbal
        exact (fall_mem hmin hbal (not_le.mp hv.2).le).2
      · intro v hv hbal
        split_ifs with hstart
        · exact (fall_mem hmax hstart (not_le.mp hbal).le).1
        · exact hmax
    · intro v hv hnear
      exact max_le htail (fall_mem htail hnear (not_le.mp hv.2).le).2
    · intro v hv hnear
      split_ifs with hbal hstart
      · exact (fall_mem hmin hbal (not_le.mp hnear).le).1
      · exact hmin.trans (fall_mem hmax hstart (not_le.mp hbal).le).1
      · exact hmin.trans hmax
  · intro v _ hcut
    have hpos := cclFromCellVoltage_nonneg hc (some v)
    rw [cclFromCellVoltage_eq, if_neg hcut] at hpos
    exact hpos

theorem cclFromImbalance_eq (c : Config) (d : ℚ) : (calculateCclFromImbalance c (some d)).1 =
    if d < 0 then c.maxChargeCurrent
    else if d ≤ c.imbalanceStart then c.maxChargeCurrent
    else if c.imbalanceCritical ≤ d then c.minChargeCurrent
    else if c.imbalanceAggressive ≤ d then
      c.minChargeCurrent + (c.maxChargeCurrent * 0.30 - c.minChargeCurrent) *
        (1 - ramp c.imbalanceAggressive c.imbalanceCritical d)
    else
      c.maxChargeCurrent * 0.30 + (c.maxChargeCurrent - c.maxChargeCurrent * 0.30) *
        (1 - ramp c.imbalanceStart c.imbalanceAggressive d) := by
  have hreduce : c.maxChargeCurrent *
      (0.30 + 0.70 * (1 - ramp c.imbalanceStart c.imbalanceAggressive d)) =
        c.maxChargeCurrent * 0.30 + (c.maxChargeCurrent - c.maxChargeCurrent * 0.30) *
          (1 - ramp c.imbalanceStart c.imbalanceAggressive d) := by
    ring
  simp only [calculateCclFromImbalance, apply_ite Prod.fst, hreduce]

theorem cclFromImbalance_antitone (ho : Config.Ordered c) (hc : Config.Currents c)
    (hmin : c.minChargeCurrent ≤ c.maxChargeCurrent * 0.30) :
    Antitone fun d => (calculateCclFromImbalance c (some d)).1 := by
  have hmax : c.maxChargeCurrent * 0.30 ≤ c.maxChargeCurrent := by linarith [hc.charge]
  rw [← antitoneOn_univ]
  simp only [cclFromImbalance_eq]
  have hle : ∀ d, ¬ d ≤ c.imbalanceStart → (if c.imbalanceCritical ≤ d then c.minChargeCurrent
      else if c.imbalanceAggressive ≤ d then
        c.minChargeCurrent + (c.maxChargeCurrent * 0.30 - c.minChargeCurrent) *
          (1 - ramp c.imbalanceAggressive c.imbalanceCritical d)
      else
        c.maxChargeCurrent * 0.30 + (c.maxChargeCurrent - c.maxChargeCurrent * 0.30) *
          (1 - ramp c.imbalanceStart c.imbalanceAggressive d)) ≤ c.maxChargeCurrent := by
    intro d hstart
    split_ifs with hcrit hagg
    · exact hmin.trans hmax
    · exact (fall_mem hmin hagg (not_le.mp hcrit).le).2.trans hmax
    · exact (fall_mem hmax (not_le.mp hstart).le (not_le.mp hagg).le).2
  refine antitoneOn_ite_lower (l := c.maxChargeCurrent) (lower_lt _) antitoneOn_const ?_
    (fun _ _ _ => le_rfl) ?_
  · refine antitoneOn_ite_lower (l := c.maxChargeCurrent) (lower_le _) antitoneOn_const ?_
      (fun _ _ _ => le_rfl) fun d _ hstart => hle d hstart
    refine antitoneOn_ite_upper (l := c.minChargeCurrent) (upper_ge _) antitoneOn_const ?_
      (fun _ _ _ => le_rfl) ?_
    · refine antitoneOn_ite_upper (l := c.maxChargeCurrent * 0.30) (upper_ge _)
        (fall_antitoneOn _ hmin ho.imbalanceAggressive) (fall_antitoneOn _ hmax ho.imbalanceStart) ?_ ?_
      · intro d hd hagg
        exact (fall_mem hmin hagg (not_le.mp hd.2).le).2
      · intro d hd hagg
        exact (fall_mem hmax (not_le.mp hd.1.2).le (not_le.mp hagg).le).1
    · intro d hd hcrit
      split_ifs with hagg
      · exact (fall_mem hmin hagg (not_le.mp hcrit).le).1
      · exact hmin.trans (fall_mem hmax (not_le.mp hd.2).le (not_le.mp hagg).le).1
  · intro d _ _
    by_cases hstart : d ≤ c.imbalanceStart
    · rw [if_pos hstart]
    · rw [if_neg hstart]
      exact hle d hstart

theorem cclFromSoc_antitone (ho : Config.Ordered c) (hc : Config.Currents c) :
    Antitone fun soc => (calculateCclFromSoc c (some soc)).1 := by
  have hf : 0 ≤ 1 - c.socReduceFactor := by linarith [hc.factor_le]
  rw [← antitoneOn_univ]
  simp only [calculateCclFromSoc, apply_ite Prod.fst]
  refine antitoneOn_ite_lower (l := c.maxChargeCurrent) (lower_lt _) antitoneOn_const ?_
    (fun _ _ _ => le_rfl) ?_
  · refine antitoneOn_ite_upper (l := c.maxChargeCurrent * c.socReduceFactor) (upper_ge _)
      antitoneOn_const ?_ (fun _ _ _ => le_rfl) ?_
    · intro x _ y _ hxy
      have hramp := mul_le_mul_of_nonneg_right (ramp_mono ho.socReduce.le hxy) hf
      exact mul_le_mul_of_nonneg_left (by linarith) hc.charge
    · intro soc hsoc hfull
      exact mul_le_mul_of_nonneg_left
        (socFactor_mem hc (not_lt.mp hsoc.2) (not_le.mp hfull).le).1 hc.charge
  · intro soc _ hstart
    have hle := (cclFromSoc_mem hc (some soc)).2
    simp only [calculateCclFromSoc, apply_ite Prod.fst, if_neg hstart] at hle
    exact hle

/-! ### The order of the discharge curves -/

theorem dclFromCellVoltage_monotone (hc : Config.Currents c) :
    Monotone fun v => (calculateDclFromCellVoltage c (some v)).1 := by
  have hmax := hc.discharge
  rw [← monotoneOn_univ]
  simp only [calculateDclFromCellVoltage, apply_ite Prod.fst]
  have hlow : ∀ v : ℚ, ¬ v ≤ 2.7 → v ≤ 2.9 →
      max (c.maxDischargeCurrent * ramp 2.7 2.9 v * 0.5) 0 ≤ c.maxDischargeCurrent * 0.5 := by
    intro v hv h
    obtain ⟨-, hle⟩ := part_mem hmax (ramp_nonneg (not_le.mp hv).le h) (ramp_le_one (not_le.mp hv).le h)
    exact max_le (by linarith) (by linarith)
  have hmid : ∀ v : ℚ, ¬ v ≤ 2.9 → ¬ 3.0 ≤ v →
      c.maxDischargeCurrent * 0.5 ≤ max (c.maxDischargeCurrent * (0.5 + 0.5 * ramp 2.9 3.0 v)) 0 ∧
        max (c.maxDischargeCurrent * (0.5 + 0.5 * ramp 2.9 3.0 v)) 0 ≤ c.maxDischargeCurrent := by
    intro v hv h
    obtain ⟨h0, hle⟩ := part_mem hmax (ramp_nonneg (not_le.mp hv).le (not_le.mp h).le)
      (ramp_le_one (not_le.mp hv).le (not_le.mp h).le)
    constructor
    · exact le_max_of_le_left (by linarith)
    · exact max_le (by linarith) hmax
  refine monotoneOn_ite_upper (l := c.maxDischargeCurrent) (upper_ge _) monotoneOn_const ?_
    (fun _ _ _ => le_rfl) ?_
  · refine monotoneOn_ite_lower (l := 0) (lower_le _) monotoneOn_const ?_ (fun _ _ _ => le_rfl) ?_
    · refine monotoneOn_ite_lower (l := c.maxDischargeCurrent * 0.5) (lower_le _) ?_ ?_ ?_ ?_
      · intro x _ y _ hxy
        have hramp : ramp (2.7 : ℚ) 2.9 x ≤ ramp 2.7 2.9 y := ramp_mono (by norm_num) hxy
        have hmul := mul_le_mul_of_nonneg_left hramp hmax
        exact max_le_max (by linarith) le_rfl
      · intro x _ y _ hxy
        have hramp : ramp (2.9 : ℚ) 3.0 x ≤ ramp 2.9 3.0 y := ramp_mono (by norm_num) hxy
        exact max_le_max (mul_le_mul_of_nonneg_left (by linarith) hmax) le_rfl
      · intro v hv h
        exact hlow v hv.2 h
      · intro v hv h
        exact (hmid v h hv.1.2).1
    · intro v _ h
      split_ifs
      · exact le_max_right _ _
      · exact le_max_right _ _
  · intro v _ h
    split_ifs with hcut hlo
    · exact hmax
    · exact (hlow v hcut hlo).trans (by linarith)
    · exact (hmid v hlo h).2

theorem dclAtTemperature_monotone (ho : Config.Ordered c) (hc : Config.Currents c) :
    Monotone fun temp => (dclAtTemperature c temp).1 := by
  have hmax := hc.discharge
  rw [← monotoneOn_univ]
  simp only [dclAtTemperature, apply_ite Prod.fst]
  have hcold : ∀ temp, max (c.maxDischargeCurrent * 0.3 *
      clamp (ramp c.tempDischargeMin c.tempDischargeReduced temp)) 0 ≤ c.maxDischargeCurrent := by
    intro temp
    obtain ⟨-, hle⟩ := part_mem (a := c.maxDischargeCurrent * 0.3) (by linarith)
      (clamp_nonneg (ramp c.tempDischargeMin c.tempDischargeReduced temp)) (clamp_le_one _)
    exact max_le (by linarith) hmax
  refine monotoneOn_ite_lower (l := 0) (lower_le _) monotoneOn_const ?_ (fun _ _ _ => le_rfl) ?_
  · refine monotoneOn_ite_lower (l := c.maxDischargeCurrent) (lower_lt _) ?_ monotoneOn_const
      (fun temp _ _ => hcold temp) (fun _ _ _ => le_rfl)
    intro x _ y _ hxy
    have hramp := clamp_mono (ramp_mono ho.tempDischarge.le hxy)
    exact max_le_max (mul_le_mul_of_nonneg_left hramp (by linarith)) le_rfl
  · intro temp _ _
    split_ifs
    · exact le_max_right _ _
    · exact hmax

theorem dclFromSoc_monotone (ho : Config.Ordered c) (hc : Config.Currents c) :
    Monotone fun soc => (calculateDclFromSoc c (some soc)).1 := by
  have hmax := hc.discharge
  rw [← monotoneOn_univ]
  simp only [calculateDclFromSoc, apply_ite Prod.fst]
  refine monotoneOn_ite_upper (l := c.maxDischargeCurrent) (upper_gt _) monotoneOn_const ?_
    (fun _ _ _ => le_rfl) ?_
  · refine monotoneOn_ite_lower (l := 0) (lower_le _) monotoneOn_const ?_ (fun _ _ _ => le_rfl)
      (fun _ _ _ => le_max_right _ _)
    intro x _ y _ hxy
    have hramp := clamp_mono (ramp_mono ho.socDischarge.le hxy)
    have hmul := mul_le_mul_of_nonneg_left hramp hmax
    exact max_le_max (by linarith) le_rfl
  · intro soc _ h
    have hle := (dclFromSoc_mem hc (some soc)).2
    simp only [calculateDclFromSoc, apply_ite Prod.fst, if_neg h] at hle
    exact hle

/-! ### The minima -/

/-- A value that is there, or not, in both data sets, and is not less in the second. -/
def Rises : Option ℚ → Option ℚ → Prop
  | none, none => True
  | some a, some b => a ≤ b
  | _, _ => False

theorem Rises.refl (a : Option ℚ) : Rises a a := by
  cases a with
  | none => trivial
  | some q => exact le_refl q

theorem Rises.antitone {f : Option ℚ → ℚ} {a b : Option ℚ} (h : Rises a b)
    (hf : Antitone fun q => f (some q)) : f b ≤ f a := by
  cases a with
  | none => cases b with
    | none => exact le_rfl
    | some _ => exact h.elim
  | some _ => cases b with
    | none => exact h.elim
    | some _ => exact hf h

theorem Rises.monotone {f : Option ℚ → ℚ} {a b : Option ℚ} (h : Rises a b)
    (hf : Monotone fun q => f (some q)) : f a ≤ f b :=
  Rises.antitone (f := fun q => -f q) h (fun _ _ hxy => neg_le_neg (hf hxy)) |> neg_le_neg_iff.mp

/-- With the lowest cell as it is, the difference grows with the highest. -/
theorem Rises.delta {maxCell maxCell' : Option ℚ} (h : Rises maxCell maxCell') (minCell : Option ℚ) :
    Rises (delta maxCell minCell) (delta maxCell' minCell) := by
  cases maxCell with
  | none => cases maxCell' with
    | none => trivial
    | some _ => exact h.elim
  | some v => cases maxCell' with
    | none => exact h.elim
    | some v' => cases minCell with
      | none => trivial
      | some m => exact sub_le_sub_right (show v ≤ v' from h) m

theorem computeCcl_antitone (ho : Config.Ordered c) (hc : Config.Currents c)
    (hmin : c.minChargeCurrent ≤ c.maxChargeCurrent * 0.20)
    {maxCell maxCell' cellDelta cellDelta' minTemp maxTemp soc soc' : Option ℚ}
    (hcell : Rises maxCell maxCell') (hdelta : Rises cellDelta cellDelta') (hsoc : Rises soc soc') :
    (computeCcl c maxCell' cellDelta' minTemp maxTemp soc').1 ≤
      (computeCcl c maxCell cellDelta minTemp maxTemp soc).1 := by
  have hmin' : c.minChargeCurrent ≤ c.maxChargeCurrent * 0.30 := by linarith [hc.charge]
  have h1 := Rises.antitone (f := fun v => (calculateCclFromCellVoltage c v).1) hcell
    (cclFromCellVoltage_antitone ho hc hmin)
  have h2 := Rises.antitone (f := fun d => (calculateCclFromImbalance c d).1) hdelta
    (cclFromImbalance_antitone ho hc hmin')
  have h3 := Rises.antitone (f := fun s => (calculateCclFromSoc c s).1) hsoc (cclFromSoc_antitone ho hc)
  rw [computeCcl_fst, computeCcl_fst]
  exact min_le_min (min_le_min (min_le_min h1 h2) le_rfl) h3

theorem computeDcl_monotone (ho : Config.Ordered c) (hc : Config.Currents c)
    {minCell minCell' minTemp minTemp' maxTemp maxTemp' soc soc' : Option ℚ}
    (hcell : Rises minCell minCell')
    (htemp : Rises (dischargeTemp minTemp maxTemp) (dischargeTemp minTemp' maxTemp'))
    (hsoc : Rises soc soc') :
    (computeDcl c minCell minTemp maxTemp soc).1 ≤
      (computeDcl c minCell' minTemp' maxTemp' soc').1 := by
  have h1 := Rises.monotone (f := fun v => (calculateDclFromCellVoltage c v).1) hcell
    (dclFromCellVoltage_monotone hc)
  have h2 : (calculateDclFromTemperature c minTemp maxTemp).1 ≤
      (calculateDclFromTemperature c minTemp' maxTemp').1 := by
    unfold calculateDclFromTemperature
    revert htemp
    cases dischargeTemp minTemp maxTemp with
    | none => cases dischargeTemp minTemp' maxTemp' with
      | none => exact fun _ => le_rfl
      | some _ => exact False.elim
    | some t => cases dischargeTemp minTemp' maxTemp' with
      | none => exact False.elim
      | some t' => exact fun htemp => dclAtTemperature_monotone ho hc htemp
  have h3 := Rises.monotone (f := fun s => (calculateDclFromSoc c s).1) hsoc (dclFromSoc_monotone ho hc)
  rw [computeDcl_fst, computeDcl_fst]
  exact min_le_min (min_le_min h1 h2) h3

/-- A value at or below a cutoff of discharging. -/
def Cutoff (c : Config) (minCell temp soc : Option ℚ) : Prop :=
  (∃ v, minCell = some v ∧ v ≤ 2.7) ∨ (∃ t, temp = some t ∧ t ≤ c.tempDischargeMin) ∨
    ∃ q, soc = some q ∧ q ≤ c.socDischargeStop

/-- **Discharging stops at every cutoff.** -/
theorem computeDcl_cutoff (ho : Config.Ordered c) (hc : Config.Currents c)
    {minCell minTemp maxTemp soc : Option ℚ}
    (h : Cutoff c minCell (dischargeTemp minTemp maxTemp) soc) :
    (computeDcl c minCell minTemp maxTemp soc).1 = 0 := by
  refine le_antisymm ?_ (computeDcl_mem hc minCell minTemp maxTemp soc).1
  rw [computeDcl_fst]
  rcases h with ⟨v, rfl, hv⟩ | ⟨t, ht, hle⟩ | ⟨q, rfl, hq⟩
  · have hzero : (calculateDclFromCellVoltage c (some v)).1 = 0 := by
      simp only [calculateDclFromCellVoltage]
      rw [if_neg (by linarith), if_pos hv]
    exact (min_le_left _ _).trans ((min_le_left _ _).trans hzero.le)
  · have hzero : (calculateDclFromTemperature c minTemp maxTemp).1 = 0 := by
      rw [calculateDclFromTemperature, ht]
      simp only [dclAtTemperature, if_pos hle]
    exact (min_le_left _ _).trans ((min_le_right _ _).trans hzero.le)
  · have hzero : (calculateDclFromSoc c (some q)).1 = 0 := by
      simp only [calculateDclFromSoc]
      rw [if_neg (by linarith [ho.socDischarge]), if_pos hq]
    exact (min_le_right _ _).trans hzero.le

/-- **The limits are monotone in the stress**: the charge limit falls with the highest cell, the
imbalance and the state of charge, the discharge limit rises with the lowest cell, the temperature and
the state of charge, and both lie between 0 and the maximum. -/
theorem protection_monotone (ho : Config.Ordered c) (hf0 : 0 ≤ c.socReduceFactor)
    (hf1 : c.socReduceFactor ≤ 1) (hmin : c.minChargeCurrent ≤ 0.2 * c.maxChargeCurrent)
    (htail : 0 ≤ c.minChargeCurrent) (hdis : 0 ≤ c.maxDischargeCurrent) :
    (∀ maxCell maxCell' cellDelta cellDelta' minTemp maxTemp soc soc', Rises maxCell maxCell' →
      Rises cellDelta cellDelta' → Rises soc soc' →
      (computeCcl c maxCell' cellDelta' minTemp maxTemp soc').1 ≤
        (computeCcl c maxCell cellDelta minTemp maxTemp soc).1) ∧
    (∀ maxCell maxCell' minCell minTemp maxTemp soc, Rises maxCell maxCell' →
      (computeCcl c maxCell' (delta maxCell' minCell) minTemp maxTemp soc).1 ≤
        (computeCcl c maxCell (delta maxCell minCell) minTemp maxTemp soc).1) ∧
    (∀ maxCell cellDelta minTemp maxTemp soc,
      0 ≤ (computeCcl c maxCell cellDelta minTemp maxTemp soc).1 ∧
        (computeCcl c maxCell cellDelta minTemp maxTemp soc).1 ≤ c.maxChargeCurrent) ∧
    (∀ minCell minCell' minTemp minTemp' maxTemp maxTemp' soc soc', Rises minCell minCell' →
      Rises (dischargeTemp minTemp maxTemp) (dischargeTemp minTemp' maxTemp') → Rises soc soc' →
      (computeDcl c minCell minTemp maxTemp soc).1 ≤
        (computeDcl c minCell' minTemp' maxTemp' soc').1) ∧
    (∀ minCell minTemp maxTemp soc,
      0 ≤ (computeDcl c minCell minTemp maxTemp soc).1 ∧
        (computeDcl c minCell minTemp maxTemp soc).1 ≤ c.maxDischargeCurrent) ∧
    ∀ minCell minTemp maxTemp soc, Cutoff c minCell (dischargeTemp minTemp maxTemp) soc →
      (computeDcl c minCell minTemp maxTemp soc).1 = 0 := by
  have hc : Config.Currents c := ⟨by linarith, hdis, htail, hf0, hf1⟩
  have hmin' : c.minChargeCurrent ≤ c.maxChargeCurrent * 0.20 := by linarith
  refine ⟨?_, ?_, ?_, ?_, ?_, ?_⟩
  · intro maxCell maxCell' cellDelta cellDelta' minTemp maxTemp soc soc' hcell hdelta hsoc
    exact computeCcl_antitone ho hc hmin' hcell hdelta hsoc
  · intro maxCell maxCell' minCell minTemp maxTemp soc hcell
    exact computeCcl_antitone ho hc hmin' hcell (hcell.delta minCell) (Rises.refl soc)
  · exact computeCcl_mem hc
  · intro minCell minCell' minTemp minTemp' maxTemp maxTemp' soc soc' hcell htemp hsoc
    exact computeDcl_monotone ho hc hcell htemp hsoc
  · exact computeDcl_mem hc
  · intro minCell minTemp maxTemp soc h
    exact computeDcl_cutoff ho hc h

/-- A cell at 3.5 V gets no more than one at 3.4 V, with a difference of 0.05 V more. -/
theorem protection_monotone_default :
    (computeCcl {} (some 3.5) (delta (some 3.5) (some 3.35)) none none none).1 ≤
      (computeCcl {} (some 3.4) (delta (some 3.4) (some 3.35)) none none none).1 :=
  (protection_monotone ordered_default (by norm_num) (by norm_num) (by norm_num) (by norm_num)
    (by norm_num)).2.1 _ _ _ _ _ _ (show (3.4 : ℚ) ≤ 3.5 by norm_num)

/-- A tail current below 0 is passed on at a critical imbalance. -/
theorem computeCcl_negative_tail :
    ¬ ∀ c : Config, Config.Ordered c → 0 ≤ c.socReduceFactor → c.socReduceFactor ≤ 1 →
      c.minChargeCurrent ≤ 0.2 * c.maxChargeCurrent → ∀ maxCell cellDelta minTemp maxTemp soc,
      0 ≤ (computeCcl c maxCell cellDelta minTemp maxTemp soc).1 ∧
        (computeCcl c maxCell cellDelta minTemp maxTemp soc).1 ≤ c.maxChargeCurrent := by
  intro h
  have hord : Config.Ordered { minChargeCurrent := -5 } := by
    constructor
    all_goals norm_num
  have hrange := (h _ hord (by norm_num) (by norm_num) (by norm_num) none (some 0.2) none none none).1
  exact absurd hrange (by decide +kernel)

end InverterControl.Dvcc.Curves
