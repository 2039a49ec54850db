import InverterControl.Dvcc.Curves

/-!
# Charging in the cold and in the heat

The curve of the charging temperature has six pieces (`at_tooCold` to `at_tooHot`).  Two of them do not
meet: below `tempChargeReduced` the current rises to a half of the maximum, above it starts at a tenth,
so that a warmer cell may get less (`Dips`, `colder_less`).  The curve sees one of the two temperatures
of the pack only (`chargeTemp`), which decides whether a cold cell stops charging (`cold_cell_stops`).
-/

namespace InverterControl.Dvcc.Temperature

open InverterControl.Lib.Pieces InverterControl.Python
open InverterControl.Dvcc.Model InverterControl.Dvcc.Curves

variable {c : Config} {d : Data} {t t' : ℚ}

/-! ### The pieces -/

theorem at_tooCold (h : t ≤ c.tempChargeMin) : (cclAtTemperature c t).1 = 0 := by
  rw [cclAtTemperature, if_pos h]

theorem at_cold (ho : Config.TempOrdered c) (hmin : c.tempChargeMin < t)
    (hred : t < c.tempChargeReduced) :
    (cclAtTemperature c t).1 =
      max (c.maxChargeCurrent * ramp c.tempChargeMin c.tempChargeReduced t * 0.5)
        c.minChargeCurrent := by
  have hstop : t < c.tempChargeStop := by
    linarith [ho.tempReduced, ho.tempOptimal, ho.tempLimit]
  rw [cclAtTemperature, if_neg hmin.not_ge, if_neg hstop.not_ge, if_pos hred,
    clamp_eq (ramp_nonneg hmin.le hred.le) (ramp_le_one hmin.le hred.le)]

theorem at_cool (ho : Config.TempOrdered c) (hred : c.tempChargeReduced ≤ t)
    (hopt : t < c.tempChargeOptimal) : (cclAtTemperature c t).1 =
      max (c.maxChargeCurrent * (0.1 + 0.4 * ramp c.tempChargeReduced c.tempChargeOptimal t))
        c.minChargeCurrent := by
  have hmin : c.tempChargeMin < t := ho.tempMin.trans_le hred
  have hstop : t < c.tempChargeStop := by
    linarith [ho.tempOptimal, ho.tempLimit]
  rw [cclAtTemperature, if_neg hmin.not_ge, if_neg hstop.not_ge, if_neg hred.not_gt, if_pos hopt,
    clamp_eq (ramp_nonneg hred hopt.le) (ramp_le_one hred hopt.le)]

theorem at_ok (ho : Config.TempOrdered c) (hopt : c.tempChargeOptimal ≤ t)
    (hlim : t ≤ c.tempChargeLimit) :
    (cclAtTemperature c t).1 = c.maxChargeCurrent := by
  have hred : c.tempChargeReduced ≤ t := ho.tempReduced.le.trans hopt
  have hmin : c.tempChargeMin < t := ho.tempMin.trans_le hred
  have hstop : t < c.tempChargeStop := hlim.trans_lt ho.tempLimit
  rw [cclAtTemperature, if_neg hmin.not_ge, if_neg hstop.not_ge, if_neg hred.not_gt, if_neg hopt.not_gt,
    if_neg hlim.not_gt]

theorem at_hot (ho : Config.TempOrdered c) (hlim : c.tempChargeLimit < t)
    (hstop : t < c.tempChargeStop) :
    (cclAtTemperature c t).1 =
      c.maxChargeCurrent * max 0.2 (1 - ramp c.tempChargeLimit c.tempChargeStop t) := by
  have hopt : c.tempChargeOptimal ≤ t := ho.tempOptimal.trans hlim.le
  have hred : c.tempChargeReduced ≤ t := ho.tempReduced.le.trans hopt
  have hmin : c.tempChargeMin < t := ho.tempMin.trans_le hred
  have h0 := ramp_nonneg hlim.le hstop.le
  have h1 := ramp_le_one hlim.le hstop.le
  rw [cclAtTemperature, if_neg hmin.not_ge, if_neg hstop.not_ge, if_neg hred.not_gt, if_neg hopt.not_gt,
    if_pos hlim, clamp_eq (by linarith) (by linarith)]

theorem at_tooHot (h : c.tempChargeStop ≤ t) : (cclAtTemperature c t).1 = 0 := by
  rw [cclAtTemperature]
  split_ifs
  · rfl
  · rfl

/-! ### Colder is not more -/

/-- A cell in the cold piece gets more than one in the cool piece, or the tail current is more than the
maximum. -/
def Dips (c : Config) (t t' : ℚ) : Prop :=
  (c.tempChargeMin < t ∧ t < c.tempChargeReduced ∧ c.tempChargeReduced ≤ t' ∧
      t' < c.tempChargeOptimal ∧
    c.maxChargeCurrent * (0.1 + 0.4 * ramp c.tempChargeReduced c.tempChargeOptimal t') <
      c.maxChargeCurrent * ramp c.tempChargeMin c.tempChargeReduced t * 0.5 ∧
    c.minChargeCurrent < c.maxChargeCurrent * ramp c.tempChargeMin c.tempChargeReduced t * 0.5) ∨
  (c.tempChargeMin < t ∧ t < c.tempChargeOptimal ∧ c.tempChargeOptimal ≤ t' ∧
    c.maxChargeCurrent < c.minChargeCurrent)

theorem max_le_max_iff_not {a b m : ℚ} : max b m ≤ max a m ↔ ¬ (a < b ∧ m < b) := by
  rw [max_le_iff, le_max_iff]
  constructor
  · rintro ⟨h | h, -⟩ ⟨ha, hm⟩
    · linarith
    · linarith
  · intro h
    refine ⟨?_, le_max_right _ _⟩
    by_contra hlt
    obtain ⟨ha, hm⟩ := not_or.mp hlt
    exact h ⟨not_le.mp ha, not_le.mp hm⟩

/-- The two rising pieces stay below a half of the maximum. -/
theorem cold_le (hmax : 0 ≤ c.maxChargeCurrent) (hmin : c.tempChargeMin ≤ t)
    (hred : t ≤ c.tempChargeReduced) :
    0 ≤ c.maxChargeCurrent * ramp c.tempChargeMin c.tempChargeReduced t * 0.5 ∧
      c.maxChargeCurrent * ramp c.tempChargeMin c.tempChargeReduced t * 0.5 ≤ c.maxChargeCurrent := by
  obtain ⟨h0, h1⟩ := part_mem hmax (ramp_nonneg hmin hred) (ramp_le_one hmin hred)
  constructor
  · linarith
  · linarith

theorem cool_le (hmax : 0 ≤ c.maxChargeCurrent) (hred : c.tempChargeReduced ≤ t)
    (hopt : t ≤ c.tempChargeOptimal) :
    0 ≤ c.maxChargeCurrent * (0.1 + 0.4 * ramp c.tempChargeReduced c.tempChargeOptimal t) ∧
      c.maxChargeCurrent * (0.1 + 0.4 * ramp c.tempChargeReduced c.tempChargeOptimal t) ≤
        c.maxChargeCurrent := by
  have h0 := ramp_nonneg hred hopt
  have h1 := ramp_le_one hred hopt
  exact part_mem hmax (by linarith) (by linarith)

/-- A current below the maximum is not above it with the tail current, unless this is. -/
theorem max_le_iff_not {a m b : ℚ} (h : a ≤ b) : max a m ≤ b ↔ ¬ b < m := by
  rw [max_le_iff, not_lt]
  exact ⟨And.right, fun hm => ⟨h, hm⟩⟩

/-- In a rising piece the current is a part of the maximum, or the tail current. -/
theorem at_rising (ho : Config.TempOrdered c) (hmax : 0 ≤ c.maxChargeCurrent)
    (hmin : c.tempChargeMin < t)
    (hopt : t < c.tempChargeOptimal) : ∃ q, 0 ≤ q ∧ q ≤ c.maxChargeCurrent ∧
      (cclAtTemperature c t).1 = max q c.minChargeCurrent := by
  rcases lt_or_ge t c.tempChargeReduced with hred | hred
  · obtain ⟨h0, h1⟩ := cold_le hmax hmin.le hred.le
    exact ⟨_, h0, h1, at_cold ho hmin hred⟩
  · obtain ⟨h0, h1⟩ := cool_le hmax hred hopt.le
    exact ⟨_, h0, h1, at_cool ho hred hopt⟩

theorem below_nonneg (ho : Config.TempOrdered c) (hmax : 0 ≤ c.maxChargeCurrent)
    (hlim : t ≤ c.tempChargeLimit) : 0 ≤ (cclAtTemperature c t).1 := by
  rcases le_or_gt t c.tempChargeMin with hmin | hmin
  · exact (at_tooCold hmin).ge
  · rcases lt_or_ge t c.tempChargeOptimal with hopt | hopt
    · obtain ⟨q, h0, -, hq⟩ := at_rising ho hmax hmin hopt
      rw [hq]
      exact le_max_of_le_left h0
    · rw [at_ok ho hopt hlim]
      exact hmax

/-- From a rising piece to the full current: only the tail current can be above it. -/
theorem rising_full (ho : Config.TempOrdered c) (hmax : 0 ≤ c.maxChargeCurrent)
    (hmin : c.tempChargeMin < t) (hopt : t < c.tempChargeOptimal) (hopt' : c.tempChargeOptimal ≤ t')
    (hlim : t' ≤ c.tempChargeLimit) :
    (cclAtTemperature c t).1 ≤ (cclAtTemperature c t').1 ↔ ¬ Dips c t t' := by
  obtain ⟨q, -, hle, hq⟩ := at_rising ho hmax hmin hopt
  rw [at_ok ho hopt' hlim, hq, max_le_iff_not hle, not_iff_not]
  constructor
  · exact fun h => Or.inr ⟨hmin, hopt, hopt', h⟩
  · rintro (⟨-, -, -, h, -⟩ | ⟨-, -, -, h⟩)
    · linarith
    · exact h

/-- Within the rising pieces: the current falls only from the cold one to the cool one. -/
theorem rising_rising (ho : Config.TempOrdered c) (hmax : 0 ≤ c.maxChargeCurrent)
    (hmin : c.tempChargeMin < t) (htt : t ≤ t') (hopt' : t' < c.tempChargeOptimal) :
    (cclAtTemperature c t).1 ≤ (cclAtTemperature c t').1 ↔ ¬ Dips c t t' := by
  have hmin' : c.tempChargeMin < t' := hmin.trans_le htt
  rcases lt_or_ge t c.tempChargeReduced with hred | hred
  · rcases lt_or_ge t' c.tempChargeReduced with hred' | hred'
    · have hdips : ¬ Dips c t t' := by
        rintro (⟨-, -, h, -⟩ | ⟨-, -, h, -⟩)
        · linarith
        · linarith
      refine ⟨fun _ => hdips, fun _ => ?_⟩
      have hmul := mul_le_mul_of_nonneg_left (ramp_mono ho.tempMin.le htt) hmax
      rw [at_cold ho hmin hred, at_cold ho hmin' hred']
      exact max_le_max (by linarith) le_rfl
    · rw [at_cold ho hmin hred, at_cool ho hred' hopt', max_le_max_iff_not, not_iff_not]
      constructor
      · exact fun h => Or.inl ⟨hmin, hred, hred', hopt', h⟩
      · rintro (⟨-, -, -, -, h⟩ | ⟨-, -, h, -⟩)
        · exact h
        · linarith
  · have hdips : ¬ Dips c t t' := by
      rintro (⟨-, h, -⟩ | ⟨-, -, h, -⟩)
      · linarith
      · linarith
    refine ⟨fun _ => hdips, fun _ => ?_⟩
    have hramp := ramp_mono ho.tempReduced.le htt
    rw [at_cool ho hred (htt.trans_lt hopt'), at_cool ho (hred.trans htt) hopt']
    exact max_le_max (mul_le_mul_of_nonneg_left (by linarith) hmax) le_rfl

/-- **Below the full-current maximum**: the colder cell gets no more, unless the curve dips between. -/
theorem cold_side (ho : Config.TempOrdered c) (hmax : 0 ≤ c.maxChargeCurrent) (htt : t ≤ t')
    (hlim : t' ≤ c.tempChargeLimit) :
    (cclAtTemperature c t).1 ≤ (cclAtTemperature c t').1 ↔ ¬ Dips c t t' := by
  rcases le_or_gt t c.tempChargeMin with hstop | hmin
  · -- charging has stopped at the colder one
    have hdips : ¬ Dips c t t' := by
      rintro (⟨h, -⟩ | ⟨h, -⟩)
      · linarith
      · linarith
    refine ⟨fun _ => hdips, fun _ => ?_⟩
    rw [at_tooCold hstop]
    exact below_nonneg ho hmax hlim
  rcases lt_or_ge t c.tempChargeOptimal with hopt | hopt
  · rcases lt_or_ge t' c.tempChargeOptimal with hopt' | hopt'
    · exact rising_rising ho hmax hmin htt hopt'
    · exact rising_full ho hmax hmin hopt hopt' hlim
  · have hred := ho.tempReduced
    have hdips : ¬ Dips c t t' := by
      rintro (⟨-, h, -⟩ | ⟨-, h, -⟩)
      · linarith
      · linarith
    refine ⟨fun _ => hdips, fun _ => ?_⟩
    rw [at_ok ho hopt (htt.trans hlim), at_ok ho (hopt.trans htt) hlim]

/-- **Above the full-current maximum** the hotter cell gets no more. -/
theorem hot_side (ho : Config.TempOrdered c) (hmax : 0 ≤ c.maxChargeCurrent) (htt : t ≤ t')
    (hlim : c.tempChargeLimit ≤ t) : (cclAtTemperature c t').1 ≤ (cclAtTemperature c t).1 := by
  have hopt : c.tempChargeOptimal ≤ t := ho.tempOptimal.trans hlim
  rcases lt_or_ge t' c.tempChargeStop with hstop' | hstop'
  · have hstop : t < c.tempChargeStop := htt.trans_lt hstop'
    rcases hlim.lt_or_eq with hlt | rfl
    · have hfall := fall_le ho.tempLimit htt
      rw [at_hot ho (hlt.trans_le htt) hstop', at_hot ho hlt hstop]
      exact mul_le_mul_of_nonneg_left (max_le_max le_rfl hfall) hmax
    · rw [at_ok ho hopt le_rfl]
      rcases htt.lt_or_eq with hlt' | rfl
      · have h0 := ramp_nonneg hlt'.le hstop'.le
        rw [at_hot ho hlt' hstop']
        exact mul_le_of_le_one_right hmax (max_le (by norm_num) (by linarith))
      · exact (at_ok ho hopt le_rfl).le
  · rw [at_tooHot hstop']
    rcases lt_or_ge t c.tempChargeStop with hstop | hstop
    · rcases hlim.lt_or_eq with hlt | rfl
      · rw [at_hot ho hlt hstop]
        exact mul_nonneg hmax (le_max_of_le_left (by norm_num))
      · rw [at_ok ho hopt le_rfl]
        exact hmax
    · exact (at_tooHot hstop).ge

theorem cclFromTemperature_some {minTemp maxTemp : Option ℚ} (h : chargeTemp minTemp maxTemp = some t) :
    calculateCclFromTemperature c minTemp maxTemp = cclAtTemperature c t := by
  rw [calculateCclFromTemperature, h]

/-- **Colder is never more, but for the dip**, and hotter is never more. -/
theorem colder_less (ho : Config.TempOrdered c) (hmax : 0 ≤ c.maxChargeCurrent)
    {minTemp minTemp' maxTemp maxTemp' : Option ℚ} (ht : chargeTemp minTemp maxTemp = some t)
    (ht' : chargeTemp minTemp' maxTemp' = some t') (htt : t ≤ t') :
    (t' ≤ c.tempChargeLimit →
      ((calculateCclFromTemperature c minTemp maxTemp).1 ≤
        (calculateCclFromTemperature c minTemp' maxTemp').1 ↔ ¬ Dips c t t')) ∧
    (c.tempChargeLimit ≤ t → (calculateCclFromTemperature c minTemp' maxTemp').1 ≤
      (calculateCclFromTemperature c minTemp maxTemp).1) := by
  rw [cclFromTemperature_some ht, cclFromTemperature_some ht']
  exact ⟨cold_side ho hmax htt, hot_side ho hmax htt⟩

/-- The default curve from 4 to 12 degrees, and from 41 to 45. -/
theorem colder_less_default :
    ((calculateCclFromTemperature {} (some 4) (some 4)).1 ≤
        (calculateCclFromTemperature {} (some 12) (some 12)).1 ↔ ¬ Dips {} 4 12) ∧
      (calculateCclFromTemperature {} (some 45) (some 45)).1 ≤
        (calculateCclFromTemperature {} (some 41) (some 41)).1 := by
  constructor
  · exact (colder_less ordered_default.temps (by norm_num) rfl rfl (by norm_num)).1 (by norm_num)
  · exact (colder_less ordered_default.temps (by norm_num) rfl rfl (by norm_num)).2 (by norm_num)

/-- At 4.9 degrees the default curve gives 49 A, at 5 degrees 10 A. -/
theorem colder_more :
    ¬ ∀ (c : Config) (minTemp minTemp' maxTemp maxTemp' : Option ℚ) (t t' : ℚ), Config.Ordered c →
      chargeTemp minTemp maxTemp = some t → chargeTemp minTemp' maxTemp' = some t' → t ≤ t' →
      t' ≤ c.tempChargeLimit → (calculateCclFromTemperature c minTemp maxTemp).1 ≤
        (calculateCclFromTemperature c minTemp' maxTemp').1 := by
  intro h
  have hle := h {} (some 4.9) (some 5) (some 4.9) (some 5) 4.9 5 ordered_default rfl rfl (by norm_num)
    (by norm_num)
  exact absurd hle (by decide +kernel)

/-! ### A cell outside its range -/

/-- A temperature outside the range of charging. -/
def Outside (c : Config) (t : ℚ) : Prop := t ≤ c.tempChargeMin ∨ c.tempChargeStop ≤ t

/-- The lowest and the highest temperature that the data report. -/
def lowest (d : Data) : Option ℚ := d.minTemp <|> d.maxTemp

def highest (d : Data) : Option ℚ := d.maxTemp <|> d.minTemp

/-- Inside its range the curve gives a current. -/
theorem cclAtTemperature_eq_zero (hmax : 0 < c.maxChargeCurrent) :
    (cclAtTemperature c t).1 = 0 ↔ Outside c t := by
  constructor
  · intro h
    by_contra hout
    obtain ⟨hmin, hstop⟩ := not_or.mp hout
    rw [cclAtTemperature, if_neg hmin, if_neg hstop] at h
    split_ifs at h with hred hopt hlim
    · -- the colder of the two rising pieces starts above 0
      have hramp := ramp_pos (not_le.mp hmin) hred.le
      rw [clamp_eq hramp.le (ramp_le_one (not_le.mp hmin).le hred.le)] at h
      have hpos := mul_pos hmax hramp
      have hle := le_max_left (c.maxChargeCurrent *
        ramp c.tempChargeMin c.tempChargeReduced t * 0.5) c.minChargeCurrent
      simp only at h
      linarith
    · have hfactor := clamp_nonneg (ramp c.tempChargeReduced c.tempChargeOptimal t)
      have hpos := mul_pos hmax (b := 0.1 + 0.4 * clamp (ramp c.tempChargeReduced c.tempChargeOptimal t))
        (by linarith)
      have hle := le_max_left (c.maxChargeCurrent *
        (0.1 + 0.4 * clamp (ramp c.tempChargeReduced c.tempChargeOptimal t))) c.minChargeCurrent
      simp only at h
      linarith
    · have hpos : 0 < c.maxChargeCurrent *
          max 0.2 (clamp (1 - ramp c.tempChargeLimit c.tempChargeStop t)) :=
        mul_pos hmax (lt_max_of_lt_left (by norm_num))
      exact hpos.ne' h
    · exact hmax.ne' h
  · rintro (h | h)
    · exact at_tooCold h
    · exact at_tooHot h

/-- What stops charging in every state: the BMS, a maximum of 0, the highest temperature, the
highest cell, its distance from the lowest one, or the state of charge.  Below its cutoff the
highest cell does it only with a tail current of 0, and so does the distance; the state of charge
does it with a factor of 0. -/
def StopsCharge (c : Config) (d : Data) : Prop :=
  d.allowCharge = false ∨ c.maxChargeCurrent = 0 ∨ (∃ t, highest d = some t ∧ Outside c t) ∨
    (∃ v, d.maxCell = some v ∧ (c.cellCutoff ≤ v ∨ c.cellNearFull ≤ v ∧ c.minChargeCurrent = 0)) ∨
    (∃ x, delta d.maxCell d.minCell = some x ∧ 0 ≤ x ∧ c.imbalanceStart < x ∧ c.imbalanceCritical ≤ x ∧
      c.minChargeCurrent = 0) ∨
    ∃ soc, d.soc = some soc ∧ c.socReduceStart ≤ soc ∧ 100 ≤ soc ∧ c.socReduceFactor = 0

/-- The highest cell, with a maximum above 0. -/
theorem cclFromCellVoltage_eq_zero (hc : Config.Currents c) (hmax : 0 < c.maxChargeCurrent)
    (maxCell : Option ℚ) : (calculateCclFromCellVoltage c maxCell).1 = 0 ↔
      ∃ v, maxCell = some v ∧ (c.cellCutoff ≤ v ∨ c.cellNearFull ≤ v ∧ c.minChargeCurrent = 0) := by
  have htail := hc.tail
  cases maxCell with
  | none => simp [calculateCclFromCellVoltage, hmax.ne']
  | some v =>
    simp only [Option.some.injEq, exists_eq_left', calculateCclFromCellVoltage]
    split_ifs with hcut hnear hbal hstart hfull
    · simp [hcut]
    · -- a part of the tail current
      have hlt := ramp_lt_one hnear (not_le.mp hcut)
      have hzero : max 0 (c.minChargeCurrent * (1 - ramp c.cellNearFull c.cellCutoff v)) = 0 ↔
          c.minChargeCurrent = 0 := by
        rw [max_eq_left_iff]
        refine ⟨fun h => le_antisymm ?_ htail, fun h => by rw [h, zero_mul]⟩
        by_contra hpos
        exact absurd h (not_le.mpr (mul_pos (not_le.mp hpos) (by linarith)))
      simp [hcut, hnear, hzero]
    · -- a mix of the tail current and a fifth of the maximum
      have h0 := mul_nonneg htail (ramp_nonneg hbal (not_le.mp hnear).le)
      have h1 := mul_pos (show 0 < c.maxChargeCurrent * 0.20 by linarith)
        (sub_pos.mpr (ramp_lt_one hbal (not_le.mp hnear)))
      refine iff_of_false (fun h => ?_) (by simp [hcut, hnear])
      simp only at h
      linarith
    · have h1 := ramp_le_one hstart (not_le.mp hbal).le
      have hpos := mul_pos hmax
        (show 0 < 0.20 + 0.80 * (1 - ramp c.cellStartLimit c.cellBalanceVoltage v) by linarith)
      exact iff_of_false hpos.ne' (by simp [hcut, hnear])
    · exact iff_of_false hmax.ne' (by simp [hcut, hnear])
    · exact iff_of_false hmax.ne' (by simp [hcut, hnear])

/-- The distance of the cells, with a maximum above 0. -/
theorem cclFromImbalance_eq_zero (hc : Config.Currents c) (hmax : 0 < c.maxChargeCurrent)
    (cellDelta : Option ℚ) : (calculateCclFromImbalance c cellDelta).1 = 0 ↔
      ∃ x, cellDelta = some x ∧ 0 ≤ x ∧ c.imbalanceStart < x ∧ c.imbalanceCritical ≤ x ∧
        c.minChargeCurrent = 0 := by
  cases cellDelta with
  | none => simp [calculateCclFromImbalance, hmax.ne']
  | some x =>
    simp only [Option.some.injEq, exists_eq_left', calculateCclFromImbalance]
    split_ifs with hneg hstart hcrit hagg
    · exact iff_of_false hmax.ne' fun h => absurd h.1 (not_le.mpr hneg)
    · exact iff_of_false hmax.ne' fun h => absurd h.2.1 (not_lt.mpr hstart)
    · simp [not_lt.mp hneg, not_le.mp hstart, hcrit]
    · have h0 := mul_nonneg hc.tail (ramp_nonneg hagg (not_le.mp hcrit).le)
      have h1 := mul_pos (show 0 < c.maxChargeCurrent * 0.30 by linarith)
        (sub_pos.mpr (ramp_lt_one hagg (not_le.mp hcrit)))
      refine iff_of_false (fun h => ?_) fun h => hcrit h.2.2.1
      simp only at h
      linarith
    · have h1 := ramp_le_one (not_le.mp hstart).le (not_le.mp hagg).le
      have hpos := mul_pos hmax
        (show 0 < 0.30 + 0.70 * (1 - ramp c.imbalanceStart c.imbalanceAggressive x) by linarith)
      exact iff_of_false hpos.ne' fun h => hcrit h.2.2.1

/-- The state of charge, with a maximum above 0. -/
theorem cclFromSoc_eq_zero (hc : Config.Currents c) (hmax : 0 < c.maxChargeCurrent) (soc : Option ℚ) :
    (calculateCclFromSoc c soc).1 = 0 ↔
      ∃ q, soc = some q ∧ c.socReduceStart ≤ q ∧ 100 ≤ q ∧ c.socReduceFactor = 0 := by
  cases soc with
  | none => simp [calculateCclFromSoc, hmax.ne']
  | some q =>
    simp only [Option.some.injEq, exists_eq_left', calculateCclFromSoc]
    split_ifs with hstart hfull
    · exact iff_of_false hmax.ne' fun h => absurd h.1 (not_le.mpr hstart)
    · simp [not_lt.mp hstart, hfull, hmax.ne']
    · -- the factor of a state of charge below 100 is above 0
      have h0 := ramp_nonneg (not_lt.mp hstart) (not_le.mp hfull).le
      have h1 := ramp_lt_one (not_lt.mp hstart) (not_le.mp hfull)
      have hpart := mul_le_of_le_one_right h0
        (show 1 - c.socReduceFactor ≤ 1 by linarith [hc.factor_nonneg])
      have hpos := mul_pos hmax
        (show 0 < 1 - ramp c.socReduceStart 100 q * (1 - c.socReduceFactor) by linarith)
      exact iff_of_false hpos.ne' fun h => hfull h.2.1

theorem cclFromTemperature_eq_zero (hmax : 0 < c.maxChargeCurrent) :
    (calculateCclFromTemperature c d.minTemp d.maxTemp).1 = 0 ↔
      ∃ t, highest d = some t ∧ Outside c t := by
  cases h : highest d with
  | none =>
    rw [calculateCclFromTemperature, show chargeTemp d.minTemp d.maxTemp = none from h]
    simp [hmax.ne']
  | some t =>
    rw [cclFromTemperature_some h, cclAtTemperature_eq_zero hmax]
    simp

theorem min_eq_zero {a b : ℚ} (ha : 0 ≤ a) (hb : 0 ≤ b) : min a b = 0 ↔ a = 0 ∨ b = 0 := by
  constructor
  · intro h
    rcases min_choice a b with hm | hm
    · exact Or.inl (hm.symm.trans h)
    · exact Or.inr (hm.symm.trans h)
  · rintro (rfl | rfl)
    · exact min_eq_left hb
    · exact min_eq_right ha

theorem data_ccl_nonneg (hc : Config.Currents c) (d : Data) : 0 ≤ (d.ccl c).1 := by
  unfold Data.ccl
  split
  · exact (computeCcl_mem hc _ _ _ _ _).1
  · exact le_rfl

theorem allowed_of_ccl_pos (h : 0 < (d.ccl c).1) : d.allowCharge = true := by
  by_contra hallow
  rw [Data.ccl, if_neg hallow] at h
  exact lt_irrefl _ h

/-- The limit before the rate limiter is 0 exactly then. -/
theorem data_ccl_eq_zero (hc : Config.Currents c) : (d.ccl c).1 = 0 ↔ StopsCharge c d := by
  unfold Data.ccl StopsCharge
  cases d.allowCharge with
  | false => simp
  | true =>
    have hcell := cclFromCellVoltage_nonneg hc d.maxCell
    have himb := cclFromImbalance_nonneg hc (delta d.maxCell d.minCell)
    have htemp := cclFromTemperature_nonneg hc d.minTemp d.maxTemp
    have hsoc := (cclFromSoc_mem hc d.soc).1
    rw [if_pos rfl, computeCcl_fst, min_eq_zero (le_min (le_min hcell himb) htemp) hsoc,
      min_eq_zero (le_min hcell himb) htemp, min_eq_zero hcell himb]
    rcases hc.charge.lt_or_eq with hmax | hmax
    · rw [cclFromTemperature_eq_zero hmax, cclFromCellVoltage_eq_zero hc hmax,
        cclFromImbalance_eq_zero hc hmax, cclFromSoc_eq_zero hc hmax]
      constructor
      · rintro (((h | h) | h) | h)
        · exact Or.inr (Or.inr (Or.inr (Or.inl h)))
        · exact Or.inr (Or.inr (Or.inr (Or.inr (Or.inl h))))
        · exact Or.inr (Or.inr (Or.inl h))
        · exact Or.inr (Or.inr (Or.inr (Or.inr (Or.inr h))))
      · rintro (h | h | h | h | h | h)
        · exact absurd h (by decide)
        · exact absurd h hmax.ne'
        · exact Or.inl (Or.inr h)
        · exact Or.inl (Or.inl (Or.inl h))
        · exact Or.inl (Or.inl (Or.inr h))
        · exact Or.inr h
    · -- no current at all
      have hzero : (calculateCclFromSoc c d.soc).1 = 0 :=
        le_antisymm ((cclFromSoc_mem hc d.soc).2.trans hmax.ge) hsoc
      simp [hzero, hmax.symm]

/-- A charge limit of 0 is returned at once, and another one not in every state. -/
theorem calculate_ccl_eq_zero (hc : Config.Currents c) :
    (∀ s now, (calculate c s now d).2.ccl = 0) ↔ (d.ccl c).1 = 0 := by
  constructor
  · intro h
    by_contra hne
    have hpos : 0 < (d.ccl c).1 := lt_of_le_of_ne (data_ccl_nonneg hc d) (Ne.symm hne)
    have hallow : d.allowCharge = true := allowed_of_ccl_pos hpos
    -- no time has passed since a call with a larger current
    have hnext : (Limiter.next c ⟨(d.ccl c).1 + 1, 0, some 0⟩ 0 d).lastCcl = (d.ccl c).1 + 1 := by
      have hlt : (d.ccl c).1 < (d.ccl c).1 + 1 := by linarith
      simp [Limiter.next, rateLimit, limited, rateLimitValue, hallow, hpos.not_ge, hlt.not_gt]
    have hround : (1 : ℚ) ≤ roundTo 1 ((d.ccl c).1 + 1) := by
      have h1 : roundTo 1 1 = 1 := by decide +kernel
      have hmono := roundTo_mono 1 (show (1 : ℚ) ≤ (d.ccl c).1 + 1 by linarith)
      rwa [h1] at hmono
    have hzero := h ⟨(d.ccl c).1 + 1, 0, some 0⟩ 0
    simp only [calculate, hnext] at hzero
    linarith
  · intro h s now
    have hnext : (Limiter.next c s now d).lastCcl = 0 := by
      cases hs : s.lastUpdateTime with
      | none => simp [Limiter.next, rateLimit, hs, h]
      | some last => simp [Limiter.next, rateLimit, hs, h, limited]
    simp only [calculate, hnext]
    decide +kernel

/-- A reported cell is outside the range of charging. -/
def CellOutside (c : Config) (d : Data) : Prop :=
  (∃ t, lowest d = some t ∧ t ≤ c.tempChargeMin) ∨ ∃ t, highest d = some t ∧ c.tempChargeStop ≤ t

/-- **A cell outside its range stops charging in every state exactly if the highest temperature is
outside too**, or something else stops it. -/
theorem cold_cell_stops (hc : Config.Currents c) :
    (CellOutside c d → ∀ s now, (calculate c s now d).2.ccl = 0) ↔
      (CellOutside c d → StopsCharge c d) :=
  imp_congr_right fun _ => (calculate_ccl_eq_zero hc).trans (data_ccl_eq_zero hc)

/-- A pack between -10 and -5 degrees gets no current. -/
theorem cold_cell_stops_frozen :
    (calculate {} (Limiter.init {}) 0 { minTemp := some (-10), maxTemp := some (-5) }).2.ccl = 0 :=
  (cold_cell_stops currents_default).mpr
    (fun _ => Or.inr (Or.inr (Or.inl ⟨-5, rfl, Or.inl (by norm_num)⟩)))
    (Or.inl ⟨-10, rfl, by norm_num⟩) (Limiter.init {}) 0

/-- A pack between -5 and 12 degrees gets the whole current at the first call. -/
theorem cold_cell_charges :
    ¬ ∀ (c : Config) (d : Data) (s : Limiter) (now : ℚ), CellOutside c d →
      (calculate c s now d).2.ccl = 0 := by
  intro h
  have hzero := h {} { minTemp := some (-5), maxTemp := some 12 } (Limiter.init {}) 0
    (Or.inl ⟨-5, rfl, by norm_num⟩)
  exact absurd hzero (by decide +kernel)

end InverterControl.Dvcc.Temperature
