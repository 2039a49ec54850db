import InverterControl.Battery.Model
import InverterControl.Lib.Accumulate

/-!
# What rounding at every sample does to the totals of a day

The totals are whole multiples of 0.0001 kWh in every state (`reached_onGrid`), because each sample is
added and rounded (`poll_day`).  So within a day the totals are the exact sums and the rounding errors of
the single samples (`drift`).  `small_power` says when these stay within the one rounding at the end, and
`small_power_dropped` that samples of less than half a unit are not counted at all.
-/

namespace InverterControl.Battery.Rounding

open InverterControl.Lib.Runs InverterControl.Lib.Accumulate InverterControl.Python
open InverterControl.Battery.Model

variable {s : BatteryEnergy} {x : Tick} {xs : List Tick} {t : Totals} {y : Sample} {ys : List Sample}
  {day : ℤ} {q : ℚ} {ks : List ℚ}

/-! ### Multiples of 0.0001 kWh -/

/-- A total that rounding leaves alone. -/
def OnGrid (q : ℚ) : Prop := ∃ n : ℤ, q = n / 10 ^ 4

def Totals.OnGrid (t : Totals) : Prop := Rounding.OnGrid t.charge ∧ Rounding.OnGrid t.discharge

theorem onGrid_zero : OnGrid 0 := ⟨0, by norm_num⟩

theorem onGrid_roundTo (q : ℚ) : OnGrid (roundTo 4 q) := ⟨_, rfl⟩

theorem Totals.onGrid_zero : Totals.OnGrid {} := ⟨Rounding.onGrid_zero, Rounding.onGrid_zero⟩

theorem Totals.onGrid_add (t : Totals) (y : Sample) : Totals.OnGrid (t.add y) := by
  unfold Totals.add
  split
  · exact ⟨onGrid_roundTo _, onGrid_roundTo _⟩
  · exact ⟨onGrid_roundTo _, onGrid_roundTo _⟩

/-- The units of a total. -/
def units (q : ℚ) : ℤ := pyRound (q * 10 ^ 4)

theorem units_div (n : ℤ) : units (n / 10 ^ 4) = n := by
  have h : (n : ℚ) / 10 ^ 4 * 10 ^ 4 = n := by norm_num
  rw [units, h, pyRound_int]

theorem OnGrid.eq_units (h : OnGrid q) : q = units q / 10 ^ 4 := by
  obtain ⟨n, rfl⟩ := h
  rw [units_div]

theorem OnGrid.roundTo_eq (h : OnGrid q) : roundTo 4 q = q := h.eq_units.symm

theorem evenShift_pyRound : EvenShift pyRound := pyRound_two_mul_add

/-- One amount more, in units. -/
theorem OnGrid.units_add (h : OnGrid q) (k : ℚ) :
    units (roundTo 4 (q + k)) = pyRound (units q + k * 10 ^ 4) := by
  have hq : (q + k) * 10 ^ 4 = units q + k * 10 ^ 4 := by
    conv_lhs => rw [h.eq_units]
    ring
  rw [roundTo, units_div, hq]

/-! ### The totals are on the grid -/

/-- A file whose totals are multiples, as every file of this program is. -/
def Saved.OnGrid (f : Saved) : Prop := Totals.OnGrid f.today ∧ Totals.OnGrid f.yesterday

/-- All that the state holds is on the grid. -/
structure Gridded (s : BatteryEnergy) : Prop where
  today : Totals.OnGrid s.cachedBatteryDailyEnergy
  yesterday : Totals.OnGrid s.batteryEnergyYesterday
  file : ∀ f, s.file = some f → Saved.OnGrid f

theorem gridded_persist (h : Gridded s) (now : ℚ) (w : Write) :
    Gridded (persistBatteryDailyEnergy now w s) := by
  refine ⟨?_, ?_, fun f hf => ?_⟩
  · rw [persist_cached]
    exact h.today
  · rw [persist_yesterday]
    exact h.yesterday
  · rcases persist_file now w s with hw | hw | hw
    · obtain rfl := Option.some.inj (hw.symm.trans hf)
      exact ⟨h.today, h.yesterday⟩
    · exact absurd (hw.symm.trans hf) (by simp)
    · exact h.file f (hw.symm.trans hf)

theorem gridded_rollover (h : Gridded s) (x : Tick) : Gridded (rollover x s) := by
  unfold rollover
  split
  · exact h
  · exact gridded_persist (s := { s with
      batteryEnergyYesterday := s.cachedBatteryDailyEnergy
      cachedBatteryDailyEnergy := {}
      batteryEnergyDate := tmYday x.today }) ⟨Totals.onGrid_zero, h.today, h.file⟩ _ _

theorem gridded_integrate (h : Gridded s) (x : Tick) : Gridded (integrate x s) := by
  unfold integrate
  split
  · exact ⟨Totals.onGrid_add _ _, h.yesterday, h.file⟩
  · exact h

theorem gridded_finish (h : Gridded s) (x : Tick) : Gridded (finish x s) := by
  unfold finish
  split
  · obtain ⟨ht, hy, hf⟩ := gridded_persist (s := { s with batteryEnergyLastTime := x.now })
      ⟨h.today, h.yesterday, h.file⟩ x.now x.periodicWrite
    exact ⟨ht, hy, hf⟩
  · exact ⟨h.today, h.yesterday, h.file⟩

theorem gridded_poll (h : Gridded s) (x : Tick) : Gridded (pollBatteryDailyEnergy s x) := by
  unfold pollBatteryDailyEnergy
  split
  · exact h
  · exact gridded_finish (gridded_integrate (gridded_rollover h x) x) x

theorem gridded_restore {f : Saved} (h : Gridded s) (hf : Saved.OnGrid f) (date : ℤ) :
    Gridded (restore date f s) := ⟨hf.1, hf.2, h.file⟩

theorem gridded_promote {f : Saved} (h : Gridded s) (hf : Saved.OnGrid f) (today : ℤ) :
    Gridded (promote today f s) := ⟨h.today, hf.1, h.file⟩

theorem gridded_load (h : Gridded s) (date todayDate : ℤ) :
    Gridded (loadBatteryDailyEnergy date todayDate s) := by
  unfold loadBatteryDailyEnergy
  split
  · exact h
  · next f hf =>
    have hgrid := h.file f hf
    split
    · split_ifs
      · exact gridded_restore h hgrid _
      · exact gridded_promote h hgrid _
      · exact h
    · split_ifs
      · exact gridded_restore h hgrid _
      · exact gridded_promote h hgrid _
      · exact h

theorem gridded_next (h : Gridded s) (e : Event) : Gridded (next s e) := by
  cases e with
  | tick x => exact gridded_poll h x
  | restart date todayDate =>
    exact gridded_load (s := { file := s.file }) ⟨Totals.onGrid_zero, Totals.onGrid_zero, h.file⟩
      date todayDate

/-- A state after calls and restarts, from no file or one with totals on the grid. -/
def Reached (s : BatteryEnergy) : Prop :=
  ∃ file es, (∀ f, file = some f → Saved.OnGrid f) ∧ s = exec next { file := file } es

/-- **Every state is on the grid.** -/
theorem reached_onGrid (hs : Reached s) : Gridded s := by
  obtain ⟨file, es, hfile, rfl⟩ := hs
  exact exec_invariant (P := Gridded) ⟨Totals.onGrid_zero, Totals.onGrid_zero, hfile⟩
    fun x _ h => gridded_next h x.input

/-! ### The samples of a day -/

/-- The samples that the calls integrate, after the last call and the last sample. -/
def samples : ℚ → ℚ → List Tick → List Sample
  | _, _, [] => []
  | lastTick, lastTime, x :: xs =>
    if x.now - lastTick < 5 then samples lastTick lastTime xs
    else (sample lastTime x).toList ++ samples x.now x.now xs

/-- The samples of the calls from a state. -/
def samplesFrom (s : BatteryEnergy) (xs : List Tick) : List Sample :=
  samples s.lastBatteryDailyEnergyTime s.batteryEnergyLastTime xs

/-- What a state has counted for a day. -/
def totalsOn (day : ℤ) (s : BatteryEnergy) : Totals :=
  if tmYday day = s.batteryEnergyDate then s.cachedBatteryDailyEnergy else {}

theorem totalsOn_rollover (x : Tick) (s : BatteryEnergy) :
    (rollover x s).cachedBatteryDailyEnergy = totalsOn x.today s := by
  unfold rollover totalsOn
  split
  · rfl
  · simp

theorem totalsOn_onGrid (h : Gridded s) (day : ℤ) : Totals.OnGrid (totalsOn day s) := by
  unfold totalsOn
  split
  · exact h.today
  · exact Totals.onGrid_zero

/-- **One call adds its sample to the totals of its day.** -/
theorem poll_day (h : ¬ x.now - s.lastBatteryDailyEnergyTime < 5) :
    totalsOn x.today (pollBatteryDailyEnergy s x) =
      (sample s.batteryEnergyLastTime x).toList.foldl Totals.add (totalsOn x.today s) := by
  have hdate : (pollBatteryDailyEnergy s x).batteryEnergyDate = tmYday x.today := by
    rw [pollBatteryDailyEnergy, if_neg h, finish_date, integrate_date, rollover_date]
  rw [totalsOn, if_pos hdate.symm, pollBatteryDailyEnergy, if_neg h, finish_cached, integrate,
    rollover_lastTime]
  cases sample s.batteryEnergyLastTime x with
  | none => exact totalsOn_rollover x s
  | some y =>
    simp only [totalsOn_rollover]
    rfl

/-- **The calls of a day add their samples.** -/
theorem poll_run (hday : ∀ x ∈ xs, x.today = day) :
    totalsOn day (exec pollBatteryDailyEnergy s xs) =
      (samplesFrom s xs).foldl Totals.add (totalsOn day s) := by
  induction xs generalizing s with
  | nil => rfl
  | cons x xs ih =>
    have hx : x.today = day := hday x List.mem_cons_self
    have htail := ih (s := pollBatteryDailyEnergy s x) fun x' hx' => hday x' (List.mem_cons_of_mem x hx')
    rw [exec_cons, htail]
    by_cases h : x.now - s.lastBatteryDailyEnergyTime < 5
    · have hsame : pollBatteryDailyEnergy s x = s := by rw [pollBatteryDailyEnergy, if_pos h]
      rw [hsame, samplesFrom, samplesFrom, samples, if_pos h]
    · have hpoll := poll_day h
      have hclocks : samplesFrom (pollBatteryDailyEnergy s x) xs = samples x.now x.now xs := by
        rw [samplesFrom, pollBatteryDailyEnergy, if_neg h, finish_lastTick, finish_lastTime]
      rw [hx] at hpoll
      rw [hpoll, hclocks, samplesFrom, samples, if_neg h, List.foldl_append]

/-- A sample that is integrated has a time of less than 30 s. -/
theorem mem_samples {lastTick lastTime : ℚ} (hy : y ∈ samples lastTick lastTime xs) :
    0 < y.dt ∧ y.dt < 30 := by
  induction xs generalizing lastTick lastTime with
  | nil => exact absurd hy (by simp [samples])
  | cons x xs ih =>
    rw [samples] at hy
    split at hy
    · exact ih hy
    · rcases List.mem_append.mp hy with hy | hy
      · rw [Option.mem_toList, sample] at hy
        split at hy
        · next h =>
          obtain rfl := Option.some.inj hy
          exact h.2
        · exact absurd hy (by simp)
      · exact ih hy

/-! ### The errors of the samples -/

/-- The energies of the samples that charge. -/
def charged (ys : List Sample) : List ℚ := (ys.filter fun y => 0 < y.bp).map Sample.kwh

/-- The energies of the others. -/
def discharged (ys : List Sample) : List ℚ := (ys.filter fun y => ¬ 0 < y.bp).map Sample.kwh

theorem charged_cons (y : Sample) (ys : List Sample) :
    charged (y :: ys) = if 0 < y.bp then y.kwh :: charged ys else charged ys := by
  by_cases hy : 0 < y.bp
  · simp [charged, hy]
  · simp [charged, hy]

theorem discharged_cons (y : Sample) (ys : List Sample) :
    discharged (y :: ys) = if 0 < y.bp then discharged ys else y.kwh :: discharged ys := by
  by_cases hy : 0 < y.bp
  · simp [discharged, hy]
  · rw [if_neg hy, discharged, List.filter_cons, if_pos (decide_eq_true hy)]
    rfl

/-- The rounding errors of the amounts, each by itself; a tie goes to the total that is even. -/
def drift (start : ℚ) (ks : List ℚ) : ℚ :=
  (errors pyRound (isOdd (units start)) (ks.map (· * 10 ^ 4))).sum / 10 ^ 4

/-- A total that takes the amounts and is rounded each time. -/
def accumulate (start : ℚ) (ks : List ℚ) : ℚ := ks.foldl (fun q k => roundTo 4 (q + k)) start

theorem accumulate_units (h : OnGrid q) :
    accumulate q ks = total pyRound (units q) (ks.map (· * 10 ^ 4)) / 10 ^ 4 := by
  induction ks generalizing q with
  | nil => exact h.eq_units
  | cons k ks ih =>
    have hunits := h.units_add k
    have hrest := ih (onGrid_roundTo (q + k))
    rw [hunits] at hrest
    exact hrest

/-- **The rounded total is the exact sum and the drift.** -/
theorem accumulate_eq (h : OnGrid q) : accumulate q ks = q + ks.sum + drift q ks := by
  have hsum : (ks.map (· * (10 : ℚ) ^ 4)).sum = ks.sum * 10 ^ 4 := by
    simpa using List.sum_map_mul_right ks id ((10 : ℚ) ^ 4)
  have hq : q = units q / 10 ^ 4 := h.eq_units
  rw [accumulate_units h, total_eq evenShift_pyRound, hsum, drift]
  conv_rhs => rw [hq, units_div]
  ring

/-- Amounts below half a unit leave the total as it is. -/
theorem accumulate_dropped (h : OnGrid q) (hks : ∀ k ∈ ks, 0 ≤ k ∧ k < 1 / 20000) :
    accumulate q ks = q := by
  have hround : ∀ e ∈ ks.map (· * (10 : ℚ) ^ 4), ∀ n : ℤ, pyRound (n + e) = n := by
    intro e he n
    obtain ⟨k, hk, rfl⟩ := List.mem_map.mp he
    obtain ⟨hpos, hlt⟩ := hks k hk
    exact pyRound_eq_of_lt (by linarith) (by linarith)
  rw [accumulate_units h, total_dropped hround]
  exact h.eq_units.symm

/-- Each total takes its own samples; rounding leaves the other one alone. -/
theorem foldl_add (ys : List Sample) (h : Totals.OnGrid t) :
    (ys.foldl Totals.add t).charge = accumulate t.charge (charged ys) ∧
      (ys.foldl Totals.add t).discharge = accumulate t.discharge (discharged ys) := by
  induction ys generalizing t with
  | nil => exact ⟨rfl, rfl⟩
  | cons y ys ih =>
    obtain ⟨hc, hd⟩ := ih (Totals.onGrid_add t y)
    rw [List.foldl_cons, hc, hd]
    by_cases hy : 0 < y.bp
    · have hadd : t.add y = ⟨roundTo 4 (t.charge + y.kwh), t.discharge⟩ := by
        rw [Totals.add, if_pos hy, h.2.roundTo_eq]
      rw [hadd, charged_cons, discharged_cons, if_pos hy, if_pos hy]
      exact ⟨rfl, rfl⟩
    · have hadd : t.add y = ⟨t.charge, roundTo 4 (t.discharge + y.kwh)⟩ := by
        rw [Totals.add, if_neg hy, h.1.roundTo_eq]
      rw [hadd, charged_cons, discharged_cons, if_neg hy, if_neg hy]
      exact ⟨rfl, rfl⟩

/-! ### Small power -/

/-- The totals moved by the energy of the samples, up to one rounding to four decimals. -/
def CountsAll (before after : Totals) (ys : List Sample) : Prop :=
  |after.charge - (before.charge + (charged ys).sum)| ≤ 1 / 20000 ∧
    |after.discharge - (before.discharge + (discharged ys).sum)| ≤ 1 / 20000

instance (before after : Totals) (ys : List Sample) : Decidable (CountsAll before after ys) :=
  inferInstanceAs (Decidable (_ ∧ _))

/-- **The totals of a day are right exactly when the rounding errors of its samples cancel.** -/
theorem small_power (hs : Reached s) (hday : ∀ x ∈ xs, x.today = day) :
    CountsAll (totalsOn day s) (totalsOn day (exec pollBatteryDailyEnergy s xs)) (samplesFrom s xs) ↔
      |drift (totalsOn day s).charge (charged (samplesFrom s xs))| ≤ 1 / 20000 ∧
        |drift (totalsOn day s).discharge (discharged (samplesFrom s xs))| ≤ 1 / 20000 := by
  have hgrid := totalsOn_onGrid (reached_onGrid hs) day
  obtain ⟨hc, hd⟩ := foldl_add (samplesFrom s xs) hgrid
  rw [accumulate_eq hgrid.1] at hc
  rw [accumulate_eq hgrid.2] at hd
  rw [CountsAll, poll_run hday, hc, hd, add_sub_cancel_left, add_sub_cancel_left]

/-- A process that has just started, without a file. -/
theorem reached_start : Reached {} := ⟨none, [], by simp, rfl⟩

/-- The calls of 1 January 1970 at these times, with a steady power. -/
def steady (bp : ℚ) (times : List ℚ) : List Tick :=
  times.map fun now => { now := now, today := 0, bp := some bp }

/-- 720 W for 5 s are 0.001 kWh. -/
theorem small_power_charging :
    CountsAll (totalsOn 0 {}) (totalsOn 0 (exec pollBatteryDailyEnergy {} (steady 720 [100, 105])))
        (samplesFrom {} (steady 720 [100, 105])) ∧
      totalsOn 0 (exec pollBatteryDailyEnergy {} (steady 720 [100, 105])) = ⟨1 / 1000, 0⟩ := by
  constructor
  · have hday : ∀ x ∈ steady 720 [100, 105], x.today = 0 := by decide +kernel
    exact (small_power reached_start hday).mpr (by decide +kernel)
  · decide +kernel

/-- Two calls with less than 30 s between them. -/
def Spaced (a b : Tick) : Prop := 0 < b.now - a.now ∧ b.now - a.now < 30

/-- 20 W for 15 s are more than half a unit, and leave nothing. -/
theorem small_power_lost :
    ¬ ∀ (s : BatteryEnergy) (day : ℤ) (xs : List Tick), Reached s → (∀ x ∈ xs, x.today = day) →
      xs.IsChain Spaced →
      CountsAll (totalsOn day s) (totalsOn day (exec pollBatteryDailyEnergy s xs))
        (samplesFrom s xs) := by
  intro h
  have hspaced : (steady 20 [100, 105, 110, 115]).IsChain Spaced := by
    simp only [steady, List.map_cons, List.map_nil, List.isChain_cons_cons, Spaced]
    norm_num
  have hall := h {} 0 _ reached_start (by decide +kernel) hspaced
  exact absurd hall (by decide +kernel)

/-- **Samples of less than half a unit are not counted**, however many they are. -/
theorem small_power_dropped (hs : Reached s) (hday : ∀ x ∈ xs, x.today = day)
    (hsmall : ∀ y ∈ samplesFrom s xs, y.kwh < 1 / 20000) :
    totalsOn day (exec pollBatteryDailyEnergy s xs) = totalsOn day s := by
  have hgrid := totalsOn_onGrid (reached_onGrid hs) day
  have hkwh : ∀ y ∈ samplesFrom s xs, 0 ≤ y.kwh ∧ y.kwh < 1 / 20000 := by
    intro y hy
    have hdt : 0 < y.dt := (mem_samples hy).1
    have hpos : 0 ≤ y.kwh := by
      unfold Sample.kwh
      positivity
    exact ⟨hpos, hsmall y hy⟩
  have hcharged : ∀ k ∈ charged (samplesFrom s xs), 0 ≤ k ∧ k < 1 / 20000 := by
    intro k hk
    obtain ⟨y, hy, rfl⟩ := List.mem_map.mp hk
    exact hkwh y (List.mem_of_mem_filter hy)
  have hdischarged : ∀ k ∈ discharged (samplesFrom s xs), 0 ≤ k ∧ k < 1 / 20000 := by
    intro k hk
    obtain ⟨y, hy, rfl⟩ := List.mem_map.mp hk
    exact hkwh y (List.mem_of_mem_filter hy)
  obtain ⟨hc, hd⟩ := foldl_add (samplesFrom s xs) hgrid
  rw [accumulate_dropped hgrid.1 hcharged] at hc
  rw [accumulate_dropped hgrid.2 hdischarged] at hd
  rw [poll_run hday]
  exact Totals.ext hc hd

end InverterControl.Battery.Rounding
