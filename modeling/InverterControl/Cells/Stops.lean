import InverterControl.Cells.Counts
import InverterControl.Cells.Live

/-!
# Every alarm of a chain stops the current

The aggregate of the chains only grows (`Grows`): no chain hides what another one tells.  So the
totals have the voltages, the temperatures and the flags of the last answer of each chain
(`last_has`), its extremes bound those of the calculator's data, and an alarm among them stops the
current (`alarms_stop`).
-/

namespace InverterControl.Cells.Stops

open InverterControl.Lib.Runs InverterControl.Lib.History InverterControl.Python
open InverterControl.Dvcc.Model InverterControl.Dvcc.Curves InverterControl.Dvcc.Limiter
open InverterControl.Dvcc.Temperature
open InverterControl.Cells.Model InverterControl.Cells.Counts InverterControl.Cells.Live

variable {s : Chains} {t t' : Totals} {entry : Entry} {service : Service} {v q : ℚ}

/-! ### The aggregate grows -/

/-- The totals have all that others have. -/
structure Grows (t t' : Totals) : Prop where
  voltages : ∀ x ∈ t.voltages, x ∈ t'.voltages
  temps : ∀ x ∈ t.temps, x ∈ t'.temps
  socCount : t.socCount ≤ t'.socCount
  allowCharge : t.allowCharge = false → t'.allowCharge = false
  allowDischarge : t.allowDischarge = false → t'.allowDischarge = false

theorem Grows.refl (t : Totals) : Grows t t :=
  ⟨fun _ h => h, fun _ h => h, le_rfl, id, id⟩

theorem Grows.trans {t'' : Totals} (h : Grows t t') (h' : Grows t' t'') : Grows t t'' :=
  ⟨fun x hx => h'.voltages x (h.voltages x hx), fun x hx => h'.temps x (h.temps x hx),
    h.socCount.trans h'.socCount, fun ha => h'.allowCharge (h.allowCharge ha),
    fun ha => h'.allowDischarge (h.allowDischarge ha)⟩

theorem foldl_addVoltage (voltages : List ℚ) (acc : List (ℚ × ℕ)) :
    (∀ x ∈ acc, x ∈ voltages.foldl addVoltage acc) ∧
      ∀ v ∈ voltages, 0 < v → ∃ place, (v, place) ∈ voltages.foldl addVoltage acc := by
  induction voltages generalizing acc with
  | nil => simp
  | cons w voltages ih =>
    obtain ⟨hacc, hrest⟩ := ih (addVoltage acc w)
    have hmem : ∀ x ∈ acc, x ∈ addVoltage acc w := by
      intro x hx
      unfold addVoltage
      split_ifs
      · exact List.mem_append_left _ hx
      · exact hx
    refine ⟨fun x hx => hacc x (hmem x hx), fun v hv hpos => ?_⟩
    rcases List.mem_cons.mp hv with rfl | hv
    · refine ⟨acc.length, hacc _ ?_⟩
      simp [addVoltage, hpos]
    · exact hrest v hv hpos

theorem allowed_false {flag : Option Bool} {allow : Bool} (h : allow = false ∨ flag = some false) :
    allowed allow flag = false := by
  rcases h with rfl | rfl
  · cases flag with
    | none => rfl
    | some flag => rfl
  · cases allow with
    | false => rfl
    | true => rfl

theorem grows_accumulate (t : Totals) (entry : Entry) : Grows t (accumulateChainData t entry) where
  voltages := (foldl_addVoltage entry.voltages t.voltages).1
  temps _ hx := List.mem_append_left _ hx
  socCount := by
    unfold accumulateChainData
    dsimp only
    split_ifs
    · omega
    · exact le_rfl
  allowCharge h := allowed_false (Or.inl h)
  allowDischarge h := allowed_false (Or.inl h)

theorem grows_addCached (s : Chains) (t : Totals) (service : Service) :
    Grows t (addCached s t service) := by
  unfold addCached
  split
  · exact grows_accumulate _ _
  · exact Grows.refl t

/-- The totals of the chains have those of each chain. -/
theorem exists_grows (h : s.cells service = some entry) :
    ∃ t, Grows (accumulateChainData t entry) (aggregateCachedChains s) := by
  unfold aggregateCachedChains batteryCellServices
  simp only [List.foldl_cons, List.foldl_nil]
  cases service with
  | chain1 =>
    refine ⟨{}, ?_⟩
    rw [show addCached s {} .chain1 = accumulateChainData {} entry by rw [addCached, h]]
    exact grows_addCached s _ .chain2
  | chain2 =>
    refine ⟨addCached s {} .chain1, ?_⟩
    rw [show addCached s (addCached s {} .chain1) .chain2 =
      accumulateChainData (addCached s {} .chain1) entry by rw [addCached, h]]
    exact Grows.refl _

/-- What one entry gives to the totals. -/
structure Has (t : Totals) (entry : Entry) : Prop where
  voltage : ∀ v ∈ entry.voltages, 0 < v → ∃ place, (v, place) ∈ t.voltages
  temp : ∀ q ∈ entry.temps, q ∈ t.temps
  soc : entry.soc.isSome → t.socCount ≠ 0
  allowCharge : entry.allowCharge = some false → t.allowCharge = false
  allowDischarge : entry.allowDischarge = some false → t.allowDischarge = false

theorem aggregate_has (h : s.cells service = some entry) : Has (aggregateCachedChains s) entry := by
  obtain ⟨t, hgrows⟩ := exists_grows h
  refine ⟨fun v hv hpos => ?_, fun q hq => ?_, fun hsoc => ?_, fun hflag => ?_, fun hflag => ?_⟩
  · obtain ⟨place, hplace⟩ := (foldl_addVoltage entry.voltages t.voltages).2 v hv hpos
    exact ⟨place, hgrows.voltages _ hplace⟩
  · exact hgrows.temps q (List.mem_append_right _ hq)
  · have hcount := hgrows.socCount
    simp only [accumulateChainData, if_pos hsoc] at hcount
    omega
  · exact hgrows.allowCharge (allowed_false (Or.inr hflag))
  · exact hgrows.allowDischarge (allowed_false (Or.inr hflag))

/-! ### The extremes -/

theorem sorted_voltages (voltages : List (ℚ × ℕ)) :
    (voltages.insertionSort fun a b => b.1 ≤ a.1).Pairwise fun a b => b.1 ≤ a.1 := by
  have htotal : Std.Total fun a b : ℚ × ℕ => b.1 ≤ a.1 := ⟨fun a b => le_total b.1 a.1⟩
  have htrans : IsTrans (ℚ × ℕ) fun a b => b.1 ≤ a.1 := ⟨fun _ _ _ h h' => h'.trans h⟩
  exact List.pairwise_insertionSort _ voltages

/-- The highest cell of the result is no lower than any voltage, to three decimals. -/
theorem maxCell_ge {x : ℚ × ℕ} (h : x ∈ t.voltages) :
    ∃ m, (buildCellResult t).maxCell = some m ∧ roundTo 3 x.1 ≤ m := by
  have hmem : x ∈ t.voltages.insertionSort fun a b => b.1 ≤ a.1 := (List.mem_insertionSort _).mpr h
  have hsorted := sorted_voltages t.voltages
  unfold buildCellResult
  dsimp only
  cases hl : t.voltages.insertionSort fun a b => b.1 ≤ a.1 with
  | nil => simp [hl] at hmem
  | cons y rest =>
    rw [hl] at hmem hsorted
    refine ⟨roundTo 3 y.1, rfl, roundTo_mono 3 ?_⟩
    rcases List.mem_cons.mp hmem with rfl | hx
    · exact le_rfl
    · exact (List.pairwise_cons.mp hsorted).1 x hx

theorem minCell_le {x : ℚ × ℕ} (h : x ∈ t.voltages) :
    ∃ m, (buildCellResult t).minCell = some m ∧ m ≤ roundTo 3 x.1 := by
  have hmem : x ∈ t.voltages.insertionSort fun a b => b.1 ≤ a.1 := (List.mem_insertionSort _).mpr h
  have hsorted := sorted_voltages t.voltages
  unfold buildCellResult
  dsimp only
  rcases List.eq_nil_or_concat (t.voltages.insertionSort fun a b => b.1 ≤ a.1) with hl | ⟨rest, y, hl⟩
  · simp [hl] at hmem
  · rw [hl, List.concat_eq_append] at hmem hsorted ⊢
    refine ⟨roundTo 3 y.1, by simp, roundTo_mono 3 ?_⟩
    rcases List.mem_append.mp hmem with hx | hx
    · exact (List.pairwise_append.mp hsorted).2.2 x hx y (by simp)
    · rw [List.mem_singleton.mp hx]

theorem maxTemp_ge (h : q ∈ t.temps) : ∃ m, (buildCellResult t).maxTemp = some m ∧ roundTo 1 q ≤ m := by
  cases hmax : t.temps.max? with
  | none => simp [List.max?_eq_none_iff.mp hmax] at h
  | some m =>
    refine ⟨roundTo 1 m, by simp [buildCellResult, hmax], roundTo_mono 1 ?_⟩
    exact (List.max?_eq_some_iff.mp hmax).2 q h

theorem minTemp_le (h : q ∈ t.temps) : ∃ m, (buildCellResult t).minTemp = some m ∧ m ≤ roundTo 1 q := by
  cases hmin : t.temps.min? with
  | none => simp [List.min?_eq_none_iff.mp hmin] at h
  | some m =>
    refine ⟨roundTo 1 m, by simp [buildCellResult, hmin], roundTo_mono 1 ?_⟩
    exact (List.min?_eq_some_iff.mp hmin).2 q h

/-! ### What is kept of the last answer -/

variable {past later : List Event} {fields : Tree} {c : Config} {d : Data}

theorem cells_other {e : Event} (h : answered service e = none) :
    (next s e).cells service = s.cells service := by
  cases e with
  | answer service' fields =>
    refine Function.update_of_ne (fun heq => ?_) _ _
    simp [answered, heq] at h
  | live trees =>
    simp only [next, collectLiveCellData, batteryCellServices, List.foldl_cons, List.foldl_nil,
      addLive_cells]

theorem cells_exec (h : ∀ e ∈ later, answered service e = none) :
    (exec next s later).cells service = s.cells service := by
  induction later using List.reverseRecOn with
  | nil => rfl
  | append_singleton later e ih =>
    rw [exec_snoc, cells_other (h e (by simp))]
    exact ih fun e he => h e (by simp [he])

/-- The entry of an answer. -/
def entryOf (s : Chains) (service : Service) (fields : Tree) : Entry where
  voltages := cachedVoltages s service fields
  temps := (List.range' 1 16).filterMap fun i => snapshotNumber (fields (.temperature i))
  soc := snapshotNumber (fields .soc)
  allowCharge := (snapshotNumber (fields .allowCharge)).map isOne
  allowDischarge := (snapshotNumber (fields .allowDischarge)).map isOne

/-- The last answer of a chain is in the totals. -/
theorem last_has (past : List Event) (fields : Tree) (h : ∀ e ∈ later, answered service e = none) :
    Has (aggregateCachedChains (exec next {} (past ++ .answer service fields :: later)))
      (entryOf (exec next {} past) service fields) := by
  have hcells : (exec next {} (past ++ .answer service fields :: later)).cells service =
      some (entryOf (exec next {} past) service fields) := by
    rw [exec_append, exec_cons, cells_exec h]
    exact Function.update_self _ _ _
  exact aggregate_has hcells

theorem mem_temps {fields : Tree} {i : ℕ} (h1 : 1 ≤ i) (h16 : i ≤ 16)
    (hq : fields (.temperature i) = .number q) : q ∈ (entryOf s service fields).temps := by
  refine List.mem_filterMap.mpr ⟨i, ?_, by rw [hq]; rfl⟩
  rw [List.mem_range'_1]
  omega

/-! ### The alarms -/

/-- The answer has a temperature, a state of charge, or a voltage of its first cell. -/
def Tells (fields : Tree) : Prop :=
  (∃ i q, 1 ≤ i ∧ i ≤ 16 ∧ fields (.temperature i) = .number q) ∨ (∃ q, fields .soc = .number q) ∨
    ∃ v, 0 < v ∧ fields (.voltage 1) = .number v

/-- An answer that has to stop charging: a cell that is watched or a sensor, to the decimals that are
kept, or the flag of the chain. -/
inductive ChargeAlarm (c : Config) (service : Service) (past : List Event) (fields : Tree) : Prop
  | cell (k : ℕ) (v : ℚ) (hwatched : Watched service past fields k)
    (hv : fields (.voltage k) = .number v) (hpos : 0 < v) (hcut : c.cellCutoff ≤ roundTo 3 v)
  | sensor (i : ℕ) (q : ℚ) (h1 : 1 ≤ i) (h16 : i ≤ 16) (hq : fields (.temperature i) = .number q)
    (hcut : c.tempChargeStop ≤ roundTo 1 q)
  | blocked (q : ℚ) (htells : Tells fields) (hq : fields .allowCharge = .number q)
    (hone : truncate q ≠ 1)

/-- The same for discharging. -/
inductive DischargeAlarm (c : Config) (service : Service) (past : List Event) (fields : Tree) : Prop
  | cell (k : ℕ) (v : ℚ) (hwatched : Watched service past fields k)
    (hv : fields (.voltage k) = .number v) (hpos : 0 < v) (hcut : roundTo 3 v ≤ 2.7)
  | sensor (i : ℕ) (q : ℚ) (h1 : 1 ≤ i) (h16 : i ≤ 16) (hq : fields (.temperature i) = .number q)
    (hcut : roundTo 1 q ≤ c.tempDischargeMin)
  | blocked (q : ℚ) (htells : Tells fields) (hq : fields .allowDischarge = .number q)
    (hone : truncate q ≠ 1)

theorem watched_one (past : List Event) (h : fields (.voltage 1) = .number v) :
    Watched service past fields 1 := by
  refine ⟨le_rfl, by omega, fun fields' hmem => ?_, fun i h1 hi => ?_⟩
  · simp [lastN] at hmem
  · obtain rfl : i = 1 := by omega
    exact ⟨v, h⟩

/-- A temperature, a state of charge or a voltage of a chain that told one makes the data valid. -/
theorem hasData_of_tells (hhas : Has t (entryOf (exec next {} past) service fields)) (h : Tells fields) :
    t.HasData := by
  rcases h with ⟨i, q, h1, h16, hq⟩ | ⟨q, hq⟩ | ⟨v, hpos, hv⟩
  · exact Or.inr (Or.inl (List.ne_nil_of_mem (hhas.temp q (mem_temps h1 h16 hq))))
  · refine Or.inr (Or.inr (hhas.soc ?_))
    rw [entryOf, hq]
    rfl
  · obtain ⟨place, hplace⟩ := hhas.voltage v ((watched_one past hv).mem hv) hpos
    exact Or.inl (List.ne_nil_of_mem hplace)

theorem getBatteryCellData_cached (h : (aggregateCachedChains s).HasData) (polling : Bool)
    (trees : Service → Tree) :
    (getBatteryCellData s polling trees).1 = .data (buildCellResult (aggregateCachedChains s)) := by
  rw [getBatteryCellData, buildFromCache, if_pos h]

theorem isOne_false (h : truncate q ≠ 1) : (snapshotNumber (.number q)).map isOne = some false := by
  simp [snapshotNumber, isOne, h]

/-- An alarm of charging is in the data. -/
theorem ChargeAlarm.stops (hhas : Has t (entryOf (exec next {} past) service fields))
    (h : ChargeAlarm c service past fields) : t.HasData ∧ StopsCharge c (buildCellResult t) := by
  rcases h with ⟨k, v, hwatched, hv, hpos, hcut⟩ | ⟨i, q, h1, h16, hq, hcut⟩ | ⟨q, htells, hq, hone⟩
  · obtain ⟨place, hplace⟩ := hhas.voltage v (hwatched.mem hv) hpos
    obtain ⟨m, hm, hle⟩ := maxCell_ge hplace
    exact ⟨Or.inl (List.ne_nil_of_mem hplace),
      Or.inr (Or.inr (Or.inr (Or.inl ⟨m, hm, Or.inl (hcut.trans hle)⟩)))⟩
  · have hmem := hhas.temp q (mem_temps h1 h16 hq)
    obtain ⟨m, hm, hle⟩ := maxTemp_ge hmem
    refine ⟨Or.inr (Or.inl (List.ne_nil_of_mem hmem)),
      Or.inr (Or.inr (Or.inl ⟨m, ?_, Or.inr (hcut.trans hle)⟩))⟩
    rw [highest, hm]
    rfl
  · refine ⟨hasData_of_tells hhas htells, Or.inl (hhas.allowCharge ?_)⟩
    rw [entryOf, hq, isOne_false hone]

/-- An alarm of discharging is in the data. -/
theorem DischargeAlarm.stops (ho : Config.Ordered c) (hc : Config.Currents c)
    (hhas : Has t (entryOf (exec next {} past) service fields))
    (h : DischargeAlarm c service past fields) : t.HasData ∧ ((buildCellResult t).dcl c).1 = 0 := by
  have hcutoff : Cutoff c (buildCellResult t).minCell
      (dischargeTemp (buildCellResult t).minTemp (buildCellResult t).maxTemp) (buildCellResult t).soc →
      ((buildCellResult t).dcl c).1 = 0 := by
    intro h
    unfold Data.dcl
    split_ifs
    · exact computeDcl_cutoff ho hc h
    · rfl
  rcases h with ⟨k, v, hwatched, hv, hpos, hcut⟩ | ⟨i, q, h1, h16, hq, hcut⟩ | ⟨q, htells, hq, hone⟩
  · obtain ⟨place, hplace⟩ := hhas.voltage v (hwatched.mem hv) hpos
    obtain ⟨m, hm, hle⟩ := minCell_le hplace
    exact ⟨Or.inl (List.ne_nil_of_mem hplace), hcutoff (Or.inl ⟨m, hm, hle.trans hcut⟩)⟩
  · have hmem := hhas.temp q (mem_temps h1 h16 hq)
    obtain ⟨m, hm, hle⟩ := minTemp_le hmem
    refine ⟨Or.inr (Or.inl (List.ne_nil_of_mem hmem)), hcutoff (Or.inr (Or.inl ⟨m, ?_, hle.trans hcut⟩))⟩
    rw [dischargeTemp, hm]
    rfl
  · refine ⟨hasData_of_tells hhas htells, dcl_blocked (hhas.allowDischarge ?_)⟩
    rw [entryOf, hq, isOne_false hone]

theorem calculate_dcl_eq_zero (h : (d.dcl c).1 = 0) (s : Dvcc.Model.Limiter) (now : ℚ) :
    (calculate c s now d).2.dcl = 0 := by
  have hlast : (step c s ⟨now, d⟩).lastDcl = 0 := step_dcl_zero _ (Or.inl h)
  change roundTo 1 (step c s ⟨now, d⟩).lastDcl = 0
  rw [hlast]
  decide +kernel

/-- **An alarm in the last answer of a chain stops the current**, whatever the other chain tells, and
whatever the limiter remembers. -/
theorem alarms_stop (ho : Config.Ordered c) (hc : Config.Currents c) (past later : List Event)
    (service : Service) (fields : Tree) (hlater : ∀ e ∈ later, answered service e = none)
    (polling : Bool) (trees : Service → Tree) :
    let s := exec next {} (past ++ .answer service fields :: later)
    (ChargeAlarm c service past fields → ∃ data, (getBatteryCellData s polling trees).1 = .data data ∧
      ∀ l now, (calculate c l now data).2.ccl = 0) ∧
      (DischargeAlarm c service past fields →
        ∃ data, (getBatteryCellData s polling trees).1 = .data data ∧
        ∀ l now, (calculate c l now data).2.dcl = 0) := by
  have hhas := last_has past fields hlater
  constructor
  · intro h
    obtain ⟨hdata, hstops⟩ := h.stops hhas
    exact ⟨_, getBatteryCellData_cached hdata polling trees,
      (calculate_ccl_eq_zero hc).mpr ((data_ccl_eq_zero hc).mpr hstops)⟩
  · intro h
    obtain ⟨hdata, hzero⟩ := h.stops ho hc hhas
    exact ⟨_, getBatteryCellData_cached hdata polling trees,
      fun l now => calculate_dcl_eq_zero hzero l now⟩

/-- The second cell of two is at 3.62 V. -/
def highCell : Tree
  | .voltage 1 => .number 3.3
  | .voltage 2 => .number 3.62
  | _ => .absent

/-- The answer of one chain is enough, and the other one is silent. -/
theorem alarms_stop_high : ∃ data,
    (getBatteryCellData (exec next {} [.answer .chain1 highCell]) true fun _ _ => .absent).1 =
      .data data ∧
      ∀ l now, (calculate {} l now data).2.ccl = 0 := by
  have hwatched : Watched .chain1 [] highCell 2 := by
    refine ⟨by decide, by decide, by simp [lastN], fun i h1 h2 => ?_⟩
    obtain rfl | rfl : i = 1 ∨ i = 2 := by omega
    · exact ⟨3.3, rfl⟩
    · exact ⟨3.62, rfl⟩
  have halarm : ChargeAlarm {} .chain1 [] highCell :=
    .cell 2 3.62 hwatched rfl (by norm_num) (by decide +kernel)
  exact (alarms_stop ordered_default currents_default [] [] .chain1 highCell (by simp) true _).1 halarm

/-- A chain that had one cell only is asked for two: its third one, at 3.7 V, is not seen. -/
example : (buildFromCache (exec next {} [
    .answer .chain1 fun item => if item = .voltage 1 then .number 3.3 else .absent,
    .answer .chain1 fun item => if item = .voltage 3 then .number 3.7 else .number 3.3])).map
      (·.maxCell) =
      some (some 3.3) := by
  decide +kernel

end InverterControl.Cells.Stops
