import InverterControl.Cells.Counts

/-!
# Reading path by path

Without a poll thread and a cache the cells are read one D-Bus path at a time.  On plain readings that
gives the totals, and the counts, that the snapshots of the chains would have given.
-/

namespace InverterControl.Cells.Live

open InverterControl.Lib.Runs InverterControl.Cells.Model InverterControl.Cells.Counts

variable {s : Chains} {fields : Tree} {n i : ℕ}

/-- A cell is there or it is not, every temperature is plausible, the state of charge is no `nan` and no
infinity, and the flags are none. -/
structure Plain (fields : Tree) : Prop where
  voltage : ∀ i, fields (.voltage i) = .absent ∨ ∃ v, fields (.voltage i) = .number v
  temp : ∀ i q, fields (.temperature i) = .number q → -50 ≤ q ∧ q ≤ 100
  soc : nonFiniteSoc (fields .soc) = false
  allowCharge : ∀ negative, fields .allowCharge ≠ .infinite negative
  allowDischarge : ∀ negative, fields .allowDischarge ≠ .infinite negative

theorem discovered_eq (h : Plain fields) :
    discovered fields n i = (contiguous (fun i => snapshotNumber (fields (.voltage i))) n i).length := by
  induction n generalizing i with
  | zero => rfl
  | succ n ih =>
    rcases h.voltage i with hi | ⟨v, hi⟩
    · simp [discovered, contiguous, hi, snapshotNumber]
    · rw [discovered, contiguous, if_neg (by simp [hi]), ih]
      simp [hi, snapshotNumber]

/-- The voltages of a chain go behind those before it, with their places. -/
theorem readCells_eq (h : Plain fields) (before voltages : List (ℚ × ℕ)) :
    before ++ readCells fields before.length n i voltages =
      (contiguous (fun i => snapshotNumber (fields (.voltage i))) n i).foldl addVoltage
        (before ++ voltages) := by
  induction n generalizing i voltages with
  | zero => rfl
  | succ n ih =>
    rcases h.voltage i with hi | ⟨v, hi⟩
    · simp [readCells, contiguous, hi, snapshotNumber]
    · simp only [readCells, contiguous, hi, snapshotNumber, List.foldl_cons]
      rw [ih]
      congr 1
      unfold addVoltage
      split_ifs
      · rw [List.append_assoc, List.length_append]
      · rfl

theorem readChainCellTemps_eq (h : Plain fields) : readChainCellTemps fields =
    (List.range' 1 16).filterMap fun i => snapshotNumber (fields (.temperature i)) := by
  unfold readChainCellTemps
  congr 1
  funext i
  cases hi : fields (.temperature i) with
  | absent => rfl
  | text => rfl
  | nan => rfl
  | infinite negative => rfl
  | number q => rw [plausibleTemp, if_pos (h.temp i q hi), snapshotNumber]

theorem collectsInfinity_eq (h : Plain fields) : collectsInfinity fields n i = false := by
  induction n generalizing i with
  | zero => rfl
  | succ n ih =>
    rcases h.voltage i with hi | ⟨v, hi⟩
    · simp [collectsInfinity, hi]
    · simpa [collectsInfinity, hi] using ih

/-- A flag that is no infinity is read as the snapshot has it. -/
theorem readChainAllowFlag_eq {flag : Reading} (h : ∀ negative, flag ≠ .infinite negative) :
    readChainAllowFlag flag = some ((snapshotNumber flag).map isOne) := by
  cases flag with
  | infinite negative => exact absurd rfl (h negative)
  | absent => rfl
  | text => rfl
  | nan => rfl
  | number q => rfl

/-- The counts after a reading are those after the snapshot. -/
theorem addLive_counts (trees : Service → Tree) (t : LiveTotals) (service : Service)
    (h : Plain (trees service)) : (addLive trees (some t, s) service).2.counts =
      (cacheChainSnapshot s service (trees service)).counts := by
  simp only [addLive, readChainCellVoltages, cacheChainSnapshot, discovered_eq h]
  cases contiguous (fun i => snapshotNumber (trees service (.voltage i))) (maxCell s service) 1 with
  | nil => simp
  | cons v voltages => simp

theorem addLive_cells (trees : Service → Tree) (acc : Option LiveTotals × Chains) (service : Service) :
    (addLive trees acc service).2.cells = acc.2.cells := by
  obtain ⟨t, s⟩ := acc
  cases t with
  | none => rfl
  | some t =>
    simp only [addLive, readChainCellVoltages]
    split_ifs
    · rfl
    · rfl

/-- One chain: the totals grow as by its snapshot. -/
theorem addLive_eq (trees : Service → Tree) (t : Totals) (s' : Chains) (service : Service)
    (h : Plain (trees service)) (hcells : s.cells service =
      (cacheChainSnapshot s' service (trees service)).cells service) :
    (addLive trees (some { toTotals := t }, s') service).1 =
      some { toTotals := addCached s t service } := by
  have hvoltages := readCells_eq (n := maxCell s' service) (i := 1) h t.voltages []
  rw [List.append_nil] at hvoltages
  rw [addCached, hcells]
  simp only [cacheChainSnapshot, Function.update_self, addLive, readChainCellVoltages,
    accumulateLiveChainData, accumulateChainData, hvoltages, readChainCellTemps_eq h,
    readChainAllowFlag_eq h.allowCharge, readChainAllowFlag_eq h.allowDischarge,
    collectsInfinity_eq h, h.soc,
    Option.bind_eq_bind, Option.bind_some, Bool.or_false, Bool.false_eq_true, or_false, Option.pure_def]

/-- What is read of a chain depends on the counts alone. -/
theorem snapshot_congr {s' : Chains} (h : s.counts = s'.counts) (service : Service) (fields : Tree) :
    (cacheChainSnapshot s service fields).counts = (cacheChainSnapshot s' service fields).counts ∧
      (cacheChainSnapshot s service fields).cells service =
        (cacheChainSnapshot s' service fields).cells service := by
  have hasked : maxCell s service = maxCell s' service := by rw [maxCell, maxCell, h]
  constructor
  · simp only [cacheChainSnapshot, hasked, h]
  · simp only [cacheChainSnapshot, hasked, Function.update_self]

theorem snapshot_cells_other {service service' : Service} (h : service ≠ service') :
    (cacheChainSnapshot s service' fields).cells service = s.cells service :=
  Function.update_of_ne h _ _

/-- **The fallback agrees with the cache**: on plain readings, and from any state, the chains read
path by path give the totals and the counts of their snapshots. -/
theorem live_agrees (s : Chains) (trees : Service → Tree) (h : ∀ service, Plain (trees service)) :
    let cached := exec next s [.answer .chain1 (trees .chain1), .answer .chain2 (trees .chain2)]
    (collectLiveCellData s trees).1 = some { toTotals := aggregateCachedChains cached } ∧
      (collectLiveCellData s trees).2.counts = cached.counts ∧
      (collectLiveCellData s trees).2.cells = s.cells := by
  intro cached
  have hfirst : (addLive trees (some {}, s) .chain1).1 =
      some { toTotals := addCached cached {} .chain1 } :=
    addLive_eq trees {} s .chain1 (h .chain1) (snapshot_cells_other (by decide))
  -- the counts after the first chain, which the second one is read with
  have hbetween : (addLive trees (some {}, s) .chain1).2.counts =
      (cacheChainSnapshot s .chain1 (trees .chain1)).counts := addLive_counts trees {} _ (h .chain1)
  obtain ⟨hcounts, hcells⟩ := snapshot_congr hbetween .chain2 (trees .chain2)
  have hfold : collectLiveCellData s trees =
    addLive trees (some { toTotals := addCached cached {} .chain1 },
      (addLive trees (some {}, s) .chain1).2) .chain2 := by
    rw [← hfirst]
    rfl
  rw [hfold]
  refine ⟨?_, ?_, ?_⟩
  · exact addLive_eq trees _ _ .chain2 (h .chain2) hcells.symm
  · exact (addLive_counts trees _ _ (h .chain2)).trans hcounts
  · exact (addLive_cells trees _ _).trans (addLive_cells trees _ _)

/-- Each chain has one cell. -/
def oneCell (_ : Service) (item : Item) : Reading := if item = .voltage 1 then .number 3.3 else .absent

theorem plain_oneCell (service : Service) : Plain (oneCell service) := by
  refine ⟨fun i => ?_, fun i q hq => ?_, rfl, nofun, nofun⟩
  · by_cases hi : i = 1
    · exact Or.inr ⟨3.3, by simp [oneCell, hi]⟩
    · exact Or.inl (by simp [oneCell, hi])
  · simp [oneCell] at hq

theorem live_agrees_oneCell :
    (collectLiveCellData {} oneCell).1 = some ⟨aggregateCachedChains
        (exec next {} [.answer .chain1 (oneCell .chain1), .answer .chain2 (oneCell .chain2)]), false⟩ ∧
      (collectLiveCellData {} oneCell).2.counts =
        (exec next {} [.answer .chain1 (oneCell .chain1), .answer .chain2 (oneCell .chain2)]).counts ∧
      (collectLiveCellData {} oneCell).2.cells = fun _ => none :=
  live_agrees {} oneCell plain_oneCell

end InverterControl.Cells.Live
