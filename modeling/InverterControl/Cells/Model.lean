import InverterControl.Dvcc.Model
import InverterControl.Lib.Runs
import Mathlib.Data.List.Sort

/-!
# The cells of the battery chains

The cell data of `victron.py` from the tree of a chain to the dictionary that the DVCC calculator
gets: `_cache_chain_snapshot`, `_build_from_cache`, and the path by path reading of
`_get_battery_cell_data_live`.  A chain is asked for one cell more than it had before, so a cell
behind a gap comes back one poll at a time.
-/

namespace InverterControl.Cells.Model

open InverterControl.Dvcc.Model InverterControl.Python

/-- `BATTERY_CHAIN_1` and `BATTERY_CHAIN_2`. -/
inductive Service
  | chain1
  | chain2
  deriving DecidableEq, Repr

/-- `BATTERY_CELL_SERVICES`. -/
def batteryCellServices : List Service := [.chain1, .chain2]

/-- The items of a chain that are read; cells count from 1. -/
inductive Item
  | voltage (cell : ℕ)
  | temperature (cell : ℕ)
  | soc
  | allowCharge
  | allowDischarge
  deriving DecidableEq, Repr

/-- What `float` makes of the text of an item. -/
inductive Reading
  | absent
  /-- A `ValueError`. -/
  | text
  | nan
  | infinite (negative : Bool)
  | number (q : ℚ)
  deriving DecidableEq, Repr

/-- What a chain tells. -/
abbrev Tree := Item → Reading

/-- A value of the dictionary that `_snapshot_numbers` returns: the finite ones. -/
def snapshotNumber : Reading → Option ℚ
  | .number q => some q
  | _ => none

/-- The comparison of a flag, `int(value) == 1`. -/
def isOne (q : ℚ) : Bool := truncate q = 1

/-! ### The cache -/

/-- The entry of a chain. -/
structure Entry where
  voltages : List ℚ
  temps : List ℚ
  soc : Option ℚ
  allowCharge : Option Bool
  allowDischarge : Option Bool
  deriving DecidableEq, Repr

structure Chains where
  /-- `_chain_cell_counts`. -/
  counts : Service → Option ℕ := fun _ => none
  /-- `_cached_battery_cell_data`. -/
  cells : Service → Option Entry := fun _ => none

/-- The cells that are read of a chain: one more than it had. -/
def maxCell (s : Chains) (service : Service) : ℕ := min ((s.counts service).getD 16 + 1) 16

/-- The loop over `n` cells from cell `i` on, up to the first that has no value. -/
def contiguous (value : ℕ → Option ℚ) : ℕ → ℕ → List ℚ
  | 0, _ => []
  | n + 1, i =>
    match value i with
    | some v => v :: contiguous value n (i + 1)
    | none => []

/-- `_cache_chain_snapshot`. -/
def cacheChainSnapshot (s : Chains) (service : Service) (fields : Tree) : Chains :=
  let values := fun item => snapshotNumber (fields item)
  let voltages := contiguous (fun i => values (.voltage i)) (maxCell s service) 1
  { counts := if voltages ≠ [] then Function.update s.counts service (some voltages.length) else s.counts
    cells := Function.update s.cells service (some
      { voltages := voltages
        temps := (List.range' 1 16).filterMap fun i => values (.temperature i)
        soc := values .soc
        allowCharge := (values .allowCharge).map isOne
        allowDischarge := (values .allowDischarge).map isOne }) }

/-! ### The aggregate -/

/-- The accumulators over the chains. -/
structure Totals where
  /-- Every voltage with its place. -/
  voltages : List (ℚ × ℕ) := []
  temps : List ℚ := []
  totalSoc : ℚ := 0
  socCount : ℕ := 0
  allowCharge : Bool := true
  allowDischarge : Bool := true
  deriving DecidableEq, Repr

/-- A flag that is not there allows. -/
def allowed (allow : Bool) : Option Bool → Bool
  | some flag => allow && flag
  | none => allow

def addVoltage (voltages : List (ℚ × ℕ)) (v : ℚ) : List (ℚ × ℕ) :=
  if 0 < v then voltages ++ [(v, voltages.length)] else voltages

/-- `_accumulate_chain_data`. -/
def accumulateChainData (t : Totals) (entry : Entry) : Totals :=
  { voltages := entry.voltages.foldl addVoltage t.voltages
    temps := t.temps ++ entry.temps
    totalSoc := t.totalSoc + entry.soc.getD 0
    socCount := if entry.soc.isSome then t.socCount + 1 else t.socCount
    allowCharge := allowed t.allowCharge entry.allowCharge
    allowDischarge := allowed t.allowDischarge entry.allowDischarge }

/-- A step of the loop in `_aggregate_cached_chains`. -/
def addCached (s : Chains) (t : Totals) (service : Service) : Totals :=
  match s.cells service with
  | some entry => accumulateChainData t entry
  | none => t

/-- `_aggregate_cached_chains`. -/
def aggregateCachedChains (s : Chains) : Totals := batteryCellServices.foldl (addCached s) {}

/-- `_build_cell_result`. -/
def buildCellResult (t : Totals) : Data :=
  let sorted := t.voltages.insertionSort fun a b => b.1 ≤ a.1
  { maxCell := sorted.head?.map fun x => roundTo 3 x.1
    maxCellId := sorted.head?.map fun x => (x.2 : ℤ)
    minCell := sorted.getLast?.map fun x => roundTo 3 x.1
    minCellId := sorted.getLast?.map fun x => (x.2 : ℤ)
    maxTemp := t.temps.max?.map (roundTo 1)
    minTemp := t.temps.min?.map (roundTo 1)
    soc := if t.socCount ≠ 0 then some (roundTo 1 (t.totalSoc / t.socCount)) else none
    allowCharge := t.allowCharge
    allowDischarge := t.allowDischarge }

/-- The check of `_build_from_cache`: there is a voltage, a temperature or a state of charge. -/
def Totals.HasData (t : Totals) : Prop := t.voltages ≠ [] ∨ t.temps ≠ [] ∨ t.socCount ≠ 0

instance instDecidableHasData (t : Totals) : Decidable t.HasData :=
  inferInstanceAs (Decidable (_ ∨ _ ∨ _))

/-- `_build_from_cache`. -/
def buildFromCache (s : Chains) : Option Data :=
  if (aggregateCachedChains s).HasData then some (buildCellResult (aggregateCachedChains s)) else none

/-! ### Reading path by path -/

/-- The cells that are not absent, from cell `i` on. -/
def discovered (fields : Tree) : ℕ → ℕ → ℕ
  | 0, _ => 0
  | n + 1, i => if fields (.voltage i) = .absent then 0 else discovered fields n (i + 1) + 1

/-- The loop of `_read_chain_cell_voltages`, over the finite voltages of the chain so far. -/
def readCells (fields : Tree) (offset : ℕ) : ℕ → ℕ → List (ℚ × ℕ) → List (ℚ × ℕ)
  | 0, _, voltages => voltages
  | n + 1, i, voltages =>
    match fields (.voltage i) with
    | .absent => voltages
    | .number v =>
      readCells fields offset n (i + 1)
        (if 0 < v then voltages ++ [(v, offset + voltages.length)] else voltages)
    | _ => readCells fields offset n (i + 1) voltages

/-- The same loop collects a positive infinity. -/
def collectsInfinity (fields : Tree) : ℕ → ℕ → Bool
  | 0, _ => false
  | n + 1, i =>
    match fields (.voltage i) with
    | .absent => false
    | .infinite false => true
    | _ => collectsInfinity fields n (i + 1)

/-- `_read_chain_cell_voltages`, with the counts after it. -/
def readChainCellVoltages (s : Chains) (service : Service) (fields : Tree) (offset : ℕ) :
    List (ℚ × ℕ) × Chains :=
  let count := discovered fields (maxCell s service) 1
  (readCells fields offset (maxCell s service) 1 [],
    if 0 < count then { s with counts := Function.update s.counts service (some count) } else s)

/-- A temperature in `_read_chain_cell_temps`. -/
def plausibleTemp : Reading → Option ℚ
  | .number t => if -50 ≤ t ∧ t ≤ 100 then some t else none
  | _ => none

/-- `_read_chain_cell_temps`. -/
def readChainCellTemps (fields : Tree) : List ℚ :=
  (List.range' 1 16).filterMap fun i => plausibleTemp (fields (.temperature i))

/-- The accumulators of this way. -/
structure LiveTotals extends Totals where
  /-- An infinity is among the voltages, or the states of charge do not add up to a finite number:
  the code goes on with them, the numbers here are those without. -/
  nonFinite : Bool := false
  deriving DecidableEq, Repr

/-- `float` returns no finite number, and `_read_chain_soc` hands it on. -/
def nonFiniteSoc : Reading → Bool
  | .nan => true
  | .infinite _ => true
  | _ => false

/-- `_read_chain_allow_flag`; `int(nan)` is a `ValueError`, and the `OverflowError` of an infinity
(`none`) is not caught. -/
def readChainAllowFlag : Reading → Option (Option Bool)
  | .number q => some (some (isOne q))
  | .infinite _ => none
  | _ => some none

/-- `_accumulate_live_chain_data`, with `_read_chain_soc`. -/
def accumulateLiveChainData (t : LiveTotals) (fields : Tree) : Option LiveTotals := do
  let allowCharge ← readChainAllowFlag (fields .allowCharge)
  let allowDischarge ← readChainAllowFlag (fields .allowDischarge)
  return { t with
    totalSoc := t.totalSoc + (snapshotNumber (fields .soc)).getD 0
    socCount := if (snapshotNumber (fields .soc)).isSome ∨ nonFiniteSoc (fields .soc) = true
      then t.socCount + 1 else t.socCount
    allowCharge := allowed t.allowCharge allowCharge
    allowDischarge := allowed t.allowDischarge allowDischarge
    nonFinite := t.nonFinite || nonFiniteSoc (fields .soc) }

/-- A step of the loop in `_collect_live_cell_data`, which an exception has left. -/
def addLive (trees : Service → Tree) (acc : Option LiveTotals × Chains) (service : Service) :
    Option LiveTotals × Chains :=
  match acc.1 with
  | none => acc
  | some t =>
    let read := readChainCellVoltages acc.2 service (trees service) t.voltages.length
    (accumulateLiveChainData
      { t with
        voltages := t.voltages ++ read.1
        temps := t.temps ++ readChainCellTemps (trees service)
        nonFinite := t.nonFinite || collectsInfinity (trees service) (maxCell acc.2 service) 1 }
      (trees service), read.2)

/-- `_collect_live_cell_data`; `none` is an `OverflowError`. -/
def collectLiveCellData (s : Chains) (trees : Service → Tree) : Option LiveTotals × Chains :=
  batteryCellServices.foldl (addLive trees) (some {}, s)

/-- What `get_battery_cell_data` comes to. -/
inductive CellData
  | data (d : Data)
  /-- A dictionary with an infinity or `nan` in it. -/
  | nonFinite
  | overflowError
  deriving DecidableEq, Repr

/-- `_get_battery_cell_data_live` -/
def getBatteryCellDataLive (s : Chains) (trees : Service → Tree) : CellData × Chains :=
  let collected := collectLiveCellData s trees
  match collected.1 with
  | none => (.overflowError, collected.2)
  | some t =>
    (if t.nonFinite = true then .nonFinite else .data (buildCellResult t.toTotals), collected.2)

/-! ### Runs -/

/-- `get_battery_cell_data` after the refresh of the cache, with whether the poll thread is alive
and what the chains tell to a reading path by path. -/
def getBatteryCellData (s : Chains) (polling : Bool) (trees : Service → Tree) : CellData × Chains :=
  match buildFromCache s with
  | some cached => (.data cached, s)
  | none => if polling then (.data {}, s) else getBatteryCellDataLive s trees

inductive Event
  /-- A chain answered in `_poll_battery_cell_data_tree`. -/
  | answer (service : Service) (fields : Tree)
  /-- `_get_battery_cell_data_live`. -/
  | live (trees : Service → Tree)

def next (s : Chains) : Event → Chains
  | .answer service fields => cacheChainSnapshot s service fields
  | .live trees => (collectLiveCellData s trees).2

end InverterControl.Cells.Model
