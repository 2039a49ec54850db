import InverterControl.Cells.Model
import InverterControl.Dvcc.Limiter
import InverterControl.Dvcc.Temperature
import InverterControl.Lib.History

/-!
# A cell that is watched stops the current

From the answers of the chains to the limits: a voltage, a temperature or a flag at its cutoff stops
the current in every state of the limiter, whatever the other chain tells.  For a voltage the cell
has to be asked for, and that is a matter of the past (`Watched`): a chain that has lost a cell is
asked for one more at each answer (`count_exec`), so after `k - 1` answers with the first `k` cells
the `k`-th is asked for.
-/

namespace InverterControl.Cells.Counts

open InverterControl.Lib.Runs InverterControl.Lib.History InverterControl.Python
open InverterControl.Dvcc.Model InverterControl.Dvcc.Curves InverterControl.Cells.Model

variable {s : Chains} {service : Service} {fields : Tree} {k n i : ℕ}

/-! ### The cells of an answer -/

/-- An answer has the first `k` cells. -/
def Reads (k : ℕ) (fields : Tree) : Prop :=
  ∀ i, 1 ≤ i → i ≤ k → ∃ q, fields (.voltage i) = .number q

theorem length_contiguous {value : ℕ → Option ℚ} (h : ∀ j < k, (value (i + j)).isSome) :
    min k n ≤ (contiguous value n i).length := by
  induction n generalizing i k with
  | zero => simp
  | succ n ih =>
    cases k with
    | zero => simp
    | succ k =>
      obtain ⟨v, hv⟩ := Option.isSome_iff_exists.mp (h 0 (by omega))
      have hrest : min k n ≤ (contiguous value n (i + 1)).length := by
        refine ih fun j hj => ?_
        rw [show i + 1 + j = i + (j + 1) by omega]
        exact h (j + 1) (by omega)
      rw [contiguous, show value i = some v from hv, List.length_cons]
      omega

theorem mem_contiguous {value : ℕ → Option ℚ} {v : ℚ} {j : ℕ} (hj : value (i + j) = some v)
    (hlen : j < (contiguous value n i).length) : v ∈ contiguous value n i := by
  induction n generalizing i j with
  | zero => simp [contiguous] at hlen
  | succ n ih =>
    cases hi : value i with
    | none => simp [contiguous, hi] at hlen
    | some w =>
      rw [contiguous, hi] at hlen ⊢
      cases j with
      | zero =>
        rw [Nat.add_zero, hi, Option.some.injEq] at hj
        exact hj ▸ List.mem_cons_self
      | succ j =>
        refine List.mem_cons_of_mem _ (ih (j := j) ?_ ?_)
        · rwa [show i + 1 + j = i + (j + 1) by omega]
        · simpa using hlen

/-- The voltages that are cached of an answer. -/
def cachedVoltages (s : Chains) (service : Service) (fields : Tree) : List ℚ :=
  contiguous (fun i => snapshotNumber (fields (.voltage i))) (maxCell s service) 1

theorem Reads.isSome (h : Reads k fields) {j : ℕ} (hj : j < k) :
    (snapshotNumber (fields (.voltage (1 + j)))).isSome := by
  obtain ⟨q, hq⟩ := h (1 + j) (by omega) (by omega)
  rw [hq]
  rfl

theorem length_cachedVoltages (s : Chains) (service : Service) (h : Reads k fields) :
    min k (maxCell s service) ≤ (cachedVoltages s service fields).length :=
  length_contiguous fun _ hj => h.isSome hj

theorem le_discovered (n : ℕ) (h : ∀ j < k, ∃ q, fields (.voltage (i + j)) = .number q) :
    min k n ≤ discovered fields n i := by
  induction n generalizing i k with
  | zero => simp
  | succ n ih =>
    cases k with
    | zero => simp
    | succ k =>
      obtain ⟨q, hq⟩ := h 0 (by omega)
      have hrest : min k n ≤ discovered fields n (i + 1) := by
        refine ih fun j hj => ?_
        rw [show i + 1 + j = i + (j + 1) by omega]
        exact h (j + 1) (by omega)
      rw [discovered, show fields (.voltage i) = .number q from hq, if_neg (by simp)]
      omega

/-! ### The cells that are asked for -/

/-- No infinite flag ends the reading path by path. -/
def FlagsRead (fields : Tree) : Prop :=
  (readChainAllowFlag (fields .allowCharge)).isSome ∧
  (readChainAllowFlag (fields .allowDischarge)).isSome

instance instDecidableFlagsRead (fields : Tree) : Decidable (FlagsRead fields) :=
  inferInstanceAs (Decidable (_ ∧ _))

/-- What an event tells of a chain, in either way; path by path the second chain comes after the flags of
the first. -/
def readings (service : Service) : Event → Option Tree
  | .answer service' fields => if service' = service then some fields else none
  | .live trees => if service = .chain1 ∨ FlagsRead (trees .chain1) then some (trees service) else none

/-- What an event leaves in the cache of a chain. -/
def answered (service : Service) : Event → Option Tree
  | .answer service' fields => if service' = service then some fields else none
  | .live _ => none

/-- The number of cells that a chain had. -/
def count (s : Chains) (service : Service) : ℕ := (s.counts service).getD 16

theorem maxCell_eq (s : Chains) (service : Service) :
    maxCell s service = min (count s service + 1) 16 := rfl

theorem count_cacheChainSnapshot (h : Reads k fields) (hk : k ≤ 16) :
    min k (count s service + 1) ≤ count (cacheChainSnapshot s service fields) service := by
  have hlen := length_cachedVoltages s service h
  rw [maxCell_eq] at hlen
  change _ ≤ ((if cachedVoltages s service fields ≠ [] then
    Function.update s.counts service (some (cachedVoltages s service fields).length) else s.counts)
      service).getD 16
  split_ifs with hnil
  · rw [Function.update_self, Option.getD_some]
    omega
  · rw [ne_eq, not_not] at hnil
    rw [hnil, List.length_nil] at hlen
    omega

theorem count_cacheChainSnapshot_other {service' : Service} (h : service' ≠ service) :
    count (cacheChainSnapshot s service' fields) service = count s service := by
  unfold count cacheChainSnapshot
  dsimp only
  split_ifs
  · rw [Function.update_of_ne h.symm]
  · rfl

theorem count_readChainCellVoltages (offset : ℕ) (h : Reads k fields) (hk : k ≤ 16) :
    min k (count s service + 1) ≤ count (readChainCellVoltages s service fields offset).2 service := by
  have hlen := le_discovered (maxCell s service) fun j (hj : j < k) => h (1 + j) (by omega) (by omega)
  have hasked : min k (count s service + 1) ≤ discovered fields (maxCell s service) 1 := by
    have := maxCell_eq s service
    omega
  unfold readChainCellVoltages
  dsimp only
  split_ifs with hzero
  · simpa only [count, Function.update_self, Option.getD_some] using hasked
  · omega

theorem count_readChainCellVoltages_other (offset : ℕ) {service' : Service} (h : service' ≠ service) :
    count (readChainCellVoltages s service' fields offset).2 service = count s service := by
  unfold readChainCellVoltages
  dsimp only
  split_ifs
  · simp only [count, Function.update_of_ne h.symm]
  · rfl

theorem accumulateLive_isSome (t : LiveTotals) (fields : Tree) :
    (accumulateLiveChainData t fields).isSome ↔ FlagsRead fields := by
  unfold accumulateLiveChainData FlagsRead
  cases readChainAllowFlag (fields .allowCharge) with
  | none => simp
  | some allowCharge =>
    cases readChainAllowFlag (fields .allowDischarge) with
    | none => simp
    | some allowDischarge => simp

theorem count_addLive (trees : Service → Tree) (t : LiveTotals) (h : Reads k (trees service))
    (hk : k ≤ 16) :
    min k (count s service + 1) ≤ count (addLive trees (some t, s) service).2 service :=
  count_readChainCellVoltages t.voltages.length h hk

theorem count_addLive_other (trees : Service → Tree) (acc : Option LiveTotals × Chains)
    {service' : Service} (h : service' ≠ service) :
    count (addLive trees acc service').2 service = count acc.2 service := by
  obtain ⟨t, s⟩ := acc
  cases t with
  | none => rfl
  | some t => exact count_readChainCellVoltages_other t.voltages.length h

theorem count_live {trees : Service → Tree} (hread : service = .chain1 ∨ FlagsRead (trees .chain1))
    (h : Reads k (trees service)) (hk : k ≤ 16) :
    min k (count s service + 1) ≤ count (collectLiveCellData s trees).2 service := by
  simp only [collectLiveCellData, batteryCellServices, List.foldl_cons, List.foldl_nil]
  cases service with
  | chain1 =>
    rw [count_addLive_other trees _ (by decide)]
    exact count_addLive trees {} h hk
  | chain2 =>
    have hother := count_addLive_other trees (some {}, s) (show Service.chain1 ≠ .chain2 by decide)
    obtain ⟨t, ht⟩ : ∃ t, (addLive trees (some {}, s) .chain1).1 = some t :=
      Option.isSome_iff_exists.mp ((accumulateLive_isSome _ _).mpr (hread.resolve_left (by decide)))
    rw [← hother, ← Prod.eta (addLive trees (some {}, s) .chain1), ht]
    exact count_addLive trees t h hk

/-- An infinite flag of the first chain: the second one is not read. -/
theorem count_live_raised {trees : Service → Tree} (h : ¬ FlagsRead (trees .chain1)) :
    count (collectLiveCellData s trees).2 .chain2 = count s .chain2 := by
  simp only [collectLiveCellData, batteryCellServices, List.foldl_cons, List.foldl_nil]
  have hnone : (addLive trees (some {}, s) .chain1).1 = none :=
    Option.not_isSome_iff_eq_none.mp fun hsome => h ((accumulateLive_isSome _ _).mp hsome)
  have hskip : addLive trees (addLive trees (some {}, s) .chain1) .chain2 =
      addLive trees (some {}, s) .chain1 := by rw [addLive, hnone]
  rw [hskip, count_addLive_other trees _ (by decide)]

/-- **One reading with the first `k` cells** lets the chain be asked for one cell more, up to these. -/
theorem count_next {e : Event} (hread : readings service e = some fields) (h : Reads k fields)
    (hk : k ≤ 16) : min k (count s service + 1) ≤ count (next s e) service := by
  cases e with
  | answer service' fields' =>
    simp only [readings, Option.ite_none_right_eq_some, Option.some.injEq] at hread
    obtain ⟨rfl, rfl⟩ := hread
    exact count_cacheChainSnapshot h hk
  | live trees =>
    simp only [readings, Option.ite_none_right_eq_some, Option.some.injEq] at hread
    obtain ⟨hreached, rfl⟩ := hread
    exact count_live hreached h hk

theorem count_next_other {e : Event} (hread : readings service e = none) :
    count (next s e) service = count s service := by
  cases e with
  | answer service' fields =>
    exact count_cacheChainSnapshot_other fun heq => by simp [readings, heq] at hread
  | live trees =>
    rw [readings, ite_eq_right_iff] at hread
    cases service with
    | chain1 => exact absurd (hread (Or.inl rfl)) (Option.some_ne_none _)
    | chain2 => exact count_live_raised fun hflags => Option.some_ne_none _ (hread (Or.inr hflags))

/-- **Up to its last reading a chain is asked for as many cells as it told of the last time.** -/
theorem count_exec (hk : k ≤ 16) {m : ℕ} {es : List Event}
    (h : ∀ fields ∈ lastN m (es.filterMap (readings service)), Reads k fields) :
    min k m ≤ count (exec next {} es) service := by
  induction es using List.reverseRecOn generalizing m with
  | nil =>
    change min k m ≤ 16
    omega
  | append_singleton es e ih =>
    rw [exec_snoc]
    rw [List.filterMap_append] at h
    cases hread : readings service e with
    | none =>
      rw [count_next_other hread]
      refine ih ?_
      simpa [hread] using h
    | some fields =>
      cases m with
      | zero => omega
      | succ m =>
        rw [List.filterMap_cons_some hread, List.filterMap_nil, lastN_snoc] at h
        have hbefore := ih fun t ht => h t (List.mem_append_left _ ht)
        have hstep := count_next (s := exec next {} es) hread (h fields (by simp)) hk
        omega

/-- A chain is asked for its cell `k` when it answers next: the last `k - 1` readings had every cell
up to it, and so has this one. -/
structure Watched (service : Service) (past : List Event) (fields : Tree) (k : ℕ) : Prop where
  pos : 1 ≤ k
  le : k ≤ 16
  before : ∀ fields' ∈ lastN (k - 1) (past.filterMap (readings service)), Reads k fields'
  now : Reads k fields

theorem Watched.mem {past : List Event} (h : Watched service past fields k) {v : ℚ}
    (hv : fields (.voltage k) = .number v) : v ∈ cachedVoltages (exec next {} past) service fields := by
  have hcount := count_exec h.le h.before
  have hlen := length_cachedVoltages (exec next {} past) service h.now
  have hpos := h.pos
  have hle := h.le
  rw [maxCell_eq] at hlen
  refine mem_contiguous (j := k - 1) ?_ ?_
  · rw [show 1 + (k - 1) = k by omega, hv]
    rfl
  · exact show k - 1 < (cachedVoltages (exec next {} past) service fields).length by omega

end InverterControl.Cells.Counts
