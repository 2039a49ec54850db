import InverterControl.Lib.Runs
import InverterControl.Python

/-!
# The backoff of an unresponsive service

The failure counters of `VictronDBus`, the reads that feed them, and the background poller whose
pass a raised exception cuts short.  Every read either returns or is one call of
`_record_service_failure` (`read_of_records`), which raises from the 1027th consecutive failure on:
the power of two is made a float before the cap is taken.
-/

namespace InverterControl.Victron.Health

open InverterControl.Lib.Runs InverterControl.Python

structure VictronDBus where
  serviceConsecutiveFails : String → ℕ := fun _ => 0
  serviceBackoffUntil : String → ℚ := fun _ => 0

/-- `SERVICE_FAIL_THRESHOLD` -/
def serviceFailThreshold : ℕ := 3

/-- `SERVICE_BACKOFF_BASE` -/
def serviceBackoffBase : ℚ := 10

/-- `SERVICE_BACKOFF_MAX` -/
def serviceBackoffMax : ℚ := 300

variable (v : VictronDBus) (service : String) (now : ℚ)

/-- `_service_healthy` -/
def serviceHealthy : Prop := v.serviceBackoffUntil service ≤ now

instance : Decidable (serviceHealthy v service now) := by unfold serviceHealthy; infer_instance

/-- `_record_service_success` -/
def recordServiceSuccess : VictronDBus where
  serviceConsecutiveFails := Function.update v.serviceConsecutiveFails service 0
  serviceBackoffUntil := Function.update v.serviceBackoffUntil service 0

/-- The backoff after so many failures.  The integer factor becomes a float first, which an
`OverflowError` refuses; a product that is too large is `inf`, and the cap is smaller. -/
def backoff (fails : ℕ) : Option ℚ :=
  (number (.int (2 ^ (fails - serviceFailThreshold)))).map fun factor =>
    min (serviceBackoffBase * factor) serviceBackoffMax

/-- The number of failures with this one. -/
def failures : ℕ := v.serviceConsecutiveFails service + 1

def counted : VictronDBus :=
  { v with
    serviceConsecutiveFails :=
      Function.update v.serviceConsecutiveFails service (failures v service) }

/-- `_record_service_failure`, and whether it returns. -/
def recordServiceFailure : VictronDBus × Bool :=
  if serviceFailThreshold ≤ failures v service then
    match backoff (failures v service) with
    | none => (counted v service, false)
    | some seconds =>
      ({ counted v service with
          serviceBackoffUntil := Function.update v.serviceBackoffUntil service (now + seconds) }, true)
  else (counted v service, true)

/-! ### Reads -/

/-- A read of a service.  `now`, `again` and `later` are the clock at the health checks and at a failure;
`native` is what a native connection answered, `answer` and `words` what the command line did. -/
inductive Read
  /-- `_safe_subprocess_tracked` -/
  | tracked (service : String) (now later : ℚ) (answer : Option String)
  /-- `_dbus_get` -/
  | dbusGet (service : String) (now later : ℚ) (native : Option String) (words : List String)
  /-- `_native_reconciliation_read` and `_reconciliation_fallback`. -/
  | reconcile (service : String) (now again later : ℚ) (connected : Bool) (native : Option String)
      (expired : Bool) (answer : Option String)
  /-- `_get_float_nolock` -/
  | getFloat (service : String) (now again later : ℚ) (connected : Bool) (native : Option String)
      (answer : Option String)
  deriving DecidableEq, Repr

/-- `_safe_subprocess_tracked` -/
def safeSubprocessTracked (later : ℚ) (answer : Option String) : VictronDBus × Bool :=
  if serviceHealthy v service now then
    match answer with
    | some _ => (recordServiceSuccess v service, true)
    | none => recordServiceFailure v service later
  else (v, true)

/-- `_dbus_get` -/
def dbusGet (later : ℚ) (native : Option String) (words : List String) : VictronDBus × Bool :=
  if serviceHealthy v service now then
    if native ≠ none ∨ words ≠ [] then (recordServiceSuccess v service, true)
    else recordServiceFailure v service later
  else (v, true)

/-- `_reconciliation_fallback`, of a read whose time is up or not. -/
def reconciliationFallback (later : ℚ) (expired : Bool) (answer : Option String) : VictronDBus × Bool :=
  if expired = true then
    if serviceHealthy v service now then recordServiceFailure v service later else (v, true)
  else safeSubprocessTracked v service now later answer

/-- `_native_reconciliation_read`, and its fallback. -/
def reconcile (again later : ℚ) (connected : Bool) (native : Option String) (expired : Bool)
    (answer : Option String) : VictronDBus × Bool :=
  if connected = true ∧ serviceHealthy v service now then
    match native with
    | some _ => (recordServiceSuccess v service, true)
    | none => reconciliationFallback v service again later expired answer
  else reconciliationFallback v service again later false answer

/-- `_get_float_nolock` -/
def getFloatNolock (again later : ℚ) (connected : Bool) (native answer : Option String) :
    VictronDBus × Bool :=
  if connected = true ∧ serviceHealthy v service now ∧ native ≠ none then (v, true)
  else safeSubprocessTracked v service again later answer

def read (v : VictronDBus) : Read → VictronDBus × Bool
  | .tracked service now later answer => safeSubprocessTracked v service now later answer
  | .dbusGet service now later native words => dbusGet v service now later native words
  | .reconcile service now again later connected native expired answer =>
    reconcile v service now again later connected native expired answer
  | .getFloat service now again later connected native answer =>
    getFloatNolock v service now again later connected native answer

/-! ### The poller -/

/-- The background poller, and whether a pass of it was cut short. -/
structure Poller where
  victron : VictronDBus := {}
  /-- A pass is going on. -/
  running : Bool := false
  aborted : Bool := false

inductive Event
  /-- A pass of `_poll_all` begins. -/
  | start
  /-- A read of the pass. -/
  | poll (read : Read)
  /-- A read of another thread. -/
  | other (read : Read)
  deriving DecidableEq, Repr

/-- An exception ends the pass, and its other polls are skipped. -/
def next (p : Poller) : Event → Poller
  | .start => { p with running := true }
  | .poll r =>
    if p.running = true then
      { victron := (read p.victron r).1
        running := (read p.victron r).2
        aborted := p.aborted || !(read p.victron r).2 }
    else p
  | .other r => { p with victron := (read p.victron r).1 }

/-! ### What a read does -/

/-- The service that is read. -/
def Read.subject : Read → String
  | .tracked service _ _ _ => service
  | .dbusGet service _ _ _ _ => service
  | .reconcile service _ _ _ _ _ _ _ => service
  | .getFloat service _ _ _ _ _ _ => service

/-- The clock at a failure of the read. -/
def Read.later : Read → ℚ
  | .tracked _ _ later _ => later
  | .dbusGet _ _ later _ _ => later
  | .reconcile _ _ _ later _ _ _ _ => later
  | .getFloat _ _ _ later _ _ _ => later

/-- The read finds the service silent outside its backoff. -/
def Records (v : VictronDBus) : Read → Prop
  | .tracked service now _ answer => serviceHealthy v service now ∧ answer = none
  | .dbusGet service now _ native words => serviceHealthy v service now ∧ native = none ∧ words = []
  | .reconcile service now again _ connected native expired answer =>
    if connected = true ∧ serviceHealthy v service now then
      native = none ∧ serviceHealthy v service again ∧ (expired = true ∨ answer = none)
    else serviceHealthy v service again ∧ answer = none
  | .getFloat service now again _ connected native answer =>
    ¬ (connected = true ∧ serviceHealthy v service now ∧ native ≠ none) ∧
      serviceHealthy v service again ∧ answer = none

variable {v service now} {r : Read}

theorem safeSubprocessTracked_none (h : serviceHealthy v service now) (later : ℚ) :
    safeSubprocessTracked v service now later none = recordServiceFailure v service later := by
  rw [safeSubprocessTracked, if_pos h]

theorem safeSubprocessTracked_returns {answer : Option String} (later : ℚ)
    (h : ¬ (serviceHealthy v service now ∧ answer = none)) :
    (safeSubprocessTracked v service now later answer).2 = true := by
  unfold safeSubprocessTracked
  split_ifs with hhealthy
  · cases answer with
    | some _ => rfl
    | none => exact absurd ⟨hhealthy, rfl⟩ h
  · rfl

/-- **A read that finds the service silent** is one call of `_record_service_failure`. -/
theorem read_of_records (h : Records v r) : read v r = recordServiceFailure v r.subject r.later := by
  cases r with
  | tracked service now later answer =>
    obtain ⟨hhealthy, rfl⟩ := h
    exact safeSubprocessTracked_none hhealthy later
  | dbusGet service now later native words =>
    obtain ⟨hhealthy, rfl, rfl⟩ := h
    rw [read, dbusGet, if_pos hhealthy, if_neg (by simp)]
    rfl
  | reconcile service now again later connected native expired answer =>
    rw [Records] at h
    simp only [read, reconcile]
    split_ifs at h ⊢
    · obtain ⟨rfl, hhealthy, hsilent⟩ := h
      simp only [reconciliationFallback]
      split_ifs with hexpired
      · rfl
      · rw [hsilent.resolve_left hexpired]
        exact safeSubprocessTracked_none hhealthy later
    · obtain ⟨hhealthy, rfl⟩ := h
      rw [reconciliationFallback, if_neg Bool.false_ne_true]
      exact safeSubprocessTracked_none hhealthy later
  | getFloat service now again later connected native answer =>
    obtain ⟨hno, hhealthy, rfl⟩ := h
    rw [read, getFloatNolock, if_neg hno]
    exact safeSubprocessTracked_none hhealthy later

/-- Every other read returns. -/
theorem read_returns (h : ¬ Records v r) : (read v r).2 = true := by
  cases r with
  | tracked service now later answer => exact safeSubprocessTracked_returns later h
  | dbusGet service now later native words =>
    rw [read, dbusGet]
    split_ifs with hhealthy hanswered
    · rfl
    · refine absurd ⟨hhealthy, ?_⟩ h
      simpa [not_or] using hanswered
    · rfl
  | reconcile service now again later connected native expired answer =>
    rw [Records] at h
    simp only [read, reconcile]
    split_ifs at h ⊢
    · cases native with
      | some _ => rfl
      | none =>
        simp only [reconciliationFallback]
        split_ifs with hexpired hhealthy
        · exact absurd ⟨rfl, hhealthy, Or.inl hexpired⟩ h
        · rfl
        · exact safeSubprocessTracked_returns later fun hsilent => h ⟨rfl, hsilent.1, Or.inr hsilent.2⟩
    · rw [reconciliationFallback, if_neg Bool.false_ne_true]
      exact safeSubprocessTracked_returns later h
  | getFloat service now again later connected native answer =>
    rw [read, getFloatNolock]
    split_ifs with hnative
    · rfl
    · exact safeSubprocessTracked_returns later fun hsilent => h ⟨hnative, hsilent⟩

/-! ### The backoff -/

/-- The failures after which the factor is no float. -/
def overflowFailures : ℕ := 1027

theorem number_two_pow (k : ℕ) :
    number (.int (2 ^ k)) = if k < 1024 then some (2 ^ k : ℚ) else none := by
  have habs : |(2 : ℤ) ^ k| = 2 ^ k := abs_of_nonneg (by positivity)
  rw [number, habs]
  unfold floatOverflow
  by_cases hk : k < 1024
  · have hle : (2 : ℤ) ^ k ≤ 2 ^ 1023 := pow_le_pow_right₀ one_le_two (by omega)
    have hlt : (2 : ℤ) ^ 1023 < 2 ^ 1024 - 2 ^ 970 := by
      have hdouble : (2 : ℤ) ^ 1024 = 2 * 2 ^ 1023 := pow_succ' 2 1023
      have hsmall : (2 : ℤ) ^ 970 < 2 ^ 1023 := pow_lt_pow_right₀ one_lt_two (by decide)
      rw [hdouble]
      generalize (2 : ℤ) ^ 1023 = large at *
      generalize (2 : ℤ) ^ 970 = small at *
      omega
    rw [if_pos (hle.trans_lt hlt), if_pos hk]
    push_cast
    rfl
  · have hle : (2 : ℤ) ^ 1024 ≤ 2 ^ k := pow_le_pow_right₀ one_le_two (by omega)
    have hlt : (2 : ℤ) ^ 1024 - 2 ^ 970 ≤ 2 ^ 1024 := sub_le_self _ (pow_nonneg zero_le_two _)
    rw [if_neg (not_lt.mpr (hlt.trans hle)), if_neg hk]

theorem backoff_eq (fails : ℕ) : backoff fails = if fails < overflowFailures then
    some (min (serviceBackoffBase * 2 ^ (fails - serviceFailThreshold)) serviceBackoffMax)
    else none := by
  rw [backoff, number_two_pow]
  unfold overflowFailures serviceFailThreshold
  split_ifs
  · rfl
  · omega
  · omega
  · rfl

theorem recordServiceFailure_returns_iff (v : VictronDBus) (service : String) (now : ℚ) :
    (recordServiceFailure v service now).2 = true ↔ failures v service < overflowFailures := by
  unfold recordServiceFailure
  rw [backoff_eq]
  split_ifs with hthreshold hfails
  · exact iff_of_true rfl hfails
  · exact iff_of_false (by simp) hfails
  · refine iff_of_true rfl ?_
    unfold serviceFailThreshold at hthreshold
    unfold overflowFailures
    omega

/-- What a failure that returns installs. -/
theorem recordServiceFailure_backoff {seconds : ℚ}
    (hthreshold : serviceFailThreshold ≤ failures v service)
    (hseconds : backoff (failures v service) = some seconds) :
    (recordServiceFailure v service now).1.serviceBackoffUntil service = now + seconds := by
  unfold recordServiceFailure
  rw [if_pos hthreshold, hseconds]
  exact Function.update_self _ _ _

theorem recordServiceFailure_fails (v : VictronDBus) (service : String) (now : ℚ) :
    (recordServiceFailure v service now).1.serviceConsecutiveFails service = failures v service := by
  have hcounted : (counted v service).serviceConsecutiveFails service = failures v service :=
    Function.update_self _ _ _
  unfold recordServiceFailure
  split_ifs
  · split
    · exact hcounted
    · exact hcounted
  · exact hcounted

/-- Outside its backoff, a service is asked again five minutes after a failure. -/
theorem recordServiceFailure_until_le (h : serviceHealthy v service now) :
    (recordServiceFailure v service now).1.serviceBackoffUntil service ≤ now + serviceBackoffMax := by
  have hold : v.serviceBackoffUntil service ≤ now + serviceBackoffMax := by
    unfold serviceHealthy at h
    unfold serviceBackoffMax
    linarith
  by_cases hthreshold : serviceFailThreshold ≤ failures v service
  · cases hseconds : backoff (failures v service) with
    | none =>
      rw [recordServiceFailure, if_pos hthreshold, hseconds]
      exact hold
    | some seconds =>
      rw [recordServiceFailure_backoff hthreshold hseconds]
      rw [backoff_eq] at hseconds
      split_ifs at hseconds
      rw [← Option.some.inj hseconds]
      exact add_le_add_right (min_le_right _ _) now
  · rw [recordServiceFailure, if_neg hthreshold]
    exact hold

/-- A backoff is within its bounds, and no shorter than one after fewer failures. -/
theorem backoff_spec {m n : ℕ} (hmn : m ≤ n) (hn : n < overflowFailures) :
    ∃ short long, backoff m = some short ∧ backoff n = some long ∧ serviceBackoffBase ≤ short ∧
      short ≤ long ∧ long ≤ serviceBackoffMax := by
  have hm : m < overflowFailures := hmn.trans_lt hn
  refine ⟨_, _, by rw [backoff_eq, if_pos hm], by rw [backoff_eq, if_pos hn], ?_, ?_, min_le_right _ _⟩
  · refine le_min ?_ (by decide)
    exact le_mul_of_one_le_right (by decide) (one_le_pow₀ one_le_two)
  · refine min_le_min_right _ (mul_le_mul_of_nonneg_left ?_ (by decide))
    exact pow_le_pow_right₀ one_le_two (by omega)

/-! ### The passes -/

/-- A read of the pass does not find the service silent for the 1027th time. -/
def InRange (x : Taken Poller Event) : Prop :=
  ∀ r, x.input = .poll r → x.before.running = true → Records x.before.victron r →
    failures x.before.victron r.subject < overflowFailures

theorem next_aborted (p : Poller) (e : Event) :
    (next p e).aborted = false ↔ p.aborted = false ∧ InRange ⟨p, e⟩ := by
  unfold InRange
  cases e with
  | start => simp [next]
  | other r => simp [next]
  | poll r =>
    by_cases hrunning : p.running = true
    · have hreturns : (read p.victron r).2 = true ↔
          (Records p.victron r → failures p.victron r.subject < overflowFailures) := by
        by_cases hrecords : Records p.victron r
        · rw [read_of_records hrecords, recordServiceFailure_returns_iff]
          exact ⟨fun h _ => h, fun h => h hrecords⟩
        · exact iff_of_true (read_returns hrecords) fun h => absurd h hrecords
      simp [next, hrunning, ← hreturns]
    · simp [next, hrunning]

theorem exec_aborted (p : Poller) (es : List Event) :
    (exec next p es).aborted = false ↔ p.aborted = false ∧ ∀ x ∈ trace next p es, InRange x := by
  induction es generalizing p with
  | nil => simp
  | cons e es ih => rw [exec_cons, ih, next_aborted, trace_cons, List.forall_mem_cons, and_assoc]

/-- **A service may stay absent for 1026 reads.**  A failure is recorded normally if and only if it
is not the 1027th in a row or a later one; then the backoff is within its bounds and does not fall;
and no pass is cut short if and only if none of its reads records a later one. -/
theorem service_backoff (v : VictronDBus) (service : String) (now : ℚ) (m n : ℕ) (es : List Event) :
    ((recordServiceFailure v service now).2 = true ↔ failures v service < overflowFailures) ∧
    (serviceFailThreshold ≤ failures v service → failures v service < overflowFailures →
      ∃ seconds, backoff (failures v service) = some seconds ∧
        (recordServiceFailure v service now).1.serviceBackoffUntil service = now + seconds) ∧
    (m ≤ n → n < overflowFailures →
      ∃ short long, backoff m = some short ∧ backoff n = some long ∧ serviceBackoffBase ≤ short ∧
        short ≤ long ∧ long ≤ serviceBackoffMax) ∧
    ((exec next {} es).aborted = false ↔ ∀ x ∈ trace next {} es, InRange x) := by
  refine ⟨recordServiceFailure_returns_iff v service now, fun hthreshold hfails => ?_, backoff_spec, ?_⟩
  · obtain ⟨seconds, -, hseconds, -⟩ := backoff_spec le_rfl hfails
    exact ⟨seconds, hseconds, recordServiceFailure_backoff hthreshold hseconds⟩
  · rw [exec_aborted]
    exact and_iff_right rfl

/-- A read that a service does not answer, five minutes after the one before it. -/
def silentRead (n : ℕ) : Read :=
  .tracked "com.victronenergy.battery" (serviceBackoffMax * n) (serviceBackoffMax * n) none

/-- Passes with such a read each. -/
def silence : ℕ → List Event
  | 0 => []
  | n + 1 => silence n ++ [.start, .poll (silentRead n)]

theorem silence_succ (n : ℕ) : silence (n + 1) = silence n ++ [.start, .poll (silentRead n)] := rfl

theorem exec_silence (n : ℕ) :
    (exec next {} (silence n)).victron.serviceConsecutiveFails "com.victronenergy.battery" = n ∧
      (exec next {} (silence n)).victron.serviceBackoffUntil "com.victronenergy.battery" ≤
        serviceBackoffMax * n := by
  induction n with
  | zero => exact ⟨rfl, by rw [Nat.cast_zero, mul_zero]; exact le_rfl⟩
  | succ n ih =>
    obtain ⟨hfails, huntil⟩ := ih
    have hrecords : Records (exec next {} (silence n)).victron (silentRead n) := ⟨huntil, rfl⟩
    have hread : (exec next {} (silence (n + 1))).victron =
      (recordServiceFailure (exec next {} (silence n)).victron
        "com.victronenergy.battery" (serviceBackoffMax * n)).1 := by
      rw [silence_succ, exec_append]
      simp only [exec_cons, exec_nil, next, if_true]
      rw [read_of_records hrecords]
      rfl
    rw [hread]
    refine ⟨?_, (recordServiceFailure_until_le huntil).trans_eq ?_⟩
    · rw [recordServiceFailure_fails, failures, hfails]
    · push_cast
      ring

theorem exec_silence_aborted {n : ℕ} (hn : overflowFailures ≤ n + 1) :
    (exec next {} (silence (n + 1))).aborted = true := by
  rw [← Bool.not_eq_false, exec_aborted]
  rintro ⟨-, hrange⟩
  obtain ⟨hfails, huntil⟩ := exec_silence n
  have hmem : ⟨next (exec next {} (silence n)) .start, .poll (silentRead n)⟩ ∈
    trace next {} (silence (n + 1)) := by
    rw [silence_succ, trace_append]
    exact List.mem_append_right _ (List.mem_cons_of_mem _ List.mem_cons_self)
  have hrecords : Records (next (exec next {} (silence n)) .start).victron (silentRead n) :=
    ⟨huntil, rfl⟩
  have hlast : failures (exec next {} (silence n)).victron "com.victronenergy.battery" <
    overflowFailures :=
    hrange _ hmem _ rfl rfl hrecords
  rw [failures, hfails] at hlast
  omega

/-- After 1026 failures, the next one cuts its pass short. -/
theorem silence_aborts : (exec next {} (silence 1027)).aborted = true := exec_silence_aborted (by decide)

end InverterControl.Victron.Health
