import InverterControl.Dvcc.Curves

/-!
# The rate limiter over a run

The limiter multiplies its rate by the wall time since the last call.  When this is not negative, or the
computed value needs no change, the new value lies between the last one and the computed one, and only
then (`limited_between`).  The range is kept from call to call by that (`next_ranged`).
-/

namespace InverterControl.Dvcc.Limiter

open InverterControl.Lib.Runs InverterControl.Dvcc.Model InverterControl.Dvcc.Curves

variable {c : Config} {s : Model.Limiter} {now value lastValue change lo hi x : ℚ} {allow : Bool}
  {d : Data}

/-! ### One value -/

/-- A value between two others, in either order. -/
def Between (a b x : ℚ) : Prop := min a b ≤ x ∧ x ≤ max a b

theorem between_right (a b : ℚ) : Between a b b := ⟨min_le_right _ _, le_max_right _ _⟩

theorem Between.mem (h : Between lastValue value x) (hlast : lo ≤ lastValue ∧ lastValue ≤ hi)
    (hvalue : lo ≤ value ∧ value ≤ hi) : lo ≤ x ∧ x ≤ hi :=
  ⟨(le_min hlast.1 hvalue.1).trans h.1, h.2.trans (max_le hlast.2 hvalue.2)⟩

/-- A change that is allowed to be negative moves the value away from the computed one. -/
theorem rateLimitValue_between :
    Between lastValue value (rateLimitValue value lastValue change) ↔ 0 ≤ change ∨
    value = lastValue := by
  unfold rateLimitValue Between
  rcases lt_trichotomy lastValue value with hlt | heq | hgt
  · rw [if_pos hlt, min_eq_left hlt.le, max_eq_right hlt.le, le_min_iff]
    constructor
    · rintro ⟨⟨-, h⟩, -⟩
      exact Or.inl (by linarith)
    · rintro (h | h)
      · exact ⟨⟨hlt.le, by linarith⟩, min_le_left _ _⟩
      · exact absurd h hlt.ne'
  · subst heq
    simp
  · rw [if_neg hgt.not_gt, if_pos hgt, min_eq_right hgt.le, max_eq_left hgt.le, max_le_iff]
    constructor
    · rintro ⟨-, -, h⟩
      exact Or.inl (by linarith)
    · rintro (h | h)
      · exact ⟨le_max_left _ _, hgt.le, by linarith⟩
      · exact absurd h hgt.ne

theorem limited_between : Between lastValue value (limited value lastValue change allow) ↔
    (value ≤ 0 ∨ allow = false) ∨ 0 ≤ change ∨ value = lastValue := by
  unfold limited
  split
  · next h => exact ⟨fun _ => Or.inl h, fun _ => between_right _ _⟩
  · next h =>
    rw [rateLimitValue_between]
    exact ⟨Or.inr, fun hor => hor.resolve_left h⟩

/-- One current of a call: the first call has nothing to limit against. -/
def timed (lastTime : Option ℚ) (rate now value lastValue : ℚ) (allow : Bool) : ℚ :=
  match lastTime with
  | none => value
  | some last => limited value lastValue (rate * (now - last)) allow

/-- A value that does not see a clock that was set back: there was no call before, the change that the
time since then allows is not negative, the value is cut off, or it is the last one. -/
def Steady (lastTime : Option ℚ) (rate now value lastValue : ℚ) : Prop :=
  ∀ last, lastTime = some last → 0 ≤ rate * (now - last) ∨ value ≤ 0 ∨ value = lastValue

/-- **The new value lies between the last and the computed one exactly if it is steady.** -/
theorem timed_between {lastTime : Option ℚ} {rate : ℚ} (hblock : allow = false → value = 0) :
    Between lastValue value (timed lastTime rate now value lastValue allow) ↔
      Steady lastTime rate now value lastValue := by
  unfold timed Steady
  cases lastTime with
  | none => simp [between_right]
  | some last =>
    simp only [Option.some.injEq, forall_eq', limited_between]
    constructor
    · rintro ((h | h) | h | h)
      · exact Or.inr (Or.inl h)
      · exact Or.inr (Or.inl (hblock h).le)
      · exact Or.inl h
      · exact Or.inr (Or.inr h)
    · rintro (h | h | h)
      · exact Or.inr (Or.inl h)
      · exact Or.inl (Or.inl h)
      · exact Or.inr (Or.inr h)

/-- A computed value of 0 passes the limiter. -/
theorem timed_zero (lastTime : Option ℚ) (rate now lastValue : ℚ) (allow : Bool) :
    timed lastTime rate now 0 lastValue allow = 0 := by
  unfold timed
  split
  · rfl
  · simp [limited]

/-! ### One call -/

/-- A call of `calculate`. -/
structure Call where
  now : ℚ
  data : Data
  deriving DecidableEq, Repr

def step (c : Config) (s : Model.Limiter) (x : Call) : Model.Limiter := s.next c x.now x.data

/-- The last values lie between 0 and the maximum. -/
structure Ranged (c : Config) (s : Model.Limiter) : Prop where
  ccl : 0 ≤ s.lastCcl ∧ s.lastCcl ≤ c.maxChargeCurrent
  dcl : 0 ≤ s.lastDcl ∧ s.lastDcl ≤ c.maxDischargeCurrent

/-- What a call should return before it is rounded: values in range, each between the last one and the
computed one, and 0 where 0 was computed or the BMS blocks. -/
structure Published (c : Config) (s : Model.Limiter) (x : Call) : Prop where
  ranged : Ranged c (step c s x)
  ccl : Between s.lastCcl (x.data.ccl c).1 (step c s x).lastCcl
  dcl : Between s.lastDcl (x.data.dcl c).1 (step c s x).lastDcl
  stopCharge : (x.data.ccl c).1 = 0 ∨ x.data.allowCharge = false → (step c s x).lastCcl = 0
  stopDischarge : (x.data.dcl c).1 = 0 ∨ x.data.allowDischarge = false → (step c s x).lastDcl = 0

/-- Both values of a call. -/
structure ClockInOrder (c : Config) (s : Model.Limiter) (x : Call) : Prop where
  ccl : Steady s.lastUpdateTime c.cclChangeRate x.now (x.data.ccl c).1 s.lastCcl
  dcl : Steady s.lastUpdateTime c.dclChangeRate x.now (x.data.dcl c).1 s.lastDcl

theorem ccl_blocked (h : d.allowCharge = false) : (d.ccl c).1 = 0 := by
  simp [Data.ccl, h]

theorem dcl_blocked (h : d.allowDischarge = false) : (d.dcl c).1 = 0 := by
  simp [Data.dcl, h]

theorem data_ccl_mem (hc : Config.Currents c) (d : Data) :
    0 ≤ (d.ccl c).1 ∧ (d.ccl c).1 ≤ c.maxChargeCurrent := by
  unfold Data.ccl
  split
  · exact computeCcl_mem hc _ _ _ _ _
  · exact ⟨le_rfl, hc.charge⟩

theorem data_dcl_mem (hc : Config.Currents c) (d : Data) :
    0 ≤ (d.dcl c).1 ∧ (d.dcl c).1 ≤ c.maxDischargeCurrent := by
  unfold Data.dcl
  split
  · exact computeDcl_mem hc _ _ _ _
  · exact ⟨le_rfl, hc.discharge⟩

theorem step_lastCcl (c : Config) (s : Model.Limiter) (x : Call) : (step c s x).lastCcl =
    timed s.lastUpdateTime c.cclChangeRate x.now (x.data.ccl c).1 s.lastCcl x.data.allowCharge := by
  unfold step Model.Limiter.next rateLimit timed
  cases s.lastUpdateTime with
  | none => rfl
  | some last => rfl

theorem step_lastDcl (c : Config) (s : Model.Limiter) (x : Call) : (step c s x).lastDcl =
    timed s.lastUpdateTime c.dclChangeRate x.now (x.data.dcl c).1 s.lastDcl x.data.allowDischarge := by
  unfold step Model.Limiter.next rateLimit timed
  cases s.lastUpdateTime with
  | none => rfl
  | some last => rfl

theorem step_ccl_between (x : Call) : Between s.lastCcl (x.data.ccl c).1 (step c s x).lastCcl ↔
    Steady s.lastUpdateTime c.cclChangeRate x.now (x.data.ccl c).1 s.lastCcl := by
  rw [step_lastCcl]
  exact timed_between ccl_blocked

theorem step_dcl_between (x : Call) : Between s.lastDcl (x.data.dcl c).1 (step c s x).lastDcl ↔
    Steady s.lastUpdateTime c.dclChangeRate x.now (x.data.dcl c).1 s.lastDcl := by
  rw [step_lastDcl]
  exact timed_between dcl_blocked

theorem step_ccl_zero (x : Call) (h : (x.data.ccl c).1 = 0 ∨ x.data.allowCharge = false) :
    (step c s x).lastCcl = 0 := by
  have hzero : (x.data.ccl c).1 = 0 := h.elim id ccl_blocked
  rw [step_lastCcl, hzero, timed_zero]

theorem step_dcl_zero (x : Call) (h : (x.data.dcl c).1 = 0 ∨ x.data.allowDischarge = false) :
    (step c s x).lastDcl = 0 := by
  have hzero : (x.data.dcl c).1 = 0 := h.elim id dcl_blocked
  rw [step_lastDcl, hzero, timed_zero]

/-- **A call keeps the range** when the clock is in order for it. -/
theorem step_ranged (hc : Config.Currents c) (hs : Ranged c s) {x : Call} (h : ClockInOrder c s x) :
    Ranged c (step c s x) where
  ccl := ((step_ccl_between x).mpr h.ccl).mem hs.ccl (data_ccl_mem hc x.data)
  dcl := ((step_dcl_between x).mpr h.dcl).mem hs.dcl (data_dcl_mem hc x.data)

theorem published_iff (hc : Config.Currents c) (hs : Ranged c s) (x : Call) :
    Published c s x ↔ ClockInOrder c s x := by
  constructor
  · intro h
    exact ⟨(step_ccl_between x).mp h.ccl, (step_dcl_between x).mp h.dcl⟩
  · intro h
    exact ⟨step_ranged hc hs h, (step_ccl_between x).mpr h.ccl, (step_dcl_between x).mpr h.dcl,
      step_ccl_zero x, step_dcl_zero x⟩

/-! ### A run -/

theorem ranged_init (hc : Config.Currents c) : Ranged c (Model.Limiter.init c) where
  ccl := ⟨hc.charge, le_rfl⟩
  dcl := ⟨hc.discharge, le_rfl⟩

/-- **Every call of a run publishes values in range exactly when the clock is in order for each.** -/
theorem published_run (hc : Config.Currents c) (hs : Ranged c s) (calls : List Call) :
    (∀ x ∈ trace (step c) s calls, Published c x.before x.input) ↔
      ∀ x ∈ trace (step c) s calls, ClockInOrder c x.before x.input := by
  induction calls generalizing s with
  | nil => simp
  | cons call calls ih =>
    simp only [trace_cons, List.forall_mem_cons]
    rw [published_iff hc hs]
    -- the calls after the first start in range
    refine and_congr_right fun h => ?_
    exact ih (step_ranged hc hs h)

/-- **The published currents stay in range exactly in the runs where no value that changes meets a clock
that was set back.** -/
theorem published_in_range (hc : Config.Currents c) (calls : List Call) :
    (∀ x ∈ trace (step c) (Model.Limiter.init c) calls, Published c x.before x.input) ↔
      ∀ x ∈ trace (step c) (Model.Limiter.init c) calls, ClockInOrder c x.before x.input :=
  published_run hc (ranged_init hc) calls

/-- One second after the first call the limit has fallen by 20 A. -/
theorem published_in_range_falling :
    Published {} (step {} (Model.Limiter.init {}) ⟨1000, {}⟩) ⟨1001, { soc := some 100 }⟩ := by
  refine (published_in_range currents_default [⟨1000, {}⟩, ⟨1001, { soc := some 100 }⟩]).mpr ?_
    ⟨step {} (Model.Limiter.init {}) ⟨1000, {}⟩, ⟨1001, { soc := some 100 }⟩⟩ (by simp)
  intro x hx
  simp only [trace_cons, trace_nil, List.mem_cons, List.not_mem_nil, or_false] at hx
  rcases hx with rfl | rfl
  · exact ⟨fun last h => absurd h (by simp [Model.Limiter.init]),
      fun last h => absurd h (by simp [Model.Limiter.init])⟩
  · refine ⟨?_, ?_⟩
    · intro last h
      obtain rfl : last = 1000 := (Option.some.inj h).symm
      exact Or.inl (by norm_num)
    · intro last h
      obtain rfl : last = 1000 := (Option.some.inj h).symm
      exact Or.inl (by norm_num)

/-- With the clock set back by 10 s, a limit that should fall from 100 A to 50 A is 300 A. -/
theorem published_above_maximum :
    ¬ ∀ (c : Config) (calls : List Call), Config.Ordered c → Config.Currents c →
      ∀ x ∈ trace (step c) (Model.Limiter.init c) calls, Published c x.before x.input := by
  intro h
  have hlast := h {} [⟨1000, {}⟩, ⟨990, { soc := some 100 }⟩] ordered_default currents_default
    ⟨step {} (Model.Limiter.init {}) ⟨1000, {}⟩, ⟨990, { soc := some 100 }⟩⟩ (by simp)
  exact absurd hlast.ranged.ccl.2 (by decide +kernel)

end InverterControl.Dvcc.Limiter
