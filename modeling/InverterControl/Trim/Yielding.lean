import InverterControl.Trim.Steps

/-!
# The trim yields to the fast control

A proposal is answered with the base command, and with a delta on top of it only when everything
that a trim needs is valid (`propose_base`).  A trim that is proposed stays the pending object: as
long as the same report comes with the same command, context and limits, and the primary is stable,
every proposal returns that object (`Retained.again`), so a write that keeps being rejected is
retried and never added up.
-/

namespace InverterControl.Trim.Yielding

open InverterControl.Lib.Runs InverterControl.Python InverterControl.Trim.Model
open InverterControl.Trim.Steps

variable {s : SubmeterTrim} {a r : Proposal} {v v' : View} {p i : Issued}

/-! ### The base command -/

/-- A proposal with an integer previous setpoint does not raise. -/
theorem propose_ne_none (hs : Sound s) {previous : ℤ} (hp : integer a.previousSetpoint = some previous) :
    examine a s ≠ .answered (none, s) := by
  intro hraised
  have houtcome := examineClock_outcome hs.toCore a previous ((integer a.baseSetpoint).getD previous)
  unfold examine at hraised
  rw [hp] at hraised
  simp only at hraised
  rw [hraised] at houtcome
  cases houtcome with
  | answered r hr =>
    obtain ⟨j, hj, -⟩ := hr.issued
    cases hj

/-- **One proposal**: the base command, and a delta only when the proposal is admissible. -/
theorem propose_base (hs : Sound s) {previous : ℤ} (hp : integer a.previousSetpoint = some previous) :
    ∃ i, (propose a s).1 = some i ∧
      i.decision.setpoint = (integer a.baseSetpoint).getD previous + i.decision.delta ∧
      ((¬ ∃ v, Admissible a s v) → i.decision.delta = 0) := by
  rcases propose_cases hs.toCore a with ⟨hx, -⟩ | ⟨previous', -, ⟨r, hx⟩, hanswer⟩ |
    ⟨v, s', hp', hx, -, hready, hanswer⟩
  · exact absurd hx (propose_ne_none hs hp)
  · obtain ⟨i, hi, -⟩ := hanswer.issued
    have hr : r.1 = some i := by rw [← hi, propose, hx]
    obtain ⟨hdelta, hsetpoint⟩ := examine_still hx hp hr
    refine ⟨i, hi, ?_, fun _ => hdelta⟩
    rw [hsetpoint, hdelta, add_zero]
  · have hgranted := granted_of_passed hx
    obtain rfl : previous = v.previous := Option.some.inj (hp.symm.trans hp')
    obtain ⟨i, hi, -, hprevious⟩ := hanswer.issued
    have hwindow : (proposeWindow v (updateBaseline v s')).1 = some i := by rw [← hi, propose, hx]
    refine ⟨i, hi, ?_, fun hnot => absurd ⟨v, hgranted.toAdmissible⟩ hnot⟩
    rw [hgranted.base, Option.getD_some]
    rcases decides_proposeWindow hready.core.pendingMoves v i hwindow with ⟨hzero, hset⟩ | ⟨hmoves, -⟩
    · rw [hset, hzero, add_zero]
    · have htrim := (hanswer.sound.pending i (hanswer.pending hi hmoves).2).1
      rw [htrim.setpoint, hprevious]

/-! ### A pending trim -/

/-- The primary is stable: its raw value is near the filtered one, and the filtered ones since the
window's first report lie within 30 W. -/
def stablePrimary (v : View) (s : SubmeterTrim) : Prop :=
  |v.raw - v.filtered| ≤ rawDeviation ∧ spread (primarySince (notePrimary v s)) ≤ primaryRange

instance (v : View) (s : SubmeterTrim) : Decidable (stablePrimary v s) := by
  unfold stablePrimary; infer_instance

/-- The same report, command, context and limits. -/
structure SameTrim (v v' : View) : Prop where
  previous : v'.previous = v.previous
  low : v'.low = v.low
  high : v'.high = v.high
  context : v'.context = v.context
  timestamp : v'.timestamp = v.timestamp
  power : v'.power = v.power

/-- Proposals, one after the other, that see the same as `v` and a stable primary. -/
def Retries (v : View) (s : SubmeterTrim) (rs : List Proposal) : Prop :=
  ∀ x ∈ trace next s (rs.map .propose), ∀ r, x.input = .propose r →
    ∃ v', Admissible r x.before v' ∧ SameTrim v v' ∧ stablePrimary v' x.before

/-- The trim `p` was proposed for `v`, and waits for an accepted write. -/
structure Retained (v : View) (p : Issued) (s : SubmeterTrim) : Prop where
  pending : s.pending = some p
  context : s.context = some v.context
  accepted : s.acceptedSetpoint = some v.previous
  limits : s.limits = some (v.low, v.high)
  warmed : s.needsWarmup = false
  measurement : s.lastMeasurement = some v.timestamp
  power : s.lastPower = some v.power
  now : s.lastNow = some v.clock
  commandWall : ∃ t, s.commandWall = some t ∧ ¬ v.timestamp < t + measurementDelay
  commandTime : ∃ t, s.commandTime = some t ∧ ¬ v.clock - t < settleSeconds
  steady : s.reports ≠ [] → ¬ submeterRange < spread (s.reports.map (·.power))
  recent : ∀ x ∈ s.reports, v.timestamp - x.timestamp ≤ windowSeconds

/-- The checks of a retry leave the trim as it is. -/
theorem Retained.examined (h : Retained v p s) (hr : Admissible r s v') (hsame : SameTrim v v') :
    ∃ s', examine r s = .passed v' s' ∧ updateBaseline v' s' = s' ∧ Retained v' p s' ∧
      s'.reports = s.reports ∧ s'.primary = s.primary := by
  have hlimits : s.limits = some (v'.low, v'.high) := by rw [hsame.low, hsame.high, h.limits]
  have hnoted : noteLimits v'.low v'.high { s with lastNow := some v'.clock } =
      { s with lastNow := some v'.clock, limits := some (v'.low, v'.high) } := by
    unfold noteLimits
    rw [if_neg (by simp [hlimits])]
  have hforward : v.clock ≤ v'.clock := by
    by_contra hlt
    exact hr.forward ⟨v.clock, h.now, not_le.mp hlt⟩
  refine ⟨_, examine_of_admissible hr, ?_, ?_, ?_, ?_⟩
  · rw [hnoted]
    unfold updateBaseline
    rw [if_neg, if_neg]
    · simp [pinIdentity, h.warmed]
    · simp [restarts, pinIdentity, h.context, h.accepted, hsame.context, hsame.previous]
  · rw [hnoted]
    obtain ⟨wall, hwall, hdelay⟩ := h.commandWall
    obtain ⟨time, htime, hsettled⟩ := h.commandTime
    exact
      { pending := h.pending
        context := by rw [hsame.context]; exact h.context
        accepted := by rw [hsame.previous]; exact h.accepted
        limits := rfl
        warmed := h.warmed
        measurement := by rw [hsame.timestamp]; exact h.measurement
        power := by rw [hsame.power]; exact h.power
        now := rfl
        commandWall := ⟨wall, hwall, by rw [hsame.timestamp]; exact hdelay⟩
        commandTime := ⟨time, htime, by linarith⟩
        steady := h.steady
        recent := by rw [hsame.timestamp]; exact h.recent }
  · rw [hnoted]
    rfl
  · rw [hnoted]
    rfl

/-- The window of a retry returns the pending trim. -/
theorem Retained.window (h : Retained v p s) (hstable : stablePrimary v s) :
    (proposeWindow v s).1 = some p ∧ Retained v p (proposeWindow v s).2 := by
  obtain ⟨wall, hwall, hdelay⟩ := h.commandWall
  obtain ⟨time, htime, hsettled⟩ := h.commandTime
  have herror : reportError v.timestamp v.power (notePrimary v s) = none := by
    simp [reportError, notePrimary, h.measurement, h.power]
  have hold : ¬ isNew v.timestamp (notePrimary v s) := by
    intro hnew
    exact lt_irrefl _ (hnew v.timestamp h.measurement)
  have hpruned : pruneReports v.timestamp (notePrimary v s) = notePrimary v s := by
    have hkept : s.reports.filter (fun x => v.timestamp - x.timestamp ≤ windowSeconds) = s.reports :=
      List.filter_eq_self.mpr fun x hx => decide_eq_true (h.recent x hx)
    unfold pruneReports notePrimary
    simp only [hkept]
  have hsteady : unstable (notePrimary v s) = none := by
    unfold unstable
    split
    · rfl
    · next hne =>
      have hsteady : ¬ submeterRange < spread ((notePrimary v s).reports.map (·.power)) := h.steady hne
      rw [if_neg hsteady, if_neg (not_lt.mpr hstable.2)]
  have hpending : (noteAverage (notePrimary v s)).pending = some p := noteAverage_pending.trans h.pending
  have hresult : proposeWindow v s =
      (some p, { noteAverage (notePrimary v s) with
        issued := some p, reason := p.decision.reason }) := by
    unfold proposeWindow
    rw [if_neg (not_lt.mpr hstable.1), herror]
    simp only
    rw [if_neg hold]
    unfold collectWindow
    rw [show (notePrimary v s).commandWall = some wall from hwall]
    simp only
    rw [if_neg hdelay, if_neg Bool.false_ne_true, hpruned]
    unfold settleWindow
    rw [hsteady]
    simp only
    rw [show (notePrimary v s).commandTime = some time from htime]
    simp only
    rw [if_neg hsettled]
    unfold reissue
    rw [hpending]
  rw [hresult]
  refine ⟨rfl, ?_⟩
  have haverage : ∃ average, noteAverage (notePrimary v s) =
    { notePrimary v s with average := average } := by
    unfold noteAverage
    split_ifs <;> exact ⟨_, rfl⟩
  obtain ⟨average, haverage⟩ := haverage
  rw [haverage]
  exact ⟨h.pending, h.context, h.accepted, h.limits, h.warmed, h.measurement, h.power, h.now,
    h.commandWall, h.commandTime, h.steady, h.recent⟩

/-- **A retry** returns the pending trim. -/
theorem Retained.again (h : Retained v p s) (hr : Admissible r s v') (hsame : SameTrim v v')
    (hstable : stablePrimary v' s) : (propose r s).1 = some p ∧ Retained v' p (propose r s).2 := by
  obtain ⟨s', hx, hbaseline, hretained, hreports, hprimary⟩ := h.examined hr hsame
  have hstable' : stablePrimary v' s' := by
    obtain ⟨hraw, hspread⟩ := hstable
    refine ⟨hraw, ?_⟩
    simp only [primarySince, notePrimary, hreports, hprimary] at hspread ⊢
    exact hspread
  rw [propose, hx]
  simp only
  rw [hbaseline]
  exact hretained.window hstable'

/-! ### The first proposal of a trim -/

/-- The end of the window only issues a decision. -/
theorem reissue_state (v : View) (fresh : Bool) (s : SubmeterTrim) : ∃ issued pending reason nextId,
    (reissue v fresh s).2 =
      { s with issued := issued, pending := pending, reason := reason, nextId := nextId } := by
  unfold reissue
  split
  · exact ⟨_, _, _, _, rfl⟩
  unfold decideWindow
  split_ifs
  · exact ⟨_, _, _, _, rfl⟩
  · exact ⟨_, _, _, _, rfl⟩
  split
  · exact ⟨_, _, _, _, rfl⟩
  split_ifs
  · exact ⟨_, _, _, _, rfl⟩
  unfold boundedTrimDecision
  split_ifs <;> exact ⟨_, _, _, _, rfl⟩

theorem not_moves_hold {base previous : ℤ} {now : ℚ} {reason : String} {timestamp : Option ℚ}
    (hi : (decision base previous now reason 0 timestamp s).1 = some i)
    (hdelta : i.decision.delta ≠ 0) : False := by
  obtain rfl := Option.some.inj hi
  exact hdelta rfl

/-- What the window has shown when it returns a trim: the state `s` of its last stage is settled and
stable. -/
structure Settled (v : View) (s : SubmeterTrim) : Prop where
  steady : s.reports ≠ [] → ¬ submeterRange < spread (s.reports.map (·.power))
  commandTime : ∃ t, s.commandTime = some t ∧ ¬ v.clock - t < settleSeconds

theorem settleWindow_moves {fresh : Bool} (hi : (settleWindow v fresh s).1 = some i)
    (hdelta : i.decision.delta ≠ 0) :
    Settled v s ∧ ∃ issued pending reason nextId average, (settleWindow v fresh s).2 =
      { s with
        issued := issued, pending := pending, reason := reason, nextId := nextId,
        average := average } := by
  unfold settleWindow at hi ⊢
  split at hi
  · exact (not_moves_hold hi hdelta).elim
  next hstable =>
  split at hi
  · cases hi
  next t htime =>
  split at hi
  · exact (not_moves_hold hi hdelta).elim
  next hsettled =>
  refine ⟨⟨fun hne => ?_, t, htime, hsettled⟩, ?_⟩
  · unfold unstable at hstable
    rw [if_neg hne] at hstable
    split at hstable
    · cases hstable
    · next hsteady => exact hsteady
  · rw [if_neg hsettled]
    obtain ⟨issued, pending, reason, nextId, hstate⟩ := reissue_state v fresh (noteAverage s)
    rw [hstate]
    unfold noteAverage
    split_ifs <;> exact ⟨_, _, _, _, _, rfl⟩

theorem collectWindow_moves {fresh : Bool}
    (hs : s.lastMeasurement = some v.timestamp ∧ s.lastPower = some v.power)
    (hi : (collectWindow v fresh s).1 = some i) (hdelta : i.decision.delta ≠ 0) :
    (∃ t, s.commandWall = some t ∧ ¬ v.timestamp < t + measurementDelay) ∧
      ∃ s', Settled v s' ∧ (s'.lastMeasurement = some v.timestamp ∧ s'.lastPower = some v.power) ∧
        (∀ x ∈ s'.reports, v.timestamp - x.timestamp ≤ windowSeconds) ∧
        s'.commandWall = s.commandWall ∧ s'.limits = s.limits ∧ s'.needsWarmup = s.needsWarmup ∧
        s'.lastNow = s.lastNow ∧ ∃ issued pending reason nextId average, (collectWindow v fresh s).2 =
          { s' with
            issued := issued, pending := pending, reason := reason, nextId := nextId,
            average := average } := by
  have hpruned (t : SubmeterTrim) : ∀ x ∈ (pruneReports v.timestamp t).reports,
      v.timestamp - x.timestamp ≤ windowSeconds :=
    fun x hx => of_decide_eq_true (List.mem_filter.mp hx).2
  unfold collectWindow at hi ⊢
  split at hi
  · cases hi
  next wall hwall =>
  split at hi
  · exact (not_moves_hold hi hdelta).elim
  next hdelay =>
  rw [if_neg hdelay]
  refine ⟨⟨wall, hwall, hdelay⟩, ?_⟩
  split at hi
  · next hfresh =>
    rw [if_pos hfresh]
    obtain ⟨hsettled, hstate⟩ := settleWindow_moves hi hdelta
    exact ⟨_, hsettled, hs, hpruned _, rfl, rfl, rfl, rfl, hstate⟩
  · next hfresh =>
    rw [if_neg hfresh]
    obtain ⟨hsettled, hstate⟩ := settleWindow_moves hi hdelta
    exact ⟨_, hsettled, hs, hpruned _, rfl, rfl, rfl, rfl, hstate⟩

/-- **A trim that is proposed** is retained. -/
theorem retained_of_propose (hs : Sound s) (hi : (propose a s).1 = some i)
    (hdelta : i.decision.delta ≠ 0) :
    ∃ v, Admissible a s v ∧ Retained v i (propose a s).2 := by
  obtain ⟨v, s', hx, hpassed, hready, hanswer, -⟩ := propose_moves hs.toCore hi hdelta
  have hgranted := granted_of_passed hx
  refine ⟨v, hgranted.toAdmissible, ?_⟩
  have hpending := (hanswer.pending hi hdelta).2
  have hcontext := hanswer.context.trans hready.context
  have haccepted := hanswer.accepted.trans hready.accepted
  have hnow : (updateBaseline v s').lastNow = some v.clock := by
    have hafter : s'.lastNow = some v.clock := by
      rw [hgranted.after]
      unfold pinIdentity noteLimits
      split_ifs <;> rfl
    unfold updateBaseline
    split_ifs <;> exact hafter
  have hlimits := hready.limits
  have hwarmed := hready.warmed
  have hpropose : propose a s = proposeWindow v (updateBaseline v s') := by rw [propose, hx]
  rw [hpropose] at hi hpending hcontext haccepted ⊢
  generalize updateBaseline v s' = u at *
  have hwindow : (∃ t, u.commandWall = some t ∧ ¬ v.timestamp < t + measurementDelay) ∧
      ∃ u', Settled v u' ∧ (u'.lastMeasurement = some v.timestamp ∧ u'.lastPower = some v.power) ∧
        (∀ x ∈ u'.reports, v.timestamp - x.timestamp ≤ windowSeconds) ∧
        u'.commandWall = u.commandWall ∧ u'.limits = u.limits ∧ u'.needsWarmup = u.needsWarmup ∧
        u'.lastNow = u.lastNow ∧ ∃ issued pending reason nextId average, (proposeWindow v u).2 =
          { u' with
            issued := issued, pending := pending, reason := reason, nextId := nextId,
            average := average } := by
    unfold proposeWindow at hi ⊢
    split at hi
    · exact (not_moves_hold hi hdelta).elim
    next hraw =>
    rw [if_neg hraw]
    split at hi
    · exact (not_moves_hold hi hdelta).elim
    next herror =>
    split at hi
    · next hnew =>
      rw [if_pos hnew]
      exact collectWindow_moves ⟨rfl, rfl⟩ hi hdelta
    · next hold =>
      rw [if_neg hold]
      exact collectWindow_moves (last_of_not_new herror hold) hi hdelta
  obtain ⟨hwall, u', hsettled, hmeasured, hrecent, hwall', hlimits', hwarmed', hnow', issued,
    pending, reason, nextId, average, hstate⟩ := hwindow
  rw [hstate] at hpending hcontext haccepted ⊢
  rw [← hwall'] at hwall
  exact ⟨hpending, hcontext, haccepted, hlimits'.trans hlimits, hwarmed'.trans hwarmed, hmeasured.1,
    hmeasured.2, hnow'.trans hnow, hwall, hsettled.commandTime, hsettled.steady, hrecent⟩

/-! ### Retries -/

theorem SameTrim.trans {v'' : View} (h : SameTrim v v') (h' : SameTrim v v'') : SameTrim v' v'' where
  previous := h'.previous.trans h.previous.symm
  low := h'.low.trans h.low.symm
  high := h'.high.trans h.high.symm
  context := h'.context.trans h.context.symm
  timestamp := h'.timestamp.trans h.timestamp.symm
  power := h'.power.trans h.power.symm

/-- **Every retry** returns the pending trim. -/
theorem retries_return {rs : List Proposal} (h : Retained v p s) (hrs : Retries v s rs) :
    ∀ x ∈ trace next s (rs.map .propose), ∀ r, x.input = .propose r →
      (propose r x.before).1 = some p := by
  have hkept : ∀ x ∈ trace next s (rs.map .propose), ∃ v', SameTrim v v' ∧ Retained v' p x.before := by
    refine trace_invariant (P := fun t => ∃ v', SameTrim v v' ∧ Retained v' p t)
      ⟨v, ⟨rfl, rfl, rfl, rfl, rfl, rfl⟩, h⟩ ?_
    rintro x hx ⟨v', hsame, hretained⟩
    obtain ⟨c, d, hcs, -⟩ := (mem_trace next).mp hx
    have hmem : x.input ∈ rs.map Call.propose := by
      rw [hcs]
      simp
    obtain ⟨r, -, hr⟩ := List.mem_map.mp hmem
    obtain ⟨v'', hadmissible, hsame', hstable⟩ := hrs x hx r hr.symm
    refine ⟨v'', hsame', ?_⟩
    rw [← hr]
    exact (hretained.again hadmissible (hsame.trans hsame') hstable).2
  intro x hx r hr
  obtain ⟨v', hsame, hretained⟩ := hkept x hx
  obtain ⟨v'', hadmissible, hsame', hstable⟩ := hrs x hx r hr
  exact (hretained.again hadmissible (hsame.trans hsame') hstable).1

/-- **The trim never interferes with the fast control.**  In every reachable state a proposal with
an integer previous setpoint is answered with the base command (the previous one when the base is no
integer), plus a delta that is zero unless the proposal is admissible; and a trim that is proposed
is returned by every retry, as the same object. -/
theorem trim_yields (enabled : Bool) (service : Option String) (deviceInstance : Option ℤ)
    (cs : List Call) :
    (∀ a previous, integer a.previousSetpoint = some previous →
      ∃ i, (propose a (exec next (init enabled service deviceInstance) cs)).1 = some i ∧
        i.decision.setpoint = (integer a.baseSetpoint).getD previous + i.decision.delta ∧
        ((¬ ∃ v, Admissible a (exec next (init enabled service deviceInstance) cs) v) →
          i.decision.delta = 0)) ∧
    ∀ a i, (propose a (exec next (init enabled service deviceInstance) cs)).1 = some i →
      i.decision.delta ≠ 0 →
      ∃ v, Admissible a (exec next (init enabled service deviceInstance) cs) v ∧
        ∀ rs, Retries v (propose a (exec next (init enabled service deviceInstance) cs)).2 rs →
          ∀ x ∈ trace next (propose a (exec next (init enabled service deviceInstance) cs)).2
              (rs.map .propose),
            ∀ r, x.input = .propose r → (propose r x.before).1 = some i := by
  have hsound : Sound (exec next (init enabled service deviceInstance) cs) :=
    (Sound.init enabled service deviceInstance).exec cs
  constructor
  · intro a previous hp
    exact propose_base hsound hp
  · intro a i hi hdelta
    obtain ⟨v, hadmissible, hretained⟩ := retained_of_propose hsound hi hdelta
    exact ⟨v, hadmissible, fun rs hrs => retries_return hretained hrs⟩

/-- A proposal of the second `now` over a steady grid, with the submeter's report of the second
`seen`. -/
def steadyAt (seen now : ℕ) : Proposal where
  now := .int now
  wallTime := .int now
  previousSetpoint := .int 0
  baseSetpoint := .int 0
  sample := some
    { available := .bool true
      service := .str "com.victronenergy.acload.em"
      deviceInstance := .int 40
      generation := some (.int 0)
      measurementTime := .int seen
      power := .int 24
      ageSeconds := .int (now - seen) }
  eligible := .bool true
  reason := ""
  rawGrid := .int 10
  filteredGrid := .int 10
  minSetpoint := .int (-2300)
  maxSetpoint := .int 2250
  sourceKey := some [.str "com.victronenergy.grid.main", .int 30, .int 0]

/-- The proposals before the first trim: a report every three seconds. -/
def beforeTrim : List Call := (List.range 6).map fun k =>
    .propose (steadyAt (1000 + 3 * k) (1000 + 3 * k))

-- The window asks for 4 W less, and two retries before the next report are answered with the same
-- object.
example :
    (propose (steadyAt 1018 1018) (exec next (init true none none) beforeTrim)).1.map
        (fun i => (i.id, i.decision.setpoint, i.decision.delta)) = some (6, -4, -4) ∧
      ∀ i, (propose (steadyAt 1018 1018) (exec next (init true none none) beforeTrim)).1 = some i →
        ∀ past ∈ [[steadyAt 1018 1018], [steadyAt 1018 1018, steadyAt 1018 1019]],
          (propose (steadyAt 1018 (1018 + past.length))
            (exec next (init true none none) (beforeTrim ++ past.map .propose))).1 = some i := by
  decide +kernel

end InverterControl.Trim.Yielding
