import InverterControl.Backup.Model
import InverterControl.Lib.Runs

/-!
# When the backup meter is selected

The deadline of a read is never later than the instant at which its `LastUpdate` is `max_age` old
(`Dated`), however often that value is read.  The timer of the hysteresis is the first of the selections
that saw the primary valid ever since (`timer_since`), and it starts after the backup came into use
(`inUse_since`).
-/

namespace InverterControl.Backup.Selection

open InverterControl.Lib.Runs InverterControl.Backup.Model

/-! ### The machine -/

inductive Call
  | replace (fields : BackupFields) (generation : ℕ)
  | invalidate
  | select (p : Primary)
  deriving DecidableEq, Repr

/-- A call, with its readings of the monotonic clock and, after it, of the wall clock. -/
structure Event where
  call : Call
  now : ℚ
  wall : ℚ
  deriving DecidableEq, Repr

/-- The state after a call. -/
def next (b : GridBackup) (e : Event) : GridBackup :=
  match e.call with
  | .replace fields generation => replace fields generation e.now e.wall b
  | .invalidate => invalidate b
  | .select p => (select p e.now e.wall b).2

/-- `__init__`. -/
def init (service : String) (maxAge recoverySeconds : ℚ) (enabled : Bool) : GridBackup where
  service := service
  maxAge := maxAge
  recoverySeconds := recoverySeconds
  enabled := enabled

/-- The clocks of a run: neither goes back, and the wall clock is ahead of the monotonic one by a
constant. -/
structure Clocked (offset : ℚ) (es : List Event) : Prop where
  start : ∀ e ∈ es, 0 ≤ e.now
  wall : ∀ e ∈ es, e.now + offset ≤ e.wall
  ordered : es.Pairwise fun e e' => e.wall - offset ≤ e'.now

variable {b : GridBackup} {e : Event} {p : Primary} {now wall offset : ℚ} {es : List Event}

theorem Clocked.prefix {es' : List Event} (h : Clocked offset (es ++ es')) : Clocked offset es :=
  ⟨fun e he => h.start e (by simp [he]), fun e he => h.wall e (by simp [he]),
    (List.pairwise_append.mp h.ordered).1⟩

/-- An earlier call has read the monotonic clock before. -/
theorem Clocked.le {rest : List Event} {e e' : Event} (h : Clocked offset (es ++ e' :: rest))
    (he : e ∈ es) : e.now ≤ e'.now := by
  have hwall := h.wall e (by simp [he])
  have hnext := (List.pairwise_append.mp h.ordered).2.2 e he e' (by simp)
  linarith

/-! ### What one call does -/

theorem selectState_usingBackup : (selectState p now wall b).usingBackup =
    selectBackup p.valid (ready now b) now (notePrimary p.valid now b) := by
  unfold selectState
  split_ifs with h
  · rfl
  · exact (not_not.mp h).symm

@[simp] theorem selectState_primarySince : (selectState p now wall b).primarySince =
    if p.valid then b.primarySince.or (some now) else none := by
  unfold selectState
  split
  · rfl
  · rfl

/-- A selection leaves the read. -/
theorem selectState_frame (p : Primary) (now wall : ℚ) (b : GridBackup) :
    (selectState p now wall b).fields = b.fields ∧
    (selectState p now wall b).deadline = b.deadline ∧
    (selectState p now wall b).readTime = b.readTime ∧
    (selectState p now wall b).generation = b.generation := by
  unfold selectState
  split_ifs <;> exact ⟨rfl, rfl, rfl, rfl⟩

/-- The status says whether the backup is in use. -/
theorem select_backup : (select p now wall b).1.backup = (selectState p now wall b).usingBackup := by
  simp only [select, selectStatus]
  split_ifs with h
  · exact h.symm
  · exact (Bool.not_eq_true _ ▸ h).symm

/-- What is configured. -/
def settings (b : GridBackup) : ℚ × ℚ × Bool := (b.maxAge, b.recoverySeconds, b.enabled)

theorem next_settings (b : GridBackup) (e : Event) : settings (next b e) = settings b := by
  obtain ⟨call, now, wall⟩ := e
  cases call with
  | replace fields generation =>
    simp only [next, replace]
    split_ifs <;> rfl
  | invalidate => rfl
  | select p =>
    simp only [next, select, selectState]
    split_ifs <;> rfl

theorem exec_settings (b : GridBackup) (es : List Event) : settings (exec next b es) = settings b :=
  exec_invariant (P := fun b' => settings b' = settings b) rfl
    fun x _ hx => (next_settings x.before x.input).trans hx

/-! ### The read -/

/-- A read that is accepted. -/
def Accepts (fields : BackupFields) (x : Taken GridBackup Event) : Prop :=
  x.input.call = .replace fields x.before.generation

/-- No read is accepted and nothing is invalidated. -/
def KeepsRead (x : Taken GridBackup Event) : Prop :=
  x.input.call ≠ .invalidate ∧ ∀ fields, ¬ Accepts fields x

/-- What a call does to the read. -/
theorem next_read (b : GridBackup) (e : Event) :
    (∃ fields, Accepts fields ⟨b, e⟩ ∧ (next b e).fields = fields ∧ (next b e).readTime = e.now ∧
      (next b e).deadline = readDeadline fields b.maxAge e.now e.wall) ∨
    (e.call = .invalidate ∧ (next b e).fields = {} ∧ (next b e).deadline = 0) ∨
    (KeepsRead ⟨b, e⟩ ∧ (next b e).fields = b.fields ∧ (next b e).readTime = b.readTime ∧
      (next b e).deadline = b.deadline) := by
  obtain ⟨call, now, wall⟩ := e
  cases call with
  | replace fields generation =>
    by_cases h : generation = b.generation
    · subst h
      have hr : next b ⟨.replace fields b.generation, now, wall⟩ = _ := if_neg (not_not.mpr rfl)
      exact Or.inl ⟨fields, rfl, by rw [hr], by rw [hr], by rw [hr]⟩
    · have hr : next b ⟨.replace fields generation, now, wall⟩ = b := if_pos h
      refine Or.inr (Or.inr ⟨⟨nofun, fun fields' hacc => h ?_⟩, by rw [hr], by rw [hr], by rw [hr]⟩)
      exact (Call.replace.inj hacc).2
  | invalidate => exact Or.inr (Or.inl ⟨rfl, rfl, rfl⟩)
  | select p =>
    obtain ⟨hf, hd, hr, -⟩ := selectState_frame p now wall b
    exact Or.inr (Or.inr ⟨⟨nofun, fun fields => nofun⟩, hf, hr, hd⟩)

/-- The read that is held was accepted, and nothing touched it since. -/
theorem read_since (b : GridBackup) (hb : b.fields = {}) (es : List Event) :
    (exec next b es).fields = {} ∨
    Since KeepsRead (fun x => Accepts (exec next b es).fields x ∧
      x.input.now = (exec next b es).readTime) (trace next b es) := by
  induction es using List.reverseRecOn with
  | nil => exact Or.inl hb
  | append_singleton es e ih =>
    rw [exec_snoc, trace_snoc, since_snoc]
    rcases next_read (exec next b es) e with ⟨fields, hacc, hf, hr, -⟩ | ⟨-, hf, -⟩ | ⟨hkeep, hf, hr, -⟩
    · exact Or.inr (Or.inl ⟨hf ▸ hacc, hr.symm⟩)
    · exact Or.inl hf
    · rw [hf, hr]
      exact ih.imp id fun h => Or.inr ⟨hkeep, h⟩

/-- A deadline is not later than the instant at which the measurement is `max_age` old. -/
def Dated (offset : ℚ) (b : GridBackup) : Prop :=
  b.deadline = 0 ∨ ∃ w, b.fields.lastUpdate = some w ∧ b.deadline ≤ w + b.maxAge - offset

theorem dated_readDeadline {fields : BackupFields} {maxAge : ℚ} (h : now + offset ≤ wall) :
    readDeadline fields maxAge now wall = 0 ∨
      ∃ w, fields.lastUpdate = some w ∧ readDeadline fields maxAge now wall ≤ w + maxAge - offset := by
  unfold readDeadline measurementAge
  cases hw : fields.lastUpdate with
  | none => exact Or.inl rfl
  | some w =>
    simp only [Option.map_some]
    split_ifs with hage
    · refine Or.inr ⟨w, rfl, ?_⟩
      have hmax : wall - w ≤ max 0 (wall - w) := le_max_right _ _
      linarith
    · exact Or.inl rfl

theorem dated_next (h : Dated offset b) (hwall : e.now + offset ≤ e.wall) : Dated offset (next b e) := by
  have hage : (next b e).maxAge = b.maxAge := congrArg Prod.fst (next_settings b e)
  unfold Dated
  rw [hage]
  rcases next_read b e with ⟨fields, -, hf, -, hd⟩ | ⟨-, -, hd⟩ | ⟨-, hf, -, hd⟩
  · rw [hf, hd]
    exact dated_readDeadline hwall
  · exact Or.inl hd
  · rw [hf, hd]
    exact h

/-- **A backup that is ready was read lately, and measured lately.** -/
theorem ready_of_exec {b : GridBackup} (hb : b.fields = {}) (hd : b.deadline = 0)
    (hc : Clocked offset es) (hnow : 0 ≤ now) (h : ready now (exec next b es) = true) :
    ∃ fields w, fields.lastUpdate = some w ∧ now + offset - w < b.maxAge ∧
      Since KeepsRead (fun x => Accepts fields x ∧ now - x.input.now ≤ 3) (trace next b es) := by
  obtain ⟨hconn, -, -, hdeadline, hread⟩ : (exec next b es).fields.connected = some 1 ∧
      (validInstance (exec next b es).fields).isSome ∧ (exec next b es).fields.power.isSome ∧
      now < (exec next b es).deadline ∧ now - (exec next b es).readTime ≤ 3 := of_decide_eq_true h
  have hdated : Dated offset (exec next b es) := by
    refine exec_invariant (P := Dated offset) (Or.inl hd) fun x hx h => dated_next h ?_
    obtain ⟨a, rest, hab, -⟩ := (mem_trace next).mp hx
    exact hc.wall x.input (by rw [hab]; simp)
  have hage : (exec next b es).maxAge = b.maxAge := congrArg Prod.fst (exec_settings b es)
  rcases hdated with hzero | ⟨w, hw, hle⟩
  · rw [hzero] at hdeadline
    exact absurd hnow (not_le.mpr hdeadline)
  · refine ⟨(exec next b es).fields, w, hw, by linarith, ?_⟩
    rcases read_since b hb es with hempty | hsince
    · rw [hempty] at hconn
      cases hconn
    · exact hsince.mono (fun _ _ h => h) fun x _ hx => ⟨hx.1, by rw [hx.2]; exact hread⟩

/-! ### The hysteresis -/

/-- A selection that saw the primary in that state. -/
def Saw (valid : Bool) (x : Taken GridBackup Event) : Prop :=
  ∃ p, x.input.call = .select p ∧ p.valid = valid

/-- The backup is in use after the call. -/
def Uses (x : Taken GridBackup Event) : Prop := (next x.before x.input).usingBackup = true

/-- The call is no selection that saw the primary invalid. -/
def SawNothingInvalid (x : Taken GridBackup Event) : Prop := ¬ Saw false x

/-- What a call does to the hysteresis. -/
theorem next_hysteresis (b : GridBackup) (e : Event) :
    (∃ p, e.call = .select p) ∨
    ((∀ valid, ¬ Saw valid ⟨b, e⟩) ∧ (next b e).primarySince = b.primarySince ∧
      (next b e).usingBackup = b.usingBackup) := by
  obtain ⟨call, now, wall⟩ := e
  cases call with
  | replace fields generation =>
    refine Or.inr ⟨fun valid => nofun, ?_⟩
    simp only [next, replace]
    split_ifs <;> exact ⟨rfl, rfl⟩
  | invalidate => exact Or.inr ⟨fun valid => nofun, rfl, rfl⟩
  | select p => exact Or.inl ⟨p, rfl⟩

/-- **The timer** is the first of the selections that saw the primary valid ever since. -/
theorem timer_since {b : GridBackup} (hb : b.primarySince = none) (es : List Event) :
    ∀ w, (exec next b es).primarySince = some w →
      Since SawNothingInvalid (fun x => Saw true x ∧ x.input.now = w) (trace next b es) := by
  induction es using List.reverseRecOn with
  | nil =>
    intro w hw
    rw [exec_nil, hb] at hw
    cases hw
  | append_singleton es e ih =>
    intro w hw
    rw [exec_snoc] at hw
    rw [trace_snoc, since_snoc]
    rcases next_hysteresis (exec next b es) e with ⟨p, hp⟩ | ⟨hno, hsame, -⟩
    · have hsince : (next (exec next b es) e).primarySince =
          if p.valid then (exec next b es).primarySince.or (some e.now) else none := by
        simp only [next, hp, select, selectState_primarySince]
      rw [hsince] at hw
      split_ifs at hw with hv
      cases hold : (exec next b es).primarySince with
      | none =>
        rw [hold] at hw
        exact Or.inl ⟨⟨p, hp, hv⟩, Option.some.inj hw⟩
      | some w' =>
        rw [hold] at hw
        obtain rfl : w' = w := Option.some.inj hw
        refine Or.inr ⟨?_, ih w' hold⟩
        rintro ⟨p', hp', hv'⟩
        obtain rfl : p = p' := Call.select.inj (hp.symm.trans hp')
        rw [hv] at hv'
        cases hv'
    · rw [hsame] at hw
      exact Or.inr ⟨hno false, ih w hw⟩

/-- A selection after the backup came into use, which saw the primary valid and keeps the backup. -/
def KeepsUsing (since : Option ℚ) (x : Taken GridBackup Event) : Prop :=
  ∀ valid, Saw valid x → valid = true ∧ Uses x ∧ ∃ w, since = some w ∧ w ≤ x.input.now

/-- **The backup in use** came into use when the primary was invalid, and the timer runs since. -/
theorem inUse_since {b : GridBackup} (hb : b.primarySince = none) (hu : b.usingBackup = false)
    (hc : Clocked offset es) : (exec next b es).usingBackup = true →
      Since (KeepsUsing (exec next b es).primarySince) (fun x => Saw false x ∧ Uses x)
        (trace next b es) := by
  induction es using List.reverseRecOn with
  | nil =>
    intro h
    rw [exec_nil, hu] at h
    cases h
  | append_singleton es e ih =>
    intro h
    have hold := ih hc.prefix
    have htimer := timer_since hb es
    rw [exec_snoc] at h ⊢
    rw [trace_snoc, since_snoc]
    rcases next_hysteresis (exec next b es) e with ⟨p, hp⟩ | ⟨hno, hsame, hsame'⟩
    · have hsince : (next (exec next b es) e).primarySince =
          if p.valid then (exec next b es).primarySince.or (some e.now) else none := by
        simp only [next, hp, select, selectState_primarySince]
      have huse : (next (exec next b es) e).usingBackup = selectBackup p.valid
          (ready e.now (exec next b es)) e.now (notePrimary p.valid e.now (exec next b es)) := by
        simp only [next, hp, select, selectState_usingBackup]
      cases hv : p.valid with
      | false => exact Or.inl ⟨⟨p, hp, hv⟩, h⟩
      | true =>
        have husing : (exec next b es).usingBackup = true := by
          rw [huse, hv] at h
          simp only [selectBackup, Bool.and_eq_true, Bool.or_eq_true, Bool.not_true] at h
          exact (h.2.resolve_left nofun).1
        rw [hsince, if_pos hv]
        have hstart : ∃ w, (exec next b es).primarySince.or (some e.now) = some w ∧ w ≤ e.now ∧
            ∀ w', (exec next b es).primarySince = some w' → w' = w := by
          cases hw : (exec next b es).primarySince with
          | none => exact ⟨e.now, rfl, le_rfl, nofun⟩
          | some w =>
            obtain ⟨a, x, rest, htr, ⟨-, hx⟩, -⟩ := htimer w hw
            obtain ⟨a', rest', hes, -⟩ := (mem_trace next).mp (htr ▸ (by simp : x ∈ a ++ x :: rest))
            refine ⟨w, rfl, ?_, fun w' hw' => (Option.some.inj hw').symm⟩
            rw [← hx]
            exact hc.le (by rw [hes]; simp)
        obtain ⟨w, hw, hle, hold_w⟩ := hstart
        refine Or.inr ⟨fun valid hsaw => ?_, (hold husing).mono (fun y _ hy valid hsaw => ?_)
          fun _ _ h => h⟩
        · obtain ⟨p', hp', rfl⟩ := hsaw
          obtain rfl : p = p' := Call.select.inj (hp.symm.trans hp')
          exact ⟨hv, h, w, hw, hle⟩
        · obtain ⟨hvalid, huses, w', hw', hle'⟩ := hy valid hsaw
          exact ⟨hvalid, huses, w, hw, hold_w w' hw' ▸ hle'⟩
    · rw [hsame'] at h
      rw [hsame]
      exact Or.inr ⟨fun valid hsaw => absurd hsaw (hno valid), hold h⟩

/-! ### The contract -/

@[simp] theorem select_available : (select p now wall b).1.backupStatus.available = ready now b := by
  have h : ready now (selectState p now wall b) = ready now b := by
    obtain ⟨hf, hd, hr, -⟩ := selectState_frame p now wall b
    simp only [ready, hf, hd, hr]
  simp only [select, selectStatus]
  split_ifs <;> exact h

/-- The same measurement, read again and again, is not ready once it is `max_age` old. -/
theorem not_ready_of_reread {b : GridBackup} (hb : b.fields = {}) (hd : b.deadline = 0)
    (hc : Clocked offset es) (hnow : 0 ≤ now) {early late : List Event} (hes : es = early ++ late)
    {w : ℚ} (hread : ∃ x ∈ trace next (exec next b early) late, ∃ fields, Accepts fields x)
    (hsame : ∀ x ∈ trace next (exec next b early) late, ∀ fields, Accepts fields x →
      fields.lastUpdate = some w) (hold : w + b.maxAge ≤ now + offset) :
    ready now (exec next b es) = false := by
  by_contra hno
  obtain ⟨fields, w', hw', hage, hsince⟩ :=
    ready_of_exec hb hd hc hnow (Bool.not_eq_false _ ▸ hno)
  rw [hes, trace_append] at hsince
  obtain ⟨y, hy, fields', hacc⟩ := hread
  obtain ⟨a, x, rest, htr, ⟨hx, -⟩, -⟩ := hsince.of_append ⟨y, hy, fun hkeep => hkeep.2 fields' hacc⟩
  have hw := hsame x (by rw [htr]; simp) fields hx
  obtain rfl : w' = w := Option.some.inj (hw'.symm.trans hw)
  linarith

/-- Under a valid primary the backup stays in use until the timer has run. -/
theorem selectBackup_of_valid (b : GridBackup) (r : Bool) (now : ℚ) :
    selectBackup true r now (notePrimary true now b) = (b.enabled && r &&
      (b.usingBackup && decide (now - b.primarySince.getD now < b.recoverySeconds))) := by
  unfold selectBackup notePrimary
  cases b.primarySince with
  | none => simp
  | some w => simp

/-- The timer after a selection that saw the primary valid. -/
theorem next_timer (hp : e.call = .select p) (hv : p.valid = true) :
    (next b e).primarySince = some (b.primarySince.getD e.now) := by
  simp only [next, hp, select, selectState_primarySince, hv, if_true]
  cases b.primarySince with
  | none => rfl
  | some w => rfl

theorem next_using (hp : e.call = .select p) : (next b e).usingBackup =
    selectBackup p.valid (ready e.now b) e.now (notePrimary p.valid e.now b) := by
  simp only [next, hp, select, selectState_usingBackup]

/-- A backup in use is enabled. -/
theorem enabled_of_using (hu : b.usingBackup = false) (h : (exec next b es).usingBackup = true) :
    (exec next b es).enabled = true := by
  revert h
  refine exec_invariant (P := fun b : GridBackup => b.usingBackup = true → b.enabled = true)
    (fun h => absurd h (by simp [hu])) fun x _ hx => ?_
  have hkeep : (next x.before x.input).enabled = x.before.enabled :=
    congrArg (·.2.2) (next_settings x.before x.input)
  rw [hkeep]
  rcases next_hysteresis x.before x.input with ⟨q, hq⟩ | ⟨-, -, hsame⟩
  · intro h
    rw [next_using hq] at h
    simp only [selectBackup, Bool.and_eq_true] at h
    exact h.1.1
  · rw [hsame]
    exact hx

/-- A selection of the backup: the primary is invalid, or valid for less than the recovery time. -/
theorem chosen {b : GridBackup} (hs : b.primarySince = none) (hu : b.usingBackup = false)
    (hc : Clocked offset (es ++ [e])) (hp : e.call = .select p)
    (h : (next (exec next b es) e).usingBackup = true) :
    (exec next b es).enabled = true ∧ ready e.now (exec next b es) = true ∧
      (p.valid = false ∨ Since
        (fun y => ∀ valid, Saw valid y →
          valid = true ∧ Uses y ∧ e.now - y.input.now < (exec next b es).recoverySeconds)
        (fun x => Saw false x ∧ Uses x) (trace next b (es ++ [e]))) := by
  have hin := inUse_since hs hu hc (by rw [exec_snoc]; exact h)
  rw [next_using hp] at h
  cases hv : p.valid with
  | false =>
    rw [hv] at h
    simp only [selectBackup, Bool.and_eq_true] at h
    exact ⟨h.1.1, h.1.2, Or.inl rfl⟩
  | true =>
    rw [hv, selectBackup_of_valid] at h
    simp only [Bool.and_eq_true, decide_eq_true_eq] at h
    obtain ⟨⟨henabled, hready⟩, -, hshort⟩ := h
    refine ⟨henabled, hready, Or.inr ?_⟩
    refine hin.mono (fun y _ hy valid hsaw => ?_) fun _ _ hx => hx
    obtain ⟨hvalid, huses, w, hw, hle⟩ := hy valid hsaw
    rw [exec_snoc, next_timer hp hv] at hw
    obtain rfl := Option.some.inj hw
    exact ⟨hvalid, huses, by linarith⟩

/-- A switch back from a backup that is ready: the primary was seen valid for the recovery time. -/
theorem recovered {b : GridBackup} (hs : b.primarySince = none) (hu : b.usingBackup = false)
    (hp : e.call = .select p) (hv : p.valid = true) (husing : (exec next b es).usingBackup = true)
    (hready : ready e.now (exec next b es) = true)
    (h : (next (exec next b es) e).usingBackup = false) :
    Since SawNothingInvalid
      (fun x => Saw true x ∧ (exec next b es).recoverySeconds ≤ e.now - x.input.now)
      (trace next b (es ++ [e])) := by
  have htimer := timer_since hs (es ++ [e]) ((exec next b es).primarySince.getD e.now)
    (by rw [exec_snoc, next_timer hp hv])
  rw [next_using hp, hv, selectBackup_of_valid, enabled_of_using hu husing, hready, husing] at h
  have hlong : (exec next b es).recoverySeconds ≤
      e.now - (exec next b es).primarySince.getD e.now := by simpa using h
  exact htimer.mono (fun _ _ h => h) fun x _ hx => ⟨hx.1, by rw [hx.2]; exact hlong⟩

/-- **Backup selection and freshness.** -/
theorem backup_selection (service : String) (maxAge recoverySeconds : ℚ) (enabled : Bool) (offset : ℚ)
    (es : List Event) (hc : Clocked offset es) :
    ∀ past e rest, es = past ++ e :: rest →
    ∀ b, b = exec next (init service maxAge recoverySeconds enabled) past →
    (∀ p, e.call = .select p → ∀ status, status = (select p e.now e.wall b).1 →
      (status.backup = true → enabled = true ∧ status.backupStatus.available = true ∧
        (p.valid = false ∨ Since
          (fun y => ∀ valid, Saw valid y →
            valid = true ∧ Uses y ∧ e.now - y.input.now < recoverySeconds)
          (fun x => Saw false x ∧ Uses x)
          (trace next (init service maxAge recoverySeconds enabled) (past ++ [e])))) ∧
      (status.backupStatus.available = true → ∃ fields w,
        fields.lastUpdate = some w ∧ e.now + offset - w < maxAge ∧
        Since KeepsRead (fun x => Accepts fields x ∧ e.now - x.input.now ≤ 3)
          (trace next (init service maxAge recoverySeconds enabled) past)) ∧
      (∀ early late w, past = early ++ late →
        ∀ reads, reads = trace next (exec next (init service maxAge recoverySeconds enabled) early)
          late →
        (∃ x ∈ reads, ∃ fields, Accepts fields x) →
        (∀ x ∈ reads, ∀ fields, Accepts fields x → fields.lastUpdate = some w) →
        w + maxAge ≤ e.now + offset → status.backupStatus.available = false) ∧
      (b.usingBackup = true → status.backupStatus.available = true → p.valid = true →
        status.backup = false →
        Since SawNothingInvalid (fun x => Saw true x ∧ recoverySeconds ≤ e.now - x.input.now)
          (trace next (init service maxAge recoverySeconds enabled) (past ++ [e])))) ∧
    ∀ fields generation, e.call = .replace fields generation → generation < b.generation →
      next b e = b := by
  rintro past e rest rfl b rfl
  have hpast : Clocked offset past := hc.prefix
  have hpast' : Clocked offset (past ++ [e]) := by
    rw [← List.singleton_append, ← List.append_assoc] at hc
    exact hc.prefix
  have hnow : 0 ≤ e.now := hc.start e (by simp)
  obtain ⟨-, hrec, hen⟩ : (exec next (init service maxAge recoverySeconds enabled) past).maxAge =
    maxAge ∧
      (exec next (init service maxAge recoverySeconds enabled) past).recoverySeconds =
        recoverySeconds ∧
      (exec next (init service maxAge recoverySeconds enabled) past).enabled = enabled := by
    simpa [settings, init] using exec_settings (init service maxAge recoverySeconds enabled) past
  refine ⟨fun p hp status hstatus => ?_, fun fields generation hcall hlt => ?_⟩
  · have hbackup : status.backup =
        (next (exec next (init service maxAge recoverySeconds enabled) past) e).usingBackup := by
      rw [hstatus, select_backup]
      simp only [next, hp, select]
    rw [hbackup, hstatus, select_available]
    refine ⟨fun h => ?_, ready_of_exec rfl rfl hpast hnow, ?_, fun husing hready hv h => ?_⟩
    · obtain ⟨henabled, hready, hwhy⟩ := chosen rfl rfl hpast' hp h
      rw [hrec] at hwhy
      exact ⟨hen ▸ henabled, hready, hwhy⟩
    · rintro early late w hsplit reads rfl hread hsame hold
      exact not_ready_of_reread rfl rfl hpast hnow hsplit hread hsame hold
    · have hrecovered := recovered rfl rfl hp hv husing hready h
      rwa [hrec] at hrecovered
  · simp only [next, hcall, replace]
    exact if_pos hlt.ne

/-- A reading of the submeter. -/
def acload (lastUpdate : ℚ) : BackupFields where
  connected := some 1
  role := some "acload"
  power := some 420
  lastUpdate := some lastUpdate
  deviceInstance := some 40

/-- A primary meter that is lost, or back. -/
def primary (valid : Bool) : Primary where
  valid := valid
  invalidReason := none
  source := some "com.victronenergy.grid.meter"
  sourceInstance := some 30
  gt := 0

/-- The primary is lost and comes back; the backup is read all the while. -/
def outage : List Event :=
  [⟨.replace (acload 1000) 0, 1, 1001⟩, ⟨.select (primary false), 2, 1002⟩,
    ⟨.select (primary true), 3, 1003⟩, ⟨.replace (acload 1050) 0, 63, 1063⟩,
    ⟨.select (primary true), 64, 1064⟩]

/-- The backup is left for the primary after a minute. -/
theorem backup_selection_outage :
    (exec next (init "com.victronenergy.acload.ha" 120 60 true) (outage.take 4)).usingBackup = true ∧
    Since SawNothingInvalid (fun x => Saw true x ∧ 60 ≤ 64 - x.input.now)
      (trace next (init "com.victronenergy.acload.ha" 120 60 true) outage) := by
  have hc : Clocked 1000 outage := by
    refine ⟨?_, ?_, ?_⟩
    · decide +kernel
    · decide +kernel
    · decide +kernel
  have hu : (exec next (init "com.victronenergy.acload.ha" 120 60 true)
      (outage.take 4)).usingBackup = true := by decide +kernel
  obtain ⟨hselect, -⟩ := backup_selection "com.victronenergy.acload.ha" 120 60 true 1000 outage hc
    (outage.take 4) ⟨.select (primary true), 64, 1064⟩ [] rfl _ rfl
  obtain ⟨-, -, -, hrecovered⟩ := hselect (primary true) rfl _ rfl
  exact ⟨hu, hrecovered hu (by decide +kernel) rfl (by decide +kernel)⟩

end InverterControl.Backup.Selection
