import InverterControl.Trim.Steps

/-!
# The trim's account

A reader who sees only the calls can keep the account of the trim: the baseline setpoint, and the
deltas committed since.  `Ledger` is that account; the trim's own total and accepted setpoint agree
with it after every run, and a decision object is committed at most once.
-/

namespace InverterControl.Trim.Accounting

open InverterControl.Lib.Runs InverterControl.Python InverterControl.Trim.Model
open InverterControl.Trim.Steps

/-! ### The ledger -/

/-- The baseline setpoint, and the trims committed since. -/
structure Ledger where
  baseline : Option ℤ
  deltas : List ℤ

/-- `propose` sees another source or submeter, or a previous setpoint that is not the accepted one. -/
def startsBaseline (s : SubmeterTrim) (a : Proposal) : Option ℤ :=
  match examine a s with
  | .passed v _ => if restarts v s then some v.previous else none
  | .answered _ => none

/-- The decision that a successful commit records. -/
def committed (s : SubmeterTrim) : Call → Option Issued
  | .commit h now wallTime => (commits h now wallTime s).map (·.1)
  | _ => none

/-- A committed decision: a trim is added, a base command starts a baseline, a hold the first one. -/
def Ledger.add (l : Ledger) (d : TrimDecision) : Ledger :=
  match d.kind with
  | .trim => { l with deltas := l.deltas ++ [d.delta] }
  | .base => ⟨some d.setpoint, []⟩
  | .hold => if l.baseline = none then ⟨some d.setpoint, []⟩ else l

/-- One call in the ledger. -/
def Ledger.record (l : Ledger) (x : Taken SubmeterTrim Call) : Ledger :=
  match x.input with
  | .propose a =>
    match startsBaseline x.before a with
    | some previous => ⟨some previous, []⟩
    | none => l
  | c =>
    match committed x.before c with
    | some i => l.add i.decision
    | none => l

/-- The ledger of a run. -/
def ledger (past : List (Taken SubmeterTrim Call)) : Ledger := past.foldl Ledger.record ⟨none, []⟩

theorem ledger_snoc (past : List (Taken SubmeterTrim Call)) (x : Taken SubmeterTrim Call) :
    ledger (past ++ [x]) = (ledger past).record x := by
  simp [ledger, List.foldl_append]

/-- The objects committed in a run. -/
def committedIds (past : List (Taken SubmeterTrim Call)) : List ℕ :=
  past.filterMap fun x => (committed x.before x.input).map (·.id)

/-- A call of `propose` that returns `i`. -/
def returns (i : Issued) (x : Taken SubmeterTrim Call) : Prop :=
  ∃ a, x.input = .propose a ∧ (propose a x.before).1 = some i

/-- A call that returns no decision object. -/
def returnsNothing (x : Taken SubmeterTrim Call) : Prop := ∀ i, ¬ returns i x

variable {s : SubmeterTrim}

/-! ### One call -/

/-- A proposal starts a baseline, or leaves the account alone. -/
theorem propose_account (hs : Core s) (a : Proposal) :
    (∃ previous, startsBaseline s a = some previous ∧ (propose a s).2.totalTrim = 0 ∧
      (propose a s).2.acceptedSetpoint = some previous) ∨
    (startsBaseline s a = none ∧ (propose a s).2.totalTrim = s.totalTrim ∧
      (propose a s).2.acceptedSetpoint = s.acceptedSetpoint) := by
  rcases propose_cases hs a with ⟨hx, h⟩ | ⟨_, -, ⟨r, hx⟩, h⟩ |
    ⟨v, s', -, hx, hv, -, h⟩
  · exact Or.inr ⟨by simp [startsBaseline, hx], by rw [h], by rw [h]⟩
  · exact Or.inr ⟨by simp [startsBaseline, hx], h.total, h.accepted⟩
  · have hres : restarts v s' ↔ restarts v s := by
      unfold restarts
      rw [hv.stage.context, hv.stage.accepted]
    rw [h.total, h.accepted]
    by_cases hr : restarts v s
    · refine Or.inl ⟨v.previous, by simp [startsBaseline, hx, hr], ?_⟩
      rw [updateBaseline, if_pos (hres.mpr hr)]
      exact ⟨rfl, rfl⟩
    · refine Or.inr ⟨by simp [startsBaseline, hx, hr], ?_⟩
      rw [updateBaseline, if_neg (fun h' => hr (hres.mp h')), ← hv.stage.total,
        ← hv.stage.accepted]
      split_ifs <;> exact ⟨rfl, rfl⟩

/-- The objects a call may leave issued or pending: those it found, or a new one. -/
theorem held_of_next (hs : Sound s) (c : Call) {i : Issued}
    (hi : (next s c).issued = some i ∨ (next s c).pending = some i) :
    s.issued = some i ∨ s.pending = some i ∨
      (i.id = s.nextId ∧ (next s c).nextId = s.nextId + 1) := by
  cases c with
  | propose a =>
    simp only [next] at hi ⊢
    rcases propose_cases hs.toCore a with ⟨-, h⟩ | ⟨_, -, -, h⟩ |
      ⟨v, s', -, -, hv, -, h⟩
    · rw [h] at hi
      rcases hi with hi | hi
      · exact Or.inl hi
      · exact Or.inr (Or.inl hi)
    · exact Or.inr (h.held i hi)
    · right
      obtain ⟨hpend, hnext, -⟩ := updateBaseline_subset v s'
      rw [hv.stage.nextId] at hnext
      rcases h.held i hi with hp | ⟨hid, hn⟩
      · exact Or.inl (hv.stage.pending i (hpend i hp))
      · exact Or.inr ⟨hid.trans hnext, by rw [hn, hnext]⟩
  | commit h now wallTime =>
    simp only [next] at hi
    cases hc : commits h now wallTime s with
    | none =>
      rw [(commit_of_not_commits hc).2] at hi
      rcases hi with hi | hi
      · exact Or.inl hi
      · exact Or.inr (Or.inl hi)
    | some x =>
      obtain ⟨j, clock, wall⟩ := x
      rw [commit_of_commits hc] at hi
      rcases hi with hi | hi <;> cases hi
  | reset reason => rcases hi with hi | hi <;> cases hi

theorem nextId_le_next (hs : Sound s) (c : Call) : s.nextId ≤ (next s c).nextId := by
  cases c with
  | propose a =>
    simp only [next]
    rcases propose_cases hs.toCore a with ⟨-, h⟩ | ⟨_, -, -, h⟩ |
      ⟨v, s', -, -, hv, -, h⟩
    · rw [h]
    · exact h.nextId
    · obtain ⟨-, hnext, -⟩ := updateBaseline_subset v s'
      exact (hnext.trans hv.stage.nextId) ▸ h.nextId
  | commit h now wallTime =>
    simp only [next]
    cases hc : commits h now wallTime s with
    | none => rw [(commit_of_not_commits hc).2]
    | some x =>
      obtain ⟨i, clock, wall⟩ := x
      rcases commit_cases hs hc with ⟨-, -, h'⟩ | ⟨-, -, h'⟩ | ⟨-, -, h'⟩ | ⟨-, -, h'⟩ <;> rw [h'] <;>
        exact Nat.le_refl _
  | reset reason => exact Nat.le_refl _

/-- The issued object of a call is the one it returned, unless it returned none. -/
theorem issued_of_next (hs : Sound s) (c : Call) {i : Issued} (hi : (next s c).issued = some i) :
    returns i ⟨s, c⟩ ∨ (returnsNothing ⟨s, c⟩ ∧ s.issued = some i) := by
  cases c with
  | propose a =>
    simp only [next] at hi
    have hanswer : ∀ {new p s₀}, Answer new p s₀ (propose a s) →
        returns i ⟨s, .propose a⟩ := by
      intro new p s₀ h
      obtain ⟨j, hj, hj', -⟩ := h.issued
      rw [hi] at hj'
      obtain rfl := Option.some.inj hj'
      exact ⟨a, rfl, hj⟩
    rcases propose_cases hs.toCore a with ⟨-, h⟩ | ⟨_, -, -, h⟩ |
      ⟨v, s', -, -, -, -, h⟩
    · rw [h] at hi
      refine Or.inr ⟨?_, hi⟩
      rintro j ⟨a', ha', hj⟩
      obtain rfl : a = a' := by simpa using ha'
      rw [h] at hj
      cases hj
    · exact Or.inl (hanswer h)
    · exact Or.inl (hanswer h)
  | commit h now wallTime =>
    simp only [next] at hi
    refine Or.inr ⟨?_, ?_⟩
    · rintro j ⟨a', ha', -⟩
      cases ha'
    · cases hc : commits h now wallTime s with
      | none => rwa [(commit_of_not_commits hc).2] at hi
      | some x =>
        obtain ⟨j, clock, wall⟩ := x
        rw [commit_of_commits hc] at hi
        cases hi
  | reset reason => cases hi

/-! ### Runs -/

/-- The trim agrees with the ledger; what is issued was returned last; and nothing that is issued or
pending was ever committed. -/
structure Accounts (past : List (Taken SubmeterTrim Call)) (s : SubmeterTrim) : Prop where
  sound : Sound s
  total : s.totalTrim = (ledger past).deltas.sum
  accepted : s.acceptedSetpoint = (ledger past).baseline.map (· + s.totalTrim)
  returned : ∀ i, s.issued = some i → Since returnsNothing (returns i) past
  once : (committedIds past).Nodup
  old : ∀ id ∈ committedIds past, id < s.nextId
  fresh : ∀ i, s.issued = some i ∨ s.pending = some i → i.id ∉ committedIds past

theorem Accounts.init (enabled : Bool) (service : Option String) (deviceInstance : Option ℤ) :
    Accounts [] (init enabled service deviceInstance) :=
  ⟨Sound.init enabled service deviceInstance, rfl, rfl, fun i hi => (by cases hi), List.nodup_nil,
    fun id hid => (by cases hid), fun i hi => (by rcases hi with hi | hi <;> cases hi)⟩

theorem record_propose {l : Ledger} {a : Proposal} :
    l.record ⟨s, .propose a⟩ =
      match startsBaseline s a with
      | some previous => ⟨some previous, []⟩
      | none => l := rfl

theorem record_commit {l : Ledger} {h : Handle} {now wallTime : PyValue} :
    l.record ⟨s, .commit h now wallTime⟩ =
      match committed s (.commit h now wallTime) with
      | some i => l.add i.decision
      | none => l := rfl

/-- A commit that succeeds is entered in the ledger. -/
theorem commit_account (hs : Sound s) {l : Ledger} (htot : s.totalTrim = l.deltas.sum)
    (hacc : s.acceptedSetpoint = l.baseline.map (· + s.totalTrim)) {h : Handle}
    {now wallTime : PyValue} {i : Issued} {clock wall : ℚ}
    (hc : commits h now wallTime s = some (i, clock, wall)) :
    (commit h now wallTime s).2.totalTrim = (l.add i.decision).deltas.sum ∧
      (commit h now wallTime s).2.acceptedSetpoint =
        (l.add i.decision).baseline.map (· + (commit h now wallTime s).2.totalTrim) := by
  have hbase : s.acceptedSetpoint = none ↔ l.baseline = none := by
    rw [hacc]
    cases l.baseline <;> simp
  rcases commit_cases hs hc with ⟨hk, hwin, h'⟩ | ⟨hk, -, h'⟩ | ⟨hk, ha, h'⟩ | ⟨hk, ha, h'⟩
  · rw [h']
    have hprev := hwin.accepted
    rw [hacc] at hprev
    cases hb : l.baseline with
    | none => rw [hb] at hprev; cases hprev
    | some b =>
      rw [hb] at hprev
      have hprev' : b + s.totalTrim = i.decision.previous := Option.some.inj hprev
      have hset := hwin.setpoint
      simp only [Ledger.add, hk, hb, Option.map_some, List.sum_append, List.sum_singleton]
      refine ⟨by rw [htot], ?_⟩
      rw [hset, ← hprev', add_assoc]
  · rw [h']
    simp [Ledger.add, hk]
  · rw [h']
    have h0 := (hs.no_baseline ha).1
    simp [Ledger.add, hk, hbase.mp ha, h0]
  · rw [h']
    have hne : l.baseline ≠ none := fun hb => ha (hbase.mpr hb)
    simp only [Ledger.add, hk, if_neg hne]
    exact ⟨htot, hacc⟩

theorem committedIds_snoc (past : List (Taken SubmeterTrim Call)) (x : Taken SubmeterTrim Call) :
    committedIds (past ++ [x]) =
      committedIds past ++ ((committed x.before x.input).map (·.id)).toList := by
  unfold committedIds
  rw [List.filterMap_append]
  cases h : (committed x.before x.input).map (·.id) <;> simp [h]

theorem committed_issued {c : Call} {i : Issued} (h : committed s c = some i) :
    s.issued = some i ∧ (next s c).issued = none ∧ (next s c).pending = none := by
  cases c with
  | propose a => cases h
  | reset reason => cases h
  | commit hd now wallTime =>
    simp only [committed, Option.map_eq_some_iff] at h
    obtain ⟨⟨j, clock, wall⟩, hc, rfl⟩ := h
    refine ⟨(commits_iff.mp hc).2.1, ?_, ?_⟩ <;> simp only [next] <;> rw [commit_of_commits hc]

variable {past : List (Taken SubmeterTrim Call)}

/-- The ledger follows every call. -/
theorem Accounts.account_next (h : Accounts past s) (c : Call) :
    (next s c).totalTrim = (ledger (past ++ [⟨s, c⟩])).deltas.sum ∧
      (next s c).acceptedSetpoint =
        (ledger (past ++ [⟨s, c⟩])).baseline.map (· + (next s c).totalTrim) := by
  rw [ledger_snoc]
  cases c with
  | propose a =>
    rw [record_propose]
    simp only [next]
    rcases propose_account h.sound.toCore a with ⟨previous, hp, ht, ha⟩ | ⟨hp, ht, ha⟩
    · rw [hp, ht, ha]
      simp
    · rw [hp, ht, ha]
      exact ⟨h.total, h.accepted⟩
  | commit hd now wallTime =>
    rw [record_commit]
    simp only [next, committed]
    cases hc : commits hd now wallTime s with
    | none =>
      rw [(commit_of_not_commits hc).2]
      exact ⟨h.total, h.accepted⟩
    | some x =>
      obtain ⟨i, clock, wall⟩ := x
      exact commit_account h.sound h.total h.accepted hc
  | reset reason => exact ⟨h.total, h.accepted⟩

/-- **Every call keeps the accounts.** -/
theorem Accounts.next (h : Accounts past s) (c : Call) :
    Accounts (past ++ [⟨s, c⟩]) (next s c) := by
  obtain ⟨htot, hacc⟩ := h.account_next c
  refine ⟨h.sound.next c, htot, hacc, fun i hi => ?_, ?_, fun id hid => ?_, fun i hi => ?_⟩
  · rw [since_snoc]
    rcases issued_of_next h.sound c hi with hr | ⟨hq, hi'⟩
    · exact Or.inl hr
    · exact Or.inr ⟨hq, h.returned i hi'⟩
  · rw [committedIds_snoc]
    cases hc : committed s c with
    | none => simpa using h.once
    | some i =>
      refine List.nodup_append.mpr ⟨h.once, by simp, fun id hid id' hid' => ?_⟩
      obtain rfl : id' = i.id := by simpa using hid'
      rintro rfl
      exact h.fresh i (Or.inl (committed_issued hc).1) hid
  · refine lt_of_lt_of_le ?_ (nextId_le_next h.sound c)
    rw [committedIds_snoc] at hid
    rcases List.mem_append.mp hid with hid | hid
    · exact h.old id hid
    · cases hc : committed s c with
      | none => simp [hc] at hid
      | some i =>
        obtain rfl : i.id = id := by simpa [hc, eq_comm] using hid
        exact (h.sound.formed i (committed_issued hc).1).2
  · rw [committedIds_snoc]
    cases hc : committed s c with
    | some j =>
      obtain ⟨-, h1, h2⟩ := committed_issued hc
      rw [h1, h2] at hi
      rcases hi with hi | hi <;> cases hi
    | none =>
      simp only [Option.map_none, Option.toList_none, List.append_nil]
      rcases held_of_next h.sound c hi with hi | hi | ⟨hid, -⟩
      · exact h.fresh i (Or.inl hi)
      · exact h.fresh i (Or.inr hi)
      · intro hmem
        have := h.old i.id hmem
        omega

/-- **Run.** -/
theorem accounts_run (enabled : Bool) (service : Option String) (deviceInstance : Option ℤ)
    (cs : List Call) :
    Accounts (trace next (init enabled service deviceInstance) cs)
      (exec next (init enabled service deviceInstance) cs) := by
  refine history_induction (P := fun is s =>
    Accounts (trace next (Model.init enabled service deviceInstance) is) s) ?_ ?_ cs
  · exact Accounts.init enabled service deviceInstance
  · intro is c h
    rw [trace_snoc]
    exact h.next c

/-- **Trim accounting.**  In every run of the trim: the total is within the budget and is the sum of
the ledger's deltas, the accepted setpoint is its baseline plus the total; a call that is neither the
start of a baseline nor a successful commit changes neither; a commit succeeds for the object that
`propose` returned last, and for no object twice. -/
theorem trim_accounting (enabled : Bool) (service : Option String) (deviceInstance : Option ℤ)
    (cs : List Call) :
    |(exec next (init enabled service deviceInstance) cs).totalTrim| ≤ maxTotal ∧
    (exec next (init enabled service deviceInstance) cs).totalTrim =
      (ledger (trace next (init enabled service deviceInstance) cs)).deltas.sum ∧
    (exec next (init enabled service deviceInstance) cs).acceptedSetpoint =
      (ledger (trace next (init enabled service deviceInstance) cs)).baseline.map
        (· + (exec next (init enabled service deviceInstance) cs).totalTrim) ∧
    (∀ x ∈ trace next (init enabled service deviceInstance) cs,
      (∀ a, x.input = .propose a → startsBaseline x.before a = none) →
      committed x.before x.input = none →
      (next x.before x.input).totalTrim = x.before.totalTrim ∧
        (next x.before x.input).acceptedSetpoint = x.before.acceptedSetpoint) ∧
    (∀ h now wallTime,
      (commit h now wallTime (exec next (init enabled service deviceInstance) cs)).1 = some true →
      ∃ i, h = .decision i.id ∧
        committed (exec next (init enabled service deviceInstance) cs) (.commit h now wallTime) =
          some i ∧
        Since returnsNothing (returns i) (trace next (init enabled service deviceInstance) cs)) ∧
    (committedIds (trace next (init enabled service deviceInstance) cs)).Nodup := by
  have hrun := accounts_run enabled service deviceInstance cs
  refine ⟨hrun.sound.budget, hrun.total, hrun.accepted, fun x hx hp hc => ?_,
    fun h now wallTime hok => ?_, hrun.once⟩
  · have hs : Sound x.before :=
      trace_invariant (Sound.init enabled service deviceInstance)
        (fun y _ hy => hy.next y.input) x hx
    cases hin : x.input with
    | propose a =>
      simp only [next]
      rcases propose_account hs.toCore a with ⟨previous, hp', -, -⟩ | ⟨-, ht, ha⟩
      · rw [hp a hin] at hp'
        cases hp'
      · exact ⟨ht, ha⟩
    | commit h now wallTime =>
      rw [hin] at hc
      simp only [committed, Option.map_eq_none_iff] at hc
      simp only [next]
      rw [(commit_of_not_commits hc).2]
      exact ⟨rfl, rfl⟩
    | reset reason => exact ⟨rfl, rfl⟩
  · cases hc : commits h now wallTime (exec next (init enabled service deviceInstance) cs) with
    | none => exact absurd hok (commit_of_not_commits hc).1
    | some x =>
      obtain ⟨i, clock, wall⟩ := x
      obtain ⟨hh, hi, -⟩ := commits_iff.mp hc
      exact ⟨i, hh, by simp [committed, hc], hrun.returned i hi⟩

end InverterControl.Trim.Accounting
