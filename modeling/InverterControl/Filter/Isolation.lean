import InverterControl.Filter.Model

/-!
# The samples that the filter shows

The value of the filter is the average of samples whose getter call began after the last reset (`Heard`):
the generation is read before the call and compared with the update, so a reset in between discards the
sample.  `Isolated` is the invariant, `value_isolated` states it for every run.
-/

namespace InverterControl.Filter.Isolation

open InverterControl.Lib.Runs InverterControl.Lib.Smoothing InverterControl.Filter.Model

/-- A finite answer of the getter, and the clock after it. -/
structure Sample where
  gt : ℚ
  now : ℚ
  deriving DecidableEq, Repr

/-! ### The average -/

variable {alpha : ℚ → ℚ}

/-- A weight between 0 and 1, for every time that does not run backwards. -/
def Weight (alpha : ℚ → ℚ) : Prop := ∀ dt, 0 ≤ dt → 0 ≤ alpha dt ∧ alpha dt < 1

/-- The value after one more sample, and the time of it. -/
def absorb (alpha : ℚ → ℚ) (s : Option (ℚ × ℚ)) (x : Sample) : Option (ℚ × ℚ) :=
  match s with
  | none => some (x.gt, x.now)
  | some (value, lastT) => some (towards (alpha (min (x.now - lastT) 30)) value x.gt, x.now)

/-- The average of the samples, and the time of the last one. -/
def smooth (alpha : ℚ → ℚ) (xs : List Sample) : Option (ℚ × ℚ) := xs.foldl (absorb alpha) none

theorem smooth_snoc (xs : List Sample) (x : Sample) :
    smooth alpha (xs ++ [x]) = absorb alpha (smooth alpha xs) x := by
  rw [smooth, List.foldl_append]
  rfl

theorem smooth_eq_none {xs : List Sample} : smooth alpha xs = none ↔ xs = [] := by
  constructor
  · intro h
    rcases List.eq_nil_or_concat xs with rfl | ⟨xs, x, rfl⟩
    · rfl
    · rw [List.concat_eq_append, smooth_snoc] at h
      unfold absorb at h
      split at h
      · exact nomatch h
      · exact nomatch h
  · rintro rfl
    rfl

/-- The time of an average is that of its last sample. -/
theorem smooth_time {xs : List Sample} {value lastT : ℚ} (h : smooth alpha xs = some (value, lastT)) :
    ∃ x ∈ xs, x.now = lastT := by
  rcases List.eq_nil_or_concat xs with rfl | ⟨xs, x, rfl⟩
  · exact nomatch h
  · rw [List.concat_eq_append, smooth_snoc] at h
    refine ⟨x, by simp, ?_⟩
    unfold absorb at h
    split at h
    · exact congrArg Prod.snd (Option.some.inj h)
    · exact congrArg Prod.snd (Option.some.inj h)

/-- **The average lies between two of the samples.** -/
theorem smooth_between (hw : Weight alpha) {xs : List Sample}
    (hxs : xs.Pairwise fun x y => x.now ≤ y.now) {value lastT : ℚ}
    (h : smooth alpha xs = some (value, lastT)) :
    Between (xs.map Sample.gt) value := by
  induction xs using List.reverseRecOn generalizing value lastT with
  | nil => exact nomatch h
  | append_singleton xs x ih =>
    obtain ⟨hpast, -, hlast⟩ := List.pairwise_append.mp hxs
    rw [smooth_snoc] at h
    rw [List.map_append, List.map_singleton]
    cases hs : smooth alpha xs with
    | none =>
      rw [hs] at h
      obtain ⟨rfl, -⟩ := Prod.mk.inj (Option.some.inj h)
      obtain rfl := smooth_eq_none.mp hs
      exact Between.singleton x.gt
    | some r =>
      obtain ⟨before, time⟩ := r
      rw [hs] at h
      obtain ⟨rfl, -⟩ := Prod.mk.inj (Option.some.inj h)
      obtain ⟨y, hy, rfl⟩ := smooth_time hs
      have hdt : 0 ≤ min (x.now - y.now) 30 :=
        le_min (sub_nonneg.mpr (hlast y hy x (List.mem_singleton.mpr rfl))) (by norm_num)
      obtain ⟨h0, h1⟩ := hw _ hdt
      exact (ih hpast hs).snoc h0 h1.le x.gt

/-! ### The samples after the last reset -/

/-- A step of a run. -/
abbrev Step := Lib.Runs.Taken GridFilter Event

/-- The getter is called. -/
def Calls (t : Step) : Prop := ∃ g i, t.before.pc = .ticked g ∧ t.input = .thread i

/-- The getter answers with a sample. -/
def Answers (x : Sample) (t : Step) : Prop :=
  ∃ g i, t.before.pc = .reading g ∧ t.input = .thread i ∧ i.answer = .finite x.gt ∧ i.now = x.now

/-- The next step of the thread is a call, whose getter is still running: nothing has reset the
filter. -/
def Running (past : List Step) : Prop := ∃ a t, past = a ++ [t] ∧ Calls t

/-- The call of the getter that gave the sample began after the last reset. -/
def Heard (past : List Step) (x : Sample) : Prop :=
  ∃ a call answer b, past = a ++ call :: answer :: b ∧ Calls call ∧ Answers x answer ∧
    ∀ t ∈ b, t.input ≠ .reset

theorem Heard.snoc {past : List Step} {x : Sample} (h : Heard past x) {t : Step}
    (ht : t.input ≠ .reset) :
    Heard (past ++ [t]) x := by
  obtain ⟨a, call, answer, b, rfl, hcall, hanswer, hb⟩ := h
  refine ⟨a, call, answer, b ++ [t], by simp, hcall, hanswer, fun t' ht' => ?_⟩
  rcases List.mem_append.mp ht' with ht' | ht'
  · exact hb t' ht'
  · rw [List.mem_singleton.mp ht']
    exact ht

/-! ### The invariant -/

/-- The clock that a step of the thread reads. -/
def clock : Event → Option ℚ
  | .thread i => some i.now
  | .reset => none

/-- `time.monotonic()` does not run backwards. -/
def Monotonic (es : List Event) : Prop := (es.filterMap clock).Pairwise (· ≤ ·)

/-- The filter shows the average of the samples. -/
structure Shows (alpha : ℚ → ℚ) (xs : List Sample) (f : GridFilter) : Prop where
  value : f.value = (smooth alpha xs).map Prod.fst
  lastT : f.lastT = (smooth alpha xs).map Prod.snd

/-- What the thread has in hand was begun before the last reset, or belongs to the next sample. -/
def InHand (past : List Step) (times : List ℚ) (f : GridFilter) : Prop :=
  match f.pc with
  | .ticked g => g ≤ f.generation
  | .reading g => g ≤ f.generation ∧ (g = f.generation → Running past)
  | .sampled g gt now =>
    g ≤ f.generation ∧ (g = f.generation → Heard past ⟨gt, now⟩) ∧ now ∈ times ∧
      ∀ time ∈ times, time ≤ now
  | _ => True

/-- The samples of the value. -/
structure Isolated (alpha : ℚ → ℚ) (past : List Step) (times : List ℚ) (xs : List Sample)
    (f : GridFilter) :
    Prop where
  shows : Shows alpha xs f
  heard : ∀ x ∈ xs, Heard past x
  timed : ∀ x ∈ xs, x.now ∈ times
  ordered : xs.Pairwise fun x y => x.now ≤ y.now
  inHand : InHand past times f

variable {f : GridFilter} {past : List Step} {times : List ℚ} {xs : List Sample}

theorem isolated_init : Isolated alpha [] [] [] {} where
  shows := ⟨rfl, rfl⟩
  heard := fun _ hx => absurd hx List.not_mem_nil
  timed := fun _ hx => absurd hx List.not_mem_nil
  ordered := List.Pairwise.nil
  inHand := trivial

/-- A reset leaves no sample, and makes what the thread has in hand obsolete. -/
theorem Isolated.reset (h : Isolated alpha past times xs f) (t : Step) :
    Isolated alpha (past ++ [t]) times [] (reset f) where
  shows := ⟨rfl, rfl⟩
  heard := fun _ hx => absurd hx List.not_mem_nil
  timed := fun _ hx => absurd hx List.not_mem_nil
  ordered := List.Pairwise.nil
  inHand := by
    have hhand := h.inHand
    unfold InHand at hhand ⊢
    simp only [Model.reset]
    split
    · next g hpc =>
      simp only [hpc] at hhand
      omega
    · next g hpc =>
      simp only [hpc] at hhand
      exact ⟨by omega, fun hg => by omega⟩
    · next g gt now hpc =>
      simp only [hpc] at hhand
      obtain ⟨hle, -, htimes⟩ := hhand
      exact ⟨by omega, fun hg => by omega, htimes⟩
    · trivial

/-- A step of the thread that keeps the value. -/
theorem Isolated.keep (h : Isolated alpha past times xs f) {i : Inputs} {f' : GridFilter}
    (hvalue : f'.value = f.value) (hlast : f'.lastT = f.lastT)
    (hhand : InHand (past ++ [⟨f, .thread i⟩]) (times ++ [i.now]) f') :
    Isolated alpha (past ++ [⟨f, .thread i⟩]) (times ++ [i.now]) xs f' where
  shows := ⟨hvalue.trans h.shows.value, hlast.trans h.shows.lastT⟩
  heard := fun x hx => (h.heard x hx).snoc Event.noConfusion
  timed := fun x hx => List.mem_append_left _ (h.timed x hx)
  ordered := h.ordered
  inHand := hhand

/-- The update shows one more sample. -/
theorem Isolated.absorb (h : Isolated alpha past times xs f) {i : Inputs} {g : ℕ} {gt now : ℚ}
    (hpc : f.pc = .sampled g gt now) (hg : g = f.generation) :
    Isolated alpha (past ++ [⟨f, .thread i⟩]) (times ++ [i.now]) (xs ++ [⟨gt, now⟩])
      (update alpha g gt now f) := by
  have hhand := h.inHand
  unfold InHand at hhand
  simp only [hpc] at hhand
  obtain ⟨-, hheard, hmem, hlast⟩ := hhand
  have hpc' : (update alpha g gt now f).pc = .waiting := by
    unfold update
    split_ifs
    · rfl
    · split
      · rfl
      · rfl
  constructor
  · obtain ⟨hvalue, htime⟩ := h.shows
    constructor
    all_goals
      rw [smooth_snoc, update, if_neg (not_not.mpr hg), hvalue, htime]
      cases smooth alpha xs with
      | none => rfl
      | some r => rfl
  · intro x hx
    rcases List.mem_append.mp hx with hx | hx
    · exact (h.heard x hx).snoc Event.noConfusion
    · rw [List.mem_singleton.mp hx]
      exact (hheard hg).snoc Event.noConfusion
  · intro x hx
    rcases List.mem_append.mp hx with hx | hx
    · exact List.mem_append_left _ (h.timed x hx)
    · rw [List.mem_singleton.mp hx]
      exact List.mem_append_left _ hmem
  · refine List.pairwise_append.mpr ⟨h.ordered, List.pairwise_singleton _ _, fun x hx y hy => ?_⟩
    rw [List.mem_singleton.mp hy]
    exact hlast x.now (h.timed x hx)
  · unfold InHand
    simp only [hpc']

/-- **A step of the thread** keeps the samples, or adds the one in hand. -/
theorem Isolated.run (h : Isolated alpha past times xs f) (i : Inputs)
    (hnow : ∀ time ∈ times, time ≤ i.now) :
    ∃ xs', Isolated alpha (past ++ [⟨f, .thread i⟩]) (times ++ [i.now]) xs' (run alpha i f) := by
  have hhand := h.inHand
  unfold InHand at hhand
  cases hpc : f.pc with
  | waiting =>
    simp only [Model.run, hpc]
    split_ifs
    · exact ⟨xs, h.keep rfl rfl trivial⟩
    · exact ⟨xs, h.keep rfl rfl (le_refl f.generation)⟩
  | ticked g =>
    simp only [hpc] at hhand
    simp only [Model.run, hpc]
    exact ⟨xs, h.keep rfl rfl ⟨hhand, fun _ => ⟨past, _, rfl, g, i, hpc, rfl⟩⟩⟩
  | reading g =>
    simp only [hpc] at hhand
    obtain ⟨hle, hrunning⟩ := hhand
    simp only [Model.run, hpc, answered]
    cases hanswer : i.answer with
    | missing => exact ⟨xs, h.keep rfl rfl trivial⟩
    | finite gt =>
      refine ⟨xs, h.keep rfl rfl ⟨hle, fun hg => ?_, by simp, fun time htime => ?_⟩⟩
      · obtain ⟨a, call, rfl, hcall⟩ := hrunning hg
        exact ⟨a, call, ⟨f, .thread i⟩, [], by simp, hcall, ⟨g, i, hpc, rfl, hanswer, rfl⟩,
          fun t ht => absurd ht List.not_mem_nil⟩
      · rcases List.mem_append.mp htime with htime | htime
        · exact hnow time htime
        · exact (List.mem_singleton.mp htime).le
    | nonFinite => exact ⟨xs, h.keep rfl rfl trivial⟩
    | error => exact ⟨xs, h.keep rfl rfl trivial⟩
    | raised => exact ⟨xs, h.keep rfl rfl trivial⟩
  | sampled g gt now =>
    simp only [Model.run, hpc]
    by_cases hg : g = f.generation
    · exact ⟨_, h.absorb hpc hg⟩
    · rw [update, if_pos hg]
      exact ⟨xs, h.keep rfl rfl trivial⟩
  | ended =>
    simp only [Model.run, hpc]
    refine ⟨xs, h.keep rfl rfl ?_⟩
    unfold InHand
    simp only [hpc]

theorem isolated_exec (es : List Event) (hclock : Monotonic es) :
    ∃ xs, Isolated alpha (trace (next alpha) {} es) (es.filterMap clock) xs
      (exec (next alpha) {} es) := by
  induction es using List.reverseRecOn with
  | nil => exact ⟨[], isolated_init⟩
  | append_singleton es e ih =>
    unfold Monotonic at hclock
    rw [List.filterMap_append] at hclock
    obtain ⟨hpast, -, hlast⟩ := List.pairwise_append.mp hclock
    obtain ⟨xs, h⟩ := ih hpast
    rw [trace_snoc, exec_snoc, List.filterMap_append]
    cases e with
    | reset =>
      rw [show [Event.reset].filterMap clock = [] from rfl, List.append_nil]
      exact ⟨[], h.reset _⟩
    | thread i => exact h.run i fun time htime => hlast time htime i.now (List.mem_singleton.mpr rfl)

/-- **The filter is isolated from what was read before the last reset.**  In every run the value is
the average of finite samples whose getter call began after the last reset, and lies between the
smallest and the largest of them; without such a sample there is none. -/
theorem value_isolated (hw : Weight alpha) (es : List Event) (hclock : Monotonic es) :
    ∃ xs : List Sample, (∀ x ∈ xs, Heard (trace (next alpha) {} es) x) ∧
      (exec (next alpha) {} es).value = (smooth alpha xs).map Prod.fst ∧
      ((exec (next alpha) {} es).value = none ↔ xs = []) ∧
      ∀ v, (exec (next alpha) {} es).value = some v → Between (xs.map Sample.gt) v := by
  obtain ⟨xs, h⟩ := isolated_exec es hclock
  refine ⟨xs, h.heard, h.shows.value, ?_, fun v hv => ?_⟩
  · rw [h.shows.value, Option.map_eq_none_iff, smooth_eq_none]
  · rw [h.shows.value, Option.map_eq_some_iff] at hv
    obtain ⟨⟨value, lastT⟩, hr, rfl⟩ := hv
    exact smooth_between hw h.ordered hr

/-- The getter is called, the filter is reset, the getter answers 900; the next answer is 100. -/
def resetRun : List Event :=
  [.thread { now := 0 }, .thread { now := 0 }, .reset, .thread { answer := .finite 900, now := 1 },
    .thread { now := 1 }, .thread { now := 2 }, .thread { now := 2 },
    .thread { answer := .finite 100, now := 3 }, .thread { now := 3 }]

theorem value_isolated_reset : (exec (next fun _ => 1 / 2) {} resetRun).value = some 100 ∧
    ∃ xs : List Sample, (∀ x ∈ xs, Heard (trace (next fun _ => 1 / 2) {} resetRun) x) ∧
      Between (xs.map Sample.gt) 100 := by
  have hvalue : (exec (next fun _ => 1 / 2) {} resetRun).value = some 100 := by decide +kernel
  have hweight : Weight fun _ => 1 / 2 := fun _ _ => ⟨by norm_num, by norm_num⟩
  have hclock : Monotonic resetRun := by
    unfold Monotonic
    decide +kernel
  obtain ⟨xs, hxs, -, -, hbetween⟩ := value_isolated hweight resetRun hclock
  exact ⟨hvalue, xs, hxs, hbetween 100 hvalue⟩

end InverterControl.Filter.Isolation
