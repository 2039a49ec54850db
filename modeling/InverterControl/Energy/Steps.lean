import InverterControl.Energy.Model

/-!
# What one call of the energy ledger can do

Only an accepted observation changes the state of a running process (`next_state`): it seeds a new day
or continues the day of the observation before.  A restart takes the state of the file, which a save
has copied.
-/

namespace InverterControl.Energy.Steps

open InverterControl.Lib.Runs InverterControl.Energy.Model

variable {zone : Zone} {l : GridEnergyLedger} {o : Observation} {e : Event} {s : State}

/-! ### Accepted observations -/

/-- The observation that a call brings. -/
def accepted (zone : Zone) (e : Event) : Option Observation :=
  match e with
  | .observe service fields timeZone time mono =>
    (observation zone service fields timeZone time mono).toOption
  | _ => none

theorem accepted_observe (service : Option String) (fields : Option MeterFields)
    (timeZone : Option String) (time mono : ℚ) :
    accepted zone (.observe service fields timeZone time mono) =
      (observation zone service fields timeZone time mono).toOption := rfl

/-- The identity is one that `parse_meter_source` makes. -/
structure IsSource (source : Source) : Prop where
  service : isMeterService source.service
  instance_ : 0 ≤ source.deviceInstance ∧ source.deviceInstance ≤ 2147483647
  serial : ∀ s, source.serial = some s → s ≠ "" ∧ s.length ≤ 128

theorem number_some {value : Option ℚ} {q : ℚ} (h : number value = some q) : value = some q ∧ 0 ≤ q := by
  obtain ⟨hv, hq⟩ := Option.filter_eq_some_iff.mp h
  exact ⟨hv, of_decide_eq_true hq⟩

theorem parseMeterSource_some {service : Option String} {inst : Option ℚ} {serial : Serial}
    {source : Source} (h : parseMeterSource service inst serial = some source) : IsSource source := by
  unfold parseMeterSource at h
  split at h
  · next name q text hq hserial =>
    split_ifs at h with hok
    obtain rfl := Option.some.inj h
    obtain ⟨hname, hint, hmax⟩ := hok
    have hnum : ((q.num : ℤ) : ℚ) = q := (Rat.den_eq_one_iff q).mp (of_decide_eq_true hint)
    refine ⟨hname, ⟨Rat.num_nonneg.mpr (number_some hq).2, ?_⟩, ?_⟩
    · rw [← hnum] at hmax
      exact_mod_cast hmax
    · rintro s rfl
      unfold parseSerial at hserial
      split at hserial
      · cases hserial
      · split_ifs at hserial with hs
        obtain rfl := Option.some.inj (Option.some.inj hserial)
        exact hs
      · cases hserial
  · cases h

/-- `parse_meter_source` accepts what it made. -/
theorem parseMeterSource_of_isSource {source : Source} (h : IsSource source) :
    parseMeterSource (some source.service) (some source.deviceInstance)
      (match source.serial with
        | some serial => .text serial
        | none => .missing) = some source := by
  obtain ⟨name, inst, serial⟩ := source
  obtain ⟨hname, ⟨hpos, hmax⟩, hserial⟩ := h
  have hnumber : number (some (inst : ℚ)) = some (inst : ℚ) := by
    rw [number, Option.filter_some]
    exact if_pos (decide_eq_true (by exact_mod_cast hpos))
  have hok : isMeterService name ∧ ((inst : ℚ)).isInt ∧ (inst : ℚ) ≤ 2147483647 :=
    ⟨hname, by simp [Rat.isInt], by exact_mod_cast hmax⟩
  cases serial with
  | none => simp only [parseMeterSource, hnumber, parseSerial, if_pos hok, Rat.num_intCast]
  | some text =>
    simp only [parseMeterSource, hnumber, parseSerial, if_pos (hserial text rfl), if_pos hok,
      Rat.num_intCast]

theorem calendar_some {name : String} {time : ℚ} {day : Day}
    (h : calendar zone (some name) time = some day) : name ≠ "" ∧ 0 ≤ time ∧
    zone name time = some day := by
  have hif : (if name = "" ∨ time < 0 then none else zone name time) = some day := h
  split_ifs at hif with hbad
  push Not at hbad
  exact ⟨hbad.1, hbad.2, hif⟩

/-- What is known of an observation that is accepted. -/
structure Genuine (zone : Zone) (o : Observation) : Prop where
  source : IsSource o.source
  day : calendar zone (some o.timeZone) o.time = some o.day
  time : 0 ≤ o.time
  mono : 0 ≤ o.mono
  importKwh : 0 ≤ o.counters.importKwh
  exportKwh : 0 ≤ o.counters.exportKwh

theorem genuine_of_accepted (h : accepted zone e = some o) : Genuine zone o := by
  cases e with
  | observe service fields timeZone time mono =>
    rw [accepted_observe] at h
    unfold observation at h
    split at h
    · next name day hday =>
      split at h
      · split at h
        · cases h
        · next hmono =>
          split at h
          · next source forward reverse hsource hforward hreverse =>
            split at h
            · obtain rfl := Option.some.inj h
              exact ⟨parseMeterSource_some hsource, hday, (calendar_some hday).2.1, not_lt.mp hmono,
                (number_some hforward).2, (number_some hreverse).2⟩
            · cases h
          · cases h
      · cases h
    · cases h
  | _ => cases h

/-- An observation that a run accepts. -/
def Seen (zone : Zone) (es : List Event) (o : Observation) : Prop := ∃ e ∈ es, accepted zone e = some o

theorem Seen.genuine {es : List Event} (h : Seen zone es o) : Genuine zone o := by
  obtain ⟨e, -, he⟩ := h
  exact genuine_of_accepted he

/-- What a run takes of its calendar, in the time zones and at the instants of its observations: a
date has one midnight, which is not after an instant of the date, and no date that follows another
begins before the epoch. -/
structure Calendar (P : Observation → Prop) : Prop where
  same : ∀ {o o'}, P o → P o' → o.timeZone = o'.timeZone → o.day.date = o'.day.date →
    o.day.boundary = o'.day.boundary
  start : ∀ {o}, P o → o.day.boundary ≤ o.time
  epoch : ∀ {o o'}, P o → P o' → o.timeZone = o'.timeZone → o.day.date < o'.day.date →
    0 ≤ o'.day.boundary

/-- No midnight is repeated: an observation of an earlier date is before the midnight of a later one. -/
def MidnightOnce (P : Observation → Prop) : Prop :=
  ∀ {o o'}, P o → P o' → o.timeZone = o'.timeZone → o.day.date < o'.day.date → o.time < o'.day.boundary

/-! ### The state after a call -/

theorem next_accepted (h : accepted zone e = some o) : next zone l e = observeLocked l o := by
  cases e with
  | observe service fields timeZone time mono =>
    rw [accepted_observe] at h
    simp only [next, observe]
    cases hr : observation zone service fields timeZone time mono with
    | error reason =>
      rw [hr] at h
      cases h
    | ok o' =>
      rw [hr] at h
      obtain rfl := Option.some.inj h
      rfl
  | _ => cases h

/-! ### The parts of a save -/

theorem beginSave_cases (l : GridEnergyLedger) (now : ℚ) : beginSave l now = l ∨
    ∃ s, l.saving = none ∧ l.state = some s ∧ l.dirty = true ∧ ¬ tooSoon l now ∧
      beginSave l now =
        { l with lastSaveAttempt := some now, saving := some ⟨l.revision, s, false⟩ } := by
  unfold beginSave
  split
  · next s hsaving hs =>
    split_ifs with h
    · exact Or.inl rfl
    · push Not at h
      exact Or.inr ⟨s, hsaving, hs, by simpa using h.1, h.2, rfl⟩
  · exact Or.inl rfl

theorem replaceFile_cases (l : GridEnergyLedger) : (l.saving = none ∧ replaceFile l = l) ∨
    ∃ save, l.saving = some save ∧ replaceFile l =
      { l with disk := some save.state, saving := some { save with replaced := true } } := by
  unfold replaceFile
  cases l.saving with
  | none => exact Or.inl ⟨rfl, rfl⟩
  | some save => exact Or.inr ⟨save, rfl, rfl⟩

theorem failSave_cases (l : GridEnergyLedger) : failSave l = l ∨
    failSave l = { l with saveError := true, saving := none } := by
  unfold failSave
  split
  · exact Or.inr rfl
  · exact Or.inl rfl

theorem finishSave_cases (l : GridEnergyLedger) : finishSave l = l ∨
    ∃ save, l.saving = some save ∧ save.replaced = true ∧ finishSave l =
      { l with
        saveError := false
        dirty := if save.revision = l.revision then false else l.dirty
        saving := none } := by
  unfold finishSave
  split
  · next save hsaving =>
    split
    · next h => exact Or.inr ⟨save, hsaving, h, rfl⟩
    · exact Or.inl rfl
  · exact Or.inl rfl

/-- A reply that is refused only invalidates. -/
theorem next_refused {service : Option String} {fields : Option MeterFields}
    {timeZone : Option String} {time mono : ℚ}
    (h : accepted zone (.observe service fields timeZone time mono) = none) :
    ∃ reason, reason ≠ "" ∧ next zone l (.observe service fields timeZone time mono) =
      invalidate l reason false := by
  rw [accepted_observe] at h
  simp only [next, observe]
  cases hr : observation zone service fields timeZone time mono with
  | ok o =>
    rw [hr] at h
    cases h
  | error reason =>
    refine ⟨reason, ?_, rfl⟩
    unfold observation at hr
    repeat' split at hr
    all_goals first | cases hr; decide | cases hr

/-- A call that takes the observation before away: a refused reply, an invalidation or a restart. -/
def interrupts (zone : Zone) (e : Event) : Prop :=
  match e with
  | .observe _ _ _ _ _ => accepted zone e = none
  | .invalidate _ _ => True
  | .restart _ => True
  | _ => False

/-- A call that neither brings an observation nor takes one away. -/
def Quiet (zone : Zone) (e : Event) : Prop := accepted zone e = none ∧ ¬ interrupts zone e

/-- Every invalidation names its reason. -/
def Explained (es : List Event) : Prop :=
    ∀ e ∈ es, ∀ reason reset, e = .invalidate reason reset → reason ≠ ""

/-- What a call without an observation does to the state. -/
theorem next_state (h : accepted zone e = none) :
    (Quiet zone e ∧ (next zone l e).state = l.state ∧ (next zone l e).observedMono = l.observedMono ∧
      (next zone l e).readError = l.readError) ∨
    (interrupts zone e ∧ (next zone l e).state = l.state ∧
      (next zone l e).observedMono = l.observedMono ∧
      ((∀ reason reset, e = .invalidate reason reset → reason ≠ "") →
        truthy (next zone l e).readError ≠ none)) ∨
    ∃ readable, e = .restart readable := by
  have hquiet (hno : ¬ interrupts zone e) : Quiet zone e := ⟨h, hno⟩
  cases e with
  | observe service fields timeZone time mono =>
    obtain ⟨reason, hreason, hr⟩ := next_refused (l := l) h
    refine Or.inr (Or.inl ⟨h, ?_⟩)
    rw [hr]
    exact ⟨rfl, rfl, fun _ => by simp [invalidate, truthy, hreason]⟩
  | invalidate reason reset =>
    refine Or.inr (Or.inl ⟨trivial, rfl, rfl, fun hnamed => ?_⟩)
    simp [next, invalidate, truthy, hnamed reason reset rfl]
  | beginSave now =>
    refine Or.inl ⟨hquiet id, ?_⟩
    simp only [next]
    rcases beginSave_cases l now with hb | ⟨s, -, -, -, -, hb⟩
    · simp only [hb, and_self]
    · simp only [hb, and_self]
  | replaceFile =>
    refine Or.inl ⟨hquiet id, ?_⟩
    simp only [next]
    rcases replaceFile_cases l with ⟨-, hr⟩ | ⟨save, -, hr⟩
    · simp only [hr, and_self]
    · simp only [hr, and_self]
  | failSave =>
    refine Or.inl ⟨hquiet id, ?_⟩
    simp only [next]
    rcases failSave_cases l with hf | hf
    · simp only [hf, and_self]
    · simp only [hf, and_self]
  | finishSave =>
    refine Or.inl ⟨hquiet id, ?_⟩
    simp only [next]
    rcases finishSave_cases l with hf | ⟨save, -, -, hf⟩
    · simp only [hf, and_self]
    · simp only [hf, and_self]
  | restart readable => exact Or.inr (Or.inr ⟨readable, rfl⟩)

/-- The state that a restart takes is the one of the file. -/
theorem restart_state {readable : Bool} (h : (restart zone l readable).state = some s) :
    l.disk = some s := by
  simp only [restart, load] at h
  split_ifs at h
  exact (Option.filter_eq_some_iff.mp h).1

/-! ### The copies of the state -/

/-- A fact of the state, of the copy that is being saved and of the file. -/
structure Copies (P : State → Prop) (l : GridEnergyLedger) : Prop where
  state : ∀ s, l.state = some s → P s
  saving : ∀ save, l.saving = some save → P save.state
  disk : ∀ s, l.disk = some s → P s

theorem Copies.mono {P Q : State → Prop} (h : Copies P l) (hpq : ∀ s, P s → Q s) : Copies Q l :=
  ⟨fun s hs => hpq s (h.state s hs), fun save hs => hpq save.state (h.saving save hs),
    fun s hs => hpq s (h.disk s hs)⟩

theorem copies_init (P : State → Prop) : Copies P init := by
  refine ⟨fun s hs => ?_, fun save hs => ?_, fun s hs => ?_⟩
  all_goals cases hs

/-- **Rule of the copies.**  Only an observation makes a state that is not a copy. -/
theorem copies_next {P : State → Prop} (h : Copies P l)
    (hobserved : ∀ o, accepted zone e = some o → P (observedState l o)) : Copies P (next zone l e) := by
  cases e with
  | observe service fields timeZone time mono =>
    cases ho : accepted zone (.observe service fields timeZone time mono) with
    | some o =>
      rw [next_accepted ho]
      refine ⟨fun s hs => ?_, h.saving, h.disk⟩
      obtain rfl := Option.some.inj hs
      exact hobserved o ho
    | none =>
      obtain ⟨reason, -, hr⟩ := next_refused (l := l) ho
      rw [hr]
      exact ⟨h.state, h.saving, h.disk⟩
  | invalidate reason reset => exact ⟨h.state, h.saving, h.disk⟩
  | beginSave now =>
    simp only [next]
    rcases beginSave_cases l now with hb | ⟨s, -, hs, -, -, hb⟩
    · rwa [hb]
    · rw [hb]
      refine ⟨h.state, fun save hsave => ?_, h.disk⟩
      obtain rfl := Option.some.inj hsave
      exact h.state s hs
  | replaceFile =>
    simp only [next]
    rcases replaceFile_cases l with ⟨-, hr⟩ | ⟨save, hsave, hr⟩
    · rwa [hr]
    · rw [hr]
      refine ⟨h.state, fun save' hsave' => ?_, fun s hs => ?_⟩
      · obtain rfl := Option.some.inj hsave'
        exact h.saving save hsave
      · obtain rfl := Option.some.inj hs
        exact h.saving save hsave
  | failSave =>
    simp only [next]
    rcases failSave_cases l with hr | hr
    · rwa [hr]
    · rw [hr]
      exact ⟨h.state, fun save hsave => (Option.some_ne_none save hsave.symm).elim, h.disk⟩
  | finishSave =>
    simp only [next]
    rcases finishSave_cases l with hr | ⟨save, -, -, hr⟩
    · rwa [hr]
    · rw [hr]
      exact ⟨h.state, fun save hsave => (Option.some_ne_none save hsave.symm).elim, h.disk⟩
  | restart readable => exact ⟨fun s hs => h.disk s (restart_state hs),
    fun save hsave => (Option.some_ne_none save hsave.symm).elim, h.disk⟩

end InverterControl.Energy.Steps
