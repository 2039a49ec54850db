import InverterControl.Telemetry.Model

/-!
# What one call of the telemetry can do

A call observes fields, clears them, or leaves them alone (`next_field`); the same holds of the
selected meter's fields.  Only a snapshot touches what is established of the source and the topology.
-/

namespace InverterControl.Telemetry.Steps

open InverterControl.Lib.Runs InverterControl.Python InverterControl.Telemetry.Model

variable {t : GridTelemetry} {e : Event} {path : GridPath} {now : ℚ}

/-! ### What a call observes -/

/-- The value that a call stores for a path. -/
def observation (t : GridTelemetry) (e : Event) (path : GridPath) : Option (Option Value) :=
  match e.op with
  | .update text raw => if gridPath text = some path then some (stored path raw) else none
  | .replace values token => if isCurrent t token then some (stored path (values path)) else none
  | _ => none

/-- The call takes the critical values away. -/
def invalidates (t : GridTelemetry) (e : Event) : Prop :=
  match e.op with
  | .ownerChanged service => isCritical t service
  | .unavailable _ => True
  | _ => False

instance (t : GridTelemetry) (e : Event) : Decidable (invalidates t e) := by
  unfold invalidates
  split <;> infer_instance

/-- A cell of the state with its time: a call observes it, clears it with all the others, or leaves
it alone. -/
def Tracks {α : Type} (obs : GridTelemetry → Event → Option (Option α))
    (cell : GridTelemetry → Option α) (time : GridTelemetry → Option ℚ) : Prop :=
  ∀ t e, (∃ v, obs t e = some v ∧ cell (next t e) = v ∧ time (next t e) = some e.now) ∨
    (obs t e = none ∧ invalidates t e ∧ cell (next t e) = none ∧ time (next t e) = none) ∨
    (obs t e = none ∧ ¬ invalidates t e ∧ cell (next t e) = cell t ∧ time (next t e) = time t)

/-- The cell's value was observed, and not touched since. -/
def LastObserved {α : Type} (obs : GridTelemetry → Event → Option (Option α)) (v : Option α) (time : ℚ)
    (past : List (Taken GridTelemetry Event)) : Prop :=
  Since (fun x => obs x.before x.input = none ∧ ¬ invalidates x.before x.input)
    (fun x => obs x.before x.input = some v ∧ x.input.now = time) past

/-- **History of a cell.**  A time stands for the observation of the value beside it. -/
theorem Tracks.lastObserved {α : Type} {obs : GridTelemetry → Event → Option (Option α)}
    {cell : GridTelemetry → Option α} {time : GridTelemetry → Option ℚ} (h : Tracks obs cell time)
    {t : GridTelemetry} (h0 : time t = none) (es : List Event) :
    ∀ w, time (exec next t es) = some w →
      LastObserved obs (cell (exec next t es)) w (trace next t es) := by
  induction es using List.reverseRecOn with
  | nil =>
    intro w hw
    rw [exec_nil, h0] at hw
    cases hw
  | append_singleton es e ih =>
    intro w hw
    rw [trace_snoc, LastObserved, since_snoc]
    rw [exec_snoc] at hw ⊢
    rcases h (exec next t es) e with ⟨v, hobs, hcell, htime⟩ | ⟨-, -, -, htime⟩ |
      ⟨hobs, hinv, hcell, htime⟩
    · rw [htime] at hw
      exact Or.inl ⟨by rw [hobs, hcell], Option.some.inj hw⟩
    · rw [htime] at hw
      cases hw
    · rw [htime] at hw
      rw [hcell]
      exact Or.inr ⟨⟨hobs, hinv⟩, ih w hw⟩

/-- What takes the critical values away clears the state. -/
theorem next_of_invalidates (h : invalidates t e) : ∃ error, next t e = clear t error := by
  obtain ⟨op, now⟩ := e
  cases op with
  | ownerChanged service => exact ⟨_, congrArg Prod.snd (if_pos h)⟩
  | unavailable reason => exact ⟨_, rfl⟩
  | _ => cases h

theorem updateAll_field (now : ℚ) (values : GridPath → Raw) (paths : List GridPath) (path : GridPath) :
    ∀ t : GridTelemetry, (updateAll t values now paths).fields path =
        (if path ∈ paths then stored path (values path) else t.fields path) ∧
      (updateAll t values now paths).updated path =
        (if path ∈ paths then some now else t.updated path) := by
  induction paths with
  | nil => simp [updateAll]
  | cons p paths ih =>
    intro t
    have h := ih (updateField t p (values p) now)
    simp only [updateAll, List.foldl_cons] at h ⊢
    rw [h.1, h.2]
    by_cases hp : path ∈ paths
    · simp [hp]
    · by_cases heq : path = p
      · subst heq
        simp [hp, updateField]
      · simp [hp, heq, updateField]

theorem updateAll_frame (now : ℚ) (values : GridPath → Raw) (paths : List GridPath) :
    ∀ t : GridTelemetry,
    ∃ f u g, updateAll t values now paths = { t with fields := f, updated := u, lastGood := g } := by
  induction paths with
  | nil => exact fun t => ⟨_, _, _, rfl⟩
  | cons p paths ih =>
    intro t
    obtain ⟨f, u, g, h⟩ := ih (updateField t p (values p) now)
    exact ⟨f, u, g, h⟩

/-- The parts of the state that a replace leaves alone. -/
theorem replace_frame (now : ℚ) (values : GridPath → Raw) (token : Option ℕ) (t : GridTelemetry)
    (h : isCurrent t token) : ∃ f u g, replace t values token now =
      { t with
        generation := t.generation + 1, fields := f, updated := u, lastGood := g,
        ownerError := none } := by
  obtain ⟨f, u, g, hu⟩ := updateAll_frame now values GridPath.all (bump t)
  refine ⟨f, u, g, ?_⟩
  rw [replace, if_pos h, hu]
  rfl

theorem replace_field (now : ℚ) (path : GridPath) (values : GridPath → Raw) (token : Option ℕ)
    (t : GridTelemetry)
    (h : isCurrent t token) : (replace t values token now).fields path = stored path (values path) ∧
      (replace t values token now).updated path = some now := by
  obtain ⟨hf, hu⟩ := updateAll_field now values GridPath.all path (bump t)
  rw [if_pos (GridPath.mem_all path)] at hf hu
  rw [replace, if_pos h]
  exact ⟨hf, hu⟩

theorem updateGrid_field (t : GridTelemetry) (now : ℚ) (p : GridPath) (raw : Raw) :
    (updateGrid t p raw now).fields = Function.update t.fields p (stored p raw) ∧
      (updateGrid t p raw now).updated = Function.update t.updated p (some now) := by
  unfold updateGrid
  split_ifs <;> exact ⟨rfl, rfl⟩

/-- What an update may change. -/
theorem updateGrid_frame (t : GridTelemetry) (now : ℚ) (p : GridPath) (raw : Raw) :
    ∃ n f u g, updateGrid t p raw now =
    { t with generation := n, fields := f, updated := u, lastGood := g } := by
  unfold updateGrid
  split_ifs <;> exact ⟨_, _, _, _, rfl⟩

/-- What the selected meter's signal may change. -/
theorem acceptMeterUpdate_frame (t : GridTelemetry) (now : ℚ) (service : String) (p : MeterPath)
    (raw : Raw) (token : Option ℕ) :
    ∃ n d, acceptMeterUpdate t service p raw token now =
      { t with
        generation := n
        declaredPhasesRequired := d
        meterFields := Function.update t.meterFields (service, p) raw.number
        meterUpdated := Function.update t.meterUpdated (service, p) (some now) } := by
  unfold acceptMeterUpdate noteMeterSignal
  split_ifs <;> exact ⟨_, _, rfl⟩

/-- A meter's signal is accepted, or changes nothing. -/
theorem updateMeter_cases (t : GridTelemetry) (now : ℚ) (service : Option String) (text : String)
    (raw : Raw) (token : Option ℕ) :
    (updateMeter t service text raw token now = (false, t) ∧ ∀ name p, service = some name →
      meterPath text = some p → some name = selectedMeter t → ¬ isCurrent t token) ∨
    ∃ name p, service = some name ∧ meterPath text = some p ∧ some name = selectedMeter t ∧
      isCurrent t token ∧
      updateMeter t service text raw token now = (true, acceptMeterUpdate t name p raw token now) := by
  unfold updateMeter
  split
  · next name p hp =>
    split_ifs with hsel hcur
    · exact Or.inl ⟨rfl, fun _ _ hname _ hsel' => absurd (hname ▸ hsel') hsel⟩
    · exact Or.inr ⟨name, p, rfl, hp, not_not.mp hsel, hcur, rfl⟩
    · exact Or.inl ⟨rfl, fun _ _ _ _ _ => hcur⟩
  · next hno => exact Or.inl ⟨rfl, fun name p hname hp _ => absurd hp (hno name p hname)⟩

/-- A meter's reply is published, drops the meter, or changes nothing. -/
theorem replaceMeter_cases (t : GridTelemetry) (now : ℚ) (service : String)
    (reply : Option MeterReply) (token : ℕ) :
    (replaceMeter t service reply token now = (false, t) ∧
      (token = t.generation → some service ≠ selectedMeter t)) ∨
    (token = t.generation ∧ some service = selectedMeter t ∧
      ((reply = none ∧ replaceMeter t service reply token now = (false, dropMeter t service)) ∨
        ∃ r, reply = some r ∧
          replaceMeter t service reply token now = (true, publishMeter t service r now))) := by
  unfold replaceMeter
  split_ifs with h
  · exact Or.inl ⟨rfl, fun htoken => h.resolve_left (not_not.mpr htoken)⟩
  · push Not at h
    refine Or.inr ⟨h.1, h.2, ?_⟩
    cases reply with
    | none => exact Or.inl ⟨rfl, rfl⟩
    | some r => exact Or.inr ⟨r, rfl, rfl⟩

/-- A snapshot establishes the source and the topology at most. -/
theorem snapshot_frame (now : ℚ) : ∃ n s i, (snapshot t now).2 =
    { t with requiredPhases := n, source := s, sourceInstance := i } := by
  unfold snapshot reason
  split
  · exact ⟨_, _, _, rfl⟩
  · split_ifs
    · exact ⟨_, _, _, rfl⟩
    · exact ⟨_, _, _, rfl⟩

/-- **The fields of a call**: observed, cleared, or as they were. -/
theorem next_field (path : GridPath) :
    Tracks (observation · · path) (·.fields path) (·.updated path) := by
  intro t e
  obtain ⟨op, now⟩ := e
  cases op with
  | update text raw =>
    simp only [observation, next, update]
    cases hp : gridPath text with
    | none => exact Or.inr (Or.inr ⟨by simp, id, rfl, rfl⟩)
    | some p =>
      obtain ⟨hf, hu⟩ := updateGrid_field t now p raw
      simp only [hf, hu]
      by_cases heq : p = path
      · subst heq
        exact Or.inl ⟨_, if_pos rfl, by simp, by simp⟩
      · refine Or.inr (Or.inr ⟨if_neg (by simpa using heq), id, ?_, ?_⟩)
        · exact Function.update_of_ne (Ne.symm heq) _ _
        · exact Function.update_of_ne (Ne.symm heq) _ _
  | replace values token =>
    by_cases h : isCurrent t token
    · obtain ⟨hf, hu⟩ := replace_field now path values token t h
      exact Or.inl ⟨_, if_pos h, hf, hu⟩
    · have hr : next t ⟨.replace values token, now⟩ = t := if_neg h
      exact Or.inr (Or.inr ⟨if_neg h, id, by rw [hr], by rw [hr]⟩)
  | updateMeter service text raw token =>
    refine Or.inr (Or.inr ⟨rfl, id, ?_⟩)
    simp only [next]
    rcases updateMeter_cases t now service text raw token with
      ⟨h, -⟩ | ⟨name, p, -, -, -, -, h⟩
    · rw [h]
      exact ⟨rfl, rfl⟩
    · obtain ⟨n, d, hm⟩ := acceptMeterUpdate_frame t now name p raw token
      rw [h, hm]
      exact ⟨rfl, rfl⟩
  | replaceMeter service reply token =>
    refine Or.inr (Or.inr ⟨rfl, id, ?_⟩)
    simp only [next]
    rcases replaceMeter_cases t now service reply token with
      ⟨h, -⟩ | ⟨-, -, ⟨-, h⟩ | ⟨r, -, h⟩⟩
    · rw [h]
      exact ⟨rfl, rfl⟩
    · rw [h]
      exact ⟨rfl, rfl⟩
    · rw [h]
      exact ⟨rfl, rfl⟩
  | ownerChanged service =>
    by_cases h : isCritical t service
    · have hc : next t ⟨.ownerChanged service, now⟩ =
          clear t (some ("Grid source owner changed: " ++ service)) := congrArg Prod.snd (if_pos h)
      exact Or.inr (Or.inl ⟨rfl, h, by rw [hc]; rfl, by rw [hc]; rfl⟩)
    · have hc : next t ⟨.ownerChanged service, now⟩ = t := congrArg Prod.snd (if_neg h)
      exact Or.inr (Or.inr ⟨rfl, h, by rw [hc], by rw [hc]⟩)
  | unavailable reason => exact Or.inr (Or.inl ⟨rfl, trivial, rfl, rfl⟩)
  | snapshot =>
    obtain ⟨n, s, i, h⟩ := snapshot_frame (t := t) now
    refine Or.inr (Or.inr ⟨rfl, id, ?_⟩)
    simp only [next, h, and_self]

/-! ### What a call observes of a meter -/

/-- The number that a call stores for a meter's path. -/
def meterObservation (t : GridTelemetry) (e : Event) (key : String × MeterPath) :
    Option (Option ℚ) :=
  match e.op with
  | .updateMeter (some service) text raw token =>
    if some service = selectedMeter t ∧ isCurrent t token ∧ service = key.1 ∧
        meterPath text = some key.2 then
      some raw.number
    else none
  | .replaceMeter service (some reply) token =>
    if token = t.generation ∧ some service = selectedMeter t ∧ service = key.1 then
      some (match key.2 with
        | .connected => reply.connected.number
        | .phases => (reply.phases.getD .none).number)
    else none
  | _ => none

/-- A published reply stores both fields of its meter. -/
theorem publishMeter_field (t : GridTelemetry) (now : ℚ) (service : String) (r : MeterReply)
    (key : String × MeterPath) :
    (publishMeter t service r now).meterFields key =
      (if service = key.1 then
        (match key.2 with
          | .connected => r.connected.number
          | .phases => (r.phases.getD .none).number)
      else t.meterFields key) ∧
    (publishMeter t service r now).meterUpdated key =
      if service = key.1 then some now else t.meterUpdated key := by
  obtain ⟨name, p⟩ := key
  simp only [publishMeter, storeMeter, bump]
  by_cases h : service = name
  · subst h
    cases p <;> simp
  · have hne (p' : MeterPath) : (name, p) ≠ (service, p') := by
      rintro ⟨⟩
      exact h rfl
    simp [h, Function.update_of_ne, hne]

/-- **The fields of a meter after a call**: observed, cleared, or as they were. -/
theorem next_meterField (key : String × MeterPath) :
    Tracks (meterObservation · · key) (·.meterFields key) (·.meterUpdated key) := by
  intro t e
  obtain ⟨op, now⟩ := e
  cases op with
  | update text raw =>
    refine Or.inr (Or.inr ⟨rfl, id, ?_⟩)
    simp only [next, update]
    cases gridPath text with
    | none => exact ⟨rfl, rfl⟩
    | some p =>
      obtain ⟨n, f, u, g, h⟩ := updateGrid_frame t now p raw
      simp only [h, and_self]
  | replace values token =>
    refine Or.inr (Or.inr ⟨rfl, id, ?_⟩)
    by_cases h : isCurrent t token
    · obtain ⟨f, u, g, hr⟩ := replace_frame now values token t h
      simp only [next, hr, and_self]
    · have hr : next t ⟨.replace values token, now⟩ = t := if_neg h
      rw [hr]
      exact ⟨rfl, rfl⟩
  | updateMeter service text raw token =>
    rcases updateMeter_cases t now service text raw token with
      ⟨h, hno⟩ | ⟨name, p, rfl, hp, hsel, hcur, h⟩
    · have hn : next t ⟨.updateMeter service text raw token, now⟩ = t := congrArg Prod.snd h
      refine Or.inr (Or.inr ⟨?_, id, by rw [hn], by rw [hn]⟩)
      cases service with
      | none => rfl
      | some name => exact if_neg fun ⟨hsel, hcur, _, hp⟩ => hno name _ rfl hp hsel hcur
    · obtain ⟨n, d, hm⟩ := acceptMeterUpdate_frame t now name p raw token
      have hn : next t ⟨.updateMeter (some name) text raw token, now⟩ =
          acceptMeterUpdate t name p raw token now := congrArg Prod.snd h
      rw [hn, hm]
      by_cases hkey : key = (name, p)
      · subst hkey
        refine Or.inl ⟨raw.number, if_pos ⟨hsel, hcur, rfl, hp⟩, ?_, ?_⟩
        · exact Function.update_self _ _ _
        · exact Function.update_self _ _ _
      · refine Or.inr (Or.inr ⟨if_neg fun ⟨_, _, hname, hp'⟩ => hkey ?_, id,
          Function.update_of_ne hkey _ _, Function.update_of_ne hkey _ _⟩)
        rw [hp] at hp'
        exact Prod.ext hname.symm (Option.some.inj hp').symm
  | replaceMeter service reply token =>
    rcases replaceMeter_cases t now service reply token with
      ⟨h, hno⟩ | ⟨htoken, hsel, ⟨rfl, h⟩ | ⟨r, rfl, h⟩⟩
    · have hn : next t ⟨.replaceMeter service reply token, now⟩ = t := congrArg Prod.snd h
      refine Or.inr (Or.inr ⟨?_, id, by rw [hn], by rw [hn]⟩)
      cases reply with
      | none => rfl
      | some r => exact if_neg fun ⟨htoken, hsel, _⟩ => hno htoken hsel
    · have hn : next t ⟨.replaceMeter service none token, now⟩ = dropMeter t service :=
        congrArg Prod.snd h
      exact Or.inr (Or.inr ⟨rfl, id, by rw [hn]; rfl, by rw [hn]; rfl⟩)
    · obtain ⟨hf, hu⟩ := publishMeter_field t now service r key
      have hn : next t ⟨.replaceMeter service (some r) token, now⟩ = publishMeter t service r now :=
        congrArg Prod.snd h
      rw [hn]
      by_cases hkey : service = key.1
      · rw [if_pos hkey] at hf hu
        exact Or.inl ⟨_, if_pos ⟨htoken, hsel, hkey⟩, hf, hu⟩
      · rw [if_neg hkey] at hf hu
        exact Or.inr (Or.inr ⟨if_neg fun ⟨_, _, hkey'⟩ => hkey hkey', id, hf, hu⟩)
  | ownerChanged service =>
    by_cases h : isCritical t service
    · have hc : next t ⟨.ownerChanged service, now⟩ =
          clear t (some ("Grid source owner changed: " ++ service)) := congrArg Prod.snd (if_pos h)
      exact Or.inr (Or.inl ⟨rfl, h, by rw [hc]; rfl, by rw [hc]; rfl⟩)
    · have hc : next t ⟨.ownerChanged service, now⟩ = t := congrArg Prod.snd (if_neg h)
      exact Or.inr (Or.inr ⟨rfl, h, by rw [hc], by rw [hc]⟩)
  | unavailable reason => exact Or.inr (Or.inl ⟨rfl, trivial, rfl, rfl⟩)
  | snapshot =>
    obtain ⟨n, s, i, h⟩ := snapshot_frame (t := t) now
    refine Or.inr (Or.inr ⟨rfl, id, ?_⟩)
    simp only [next, h, and_self]

/-! ### What a call leaves alone -/

/-- What is configured. -/
def settings (t : GridTelemetry) : ℚ × ℤ := (t.maxAge, t.expectedPhases)

/-- What is established of the source and the topology. -/
def pins (t : GridTelemetry) : ℤ × Option String × Option ℤ :=
    (t.requiredPhases, t.source, t.sourceInstance)

/-- Only a snapshot establishes anything. -/
theorem next_pins (t : GridTelemetry) (e : Event) (h : e.op ≠ .snapshot) :
    pins (next t e) = pins t ∧ settings (next t e) = settings t := by
  obtain ⟨op, now⟩ := e
  cases op with
  | update text raw =>
    simp only [next, update]
    cases gridPath text with
    | none => exact ⟨rfl, rfl⟩
    | some p =>
      obtain ⟨n, f, u, g, h⟩ := updateGrid_frame t now p raw
      simp only [h]
      exact ⟨rfl, rfl⟩
  | replace values token =>
    by_cases h : isCurrent t token
    · obtain ⟨f, u, g, hr⟩ := replace_frame now values token t h
      simp only [next, hr]
      exact ⟨rfl, rfl⟩
    · have hr : next t ⟨.replace values token, now⟩ = t := if_neg h
      rw [hr]
      exact ⟨rfl, rfl⟩
  | updateMeter service text raw token =>
    simp only [next]
    rcases updateMeter_cases t now service text raw token with
      ⟨h, -⟩ | ⟨name, p, -, -, -, -, h⟩
    · rw [h]
      exact ⟨rfl, rfl⟩
    · obtain ⟨n, d, hm⟩ := acceptMeterUpdate_frame t now name p raw token
      rw [h, hm]
      exact ⟨rfl, rfl⟩
  | replaceMeter service reply token =>
    simp only [next]
    rcases replaceMeter_cases t now service reply token with
      ⟨h, -⟩ | ⟨-, -, ⟨-, h⟩ | ⟨r, -, h⟩⟩
    · rw [h]
      exact ⟨rfl, rfl⟩
    · rw [h]
      exact ⟨rfl, rfl⟩
    · rw [h]
      exact ⟨rfl, rfl⟩
  | ownerChanged service =>
    simp only [next, ownerChanged]
    split_ifs
    · exact ⟨rfl, rfl⟩
    · exact ⟨rfl, rfl⟩
  | unavailable reason => exact ⟨rfl, rfl⟩
  | snapshot => exact absurd rfl h

/-- The configuration stays. -/
theorem exec_settings (t : GridTelemetry) (es : List Event) :
    settings (exec next t es) = settings t := by
  refine exec_invariant (P := fun t' => settings t' = settings t) rfl fun x _ hx => ?_
  rw [← hx]
  by_cases h : x.input.op = .snapshot
  · obtain ⟨n, s, i, hs⟩ := snapshot_frame (t := x.before) x.input.now
    simp only [next, h, hs]
    rfl
  · exact (next_pins x.before x.input h).2

/-! ### What is measured -/

/-- The phase count and the powers that a measurement rests on. -/
structure Powered (t : GridTelemetry) (phases : ℚ) : Prop where
  count : t.fields .phaseCount = some (.number phases)
  supported : phases = 1 ∨ phases = 2
  configured : t.expectedPhases ≠ 0 → phases = t.expectedPhases
  established : (t.requiredPhases : ℚ) ≤ phases
  powers : ∀ p ∈ phasesOf phases, t.fields (.power p) ≠ none

/-- The source that a measurement rests on. -/
structure Sourced (t : GridTelemetry) (now : ℚ) (m : Measurement) (i : Input) : Prop where
  descriptor : (m.source, m.sourceInstance, i) ∈ sourceCandidates t
  first : (sourceCandidates t).head? = some (m.source, m.sourceInstance, i)
  unambiguous : ∀ c ∈ sourceCandidates t, (c.1, c.2.1) = (m.source, m.sourceInstance)
  source : t.source = none ∨ t.source = some m.source
  sourceInstance : t.sourceInstance = none ∨ t.sourceInstance = some m.sourceInstance
  meter : startsWith m.source gridServicePrefix → m.source ∈ t.meterReady ∧
    t.meterFields (m.source, .connected) = some 1 ∧ ¬ declaredDiffer t m.source m.phases ∧
    m.meterAge = ageOf now (t.meterUpdated (m.source, .connected))

/-- The phase count of a measurement is an integer. -/
theorem Powered.num_cast {phases : ℚ} (h : Powered t phases) : ((phases.num : ℤ) : ℚ) = phases := by
  rcases h.supported with rfl | rfl
  · rfl
  · rfl

theorem powerPaths_ok {phases : ℚ} {paths : List GridPath} (h : powerPaths t = .ok (phases, paths)) :
    Powered t phases ∧ paths = .phaseCount :: (phasesOf phases).map .power := by
  unfold powerPaths at h
  split at h
  · cases h
  · next n hn =>
    split at h
    · cases h
    · next hsup =>
      split at h
      · cases h
      · next hconf =>
        split at h
        · cases h
        · next hreq =>
          split at h
          · cases h
          · next hnone =>
            obtain ⟨rfl, rfl⟩ := Prod.mk.inj (Except.ok.inj h)
            refine ⟨⟨?_, ?_, ?_, not_lt.mp hreq, ?_⟩, rfl⟩
            · unfold Value.number? at hn
              split at hn
              · next q hq => rw [hq, Option.some.inj hn]
              · cases hn
            · by_contra hno
              push Not at hno
              exact hsup hno
            · intro hexp
              by_contra hno
              exact hconf ⟨hexp, hno⟩
            · intro p hp hnone'
              have := List.find?_eq_none.mp hnone p hp
              exact this (decide_eq_true hnone')

theorem externalMeterStatus_ok {source : String} {phases : ℚ} {age : WithTop ℚ}
    (h : externalMeterStatus t source phases now = .ok age)
    (hservice : startsWith source gridServicePrefix) : source ∈ t.meterReady ∧
      t.meterFields (source, .connected) = some 1 ∧ ¬ declaredDiffer t source phases ∧
      age = ageOf now (t.meterUpdated (source, .connected)) := by
  rw [externalMeterStatus, if_pos hservice] at h
  split_ifs at h with hready hconn hdecl
  exact ⟨hready, not_not.mp hconn, hdecl, (Except.ok.inj h).symm⟩

theorem checkSource_ok {phases : ℚ} {paths : List GridPath} {m : Measurement}
    (h : checkSource t phases now paths = .ok m) :
    m.phases = phases ∧ ∃ i, m.requiredPaths = paths ++ sourcePaths i ∧ Sourced t now m i := by
  unfold checkSource at h
  split at h
  · cases h
  · next source inst i others hcands =>
    split at h
    · cases h
    · next hamb =>
      split at h
      · cases h
      · next hsource =>
        split at h
        · cases h
        · next hinst =>
          split at h
          · cases h
          · next age hmeter =>
            obtain rfl := Except.ok.inj h
            refine ⟨rfl, i, rfl, ⟨?_, ?_, ?_, ?_, ?_, externalMeterStatus_ok hmeter⟩⟩
            · rw [hcands]
              exact List.mem_cons_self
            · rw [hcands]
              rfl
            · intro c hc
              rw [hcands] at hc
              rcases List.mem_cons.mp hc with rfl | hc
              · rfl
              · by_contra hno
                exact hamb ⟨c, hc, hno⟩
            · by_contra hno
              push Not at hno
              exact hsource ⟨hno.1, fun heq => hno.2 heq.symm⟩
            · by_contra hno
              push Not at hno
              exact hinst ⟨hno.1, fun heq => hno.2 heq.symm⟩

/-- **What a measurement rests on.** -/
theorem measure_ok {m : Measurement} (h : Model.measure t now = .ok m) : t.ownerError = none ∧
    Powered t m.phases ∧ ∃ i, Sourced t now m i ∧
      m.requiredPaths = .phaseCount :: (phasesOf m.phases).map .power ++ sourcePaths i := by
  unfold Model.measure at h
  split at h
  · cases h
  · next howner =>
    split at h
    · cases h
    · next phases paths hpaths =>
      obtain ⟨hpow, rfl⟩ := powerPaths_ok hpaths
      obtain ⟨rfl, i, hreq, hsrc⟩ := checkSource_ok h
      exact ⟨howner, hpow, i, hsrc, hreq⟩

/-- A valid snapshot is of a measurement that is young enough, and establishes it. -/
theorem snapshot_valid (h : (snapshot t now).1.valid = true) : ∃ m, measure t now = .ok m ∧
    measurementAge t now m ≤ (t.maxAge : WithTop ℚ) ∧
    snapshot t now =
      (report (establish t m) none (some (measurementAge t now m)), establish t m) := by
  unfold snapshot at h ⊢
  unfold reason at h ⊢
  cases hm : Model.measure t now with
  | error e =>
    rw [hm] at h
    simp [report] at h
  | ok m =>
    rw [hm] at h
    simp only at h ⊢
    split_ifs at h with hage
    · simp [report] at h
    · rw [if_neg hage]
      exact ⟨m, rfl, not_lt.mp hage, rfl⟩

/-- A snapshot that is not valid leaves the state as it was. -/
theorem snapshot_invalid (h : (snapshot t now).1.valid = false) : (snapshot t now).2 = t := by
  unfold snapshot at h ⊢
  unfold reason at h ⊢
  cases hm : Model.measure t now with
  | error e => rfl
  | ok m =>
    rw [hm] at h
    simp only at h ⊢
    split_ifs at h with hage
    · rw [if_pos hage]
    · simp [report] at h

/-- A measurement is as old as its oldest part. -/
theorem measurementAge_le {m : Measurement} {age : WithTop ℚ} : measurementAge t now m ≤ age ↔
    m.meterAge ≤ age ∧ ∀ path ∈ m.requiredPaths, ageOf now (t.updated path) ≤ age := by
  unfold measurementAge
  induction m.requiredPaths with
  | nil => simp
  | cons p ps ih =>
    simp only [List.map_cons, List.foldr_cons, max_le_iff, ih, List.forall_mem_cons]
    exact and_left_comm

theorem ageOf_le {age : ℚ} {time : Option ℚ} (h : ageOf now time ≤ (age : WithTop ℚ)) :
    ∃ w, time = some w ∧ now - w ≤ age := by
  cases time with
  | none => exact absurd (top_le_iff.mp h) (WithTop.coe_ne_top)
  | some w => exact ⟨w, rfl, WithTop.coe_le_coe.mp h⟩

end InverterControl.Telemetry.Steps
