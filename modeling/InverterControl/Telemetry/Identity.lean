import InverterControl.Telemetry.Pinning

/-!
# One identity

The name and the instance of a source arrive in two signals, and any reader may take a snapshot
between them.  `Watched` adds to the telemetry what the signals do not say: the device whose name a
descriptor holds, and the device whose instance it holds.  A snapshot that finds a valid measurement
in a descriptor that holds the halves of two devices pins a pair that is neither (`pins_halves`); when
no such snapshot is taken, what is pinned was seen as one identity (`pinned_seen`).
-/

namespace InverterControl.Telemetry.Identity

open InverterControl.Lib.Runs InverterControl.Python InverterControl.Telemetry.Model
open InverterControl.Telemetry.Steps InverterControl.Telemetry.Pinning

/-- A device on the bus: its service name and its device instance. -/
structure Device where
  name : String
  inst : ℤ
  deriving DecidableEq, Repr

/-- A call, and what its signal leaves open of the device that it is about. -/
structure Report where
  event : Event
  otherName : String
  otherInstance : ℤ

/-- The device of a name signal. -/
def nameDevice (value : Option Value) (other : ℤ) : Option Device :=
  match value with
  | some (.name n) => some ⟨n, other⟩
  | _ => none

/-- The device of an instance signal. -/
def instanceDevice (value : Option Value) (other : String) : Option Device :=
  (integralInstance value).map fun k => ⟨other, k⟩

/-- The device of a descriptor in a root read. -/
def readDevice (values : GridPath → Raw) (i : Input) : Option Device :=
  match stored (.serviceName i) (values (.serviceName i)),
      integralInstance (stored (.deviceInstance i) (values (.deviceInstance i))) with
  | some (.name n), some k => some ⟨n, k⟩
  | _, _ => none

/-- The device whose name a call brings to a descriptor. -/
def broughtName (c : Report) (i : Input) : Option Device :=
  match c.event.op with
  | .update _ raw => nameDevice (stored (.serviceName i) raw) c.otherInstance
  | .replace values _ => readDevice values i
  | _ => none

/-- The device whose instance a call brings to a descriptor. -/
def broughtInstance (c : Report) (i : Input) : Option Device :=
  match c.event.op with
  | .update _ raw => instanceDevice (stored (.deviceInstance i) raw) c.otherName
  | .replace values _ => readDevice values i
  | _ => none

/-- The telemetry, with the devices that each descriptor's name and instance come from. -/
structure Watched where
  telemetry : GridTelemetry
  names : Input → Option Device
  instances : Input → Option Device

/-- What becomes of the origin of a field. -/
def origin (t : GridTelemetry) (e : Event) (path : GridPath) (brought old : Option Device) :
    Option Device :=
  if (observation t e path).isSome then brought else if invalidates t e then none else old

/-- The step of the watched telemetry. -/
def watch (s : Watched) (c : Report) : Watched where
  telemetry := next s.telemetry c.event
  names i := origin s.telemetry c.event (.serviceName i) (broughtName c i) (s.names i)
  instances i := origin s.telemetry c.event (.deviceInstance i) (broughtInstance c i) (s.instances i)

/-- `__init__`, without a configured service. -/
def start (maxAge : ℚ) (expectedPhases : ℤ) : Watched :=
  ⟨init maxAge "" expectedPhases, fun _ => none, fun _ => none⟩

/-- The devices that a call shows as one identity: those of the descriptors of one root read, or the
one that a descriptor's signal is about. -/
def shows (x : Taken Watched Report) : List Device :=
  match x.input.event.op with
  | .replace values token =>
    if isCurrent x.before.telemetry token then [Input.in0, Input.in1].filterMap (readDevice values)
    else []
  | .update text _ =>
    match gridPath text with
    | some (.serviceName i) => (broughtName x.input i).toList
    | some (.deviceInstance i) => (broughtInstance x.input i).toList
    | _ => []
  | _ => []

/-- A device was seen as one identity. -/
def Seen (past : List (Taken Watched Report)) (d : Device) : Prop := ∃ x ∈ past, d ∈ shows x

instance (past : List (Taken Watched Report)) (d : Device) : Decidable (Seen past d) := by
  unfold Seen; infer_instance

/-- A descriptor is not caught between two devices: what it holds is the device of its name, or that
of its instance. -/
def Whole (s : Watched) (i : Input) (d : Device) : Prop :=
  s.names i = some d ∨ s.instances i = some d

/-- A snapshot before anything is pinned that finds a valid measurement finds it in a descriptor that
is not caught between two devices. -/
def Settled (x : Taken Watched Report) : Prop :=
  x.input.event.op = .snapshot → x.before.telemetry.sourceInstance = none →
    ∀ m i, measure x.before.telemetry x.input.event.now = .ok m →
      measurementAge x.before.telemetry x.input.event.now m ≤ (x.before.telemetry.maxAge : WithTop ℚ) →
      (sourceCandidates x.before.telemetry).head? = some (m.source, m.sourceInstance, i) →
      Whole x.before i ⟨m.source, m.sourceInstance⟩

variable {s : Watched} {c : Report}

/-! ### Where the halves come from -/

theorem readDevice_some {values : GridPath → Raw} {i : Input} {d : Device}
    (h : readDevice values i = some d) :
    stored (.serviceName i) (values (.serviceName i)) = some (.name d.name) ∧
      integralInstance (stored (.deviceInstance i) (values (.deviceInstance i))) = some d.inst := by
  unfold readDevice at h
  split at h
  · next n k hn hk =>
    obtain rfl := Option.some.inj h
    exact ⟨hn, hk⟩
  · cases h

/-- What becomes of a field and of its origin. -/
theorem origin_cases (t : GridTelemetry) (e : Event) (path : GridPath) (brought old : Option Device) :
    (∃ v, observation t e path = some v ∧ (next t e).fields path = v ∧
      origin t e path brought old = brought) ∨
    origin t e path brought old = none ∨
    (observation t e path = none ∧ (next t e).fields path = t.fields path ∧
      origin t e path brought old = old) := by
  rcases next_field path t e with ⟨v, ho, hf, -⟩ | ⟨ho, hi, -, -⟩ | ⟨ho, hi, hf, -⟩
  · exact Or.inl ⟨v, ho, hf, by simp [origin, ho]⟩
  · exact Or.inr (Or.inl (by simp [origin, ho, hi]))
  · exact Or.inr (Or.inr ⟨ho, hf, by simp [origin, ho, hi]⟩)

/-- The fields hold the halves of the devices they come from. -/
structure Held (s : Watched) : Prop where
  name : ∀ i d, s.names i = some d → s.telemetry.fields (.serviceName i) = some (.name d.name)
  inst : ∀ i d, s.instances i = some d →
    integralInstance (s.telemetry.fields (.deviceInstance i)) = some d.inst

theorem broughtName_held {i : Input} {v : Option Value} {d : Device}
    (ho : observation s.telemetry c.event (.serviceName i) = some v)
    (hb : broughtName c i = some d) : v = some (.name d.name) ∧ d ∈ shows ⟨s, c⟩ := by
  obtain ⟨⟨op, now⟩, otherName, otherInstance⟩ := c
  cases op with
  | update text raw =>
    simp only [observation] at ho
    split_ifs at ho with hp
    obtain rfl := Option.some.inj ho
    refine ⟨?_, ?_⟩
    · simp only [broughtName, nameDevice] at hb
      split at hb
      · next n hn =>
        obtain rfl := Option.some.inj hb
        exact hn
      · cases hb
    · simp only [shows, hp, hb, Option.toList_some, List.mem_singleton]
  | replace values token =>
    simp only [observation] at ho
    split_ifs at ho with hc
    obtain rfl := Option.some.inj ho
    have hb' : readDevice values i = some d := hb
    refine ⟨(readDevice_some hb').1, ?_⟩
    simp only [shows, if_pos hc, List.mem_filterMap]
    exact ⟨i, by cases i <;> simp, hb'⟩
  | _ => cases ho

theorem broughtInstance_held {i : Input} {v : Option Value} {d : Device}
    (ho : observation s.telemetry c.event (.deviceInstance i) = some v)
    (hb : broughtInstance c i = some d) : integralInstance v = some d.inst ∧ d ∈ shows ⟨s, c⟩ := by
  obtain ⟨⟨op, now⟩, otherName, otherInstance⟩ := c
  cases op with
  | update text raw =>
    simp only [observation] at ho
    split_ifs at ho with hp
    obtain rfl := Option.some.inj ho
    refine ⟨?_, ?_⟩
    · simp only [broughtInstance, instanceDevice, Option.map_eq_some_iff] at hb
      obtain ⟨k, hk, rfl⟩ := hb
      exact hk
    · simp only [shows, hp, hb, Option.toList_some, List.mem_singleton]
  | replace values token =>
    simp only [observation] at ho
    split_ifs at ho with hc
    obtain rfl := Option.some.inj ho
    have hb' : readDevice values i = some d := hb
    refine ⟨(readDevice_some hb').2, ?_⟩
    simp only [shows, if_pos hc, List.mem_filterMap]
    exact ⟨i, by cases i <;> simp, hb'⟩
  | _ => cases ho

/-- **Every call keeps the halves.** -/
theorem Held.watch (h : Held s) (c : Report) : Held (watch s c) where
  name i d hd := by
    rcases origin_cases s.telemetry c.event (.serviceName i) (broughtName c i) (s.names i) with
      ⟨v, ho, hf, hor⟩ | hor | ⟨ho, hf, hor⟩
    · exact hf.trans (broughtName_held ho (hor.symm.trans hd)).1
    · exact absurd (hor.symm.trans hd) (by simp)
    · exact hf.trans (h.name i d (hor.symm.trans hd))
  inst i d hd := by
    rcases origin_cases s.telemetry c.event (.deviceInstance i) (broughtInstance c i)
      (s.instances i) with ⟨v, ho, hf, hor⟩ | hor | ⟨ho, hf, hor⟩
    · exact (congrArg integralInstance hf).trans (broughtInstance_held ho (hor.symm.trans hd)).1
    · exact absurd (hor.symm.trans hd) (by simp)
    · exact (congrArg integralInstance hf).trans (h.inst i d (hor.symm.trans hd))

/-- Every origin was seen as one identity. -/
def Origins (past : List (Taken Watched Report)) (s : Watched) : Prop :=
  ∀ i d, s.names i = some d ∨ s.instances i = some d → Seen past d

theorem Seen.mono {past : List (Taken Watched Report)} {d : Device} (h : Seen past d)
    (x : Taken Watched Report) : Seen (past ++ [x]) d := by
  obtain ⟨y, hy, hd⟩ := h
  exact ⟨y, List.mem_append_left _ hy, hd⟩

/-- **Every call keeps the origins.** -/
theorem Origins.watch {past : List (Taken Watched Report)} (h : Origins past s) (c : Report) :
    Origins (past ++ [⟨s, c⟩]) (watch s c) := by
  intro i d hd
  rcases hd with hd | hd
  · rcases origin_cases s.telemetry c.event (.serviceName i) (broughtName c i) (s.names i) with
      ⟨v, ho, -, hor⟩ | hor | ⟨-, -, hor⟩
    · exact ⟨⟨s, c⟩, by simp, (broughtName_held ho (hor.symm.trans hd)).2⟩
    · exact absurd (hor.symm.trans hd) (by simp)
    · exact (h i d (Or.inl (hor.symm.trans hd))).mono _
  · rcases origin_cases s.telemetry c.event (.deviceInstance i) (broughtInstance c i)
      (s.instances i) with ⟨v, ho, -, hor⟩ | hor | ⟨-, -, hor⟩
    · exact ⟨⟨s, c⟩, by simp, (broughtInstance_held ho (hor.symm.trans hd)).2⟩
    · exact absurd (hor.symm.trans hd) (by simp)
    · exact (h i d (Or.inr (hor.symm.trans hd))).mono _

/-! ### What a call pins -/

/-- A call leaves the pins, or is a snapshot of a valid measurement that fits them. -/
theorem next_source (t : GridTelemetry) (e : Event) :
    ((next t e).source = t.source ∧ (next t e).sourceInstance = t.sourceInstance) ∨
    (e.op = .snapshot ∧ ∃ m i, measure t e.now = .ok m ∧
      measurementAge t e.now m ≤ (t.maxAge : WithTop ℚ) ∧ Sourced t e.now m i ∧
      (next t e).source = some m.source ∧ (next t e).sourceInstance = some m.sourceInstance) := by
  by_cases hop : e.op = .snapshot
  swap
  · have h := (next_pins t e hop).1
    simp only [pins, Prod.mk.injEq] at h
    exact Or.inl ⟨h.2.1, h.2.2⟩
  have hnext : next t e = (snapshot t e.now).2 := by simp only [next, hop]
  rw [hnext]
  cases hv : (snapshot t e.now).1.valid with
  | false =>
    rw [snapshot_invalid hv]
    exact Or.inl ⟨rfl, rfl⟩
  | true =>
    obtain ⟨m, hm, hage, hsnap⟩ := snapshot_valid hv
    obtain ⟨-, -, i, hsrc, -⟩ := measure_ok hm
    rw [hsnap]
    exact Or.inr ⟨hop, m, i, hm, hage, hsrc, rfl, rfl⟩

theorem exec_telemetry (s : Watched) (cs : List Report) :
    (exec watch s cs).telemetry = exec next s.telemetry (cs.map (·.event)) := by
  induction cs generalizing s with
  | nil => rfl
  | cons c cs ih => exact ih (watch s c)

/-- What is pinned was seen as one identity. -/
def PinSeen (past : List (Taken Watched Report)) (s : Watched) : Prop :=
  ∀ k, s.telemetry.sourceInstance = some k →
    ∃ n, s.telemetry.source = some n ∧ Seen past ⟨n, k⟩

/-- **A settled call keeps what is pinned seen.** -/
theorem PinSeen.watch {past : List (Taken Watched Report)} (h : PinSeen past s)
    (ho : Origins past s) (hset : Settled ⟨s, c⟩) : PinSeen (past ++ [⟨s, c⟩]) (watch s c) := by
  intro k hk
  rcases next_source s.telemetry c.event with ⟨hs, hi⟩ | ⟨hop, m, i, hm, hage, hsrc, hs, hi⟩
  · obtain ⟨n, hn, hseen⟩ := h k (hi.symm.trans hk)
    exact ⟨n, hs.trans hn, hseen.mono _⟩
  obtain rfl := Option.some.inj (hi.symm.trans hk)
  refine ⟨m.source, hs, ?_⟩
  cases hpin : s.telemetry.sourceInstance with
  | none =>
    have hwhole := hset hop hpin m i hm hage hsrc.first
    exact (ho i _ hwhole).mono _
  | some k =>
    -- what is pinned already has to fit
    obtain ⟨n, hn, hseen⟩ := h k hpin
    have hk' : k = m.sourceInstance := by
      rcases hsrc.sourceInstance with hno | hsome
      · rw [hpin] at hno
        cases hno
      · exact Option.some.inj (hpin.symm.trans hsome)
    have hn' : n = m.source := by
      rcases hsrc.source with hno | hsome
      · rw [hn] at hno
        cases hno
      · exact Option.some.inj (hn.symm.trans hsome)
    rw [← hk', ← hn']
    exact hseen.mono _

/-- **In a run of settled calls, what is pinned was seen as one identity.** -/
theorem pinned_seen (maxAge : ℚ) (expectedPhases : ℤ) (cs : List Report)
    (h : ∀ x ∈ trace watch (start maxAge expectedPhases) cs, Settled x) :
    PinSeen (trace watch (start maxAge expectedPhases) cs)
      (exec watch (start maxAge expectedPhases) cs) := by
  have hrun : Origins (trace watch (start maxAge expectedPhases) cs)
      (exec watch (start maxAge expectedPhases) cs) ∧
      ((∀ x ∈ trace watch (start maxAge expectedPhases) cs, Settled x) →
        PinSeen (trace watch (start maxAge expectedPhases) cs)
          (exec watch (start maxAge expectedPhases) cs)) := by
    refine history_induction (P := fun cs s =>
      Origins (trace watch (start maxAge expectedPhases) cs) s ∧
      ((∀ x ∈ trace watch (start maxAge expectedPhases) cs, Settled x) →
        PinSeen (trace watch (start maxAge expectedPhases) cs) s)) ?_ (fun cs c hP => ?_) cs
    · constructor
      · rintro i d (hd | hd)
        · cases hd
        · cases hd
      · intro _ k hk
        cases hk
    · rw [trace_snoc]
      refine ⟨hP.1.watch c, fun hset => ?_⟩
      have hbefore := hP.2 fun x hx => hset x (List.mem_append_left _ hx)
      exact hbefore.watch hP.1 (hset _ (by simp))
  exact hrun.2 h

/-- A candidate is what its descriptor holds. -/
theorem candidate_fields {t : GridTelemetry} {n : String} {k : ℤ} {i : Input}
    (h : (n, k, i) ∈ sourceCandidates t) : t.fields (.serviceName i) = some (.name n) ∧
      integralInstance (t.fields (.deviceInstance i)) = some k := by
  obtain ⟨j, -, hj⟩ := List.mem_filterMap.mp h
  unfold candidate at hj
  split at hj
  · next kind name inst hkind hname hinst =>
    split_ifs at hj
    obtain ⟨rfl, rfl, rfl⟩ : name = n ∧ inst = k ∧ j = i := by simpa using hj
    exact ⟨hname, hinst⟩
  · cases hj

/-- **A call that is not settled pins the halves of two devices.** -/
theorem pins_halves (hh : Held s) (h : ¬ Settled ⟨s, c⟩) : ∃ i n k,
    (next s.telemetry c.event).source = some n ∧
      (next s.telemetry c.event).sourceInstance = some k ∧
      (∀ d, s.names i = some d → d.name = n ∧ d.inst ≠ k) ∧
      ∀ d, s.instances i = some d → d.inst = k ∧ d.name ≠ n := by
  simp only [Settled, Classical.not_imp, not_forall] at h
  obtain ⟨hop, hpin, m, i, hm, hage, hfirst, hnot⟩ := h
  obtain ⟨hnames, hinstances⟩ := not_or.mp hnot
  have hmem : (m.source, m.sourceInstance, i) ∈ sourceCandidates s.telemetry :=
    List.mem_of_mem_head? hfirst
  obtain ⟨hname, hinst⟩ := candidate_fields hmem
  have hnext : next s.telemetry c.event = establish s.telemetry m := by
    simp only [next, hop, snapshot, reason, hm, if_neg (not_lt.mpr hage)]
  refine ⟨i, m.source, m.sourceInstance, by rw [hnext]; rfl, by rw [hnext]; rfl, ?_, ?_⟩
  · intro d hd
    have hfield := (hh.name i d hd).symm.trans hname
    have hn : d.name = m.source := by simpa using hfield
    refine ⟨hn, fun hk => hnames ?_⟩
    rw [hd, ← hk, ← hn]
  · intro d hd
    have hk : d.inst = m.sourceInstance := Option.some.inj ((hh.inst i d hd).symm.trans hinst)
    refine ⟨hk, fun hn => hinstances ?_⟩
    rw [hd, ← hk, ← hn]

theorem held_exec (maxAge : ℚ) (expectedPhases : ℤ) (cs : List Report) :
    Held (exec watch (start maxAge expectedPhases) cs) := by
  refine exec_invariant ⟨fun i d hd => ?_, fun i d hd => ?_⟩ fun x _ hx => hx.watch x.input
  · cases hd
  · cases hd

/-- **The pinned identity**, in every run without a configured service.  If every call is settled, the
pair that is pinned was seen as one identity: in one root read, or as the device that a signal is
about.  A call that is not settled pins, for good, a name and an instance that its descriptor has from
two devices. -/
theorem pinned_identity (maxAge : ℚ) (expectedPhases : ℤ) (cs : List Report) :
    ((∀ x ∈ trace watch (start maxAge expectedPhases) cs, Settled x) →
      ∀ n k, (exec watch (start maxAge expectedPhases) cs).telemetry.source = some n →
        (exec watch (start maxAge expectedPhases) cs).telemetry.sourceInstance = some k →
        Seen (trace watch (start maxAge expectedPhases) cs) ⟨n, k⟩) ∧
    ∀ x ∈ trace watch (start maxAge expectedPhases) cs, ¬ Settled x → ∃ i n k,
      (exec watch (start maxAge expectedPhases) cs).telemetry.source = some n ∧
      (exec watch (start maxAge expectedPhases) cs).telemetry.sourceInstance = some k ∧
      (∀ d, x.before.names i = some d → d.name = n ∧ d.inst ≠ k) ∧
      ∀ d, x.before.instances i = some d → d.inst = k ∧ d.name ≠ n := by
  constructor
  · intro h n k hn hk
    obtain ⟨n', hn', hseen⟩ := pinned_seen maxAge expectedPhases cs h k hk
    obtain rfl := Option.some.inj (hn.symm.trans hn')
    exact hseen
  · intro x hx hnot
    obtain ⟨a, b, rfl, hb⟩ := (mem_trace watch).mp hx
    have hheld : Held x.before := hb ▸ held_exec maxAge expectedPhases a
    obtain ⟨i, n, k, hs, hi, hname, hinst⟩ := pins_halves hheld hnot
    have hpin : Pinned n k (next x.before.telemetry x.input.event).requiredPhases
        (next x.before.telemetry x.input.event) := ⟨hs, hi, le_rfl⟩
    have hlast : (exec watch (start maxAge expectedPhases) (a ++ x.input :: b)).telemetry =
        exec next (next x.before.telemetry x.input.event) (b.map (·.event)) := by
      rw [exec_append, exec_cons, ← hb, exec_telemetry]
      rfl
    have hkept := pinned_exec hpin (b.map (·.event))
    rw [hlast]
    exact ⟨i, n, k, hkept.source, hkept.sourceInstance, hname, hinst⟩

/-- A complete reply of the system: one phase, of an external meter or of the inverter itself. -/
def onePhase (name : String) (inst : ℤ) : GridPath → Raw
  | .phaseCount => .other (some 1)
  | .power .L1 => .other (some 420)
  | .source .in0 => .other (some 1)
  | .serviceName .in0 => .text name none
  | .deviceInstance .in0 => .other (some inst)
  | _ => .none

/-- The external meter, instance 30, was read, the system falls back to the inverter's own measurement,
instance 276, and a snapshot is taken after both of its signals. -/
def nativeRun : List Report :=
  [⟨⟨.replace (onePhase "com.victronenergy.grid.meter" 30) none, 0⟩, "", 0⟩,
    ⟨⟨.update "/Ac/In/0/ServiceName" (.text "com.victronenergy.vebus.ttyS4" none), 1⟩, "", 276⟩,
    ⟨⟨.update "/Ac/In/0/DeviceInstance" (.other (some 276)), 1⟩, "com.victronenergy.vebus.ttyS4", 0⟩,
    ⟨⟨.snapshot, 1⟩, "", 0⟩]

/-- What the run pins is the device that both signals are about. -/
theorem pinned_identity_native :
    Seen (trace watch (start 40 0) nativeRun) ⟨"com.victronenergy.vebus.ttyS4", 276⟩ := by
  refine (pinned_identity 40 0 nativeRun).1 ?_ _ _ (by decide +kernel) (by decide +kernel)
  intro x hx hop hpin m i hm hage hfirst
  rcases List.mem_cons.mp hx with rfl | hx
  · cases hop
  rcases List.mem_cons.mp hx with rfl | hx
  · cases hop
  rcases List.mem_cons.mp hx with rfl | hx
  · cases hop
  · obtain rfl := List.mem_singleton.mp hx
    have hhead : (sourceCandidates (exec watch (start 40 0) (nativeRun.take 3)).telemetry).head? =
        some ("com.victronenergy.vebus.ttyS4", 276, .in0) := by decide +kernel
    have h := hfirst.symm.trans hhead
    simp only [Option.some.injEq, Prod.mk.injEq] at h
    obtain ⟨hs, hk, rfl⟩ := h
    rw [hs, hk]
    exact Or.inl (by decide +kernel)

/-- The external meter, instance 30, is not ready when the system falls back to the inverter's own
measurement, instance 276; a snapshot is taken between the two signals, and one after them. -/
def switchRun : List Report :=
  [⟨⟨.replace (onePhase "com.victronenergy.grid.meter" 30) none, 0⟩, "", 0⟩,
    ⟨⟨.update "/Ac/In/0/ServiceName" (.text "com.victronenergy.vebus.ttyS4" none), 1⟩, "", 276⟩,
    ⟨⟨.snapshot, 1⟩, "", 0⟩,
    ⟨⟨.update "/Ac/In/0/DeviceInstance" (.other (some 276)), 1⟩, "com.victronenergy.vebus.ttyS4", 0⟩]

/-- The pair that is pinned is no device that any call showed, and every later snapshot waits for it. -/
theorem pinned_identity_mixed :
    (exec watch (start 40 0) switchRun).telemetry.source = some "com.victronenergy.vebus.ttyS4" ∧
    (exec watch (start 40 0) switchRun).telemetry.sourceInstance = some 30 ∧
    ¬ Seen (trace watch (start 40 0) switchRun) ⟨"com.victronenergy.vebus.ttyS4", 30⟩ ∧
    (snapshot (exec watch (start 40 0) switchRun).telemetry 2).1.invalidReason =
      some .instanceChanged := by
  refine ⟨by decide +kernel, by decide +kernel, by decide +kernel, by decide +kernel⟩

end InverterControl.Telemetry.Identity
