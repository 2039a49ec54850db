import InverterControl.Precharge.Model

/-!
# A pre-charge is enqueued at most once

A call of `accept` leaves a record in the memory and on the file for 48 hours.  `Kept` says so of a
table of records; every effect of a script keeps it, so a crash after any of them does too.
-/

namespace InverterControl.Precharge.AtMostOnce

open InverterControl.Lib.Runs InverterControl.Python InverterControl.Precharge.Model

variable {rs : Records} {id : String} {r : Record} {now : ℚ} {calls : List Acceptance}

/-! ### Records -/

theorem lookup_keep {p : Record → Bool} (h : rs.lookup id = some r) (hp : p r = true) :
    (keep p rs).lookup id = some r := by
  have hmem := (List.mem_dlookup_iff rs.nodupKeys).mp h
  exact (List.mem_dlookup_iff (keep p rs).nodupKeys).mpr (List.mem_filter.mpr ⟨hmem, hp⟩)

/-- Every call that is less than 48 hours old has a record, which lives as long. -/
def Kept (now : ℚ) (calls : List Acceptance) (rs : Records) : Prop :=
  ∀ c ∈ calls, now < c.now + retention →
    ∃ r, rs.lookup c.requestId = some r ∧ c.now + retention ≤ r.until_

theorem Kept.unexpired (h : Kept now calls rs) : Kept now calls (unexpired now rs) := by
  intro c hc hlive
  obtain ⟨r, hr, hle⟩ := h c hc hlive
  exact ⟨r, lookup_keep hr (by simpa using lt_of_lt_of_le hlive hle), hle⟩

theorem Kept.insert (id : String) (r : Record) (h : Kept now calls rs) (hpast : ∀ c ∈ calls, c.now ≤ now)
    (hr : now + retention ≤ r.until_) : Kept now calls (rs.insert id r) := by
  intro c hc hlive
  by_cases hid : c.requestId = id
  · refine ⟨r, by rw [hid, AList.lookup_insert], ?_⟩
    have := hpast c hc
    linarith
  · rw [AList.lookup_insert_ne hid]
    exact h c hc hlive

theorem Kept.append (h : Kept now calls rs) {c : Acceptance} (hr : rs.lookup c.requestId = some r)
    (hle : c.now + retention ≤ r.until_) : Kept now (calls ++ [c]) rs := by
  intro c' hc' hlive
  rcases List.mem_append.mp hc' with hc' | hc'
  · exact h c' hc' hlive
  · obtain rfl := List.mem_singleton.mp hc'
    exact ⟨r, hr, hle⟩

theorem Kept.later {now' : ℚ} (h : Kept now calls rs) (hle : now ≤ now') : Kept now' calls rs :=
  fun c hc hlive => h c hc (lt_of_le_of_lt hle hlive)

/-! ### The invariant -/

/-- A request that passed the checks at `c.now`. -/
def Timely (c : Acceptance) : Prop :=
  ∃ q, readRequest (some c.payload) = .ok q ∧ q.requestId = c.requestId ∧ ¬ requestExpired q c.now

/-- The calls of `accept` up to `now` are remembered and on file, and spaced. -/
structure Safe (now : ℚ) (w : World) : Prop where
  memory : w.inbox.error = false → Kept now w.calls w.inbox.records
  file : ∀ rs, w.journal = .written rs → Kept now w.calls rs
  present : w.journal = .absent → w.calls = []
  past : ∀ c ∈ w.calls, c.now ≤ now
  spaced : w.calls.Pairwise fun a b => a.requestId = b.requestId → a.now + retention ≤ b.now
  timely : ∀ c ∈ w.calls, Timely c

variable {w : World}

theorem Safe.later {now' : ℚ} (h : Safe now w) (hle : now ≤ now') : Safe now' w :=
  ⟨fun he => (h.memory he).later hle, fun rs hrs => (h.file rs hrs).later hle, h.present,
    fun c hc => (h.past c hc).trans hle, h.spaced, h.timely⟩

theorem Safe.start (journal : Journal) (now : ℚ) : Safe now (start journal) :=
  ⟨fun _ c hc => (by cases hc), fun _ _ c hc => (by cases hc), fun _ => rfl,
    fun c hc => (by cases hc), List.Pairwise.nil, fun c hc => (by cases hc)⟩

/-- A restart reads the file, or fails closed. -/
theorem Safe.restart (h : Safe now w) (readable : Bool) : Safe now (restart readable w) := by
  refine ⟨fun he => ?_, h.file, h.present, h.past, h.spaced, h.timely⟩
  cases readable with
  | false => cases he
  | true =>
    simp only [Model.restart, if_true] at he ⊢
    cases hj : w.journal with
    | absent =>
      rw [h.present hj]
      intro c hc
      cases hc
    | unreadable =>
      rw [hj] at he
      cases he
    | written rs => exact h.file rs hj

theorem Safe.remember (h : Safe now w) (hk : Kept now w.calls rs) :
    Safe now (apply w (.remember rs)) :=
  ⟨fun _ => hk, h.file, h.present, h.past, h.spaced, h.timely⟩

theorem Safe.replaceFile (h : Safe now w) (hk : Kept now w.calls rs) :
    Safe now (apply w (.replaceFile rs)) := by
  refine ⟨h.memory, fun rs' hrs' => ?_, fun ha => (by cases ha), h.past, h.spaced, h.timely⟩
  cases hrs'
  exact hk

/-- A call of `accept` is safe once its reservation is remembered and on file. -/
theorem Safe.accept {p : Payload} (h : Safe now w) (hmem : w.inbox.records = rs)
    (hfile : w.journal = .written rs) (hr : rs.lookup id = some r)
    (hle : now + retention ≤ r.until_)
    (hfresh : ∀ c ∈ w.calls, c.requestId = id → c.now + retention ≤ now)
    (htimely : Timely ⟨id, p, now⟩) : Safe now (apply w (.accept id p now)) := by
  have hkept : Kept now (w.calls ++ [⟨id, p, now⟩]) rs := (h.file rs hfile).append hr hle
  refine ⟨fun _ => ?_, fun rs' hrs' => ?_, fun ha => ?_, fun c hc => ?_, ?_, fun c hc => ?_⟩
  · rw [← hmem] at hkept
    exact hkept
  · have hsame : Journal.written rs = .written rs' := hfile.symm.trans hrs'
    cases hsame
    exact hkept
  · have habsent : w.journal = .absent := ha
    rw [hfile] at habsent
    cases habsent
  · rcases List.mem_append.mp hc with hc | hc
    · exact h.past c hc
    · obtain rfl := List.mem_singleton.mp hc
      exact le_rfl
  · refine List.pairwise_append.mpr ⟨h.spaced, List.pairwise_singleton _ _, fun a ha b hb => ?_⟩
    obtain rfl := List.mem_singleton.mp hb
    exact hfresh a ha
  · rcases List.mem_append.mp hc with hc | hc
    · exact h.timely c hc
    · obtain rfl := List.mem_singleton.mp hc
      exact htimely

/-! ### One call -/

/-- A call is safe wherever it is cut off. -/
abbrev Safely (now : ℚ) (w : World) (es : List Effect) : Prop := Throughout apply (Safe now) w es

theorem save_safely (h : Safe now w) (hk : Kept now w.calls rs) (fate : SaveFate) :
    Safely now w (save fate rs).1 := by
  cases fate with
  | completes =>
    have h' := h.replaceFile hk
    exact throughout_cons h (throughout_cons h' (throughout_nil (h'.remember hk)))
  | beforeReplace e => exact throughout_nil h
  | afterReplace e => exact throughout_cons h (throughout_nil (h.replaceFile hk))

/-- A save that does not raise has done both. -/
theorem exec_save {fate : SaveFate} {es : List Effect} (h : save fate rs = (es, none)) (w : World) :
    exec apply w es = { w with inbox := { w.inbox with records := rs }, journal := .written rs } := by
  cases fate with
  | completes =>
    obtain ⟨rfl, -⟩ := Prod.mk.inj h
    rfl
  | beforeReplace e => cases (Prod.mk.inj h).2
  | afterReplace e => cases (Prod.mk.inj h).2

/-- A save calls nobody. -/
theorem exec_save_calls (fate : SaveFate) (rs : Records) (w : World) :
    (exec apply w (save fate rs).1).calls = w.calls := by
  cases fate <;> rfl

/-- No call of `accept` for the request is less than 48 hours old. -/
theorem fresh_of_decided {received : ℚ} (hk : Kept now calls rs) (hle : received ≤ now)
    (hd : decided received (rs.lookup id) = none) :
    ∀ c ∈ calls, c.requestId = id → c.now + retention ≤ now := by
  rintro c hc rfl
  by_contra hlive
  obtain ⟨r, hr, hr'⟩ := hk c hc (not_le.mp hlive)
  unfold decided at hd
  rw [hr] at hd
  simp only [ite_eq_right_iff, reduceCtorEq, imp_false, not_lt] at hd
  exact hlive (hr'.trans (hd.trans hle))

variable {d : Delivery} {q : Request} {p : Payload}

/-- From the call of `accept` on. -/
theorem enqueueLocked_safely (h : Safe d.now w) (hmem : w.inbox.records = rs)
    (hfile : w.journal = .written rs) (hr : rs.lookup q.requestId = some r)
    (hle : d.now + retention ≤ r.until_)
    (hfresh : ∀ c ∈ w.calls, c.requestId = q.requestId → c.now + retention ≤ d.now)
    (htimely : Timely ⟨q.requestId, p, d.now⟩) : Safely d.now w (enqueueLocked d q p rs).2 := by
  have h' := h.accept hmem hfile hr hle hfresh htimely
  have hkept : Kept d.now (apply w (.accept q.requestId p d.now)).calls rs := h'.file rs hfile
  have hconfirm := save_safely h' (hkept.insert q.requestId
    ⟨.accepted, d.now + retention, true⟩ h'.past le_rfl) d.confirm
  unfold enqueueLocked
  cases d.accept with
  | some e => exact throughout_cons h (throughout_nil h')
  | none =>
    cases hs : save d.confirm (rs.insert q.requestId ⟨.accepted, d.now + retention, true⟩) with
    | mk es raised =>
      rw [hs] at hconfirm
      cases raised with
      | none => exact throughout_cons h hconfirm
      | some e =>
        cases e with
        | other => exact throughout_cons h hconfirm
        | handled =>
          refine throughout_cons h (hconfirm.append ?_)
          refine throughout_cons hconfirm.end (throughout_nil (hconfirm.end.remember ?_))
          have hcalls := exec_save_calls d.confirm
            (rs.insert q.requestId ⟨.accepted, d.now + retention, true⟩)
            (apply w (.accept q.requestId p d.now))
          rw [hs] at hcalls
          rw [hcalls]
          exact hkept

/-- A request that is reserved, in memory first. -/
theorem reserveLocked_safely (h : Safe d.now w) (hk : Kept d.now w.calls rs)
    (hr : rs.lookup q.requestId = some r) (hle : d.now + retention ≤ r.until_)
    (hfresh : ∀ c ∈ w.calls, c.requestId = q.requestId → c.now + retention ≤ d.now)
    (htimely : Timely ⟨q.requestId, p, d.now⟩) : Safely d.now w (reserveLocked d q p rs).2 := by
  have hremember := h.remember hk
  have hreserve := save_safely hremember hk d.reserve
  unfold reserveLocked
  cases hs : save d.reserve rs with
  | mk es raised =>
    rw [hs] at hreserve
    cases raised with
    | some e => exact throughout_cons h hreserve
    | none =>
      refine throughout_cons h (hreserve.append ?_)
      have hend := hreserve.end
      have hexec := exec_save hs (apply w (.remember rs))
      simp only at hend ⊢
      rw [hexec] at hend ⊢
      exact enqueueLocked_safely hend rfl rfl hr hle hfresh htimely

/-- A call under the lock, of a request whose earlier calls are all over. -/
theorem acceptRequestLocked_safely (h : Safe d.now w) (he : w.inbox.error = false)
    (hfresh : ∀ c ∈ w.calls, c.requestId = q.requestId → c.now + retention ≤ d.now)
    (htimely : Timely ⟨q.requestId, p, d.now⟩) :
    Safely d.now w (acceptRequestLocked d q p w.inbox).2 := by
  have hlive := (h.memory he).unexpired
  unfold acceptRequestLocked
  cases d.suppressed with
  | error e => exact throughout_nil h
  | ok blocked =>
    simp only
    split_ifs
    · exact throughout_nil h
    · have hsave := save_safely h (hlive.insert q.requestId
        ⟨.suppressed, d.now + retention, false⟩ h.past le_rfl) d.reserve
      unfold suppressLocked
      cases hs : save d.reserve ((unexpired d.now w.inbox.records).insert q.requestId
          ⟨.suppressed, d.now + retention, false⟩) with
      | mk es raised =>
        rw [hs] at hsave
        cases raised <;> exact hsave
    · have hkept := hlive.insert q.requestId
        ⟨.uncertain, d.now + retention, false⟩ h.past le_rfl
      exact reserveLocked_safely h hkept (AList.lookup_insert _) le_rfl hfresh htimely

/-- A call has no effect, or decides anew a request that is well formed, in time and not known. -/
theorem handle_cases (d : Delivery) (s : PrechargeInbox) :
    (handle d s).2 = [] ∨ ∃ p q, readRequest (some p) = .ok q ∧ s.error = false ∧
      decided d.received (s.records.lookup q.requestId) = none ∧ ¬ requestExpired q d.now ∧
      (handle d s).2 = (acceptRequestLocked d q p s).2 := by
  unfold handle
  split
  · next p q hp hq =>
    split
    · exact Or.inl rfl
    split
    · exact Or.inl rfl
    unfold handleLocked
    split
    · exact Or.inl rfl
    next he =>
    split
    · exact Or.inl rfl
    next hd =>
    split
    · exact Or.inl rfl
    next hexp => exact Or.inr ⟨p, q, hp ▸ hq, Bool.of_not_eq_true he, hd, hexp, rfl⟩
  · exact Or.inl rfl
  · exact Or.inl rfl

/-- **Every call is safe**, wherever it is cut off. -/
theorem handle_safely (h : Safe d.now w) (hle : d.received ≤ d.now) :
    Safely d.now w (handle d w.inbox).2 := by
  rcases handle_cases d w.inbox with hnil | ⟨p, q, hq, he, hd, hexp, heq⟩
  · rw [hnil]
    exact throughout_nil h
  · rw [heq]
    exact acceptRequestLocked_safely h he (fresh_of_decided (h.memory he) hle hd)
      ⟨q, hq, rfl, hexp⟩

/-! ### Runs -/

/-- The call that an event makes. -/
def delivery : Event → Option Delivery
  | .handle d => some d
  | .crash d _ _ => some d
  | .restart _ => none

/-- **Every event is safe.** -/
theorem Safe.next (h : Safe now w) {e : Event}
    (hclock : ∀ d, delivery e = some d → d.received ≤ d.now ∧ d.now = now) : Safe now (next w e) := by
  cases e with
  | handle d =>
    obtain ⟨hle, rfl⟩ := hclock d rfl
    exact (handle_safely h hle).end
  | crash d effects readable =>
    obtain ⟨hle, rfl⟩ := hclock d rfl
    exact (handle_safely h hle effects).restart readable
  | restart readable => exact h.restart readable

/-- A wall clock that does not go back: within a call, and from call to call under the lock. -/
def ClockForward (es : List Event) : Prop :=
  (∀ d ∈ es.filterMap delivery, d.received ≤ d.now) ∧
    ((es.filterMap delivery).map (·.now)).Pairwise (· ≤ ·)

theorem safe_run (journal : Journal) (es : List Event) (hclock : ClockForward es) :
    ∀ now, (∀ d ∈ es.filterMap delivery, d.now ≤ now) → Safe now (exec next (start journal) es) := by
  revert hclock
  refine history_induction (P := fun is w => ClockForward is →
    ∀ now, (∀ d ∈ is.filterMap delivery, d.now ≤ now) → Safe now w) ?_ ?_ es
  · exact fun _ now _ => Safe.start journal now
  · intro is e ih ⟨hwithin, hpair⟩ now hnow
    rw [List.filterMap_append] at hwithin hnow
    rw [List.filterMap_append, List.map_append] at hpair
    obtain ⟨hpast, -, hcross⟩ := List.pairwise_append.mp hpair
    have hih := ih ⟨fun d hd => hwithin d (List.mem_append_left _ hd), hpast⟩
    cases hd : delivery e with
    | none =>
      refine (hih now fun d' hd' => hnow d' (List.mem_append_left _ hd')).next fun d hd' => ?_
      rw [hd] at hd'
      cases hd'
    | some d =>
      have hmem : d ∈ [e].filterMap delivery := by simp [hd]
      have hbefore : Safe d.now (exec Model.next (Model.start journal) is) :=
        hih d.now fun d' hd' => hcross _ (List.mem_map_of_mem hd') _ (List.mem_map_of_mem hmem)
      refine (hbefore.next fun d' hd' => ?_).later (hnow d (List.mem_append_right _ hmem))
      rw [hd] at hd'
      obtain rfl := Option.some.inj hd'
      exact ⟨hwithin d (List.mem_append_right _ hmem), rfl⟩

/-- A payload is in time for less than 48 hours. -/
theorem not_timely_twice {a b : Acceptance} (ha : Timely a) (hb : Timely b)
    (hspaced : a.requestId = b.requestId → a.now + retention ≤ b.now) : a.payload ≠ b.payload := by
  intro hsame
  obtain ⟨q, hq, hid, hexp⟩ := ha
  obtain ⟨q', hq', hid', hexp'⟩ := hb
  rw [hsame, hq'] at hq
  cases hq
  have hle := hspaced (hid.symm.trans hid')
  unfold requestExpired at hexp hexp'
  push Not at hexp hexp'
  obtain ⟨⟨-, hissued⟩, -⟩ := hexp
  obtain ⟨-, hbefore, hlife⟩ := hexp'
  unfold retention at hle
  linarith

/-- **At most once.**  In every run of calls, failures, crashes and restarts whose clock does not go
back, from any journal: two calls of `accept` for one identifier are at least 48 hours apart, and none
are for the same payload. -/
theorem accept_at_most_once (journal : Journal) (es : List Event) (hclock : ClockForward es) :
    ((exec next (start journal) es).calls.Pairwise fun a b =>
      a.requestId = b.requestId → a.now + retention ≤ b.now) ∧
    ((exec next (start journal) es).calls.map (·.payload)).Nodup := by
  obtain ⟨now, hnow⟩ := ((es.filterMap delivery).map (·.now)).finite_toSet.bddAbove
  have hsafe := safe_run journal es hclock now fun d hd => hnow (List.mem_map_of_mem hd)
  refine ⟨hsafe.spaced, List.pairwise_map.mpr ?_⟩
  have hall := List.Pairwise.and_mem.mp hsafe.spaced
  exact hall.imp fun ⟨ha, hb, hspaced⟩ =>
    not_timely_twice (hsafe.timely _ ha) (hsafe.timely _ hb) hspaced

/-- A request of the second `t`. -/
def solarRequest (t : ℕ) : Payload where
  requestId := .str "day-1"
  version := .int 1
  trigger := .str "low_solar_forecast"
  forecastEnergyWh := .int 900
  thresholdWh := .int 4000
  issuedAt := .int t
  expiresAt := .int (t + 300)

/-- Its delivery `delay` seconds later. -/
def solarDelivery (t delay : ℕ) (confirm : SaveFate) : Delivery where
  payload := some (solarRequest t)
  received := t + delay
  now := t + delay
  suppressed := .ok false
  reserve := .completes
  accept := none
  confirm := confirm

/-- A delivery whose confirmation fails after it was published, a duplicate, a crash right after the
reservation of another process, and a request that takes up the identifier two days later. -/
def solarRun : List Event :=
  [.handle (solarDelivery 1000 0 (.afterReplace .handled)), .handle (solarDelivery 1000 5 .completes),
    .crash (solarDelivery 1000 8 .completes) 2 true, .handle (solarDelivery 1000 9 .completes),
    .handle (solarDelivery 173800 0 .completes)]

theorem accept_at_most_once_solar :
    (exec next (start .absent) solarRun).calls =
      [⟨"day-1", solarRequest 1000, 1000⟩, ⟨"day-1", solarRequest 173800, 173800⟩] ∧
    ((exec next (start .absent) solarRun).calls.Pairwise fun a b =>
      a.requestId = b.requestId → a.now + retention ≤ b.now) ∧
    ((exec next (start .absent) solarRun).calls.map (·.payload)).Nodup := by
  have hcalls : (exec next (start .absent) solarRun).calls =
      [⟨"day-1", solarRequest 1000, 1000⟩, ⟨"day-1", solarRequest 173800, 173800⟩] := by
    decide +kernel
  have hclock : ClockForward solarRun := by
    unfold ClockForward
    constructor
    · simp [solarRun, solarDelivery, delivery]
    · simp [solarRun, solarDelivery, delivery]
      norm_num
  exact ⟨hcalls, accept_at_most_once .absent solarRun hclock⟩

end InverterControl.Precharge.AtMostOnce
