import InverterControl.Precharge.AtMostOnce

/-!
# Pre-charge decisions are stable

Every table of records that a call hands on is the living part of the memory with one new record, for a
request that had none (`handle_tables`).  So a decision stays in the memory and on the file for its 48
hours, through saves that fail half way and through restarts.
-/

namespace InverterControl.Precharge.Stable

open InverterControl.Lib.Runs InverterControl.Python InverterControl.Precharge.Model
open InverterControl.Precharge.AtMostOnce

variable {rs : Records} {id : String} {r : Record} {now : ℚ} {w : World} {d : Delivery} {q : Request}
  {s : PrechargeInbox}

/-! ### The tables of a script -/

/-- The tables that a script hands to the memory or to the file. -/
def tables (es : List Effect) : List Records :=
  es.filterMap fun
    | .remember rs => some rs
    | .replaceFile rs => some rs
    | .accept .. => none

@[simp] theorem tables_nil : tables [] = [] := rfl

@[simp] theorem tables_remember (es : List Effect) : tables (.remember rs :: es) = rs :: tables es := rfl

@[simp] theorem tables_replaceFile (es : List Effect) :
    tables (.replaceFile rs :: es) = rs :: tables es := rfl

@[simp] theorem tables_accept (p : Payload) (es : List Effect) :
    tables (.accept id p now :: es) = tables es := rfl

@[simp] theorem tables_append (es es' : List Effect) :
    tables (es ++ es') = tables es ++ tables es' := List.filterMap_append

theorem tables_take {es : List Effect} {n : ℕ} (h : rs ∈ tables (es.take n)) : rs ∈ tables es := by
  obtain ⟨e, he, hrs⟩ := List.mem_filterMap.mp h
  exact List.mem_filterMap.mpr ⟨e, List.mem_of_mem_take he, hrs⟩

theorem mem_tables_replaceFile {es : List Effect} (h : Effect.replaceFile rs ∈ es) :
    rs ∈ tables es := List.mem_filterMap.mpr ⟨_, h, rfl⟩

theorem mem_tables_save (fate : SaveFate) (rs rs' : Records) (h : rs' ∈ tables (save fate rs).1) :
    rs' = rs := by
  cases fate with
  | completes => simpa [save] using h
  | beforeReplace e => cases h
  | afterReplace e => simpa [save] using h

/-- A record as a call at `now` makes it. -/
structure Made (now : ℚ) (r : Record) : Prop where
  until_ : r.until_ = now + retention
  queued : r.queued = true → r.status = .accepted

/-- A new record is put beside the living ones. -/
def Extends (now : ℚ) (id : String) (old rs : Records) : Prop :=
  ∃ r, Made now r ∧ rs = (unexpired now old).insert id r

/-- The tables of a request that is enqueued: those of a new record over `rs`. -/
theorem enqueueLocked_tables {p : Payload} {base rs' : Records}
    (hrs : rs = base.insert q.requestId ⟨.uncertain, d.now + retention, false⟩)
    (h : rs' ∈ tables (enqueueLocked d q p rs).2) :
    ∃ r, Made d.now r ∧ rs' = base.insert q.requestId r := by
  have hconfirmed : ∃ r, Made d.now r ∧
      rs.insert q.requestId ⟨.accepted, d.now + retention, true⟩ = base.insert q.requestId r :=
    ⟨⟨.accepted, d.now + retention, true⟩, ⟨rfl, fun _ => rfl⟩, by rw [hrs, AList.insert_insert]⟩
  have hreserved : ∃ r, Made d.now r ∧ rs = base.insert q.requestId r :=
    ⟨⟨.uncertain, d.now + retention, false⟩, ⟨rfl, fun hq => by cases hq⟩, hrs⟩
  unfold enqueueLocked at h
  cases hacc : d.accept with
  | some e => simp [hacc] at h
  | none =>
    have hmem := fun rs' => mem_tables_save d.confirm
      (rs.insert q.requestId ⟨.accepted, d.now + retention, true⟩) rs'
    cases hs : save d.confirm (rs.insert q.requestId ⟨.accepted, d.now + retention, true⟩) with
    | mk es raised =>
      rw [hs] at hmem
      simp only [hacc, hs] at h
      rcases raised with _ | _ | _
      · rw [tables_accept] at h
        rwa [hmem rs' h]
      · rw [tables_accept, tables_append, List.mem_append] at h
        rcases h with h | h
        · rwa [hmem rs' h]
        · rwa [List.mem_singleton.mp h]
      · rw [tables_accept] at h
        rwa [hmem rs' h]

theorem acceptRequestLocked_tables {p : Payload} (h : rs ∈ tables (acceptRequestLocked d q p s).2) :
    Extends d.now q.requestId s.records rs := by
  unfold acceptRequestLocked at h
  cases hsup : d.suppressed with
  | error e => simp [hsup] at h
  | ok blocked =>
    simp only [hsup] at h
    split_ifs at h
    · cases h
    · refine ⟨⟨.suppressed, d.now + retention, false⟩, ⟨rfl, fun hq => by cases hq⟩, ?_⟩
      unfold suppressLocked at h
      have hmem := fun rs' => mem_tables_save d.reserve
        ((unexpired d.now s.records).insert q.requestId
          ⟨.suppressed, d.now + retention, false⟩) rs'
      cases hs : save d.reserve ((unexpired d.now s.records).insert q.requestId
          ⟨.suppressed, d.now + retention, false⟩) with
      | mk es raised =>
        rw [hs] at hmem h
        cases raised <;> exact hmem rs h
    · have hreserved : Extends d.now q.requestId s.records ((unexpired d.now s.records).insert
          q.requestId ⟨.uncertain, d.now + retention, false⟩) :=
        ⟨_, ⟨rfl, fun hq => by cases hq⟩, rfl⟩
      unfold reserveLocked at h
      have hmem := fun rs' => mem_tables_save d.reserve
        ((unexpired d.now s.records).insert q.requestId
          ⟨.uncertain, d.now + retention, false⟩) rs'
      cases hs : save d.reserve ((unexpired d.now s.records).insert q.requestId
          ⟨.uncertain, d.now + retention, false⟩) with
      | mk es raised =>
        rw [hs] at hmem
        simp only [hs] at h
        cases raised with
        | some e =>
          rcases List.mem_cons.mp h with rfl | h
          · exact hreserved
          · rwa [hmem rs h]
        | none =>
          rw [tables_remember, tables_append] at h
          rcases List.mem_cons.mp h with rfl | h
          · exact hreserved
          rcases List.mem_append.mp h with h | h
          · rwa [hmem rs h]
          · exact enqueueLocked_tables rfl h

/-- **The tables of a call**: the living records, with a new one for a request that has none. -/
theorem handle_tables (h : rs ∈ tables (handle d s).2) :
    ∃ p q, readRequest (some p) = .ok q ∧ s.error = false ∧
      decided d.received (s.records.lookup q.requestId) = none ∧ ¬ requestExpired q d.now ∧
      Extends d.now q.requestId s.records rs := by
  rcases handle_cases d s with hnil | ⟨p, q, hq, he, hd, hexp, heq⟩
  · rw [hnil] at h
    cases h
  · rw [heq] at h
    exact ⟨p, q, hq, he, hd, hexp, acceptRequestLocked_tables h⟩

/-! ### A table is valid, and keeps what is alive -/

/-- Every record is one that `__init__` accepts. -/
def Valid (rs : Records) : Prop := ∀ e ∈ rs.entries, validRecord e

theorem load_error_of_valid (h : Valid rs) : (load (.written rs)).error = false := by
  simp only [load, decide_eq_false_iff_not, not_not]
  exact h

theorem Valid.unexpired (h : Valid rs) (now : ℚ) : Valid (unexpired now rs) :=
  fun e he => h e (List.mem_of_mem_filter he)

theorem Valid.insert (h : Valid rs) (hr : validRecord ⟨id, r⟩) : Valid (rs.insert id r) := by
  intro e he
  rw [AList.entries_insert] at he
  rcases List.mem_cons.mp he with rfl | he
  · exact hr
  · exact h e ((List.kerase_sublist id rs.entries).subset he)

theorem readNumbers_ok {p : Payload} (h : readNumbers id p = .ok q) :
    q.requestId = id ∧ 0 ≤ q.issuedAt := by
  unfold readNumbers at h
  split at h
  · cases h
  split at h
  · cases h
  split at h
  · cases h
  next issued hissued =>
  split at h
  · cases h
  obtain rfl := Except.ok.inj h
  refine ⟨rfl, ?_⟩
  unfold nonnegative at hissued
  split at hissued
  · split_ifs at hissued with hle
    obtain rfl := Option.some.inj hissued
    exact hle
  · cases hissued

theorem readRequest_ok {payload : Option Payload} (h : readRequest payload = .ok q) :
    validRequestId q.requestId = true ∧ 0 ≤ q.issuedAt := by
  unfold readRequest at h
  split at h
  · cases h
  split at h
  · split_ifs at h with hid
    split at h
    · cases h
    · next hq =>
      cases h
      obtain ⟨rfl, hissued⟩ := readNumbers_ok hq
      exact ⟨by simpa using hid, hissued⟩
  · cases h

theorem valid_of_tables (hs : Valid s.records) (h : rs ∈ tables (handle d s).2) : Valid rs := by
  obtain ⟨p, q, hq, -, -, hexp, r, hmade, rfl⟩ := handle_tables h
  obtain ⟨hid, hissued⟩ := readRequest_ok hq
  refine (hs.unexpired d.now).insert ⟨hid, hmade.queued, ?_⟩
  unfold requestExpired at hexp
  push Not at hexp
  have huntil := hmade.until_
  simp only [retention] at huntil
  linarith [hexp.1.2]

/-- A record that is alive is in every table. -/
theorem lookup_of_tables (hr : s.records.lookup id = some r) (hle : d.received ≤ d.now)
    (hlive : d.now < r.until_) (h : rs ∈ tables (handle d s).2) : rs.lookup id = some r := by
  obtain ⟨p, q, -, -, hd, -, r', -, rfl⟩ := handle_tables h
  have hne : id ≠ q.requestId := by
    rintro rfl
    rw [hr] at hd
    simp only [decided, ite_eq_right_iff, reduceCtorEq, imp_false, not_lt] at hd
    linarith
  rw [AList.lookup_insert_ne hne]
  exact lookup_keep hr (by simpa using hlive)

/-! ### What every process keeps -/

/-- A process without the error flag has valid records. -/
def Sound (w : World) : Prop := w.inbox.error = false → Valid w.inbox.records

theorem apply_error (e : Effect) (w : World) : (apply w e).inbox.error = w.inbox.error := by
  cases e <;> rfl

/-- The error flag is the process's. -/
theorem exec_error (es : List Effect) (w : World) :
    (exec apply w es).inbox.error = w.inbox.error :=
  exec_invariant (P := fun w' : World => w'.inbox.error = w.inbox.error) rfl fun x _ h =>
    (apply_error x.input x.before).trans h

/-- The effects leave a memory that was there, or that is one of their tables. -/
theorem exec_memory {P : Records → Prop} {es : List Effect} (h : P w.inbox.records)
    (hes : ∀ rs ∈ tables es, P rs) : P (exec apply w es).inbox.records := by
  induction es generalizing w with
  | nil => exact h
  | cons e es ih =>
    cases e with
    | remember rs =>
      exact ih (w := apply w (.remember rs)) (hes rs (by simp)) fun rs' h' => hes rs' (by simp [h'])
    | replaceFile rs =>
      exact ih (w := apply w (.replaceFile rs)) h fun rs' h' => hes rs' (by simp [h'])
    | accept requestId p now => exact ih (w := apply w (.accept requestId p now)) h hes

/-- The same for a file that is written. -/
theorem exec_file {P : Records → Prop} {es : List Effect} (h : ∃ rs, w.journal = .written rs ∧ P rs)
    (hes : ∀ rs ∈ tables es, P rs) : ∃ rs, (exec apply w es).journal = .written rs ∧ P rs := by
  induction es generalizing w with
  | nil => exact h
  | cons e es ih =>
    cases e with
    | remember rs =>
      exact ih (w := apply w (.remember rs)) h fun rs' h' => hes rs' (by simp [h'])
    | replaceFile rs =>
      exact ih (w := apply w (.replaceFile rs)) ⟨rs, rfl, hes rs (by simp)⟩
        fun rs' h' => hes rs' (by simp [h'])
    | accept requestId p now => exact ih (w := apply w (.accept requestId p now)) h hes

theorem load_valid (journal : Journal) (h : (load journal).error = false) :
    Valid (load journal).records := by
  cases journal with
  | absent => intro e he; cases he
  | unreadable => cases h
  | written rs =>
    simp only [load, decide_eq_false_iff_not, not_not] at h
    exact h

/-- A call without the error flag keeps the records valid; one with it has no tables. -/
theorem Sound.effects (h : Sound w) (n : ℕ) :
    Sound (exec apply w ((handle d w.inbox).2.take n)) := by
  intro he
  rw [exec_error] at he
  exact exec_memory (h he) fun rs hrs => valid_of_tables (h he) (tables_take hrs)

theorem Sound.next (h : Sound w) (e : Event) : Sound (next w e) := by
  cases e with
  | handle d =>
    have := h.effects (d := d) (handle d w.inbox).2.length
    rwa [List.take_length] at this
  | crash d effects readable => exact load_valid _
  | restart readable => exact load_valid _

theorem sound_run (journal : Journal) (es : List Event) : Sound (exec next (start journal) es) :=
  exec_invariant (load_valid journal) fun x _ h => h.next x.input

/-! ### A decision that was reported -/

/-- A record is in the memory and on the file, and both can be read back. -/
structure Settled (id : String) (r : Record) (w : World) : Prop where
  error : w.inbox.error = false
  memory : w.inbox.records.lookup id = some r
  valid : Valid w.inbox.records
  file : ∃ rs, w.journal = .written rs ∧ Valid rs ∧ rs.lookup id = some r

/-- The restarts of a run find the journal that is there. -/
def readsBack : Event → Bool
  | .handle _ => true
  | .crash _ _ readable => readable
  | .restart readable => readable

theorem Settled.effects (h : Settled id r w) (hle : d.received ≤ d.now) (hlive : d.now < r.until_)
    (n : ℕ) : Settled id r (exec apply w ((handle d w.inbox).2.take n)) := by
  have hlookup : ∀ rs ∈ tables ((handle d w.inbox).2.take n), rs.lookup id = some r :=
    fun rs hrs => lookup_of_tables h.memory hle hlive (tables_take hrs)
  have hvalid : ∀ rs ∈ tables ((handle d w.inbox).2.take n), Valid rs :=
    fun rs hrs => valid_of_tables h.valid (tables_take hrs)
  refine ⟨(exec_error _ w).trans h.error, ?_, exec_memory h.valid hvalid,
    exec_file h.file fun rs hrs => ⟨hvalid rs hrs, hlookup rs hrs⟩⟩
  exact exec_memory (P := fun rs => rs.lookup id = some r) h.memory hlookup

theorem Settled.restart (h : Settled id r w) : Settled id r (restart true w) := by
  obtain ⟨rs, hrs, hvalid, hr⟩ := h.file
  refine ⟨?_, ?_, ?_, rs, hrs, hvalid, hr⟩
  · simp only [Model.restart, if_true, hrs]
    exact load_error_of_valid hvalid
  · simp only [Model.restart, if_true, hrs]
    exact hr
  · simp only [Model.restart, if_true, hrs]
    exact hvalid

theorem Settled.next (h : Settled id r w) {e : Event} (hread : readsBack e = true)
    (hclock : ∀ d, delivery e = some d → d.received ≤ d.now ∧ d.now < r.until_) :
    Settled id r (next w e) := by
  cases e with
  | handle d =>
    obtain ⟨hle, hlive⟩ := hclock d rfl
    have := h.effects hle hlive (handle d w.inbox).2.length
    rwa [List.take_length] at this
  | crash d effects readable =>
    obtain rfl : readable = true := hread
    obtain ⟨hle, hlive⟩ := hclock d rfl
    exact (h.effects hle hlive effects).restart
  | restart readable =>
    obtain rfl : readable = true := hread
    exact h.restart

/-- The decision that a response reports as taken now. -/
def takes : Status → Option Decision
  | .accepted => some .accepted
  | .suppressed => some .suppressed
  | _ => none

/-- A record that `_previous_result` reports as decided. -/
def reports (r : Record) (decision : Decision) : Prop :=
  r.status = decision ∧ decision ≠ .uncertain ∧ (decision = .accepted → r.queued = true)

/-- The script ends with a save that completes, of a table that reports the decision. -/
structure Concludes (now : ℚ) (id : String) (decision : Decision) (es : List Effect) (r : Record)
    (rs : Records) : Prop where
  ends : ∃ es', es = es' ++ [.replaceFile rs, .remember rs]
  lookup : rs.lookup id = some r
  until_ : r.until_ = now + retention
  reports : reports r decision

theorem save_completes {fate : SaveFate} {es : List Effect} (h : save fate rs = (es, none)) :
    es = [.replaceFile rs, .remember rs] := by
  cases fate with
  | completes => exact (congrArg Prod.fst h).symm
  | beforeReplace e => cases congrArg Prod.snd h
  | afterReplace e => cases congrArg Prod.snd h

theorem failed_status {e : Raised} {resp : Response} (h : failed id e = some resp) :
    takes resp.status = none := by
  cases e with
  | handled =>
    obtain rfl := Option.some.inj h
    rfl
  | other => cases h

variable {resp : Response} {decision : Decision}

theorem enqueueLocked_concludes {p : Payload} (h : (enqueueLocked d q p rs).1 = some resp)
    (ht : takes resp.status = some decision) : resp.requestId = some q.requestId ∧
      ∃ r rs', Concludes d.now q.requestId decision (enqueueLocked d q p rs).2 r rs' := by
  unfold enqueueLocked at h ⊢
  cases hacc : d.accept with
  | some e =>
    simp only [hacc] at h
    rw [failed_status h] at ht
    cases ht
  | none =>
    cases hs : save d.confirm (rs.insert q.requestId ⟨.accepted, d.now + retention, true⟩) with
    | mk es raised =>
      simp only [hacc, hs] at h ⊢
      rcases raised with _ | _ | _
      · obtain rfl := Option.some.inj h
        obtain rfl := Option.some.inj ht
        rw [save_completes hs]
        exact ⟨rfl, ⟨.accepted, d.now + retention, true⟩, _,
          ⟨⟨[.accept q.requestId p d.now], rfl⟩, AList.lookup_insert _, rfl, rfl, by simp,
            fun _ => rfl⟩⟩
      · simp only at h
        rw [failed_status h] at ht
        cases ht
      · cases h

theorem reserveLocked_concludes {p : Payload} (h : (reserveLocked d q p rs).1 = some resp)
    (ht : takes resp.status = some decision) : resp.requestId = some q.requestId ∧
      ∃ r rs', Concludes d.now q.requestId decision (reserveLocked d q p rs).2 r rs' := by
  unfold reserveLocked at h ⊢
  cases hs : save d.reserve rs with
  | mk es raised =>
    simp only [hs] at h ⊢
    cases raised with
    | some e =>
      simp only at h
      rw [failed_status h] at ht
      cases ht
    | none =>
      obtain ⟨hid, r, rs', ⟨es', hends⟩, hr, huntil, hreports⟩ := enqueueLocked_concludes h ht
      refine ⟨hid, r, rs', ⟨⟨.remember rs :: (es ++ es'), ?_⟩, hr, huntil, hreports⟩⟩
      rw [hends]
      simp only [List.cons_append, List.append_assoc]

theorem acceptRequestLocked_concludes {p : Payload}
    (h : (acceptRequestLocked d q p s).1 = some resp) (ht : takes resp.status = some decision) :
    resp.requestId = some q.requestId ∧
      ∃ r rs', Concludes d.now q.requestId decision (acceptRequestLocked d q p s).2 r rs' := by
  unfold acceptRequestLocked at h ⊢
  cases hsup : d.suppressed with
  | error e =>
    simp only [hsup] at h
    rw [failed_status h] at ht
    cases ht
  | ok blocked =>
    simp only [hsup] at h ⊢
    split_ifs at h ⊢
    · obtain rfl := Option.some.inj h
      cases ht
    · unfold suppressLocked at h ⊢
      cases hs : save d.reserve ((unexpired d.now s.records).insert q.requestId
          ⟨.suppressed, d.now + retention, false⟩) with
      | mk es raised =>
        simp only [hs] at h ⊢
        cases raised with
        | none =>
          obtain rfl := Option.some.inj h
          obtain rfl := Option.some.inj ht
          rw [save_completes hs]
          exact ⟨rfl, ⟨.suppressed, d.now + retention, false⟩, _,
            ⟨⟨[], rfl⟩, AList.lookup_insert _, rfl, rfl, by simp, fun hd => by cases hd⟩⟩
        | some e =>
          rw [failed_status h] at ht
          cases ht
    · exact reserveLocked_concludes h ht

/-- A new decision is never a duplicate. -/
theorem acceptRequestLocked_status {p : Payload} (h : (acceptRequestLocked d q p s).1 = some resp) :
    resp.status ≠ .duplicate := by
  intro hdup
  have hfailed {e : Raised} (h' : failed q.requestId e = some resp) : False := by
    cases e with
    | handled =>
      obtain rfl := Option.some.inj h'
      cases hdup
    | other => cases h'
  unfold acceptRequestLocked suppressLocked reserveLocked enqueueLocked at h
  split at h
  · exact hfailed h
  split_ifs at h
  · obtain rfl := Option.some.inj h
    cases hdup
  · split at h
    · obtain rfl := Option.some.inj h
      cases hdup
    · exact hfailed h
  · split at h
    · exact hfailed h
    · simp only at h
      split at h
      · exact hfailed h
      · split at h
        · obtain rfl := Option.some.inj h
          cases hdup
        · exact hfailed (e := .handled) h
        · cases h

/-- The answer of an earlier decision takes none. -/
theorem previousResult_takes (id : String) (r : Record) :
    takes (previousResult id r).status = none := by
  unfold previousResult
  split_ifs <;> rfl

/-- A payload that is not well formed is rejected. -/
theorem readRequest_error {p : Payload} (h : readRequest (some p) = .error resp) :
    resp.status = .rejected := by
  unfold readRequest at h
  simp only at h
  split at h
  · split_ifs at h
    · obtain rfl := Except.error.inj h
      rfl
    · obtain rfl := Except.error.inj h
      rfl
    split at h
    · obtain rfl := Except.error.inj h
      rfl
    · cases h
  · obtain rfl := Except.error.inj h
    rfl

/-- **A decision is reported when it is on the file and in the memory.** -/
theorem handle_concludes (h : (handle d s).1 = some resp) (ht : takes resp.status = some decision) :
    s.error = false ∧ ∃ id r rs, resp.requestId = some id ∧
      Concludes d.now id decision (handle d s).2 r rs := by
  have hnone {x : Option Decision} (hx : x = none) (ht : x = some decision) : False := by
    rw [hx] at ht
    cases ht
  unfold handle at h ⊢
  split at h
  · next p q hp hq =>
    split at h
    · obtain rfl := Option.some.inj h
      exact (hnone rfl ht).elim
    next hexp =>
    split at h
    · obtain rfl := Option.some.inj h
      exact (hnone rfl ht).elim
    next hthreshold =>
    unfold handleLocked at h
    split at h
    · obtain rfl := Option.some.inj h
      exact (hnone rfl ht).elim
    next he =>
    split at h
    · obtain rfl := Option.some.inj h
      exact (hnone (previousResult_takes _ _) ht).elim
    next hd =>
    split at h
    · obtain rfl := Option.some.inj h
      exact (hnone rfl ht).elim
    next hexp' =>
    obtain ⟨hid, r, rs, hc⟩ := acceptRequestLocked_concludes h ht
    refine ⟨Bool.of_not_eq_true he, q.requestId, r, rs, hid, ?_⟩
    rw [if_neg hexp, if_neg hthreshold, handleLocked, if_neg he, hd]
    simp only [if_neg hexp']
    exact hc
  · cases h
  · next r hno =>
    obtain rfl := Option.some.inj h
    cases hp : d.payload with
    | none =>
      rw [hp] at hno
      obtain rfl := Except.error.inj hno
      exact (hnone rfl ht).elim
    | some p =>
      rw [hp] at hno
      exact (hnone (by rw [readRequest_error hno]; rfl) ht).elim

/-! ### The answers to a decision that is known -/

/-- A well-formed payload with the identifier, in time when it is received. -/
def WellFormed (d : Delivery) (id : String) : Prop :=
  ∃ q, readRequest d.payload = .ok q ∧ q.requestId = id ∧ ¬ requestExpired q d.received ∧
    q.forecastEnergyWh < q.thresholdWh

/-- The answer to a request that was decided. -/
def duplicate (id : String) (decision : Decision) : Response :=
  { result (some id) .duplicate 200 "already_decided" with originalStatus := some decision }

theorem previousResult_of_reports (h : reports r decision) :
    previousResult id r = duplicate id decision := by
  obtain ⟨rfl, hcertain, hqueued⟩ := h
  unfold previousResult duplicate
  rw [if_neg hcertain, if_neg fun hacc => by rw [hqueued hacc.1] at hacc; cases hacc.2]

/-- A well-formed request with a living record gets the answer of that record. -/
theorem handle_known (hw : WellFormed d id) (he : s.error = false)
    (hr : s.records.lookup id = some r) (hlive : d.received < r.until_) :
    (handle d s).1 = some (previousResult id r) := by
  obtain ⟨q, hq, rfl, hexp, hbelow⟩ := hw
  cases hp : d.payload with
  | none =>
    rw [hp] at hq
    cases hq
  | some p =>
    unfold handle
    rw [hp] at hq ⊢
    simp only [hq]
    rw [if_neg hexp, if_neg (not_le.mpr hbelow), handleLocked, if_neg (by simp [he])]
    simp only [hr, decided, if_pos hlive]

/-- A duplicate is the answer of a living record. -/
theorem handle_duplicate (h : (handle d s).1 = some resp) (hdup : resp.status = .duplicate) :
    ∃ id r, resp = previousResult id r ∧ resp.requestId = some id ∧ s.records.lookup id = some r := by
  have hnot {resp' : Response} (h' : some resp' = some resp) (hne : resp'.status ≠ .duplicate) :
      False := by
    obtain rfl := Option.some.inj h'
    exact hne hdup
  unfold handle at h
  split at h
  · next p q hp hq =>
    split_ifs at h
    · exact (hnot h (by simp [result])).elim
    · exact (hnot h (by simp [result])).elim
    unfold handleLocked at h
    split at h
    · exact (hnot h (by simp [result])).elim
    split at h
    · next previous hd =>
      refine ⟨q.requestId, previous, (Option.some.inj h).symm, ?_, ?_⟩
      · obtain rfl := Option.some.inj h
        unfold previousResult
        split_ifs <;> rfl
      · unfold decided at hd
        split at hd
        · next hlook =>
          split_ifs at hd
          rwa [Option.some.inj hd] at hlook
        · cases hd
    · split at h
      · exact (hnot h (by simp [result])).elim
      · exact (acceptRequestLocked_status h hdup).elim
  · cases h
  · next r hno =>
    refine (hnot h ?_).elim
    cases hp : d.payload with
    | none =>
      rw [hp] at hno
      obtain rfl := Except.error.inj hno
      simp [result]
    | some p =>
      rw [hp] at hno
      rw [readRequest_error hno]
      simp

/-- The statuses that say that a request is decided. -/
def isDecided : Status → Bool
  | .accepted | .suppressed | .duplicate => true
  | .rejected | .unavailable => false

/-- A reservation without an outcome is not reported as decided. -/
theorem handle_uncertain (hr : s.records.lookup id = some r) (hu : r.status = .uncertain)
    (hle : d.received ≤ d.now) (hlive : d.now < r.until_) (h : (handle d s).1 = some resp)
    (hid : resp.requestId = some id) : isDecided resp.status = false := by
  cases ht : takes resp.status with
  | some decision =>
    obtain ⟨-, id', r', rs, hid', hc⟩ := handle_concludes h ht
    obtain rfl : id = id' := Option.some.inj (hid.symm.trans hid')
    obtain ⟨es, hes⟩ := hc.ends
    have hkept : rs.lookup id = some r := lookup_of_tables hr hle hlive (by rw [hes]; simp)
    obtain rfl : r = r' := Option.some.inj (hkept.symm.trans hc.lookup)
    exact absurd (hc.reports.1.symm.trans hu) hc.reports.2.1
  | none =>
    cases hs : resp.status with
    | accepted => rw [hs] at ht; cases ht
    | suppressed => rw [hs] at ht; cases ht
    | rejected => rfl
    | unavailable => rfl
    | duplicate =>
      obtain ⟨id', r', rfl, hid', hr'⟩ := handle_duplicate h hs
      obtain rfl : id = id' := Option.some.inj (hid.symm.trans hid')
      rw [hr] at hr'
      obtain rfl := Option.some.inj hr'
      simp [previousResult, hu, result] at hs

/-! ### Runs -/

/-- The clock of the events between two points of a run. -/
theorem between_of_clockForward {a b c : List Event} (h : ClockForward (a ++ (b ++ .handle d :: c))) :
    d.received ≤ d.now ∧ ∀ d' ∈ b.filterMap delivery, d'.received ≤ d'.now ∧ d'.now ≤ d.now := by
  obtain ⟨hwithin, hpair⟩ := h
  have hdelivery : (Event.handle d :: c).filterMap delivery = d :: c.filterMap delivery := rfl
  rw [List.filterMap_append, List.filterMap_append, hdelivery] at hwithin hpair
  rw [List.map_append, List.map_append] at hpair
  obtain ⟨-, hpair, -⟩ := List.pairwise_append.mp hpair
  obtain ⟨-, -, hcross⟩ := List.pairwise_append.mp hpair
  refine ⟨hwithin d (by simp), fun d' hd' => ⟨hwithin d' (by simp [hd']), ?_⟩⟩
  exact hcross _ (List.mem_map_of_mem hd') _ (by simp)

/-- A settled record stays, through restarts. -/
theorem settled_exec {es : List Event} (h : Settled id r w) (hread : ∀ e ∈ es, readsBack e = true)
    (hclock : ∀ d ∈ es.filterMap delivery, d.received ≤ d.now ∧ d.now < r.until_) :
    Settled id r (exec next w es) := by
  refine exec_invariant h fun x hx hs => ?_
  obtain ⟨a, b, rfl, -⟩ := (mem_trace next).mp hx
  refine hs.next (hread _ (by simp)) fun d hd => hclock d ?_
  exact List.mem_filterMap.mpr ⟨x.input, by simp, hd⟩

/-- The process goes on. -/
def sameProcess : Event → Bool
  | .handle _ => true
  | _ => false

/-- A living record stays in the memory of a process. -/
theorem lookup_exec {es : List Event} (h : w.inbox.records.lookup id = some r)
    (hsame : ∀ e ∈ es, sameProcess e = true)
    (hclock : ∀ d ∈ es.filterMap delivery, d.received ≤ d.now ∧ d.now < r.until_) :
    (exec next w es).inbox.records.lookup id = some r := by
  refine exec_invariant (P := fun w' : World => w'.inbox.records.lookup id = some r) h
    fun x hx hs => ?_
  obtain ⟨a, b, rfl, -⟩ := (mem_trace next).mp hx
  have hx' := hsame x.input (by simp)
  cases he : x.input with
  | handle d =>
    obtain ⟨hle, hlive⟩ := hclock d (List.mem_filterMap.mpr ⟨x.input, by simp, by rw [he]; rfl⟩)
    exact exec_memory (P := fun rs => rs.lookup id = some r) hs
      fun rs hrs => lookup_of_tables hs hle hlive hrs
  | crash d effects readable => rw [he] at hx'; cases hx'
  | restart readable => rw [he] at hx'; cases hx'

/-- A decision that is reported is settled. -/
theorem settled_of_takes (hw : Sound w) (h : (handle d w.inbox).1 = some resp)
    (ht : takes resp.status = some decision) (hid : resp.requestId = some id) :
    ∃ r, Settled id r (next w (.handle d)) ∧ r.until_ = d.now + retention ∧ reports r decision := by
  obtain ⟨he, id', r, rs, hid', ⟨es, hes⟩, hr, huntil, hreports⟩ := handle_concludes h ht
  obtain rfl : id = id' := Option.some.inj (hid.symm.trans hid')
  have hvalid : Valid rs := valid_of_tables (hw he) (by rw [hes]; simp)
  have hend : next w (.handle d) = apply (apply (exec apply w es) (.replaceFile rs)) (.remember rs) := by
    simp only [next, hes, exec_append]
    rfl
  refine ⟨r, ⟨?_, ?_, ?_, rs, ?_, hvalid, hr⟩, huntil, hreports⟩
  · exact (exec_error _ w).trans he
  · rw [hend]
    exact hr
  · rw [hend]
    exact hvalid
  · rw [hend]
    rfl

/-- **Pre-charge decisions are stable.**  In every run whose clock does not go back, from any journal:
* a decision that was reported is the answer to every later well-formed request with its identifier for
  48 hours, in the same process and after restarts from the file;
* a reservation without an outcome is not reported as decided by its process while its record lives;
* a record that a call leaves in the memory was there before, or lives for 48 hours;
* a journal that a call saves is read back without the error flag. -/
theorem decisions_stable (journal : Journal) (es : List Event) (hclock : ClockForward es) :
    (∀ a d b d' c, es = (a ++ [.handle d]) ++ (b ++ .handle d' :: c) →
      (∀ e ∈ b, readsBack e = true) → ∀ resp decision id,
      (handle d (exec next (start journal) a).inbox).1 = some resp →
      takes resp.status = some decision → resp.requestId = some id → WellFormed d' id →
      d'.now < d.now + retention →
      (handle d' (exec next (start journal) (a ++ [.handle d] ++ b)).inbox).1 =
        some (duplicate id decision)) ∧
    (∀ a b d c, es = a ++ (b ++ .handle d :: c) → (∀ e ∈ b, sameProcess e = true) → ∀ id r,
      (exec next (start journal) a).inbox.records.lookup id = some r → r.status = .uncertain →
      d.now < r.until_ → ∀ resp,
      (handle d (exec next (start journal) (a ++ b)).inbox).1 = some resp →
      resp.requestId = some id → isDecided resp.status = false) ∧
    (∀ a d c, es = a ++ .handle d :: c → ∀ id r,
      (exec next (start journal) (a ++ [.handle d])).inbox.records.lookup id = some r →
      (exec next (start journal) a).inbox.records.lookup id = some r ∨
        r.until_ = d.now + retention) ∧
    ∀ x ∈ trace next (start journal) es, ∀ d, delivery x.input = some d → ∀ rs,
      .replaceFile rs ∈ (handle d x.before.inbox).2 → (load (.written rs)).error = false := by
  refine ⟨?_, ?_, ?_, ?_⟩
  · rintro a d b d' c rfl hread resp decision id h ht hid hw hlive
    obtain ⟨hle, hbefore⟩ := between_of_clockForward hclock
    obtain ⟨r, hs, huntil, hreports⟩ := settled_of_takes (sound_run journal a) h ht hid
    have hs' : Settled id r (exec next (start journal) (a ++ [.handle d] ++ b)) := by
      rw [exec_append, exec_snoc]
      refine settled_exec hs hread fun d'' hd'' => ⟨(hbefore d'' hd'').1, ?_⟩
      rw [huntil]
      exact lt_of_le_of_lt (hbefore d'' hd'').2 hlive
    rw [← previousResult_of_reports hreports]
    refine handle_known hw hs'.error hs'.memory (lt_of_le_of_lt hle ?_)
    rw [huntil]
    exact hlive
  · rintro a b d c rfl hsame id r hr hu hlive resp h hid
    obtain ⟨hle, hbefore⟩ := between_of_clockForward hclock
    refine handle_uncertain ?_ hu hle hlive h hid
    rw [exec_append]
    exact lookup_exec hr hsame fun d' hd' =>
      ⟨(hbefore d' hd').1, lt_of_le_of_lt (hbefore d' hd').2 hlive⟩
  · rintro a d c rfl id r hr
    rw [exec_snoc] at hr
    revert hr
    refine exec_memory (P := fun rs => rs.lookup id = some r →
      (exec next (start journal) a).inbox.records.lookup id = some r ∨
        r.until_ = d.now + retention) (fun h => Or.inl h) fun rs hrs h => ?_
    obtain ⟨p, q, -, -, -, -, r', hmade, rfl⟩ := handle_tables hrs
    by_cases hid : id = q.requestId
    · rw [hid, AList.lookup_insert] at h
      obtain rfl := Option.some.inj h
      exact Or.inr hmade.until_
    · rw [AList.lookup_insert_ne hid] at h
      have hmem := (List.mem_dlookup_iff (unexpired d.now _).nodupKeys).mp h
      exact Or.inl ((List.mem_dlookup_iff (AList.nodupKeys _)).mpr (List.mem_of_mem_filter hmem))
  · intro x hx d hd rs hrs
    obtain ⟨a, b, rfl, hbefore⟩ := (mem_trace next).mp hx
    have hsound : Sound x.before := by
      rw [hbefore]
      exact sound_run journal a
    have htable := mem_tables_replaceFile hrs
    obtain ⟨p, q, -, he, -⟩ := handle_tables htable
    exact load_error_of_valid (valid_of_tables (hsound he) htable)

/-- A delivery of another request, whose reservation fails after it was published. -/
def otherDelivery (t delay : ℕ) : Delivery :=
  { solarDelivery t delay .completes with
    payload := some { solarRequest t with requestId := .str "day-2" }
    reserve := .afterReplace .handled }

/-- Between a request and its retry another one fails, the process dies after a reservation, and
starts again. -/
def betweenRetries : List Event :=
  [.handle (otherDelivery 1000 5), .crash (otherDelivery 1000 6) 1 true, .restart true]

theorem decisions_stable_solar :
    (handle (solarDelivery 1000 9 .completes) (exec next (start .absent)
      ([.handle (solarDelivery 1000 0 .completes)] ++ betweenRetries)).inbox).1 =
        some (duplicate "day-1" .accepted) := by
  have hclock : ClockForward ([] ++ [.handle (solarDelivery 1000 0 .completes)] ++
      (betweenRetries ++ .handle (solarDelivery 1000 9 .completes) :: [])) := by
    unfold ClockForward
    decide +kernel
  refine (decisions_stable .absent _ hclock).1 [] (solarDelivery 1000 0 .completes) betweenRetries
    (solarDelivery 1000 9 .completes) [] rfl (by decide)
    (result (some "day-1") .accepted 202 "queued_one_cycle") .accepted "day-1" (by decide +kernel) rfl
    rfl ⟨⟨"day-1", 900, 4000, 1000, 1300⟩, by decide +kernel, rfl, by decide +kernel,
      by decide +kernel⟩ (by decide +kernel)

end InverterControl.Precharge.Stable
