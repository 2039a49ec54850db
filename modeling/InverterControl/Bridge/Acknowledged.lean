import InverterControl.Bridge.Model

/-!
# An acknowledgement is not lost

The publish lock makes every sender read the latest status after all that was sent, so no older one
follows (`Invariant.sorted`).  While the latest status is not given to the client, something is left that
will give it (`Promised`): a queued entry, or a sender that has not read an older status.
-/

namespace InverterControl.Bridge.Acknowledged

open InverterControl.Lib.Runs InverterControl.Bridge.Model

variable {σ : Type} {b : MQTTBridge σ} {e : Event σ} {x : Sender} {st : Status σ}
  {call version : ℕ} {entry : Entry}

/-! ### What will give the latest status to the client -/

/-- The latest status was given to the client since the connection. -/
def HandedNow (b : MQTTBridge σ) : Prop := ∃ h ∈ b.handed.drop b.since, h.version = b.latest.version

/-- The sender has not read a status. -/
def Unread (b : MQTTBridge σ) (x : Sender) : Prop := ∀ st, b.lock ≠ some (x, some st)

/-- The sender has read no older status. -/
def ReadsLatest (b : MQTTBridge σ) (x : Sender) : Prop :=
  ∀ st, b.lock = some (x, some st) → st.version = b.latest.version

/-- The publisher thread will send, if the sender's read is as said. -/
def WorkerWill (reads : Sender → Prop) (b : MQTTBridge σ) : Prop :=
  b.worker = .got .override ∨ (b.worker = .sending ∧ reads .worker)

/-- The replay of the connection will send, if the sender's read is as said. -/
def ReplayWill (reads : Sender → Prop) (b : MQTTBridge σ) : Prop :=
  ∃ call, b.connection = some call ∧ b.replays[call]? = some Replay.sending ∧ reads (.replay call)

/-- The latest status is given to the client, or will be. -/
def Promised (b : MQTTBridge σ) : Prop :=
  HandedNow b ∨ Entry.override ∈ b.queue ∨ WorkerWill (ReadsLatest b) b ∨ ReplayWill (ReadsLatest b) b

/-- A sender has yet to read the status. -/
def Awaited (b : MQTTBridge σ) : Prop :=
  Entry.override ∈ b.queue ∨ WorkerWill (Unread b) b ∨ ReplayWill (Unread b) b

/-- **The invariant.** -/
structure Invariant (b : MQTTBridge σ) : Prop where
  sorted : b.handed.Pairwise (·.version ≤ ·.version)
  bounded : ∀ h ∈ b.handed, h.version ≤ b.latest.version
  same : ∀ h ∈ b.handed, h.version = b.latest.version → h = b.latest
  holder : ∀ x r, b.lock = some (x, r) → wants b x
  lock : ∀ x st, b.lock = some (x, some st) → st.version ≤ b.latest.version ∧
    (∀ h ∈ b.handed, h.version ≤ st.version) ∧ (st.version = b.latest.version → st = b.latest)
  published : ∀ (call v : ℕ), b.replays[call]? = some (Replay.published v) →
    ∃ h ∈ b.handed, h.version = v
  since : b.since ≤ b.handed.length
  connection : b.connected = true → b.handed.drop b.since ≠ [] ∨
    ∃ call, b.connection = some call ∧ b.replays[call]? = some Replay.sending
  queued : b.connected = true → b.producer = .queued → Awaited b
  kept : b.connected = true → b.pending = true ∨ Promised b

theorem Unread.readsLatest (h : Unread b x) : ReadsLatest b x := fun st hst => absurd hst (h st)

theorem Awaited.promised (h : Awaited b) : Promised b := by
  rcases h with hqueue | (hgot | ⟨hsending, hread⟩) | ⟨call, hcall, hsending, hread⟩
  · exact Or.inr (Or.inl hqueue)
  · exact Or.inr (Or.inr (Or.inl (Or.inl hgot)))
  · exact Or.inr (Or.inr (Or.inl (Or.inr ⟨hsending, hread.readsLatest⟩)))
  · exact Or.inr (Or.inr (Or.inr ⟨call, hcall, hsending, hread.readsLatest⟩))

/-- The publisher thread holds the lock only while it sends. -/
theorem Invariant.worker_unread (h : Invariant b) (hworker : b.worker ≠ .sending) : Unread b .worker :=
  fun _ hst => hworker (h.holder _ _ hst)

/-! ### The producer -/

theorem invariant_publish [DecidableEq σ] (h : Invariant b) (status : σ) :
    Invariant (publish b status) := by
  unfold publish
  split_ifs
  · have hlt : ∀ v, v ≤ b.latest.version → v ≠ b.latest.version + 1 := fun v hv => by omega
    refine ⟨h.sorted, fun st hst => Nat.le_succ_of_le (h.bounded st hst),
      fun st hst heq => absurd heq (hlt _ (h.bounded st hst)), h.holder, fun x st hst => ?_, h.published,
      h.since, h.connection, fun _ hqueued => (by cases hqueued), fun _ => Or.inl rfl⟩
    obtain ⟨hle, hall, -⟩ := h.lock x st hst
    exact ⟨Nat.le_succ_of_le hle, hall, fun heq => absurd heq (hlt _ hle)⟩
  · exact ⟨h.sorted, h.bounded, h.same, h.holder, h.lock, h.published, h.since, h.connection,
      fun _ hqueued => (by cases hqueued), h.kept⟩

theorem invariant_check (h : Invariant b) : Invariant (check b) := by
  unfold check
  split_ifs
  · exact ⟨h.sorted, h.bounded, h.same, h.holder, h.lock, h.published, h.since, h.connection,
      fun _ hqueued => (by cases hqueued), h.kept⟩
  · exact ⟨h.sorted, h.bounded, h.same, h.holder, h.lock, h.published, h.since, h.connection,
      fun _ hqueued => (by cases hqueued), h.kept⟩

theorem invariant_putNowait (h : Invariant b) : Invariant (putNowait b) := by
  unfold putNowait
  split_ifs
  · have hmem : Entry.override ∈ b.queue ++ [.override] := by simp
    exact ⟨h.sorted, h.bounded, h.same, h.holder, h.lock, h.published, h.since, h.connection,
      fun _ _ => Or.inl hmem, fun _ => Or.inr (Or.inr (Or.inl hmem))⟩
  · exact ⟨h.sorted, h.bounded, h.same, h.holder, h.lock, h.published, h.since, h.connection,
      fun _ hqueued => (by cases hqueued), h.kept⟩

/-- The entry that was queued is still there, or its sender has yet to read. -/
theorem invariant_clear (h : Invariant b) (hqueued : b.producer = .queued) :
    Invariant { b with pending := false, producer := .idle } :=
  ⟨h.sorted, h.bounded, h.same, h.holder, h.lock, h.published, h.since, h.connection,
    fun _ hno => (by cases hno), fun hc => Or.inr (h.queued hc hqueued).promised⟩

/-! ### The publisher thread -/

theorem invariant_enqueue (h : Invariant b) : Invariant { b with queue := b.queue ++ [.other] } :=
  ⟨h.sorted, h.bounded, h.same, h.holder, h.lock, h.published, h.since, h.connection,
    fun hc hq => (h.queued hc hq).imp (List.mem_append_left _) id,
    fun hc => (h.kept hc).imp id fun hp => hp.imp id fun hp => hp.imp (List.mem_append_left _) id⟩

theorem invariant_get {queue : List Entry} (h : Invariant b) (hidle : b.worker = .idle)
    (hqueue : b.queue = entry :: queue) : Invariant { b with queue := queue, worker := .got entry } := by
  have hholder : ∀ x r, b.lock = some (x, r) →
    wants { b with queue := queue, worker := .got entry } x := by
    intro x r hr
    have hwants := h.holder x r hr
    cases x with
    | worker => exact absurd (hidle.symm.trans hwants) (by decide)
    | replay call => exact hwants
  have hmem : Entry.override ∈ b.queue → Entry.override ∈ queue ∨ entry = .override := by
    rw [hqueue, List.mem_cons]
    exact fun hm => hm.symm.imp id Eq.symm
  have hworker : ∀ reads : Sender → Prop, ¬ WorkerWill reads b := by
    rintro reads (hgot | ⟨hsending, -⟩)
    · exact absurd (hidle.symm.trans hgot) nofun
    · exact absurd (hidle.symm.trans hsending) nofun
  refine ⟨h.sorted, h.bounded, h.same, hholder, h.lock, h.published, h.since, h.connection,
    fun hc hq => ?_, fun hc => (h.kept hc).imp id fun hp => ?_⟩
  · rcases h.queued hc hq with hm | hw | hr
    · exact (hmem hm).imp id fun heq => Or.inl (Or.inl (by rw [heq]))
    · exact absurd hw (hworker _)
    · exact Or.inr (Or.inr hr)
  · rcases hp with hnow | hm | hw | hr
    · exact Or.inl hnow
    · exact Or.inr ((hmem hm).imp id fun heq => Or.inl (Or.inl (by rw [heq])))
    · exact absurd hw (hworker _)
    · exact Or.inr (Or.inr (Or.inr hr))

theorem invariant_test (h : Invariant b) (hgot : b.worker = .got entry) : Invariant (test b entry) := by
  have hno : b.worker ≠ .sending := by
    rw [hgot]
    nofun
  have hunread := h.worker_unread hno
  have hholder : ∀ x r, b.lock = some (x, r) → ∀ worker, wants { b with worker := worker } x := by
    intro x r hr worker
    have hwants := h.holder x r hr
    cases x with
    | worker => exact absurd hwants hno
    | replay call => exact hwants
  unfold test
  split_ifs with hsend
  · refine ⟨h.sorted, h.bounded, h.same, fun x r hr => hholder x r hr _, h.lock, h.published, h.since,
      h.connection, fun _ _ => Or.inr (Or.inl (Or.inr ⟨rfl, hunread⟩)),
      fun _ => Or.inr (Or.inr (Or.inr (Or.inl (Or.inr ⟨rfl, hunread.readsLatest⟩))))⟩
  · -- a connected bridge drops no entry of the override
    have hworker : b.connected = true → ∀ reads : Sender → Prop, ¬ WorkerWill reads b := by
      rintro hc reads (hover | ⟨hsending, -⟩)
      · exact hsend ⟨hc, Worker.got.inj (hgot.symm.trans hover)⟩
      · exact hno hsending
    refine ⟨h.sorted, h.bounded, h.same, fun x r hr => hholder x r hr _, h.lock, h.published, h.since,
      h.connection, fun hc hq => ?_, fun hc => (h.kept hc).imp id fun hp => ?_⟩
    · rcases h.queued hc hq with hm | hw | hr
      · exact Or.inl hm
      · exact absurd hw (hworker hc _)
      · exact Or.inr (Or.inr hr)
    · rcases hp with hnow | hm | hw | hr
      · exact Or.inl hnow
      · exact Or.inr (Or.inl hm)
      · exact absurd hw (hworker hc _)
      · exact Or.inr (Or.inr (Or.inr hr))

theorem invariant_taskDone (h : Invariant b) (hfinishing : b.worker = .finishing entry) :
    Invariant { b with worker := .idle } := by
  have hworker : ∀ reads : Sender → Prop, ¬ WorkerWill reads b := by
    rintro reads (hgot | ⟨hsending, -⟩)
    · exact absurd (hfinishing.symm.trans hgot) nofun
    · exact absurd (hfinishing.symm.trans hsending) nofun
  refine ⟨h.sorted, h.bounded, h.same, fun x r hr => ?_, h.lock, h.published, h.since, h.connection,
    fun hc hq => ?_, fun hc => (h.kept hc).imp id fun hp => ?_⟩
  · have hwants := h.holder x r hr
    cases x with
    | worker => exact absurd (hfinishing.symm.trans hwants) nofun
    | replay call => exact hwants
  · rcases h.queued hc hq with hm | hw | hr
    · exact Or.inl hm
    · exact absurd hw (hworker _)
    · exact Or.inr (Or.inr hr)
  · rcases hp with hnow | hm | hw | hr
    · exact Or.inl hnow
    · exact Or.inr (Or.inl hm)
    · exact absurd hw (hworker _)
    · exact Or.inr (Or.inr (Or.inr hr))

/-! ### The publish lock -/

theorem invariant_acquire (h : Invariant b) (hwants : wants b x) :
    Invariant { b with lock := some (x, none) } := by
  have hnone : ∀ y st, some (x, (none : Option (Status σ))) ≠ some (y, some st) := by
    rintro y st ⟨⟩
  have hreads : ∀ y, ReadsLatest { b with lock := some (x, none) } y := fun y st hst =>
    absurd hst (hnone y st)
  refine ⟨h.sorted, h.bounded, h.same, fun y r hr => ?_, fun y st hst => absurd hst (hnone y st),
    h.published, h.since, h.connection, fun hc hq => ?_, fun hc => (h.kept hc).imp id fun hp => ?_⟩
  · cases hr
    exact hwants
  · rcases h.queued hc hq with hm | hw | ⟨call, hcall, hsending, -⟩
    · exact Or.inl hm
    · exact Or.inr (Or.inl (hw.imp id fun hs => ⟨hs.1, fun st => hnone _ st⟩))
    · exact Or.inr (Or.inr ⟨call, hcall, hsending, fun st => hnone _ st⟩)
  · rcases hp with hnow | hm | hw | ⟨call, hcall, hsending, -⟩
    · exact Or.inl hnow
    · exact Or.inr (Or.inl hm)
    · exact Or.inr (Or.inr (Or.inl (hw.imp id fun hs => ⟨hs.1, hreads _⟩)))
    · exact Or.inr (Or.inr (Or.inr ⟨call, hcall, hsending, hreads _⟩))

/-- What is read is the latest status, after all that was given to the client. -/
theorem invariant_read (h : Invariant b) (hlock : b.lock = some (x, none)) (hidle : b.producer = .idle) :
    Invariant { b with lock := some (x, some b.latest) } := by
  have hreads : ∀ y, ReadsLatest { b with lock := some (x, some b.latest) } y := by
    rintro y st ⟨⟩
    rfl
  refine ⟨h.sorted, h.bounded, h.same, fun y r hr => ?_, fun y st hst => ?_, h.published, h.since,
    h.connection, fun _ hq => absurd (hidle.symm.trans hq) nofun, fun hc =>
      (h.kept hc).imp id fun hp => ?_⟩
  · cases hr
    exact h.holder x none hlock
  · cases hst
    exact ⟨Nat.le_refl _, h.bounded, fun _ => rfl⟩
  · rcases hp with hnow | hm | hw | ⟨call, hcall, hsending, -⟩
    · exact Or.inl hnow
    · exact Or.inr (Or.inl hm)
    · exact Or.inr (Or.inr (Or.inl (hw.imp id fun hs => ⟨hs.1, hreads _⟩)))
    · exact Or.inr (Or.inr (Or.inr ⟨call, hcall, hsending, hreads _⟩))

theorem mem_drop_snoc {α : Type} {l : List α} {n : ℕ} (hn : n ≤ l.length) (a : α) :
    (l ++ [a]).drop n = l.drop n ++ [a] := List.drop_append_of_le_length hn

theorem invariant_send (h : Invariant b) (hlock : b.lock = some (x, some st)) :
    Invariant (send b x st) := by
  obtain ⟨hle, hall, hsame⟩ := h.lock x st hlock
  have hholder := h.holder x _ hlock
  have hsorted : (b.handed ++ [st]).Pairwise (·.version ≤ ·.version) := by
    rw [List.pairwise_append]
    refine ⟨h.sorted, List.pairwise_singleton _ _, fun a ha c hc => ?_⟩
    rw [List.mem_singleton.mp hc]
    exact hall a ha
  have hmem : ∀ a ∈ b.handed ++ [st], a ∈ b.handed ∨ a = st := fun a ha =>
    (List.mem_append.mp ha).imp id List.mem_singleton.mp
  have hbounded : ∀ a ∈ b.handed ++ [st], a.version ≤ b.latest.version := fun a ha =>
    (hmem a ha).elim (h.bounded a) fun heq => heq ▸ hle
  have hsame' : ∀ a ∈ b.handed ++ [st], a.version = b.latest.version → a = b.latest := fun a ha =>
    (hmem a ha).elim (h.same a) fun heq => heq ▸ hsame
  have hlength : b.since ≤ (b.handed ++ [st]).length := by
    rw [List.length_append]
    exact Nat.le_trans h.since (Nat.le_add_right _ _)
  have hdrop : (b.handed ++ [st]).drop b.since = b.handed.drop b.since ++ [st] :=
    mem_drop_snoc h.since st
  have hnonempty : (b.handed ++ [st]).drop b.since ≠ [] := by
    rw [hdrop]
    simp
  have hnow : HandedNow b → ∃ a ∈ (b.handed ++ [st]).drop b.since, a.version = b.latest.version := by
    rintro ⟨a, ha, heq⟩
    rw [hdrop]
    exact ⟨a, List.mem_append_left _ ha, heq⟩
  have hlatest : st.version = b.latest.version →
      ∃ a ∈ (b.handed ++ [st]).drop b.since, a.version = b.latest.version := by
    intro heq
    rw [hdrop]
    exact ⟨st, by simp, heq⟩
  cases x with
  | worker =>
    have hnot : ∀ reads : Sender → Prop, WorkerWill reads b → reads .worker := by
      rintro reads (hgot | ⟨-, hread⟩)
      · exact absurd (hholder.symm.trans hgot) nofun
      · exact hread
    refine ⟨hsorted, hbounded, hsame', (by rintro y r ⟨⟩), (by rintro y s ⟨⟩), fun call v hv => ?_,
      hlength,
      fun _ => Or.inl hnonempty, fun hc hq => ?_, fun hc => (h.kept hc).imp id fun hp => ?_⟩
    · obtain ⟨a, ha, heq⟩ := h.published call v hv
      exact ⟨a, List.mem_append_left _ ha, heq⟩
    · rcases h.queued hc hq with hm | hw | ⟨call, hcall, hsending, -⟩
      · exact Or.inl hm
      · exact absurd hlock (hnot _ hw st)
      · exact Or.inr (Or.inr ⟨call, hcall, hsending, by rintro s ⟨⟩⟩)
    · rcases hp with hnow' | hm | hw | ⟨call, hcall, hsending, -⟩
      · exact Or.inl (hnow hnow')
      · exact Or.inr (Or.inl hm)
      · exact Or.inl (hlatest (hnot _ hw st hlock))
      · exact Or.inr (Or.inr (Or.inr ⟨call, hcall, hsending, by rintro s ⟨⟩⟩))
  | replay call =>
    have hset : ∀ c, c ≠ call → (b.replays.set call (Replay.published st.version))[c]? = b.replays[c]? :=
      fun c hc => List.getElem?_set_ne hc.symm
    have hpublished : ∀ c v : ℕ, (b.replays.set call (Replay.published st.version))[c]? =
          some (Replay.published v) →
        ∃ a ∈ b.handed ++ [st], a.version = v := by
      intro c v hv
      by_cases hcc : c = call
      · have hholder' : b.replays[call]? = some .sending := hholder
        rw [hcc, List.getElem?_set_self', hholder'] at hv
        exact ⟨st, by simp, Replay.published.inj (Option.some.inj hv)⟩
      · rw [hset c hcc] at hv
        obtain ⟨a, ha, heq⟩ := h.published c v hv
        exact ⟨a, List.mem_append_left _ ha, heq⟩
    refine ⟨hsorted, hbounded, hsame', (by rintro y r ⟨⟩), (by rintro y s ⟨⟩), hpublished, hlength,
      fun _ => Or.inl hnonempty, fun hc hq => ?_, fun hc => (h.kept hc).imp id fun hp => ?_⟩
    · rcases h.queued hc hq with hm | hw | ⟨c, hcon, hsending, hread⟩
      · exact Or.inl hm
      · exact Or.inr (Or.inl (hw.imp id fun hs => ⟨hs.1, by rintro s ⟨⟩⟩))
      · have hcc : c ≠ call := fun heq => hread st (heq ▸ hlock)
        exact Or.inr (Or.inr ⟨c, hcon, (hset c hcc).trans hsending, by rintro s ⟨⟩⟩)
    · rcases hp with hnow' | hm | hw | ⟨c, hcon, hsending, hread⟩
      · exact Or.inl (hnow hnow')
      · exact Or.inr (Or.inl hm)
      · exact Or.inr (Or.inr (Or.inl (hw.imp id fun hs => ⟨hs.1, by rintro s ⟨⟩⟩)))
      · by_cases hcc : c = call
        · exact Or.inl (hlatest (hread st (hcc ▸ hlock)))
        · exact Or.inr (Or.inr (Or.inr ⟨c, hcon, (hset c hcc).trans hsending, by rintro s ⟨⟩⟩))

/-! ### The connection -/

theorem invariant_connect (h : Invariant b) : Invariant (connect b) := by
  have hlast : (b.replays ++ [Replay.sending])[b.replays.length]? = some .sending :=
    List.getElem?_concat_length
  have hold : ∀ {call : ℕ} {r : Replay}, b.replays[call]? = some r →
      (b.replays ++ [Replay.sending])[call]? = some r := fun hr => by
    rw [List.getElem?_append_left (List.getElem?_eq_some_iff.mp hr).1]
    exact hr
  have hunread : Unread b (.replay b.replays.length) := fun st hst => by
    have := (List.getElem?_eq_some_iff.mp (h.holder _ _ hst)).1
    omega
  refine ⟨h.sorted, h.bounded, h.same, fun x r hr => ?_, h.lock, fun call v hv => ?_, Nat.le_refl _,
    fun _ => Or.inr ⟨_, rfl, hlast⟩, fun _ _ => Or.inr (Or.inr ⟨_, rfl, hlast, hunread⟩),
    fun _ => Or.inr (Or.inr (Or.inr (Or.inr ⟨_, rfl, hlast, hunread.readsLatest⟩)))⟩
  · have hwants := h.holder x r hr
    cases x with
    | worker => exact hwants
    | replay call => exact hold hwants
  · refine h.published call v ?_
    rcases Nat.lt_trichotomy call b.replays.length with hlt | heq | hgt
    · exact (List.getElem?_append_left hlt).symm.trans hv
    · rw [heq] at hv
      cases hlast.symm.trans hv
    · have hlength : (b.replays ++ [Replay.sending]).length ≤ call := by
        rw [List.length_append, List.length_singleton]
        omega
      have hv' : (b.replays ++ [Replay.sending])[call]? = some (Replay.published v) := hv
      rw [List.getElem?_eq_none hlength] at hv'
      cases hv'

/-- The flag is cleared only when the latest status was given to the client since the connection, or the
replay of the connection will give it. -/
theorem invariant_settle (h : Invariant b)
    (hpublished : b.replays[call]? = some (Replay.published version))
    (hidle : b.producer = .idle) : Invariant (settle b call version) := by
  have hset : ∀ c : ℕ, b.replays[c]? = some Replay.sending →
      (b.replays.set call Replay.finished)[c]? = some Replay.sending := fun c hc => by
    rw [List.getElem?_set_ne]
    · exact hc
    · rintro rfl
      cases hpublished.symm.trans hc
  have hpromised : b.connected = true → b.latest.version = version → Promised b := by
    intro hc heq
    obtain ⟨a, ha, hav⟩ := h.published call version hpublished
    rcases h.connection hc with hne | ⟨c, hcon, hsending⟩
    · -- what was given since the connection is not older than the latest status
      obtain ⟨w, hw⟩ := List.exists_mem_of_ne_nil _ hne
      have hsplit := List.take_append_drop b.since b.handed
      have hpair := h.sorted
      rw [← hsplit, List.pairwise_append] at hpair
      rw [← hsplit, List.mem_append] at ha
      rcases ha with ha | ha
      · have hle := hpair.2.2 a ha w hw
        have hbound := h.bounded w (List.mem_of_mem_drop hw)
        exact Or.inl ⟨w, hw, by omega⟩
      · exact Or.inl ⟨a, ha, hav.trans heq.symm⟩
    · refine Or.inr (Or.inr (Or.inr ⟨c, hcon, hsending, fun st hst => ?_⟩))
      obtain ⟨hle, hall, -⟩ := h.lock _ st hst
      have := hall a ha
      omega
  refine ⟨h.sorted, h.bounded, h.same, fun x r hr => ?_, h.lock, fun c v hv => ?_, h.since,
    fun hc => (h.connection hc).imp id fun ⟨c, hcon, hs⟩ => ⟨c, hcon, hset c hs⟩,
    fun _ hq => absurd (hidle.symm.trans hq) nofun, fun hc => ?_⟩
  · have hwants := h.holder x r hr
    cases x with
    | worker => exact hwants
    | replay c => exact hset c hwants
  · refine h.published c v ?_
    by_cases hcc : c = call
    · subst hcc
      rw [settle, List.getElem?_set_self', hpublished] at hv
      cases hv
    · exact (List.getElem?_set_ne (Ne.symm hcc)).symm.trans hv
  · have hsettled : Promised b → Promised (settle b call version) := by
      rintro (hnow | hm | hw | ⟨c, hcon, hs, hread⟩)
      · exact Or.inl hnow
      · exact Or.inr (Or.inl hm)
      · exact Or.inr (Or.inr (Or.inl hw))
      · exact Or.inr (Or.inr (Or.inr ⟨c, hcon, hset c hs, hread⟩))
    by_cases heq : b.latest.version = version
    · exact Or.inr (hsettled (hpromised hc heq))
    · refine (h.kept hc).imp (fun hp => ?_) hsettled
      rw [settle, if_neg heq]
      exact hp

/-- **Every step keeps the invariant.** -/
theorem invariant_next [DecidableEq σ] (h : Invariant b) (e : Event σ) : Invariant (next b e) := by
  cases e with
  | publish status =>
    simp only [next]
    split_ifs
    · exact invariant_publish h status
    · exact h
  | check =>
    simp only [next]
    split_ifs
    · exact invariant_check h
    · exact h
  | putNowait =>
    simp only [next]
    split_ifs
    · exact invariant_putNowait h
    · exact h
  | clear =>
    simp only [next]
    split_ifs with hqueued
    · exact invariant_clear h hqueued
    · exact h
  | enqueue =>
    simp only [next]
    split_ifs
    · exact invariant_enqueue h
    · exact h
  | get =>
    simp only [next]
    split
    · next entry queue hidle hqueue => exact invariant_get h hidle hqueue
    · exact h
  | test =>
    simp only [next]
    split
    · next entry hgot => exact invariant_test h hgot
    · exact h
  | acquire x =>
    simp only [next]
    split_ifs with hok
    · exact invariant_acquire h hok.2
    · exact h
  | read =>
    simp only [next]
    split
    · next x hlock =>
      split_ifs with hidle
      · exact invariant_read h hlock hidle
      · exact h
    · exact h
  | send =>
    simp only [next]
    split
    · next x st hlock => exact invariant_send h hlock
    · exact h
  | taskDone =>
    simp only [next]
    split
    · next entry hfinishing => exact invariant_taskDone h hfinishing
    · exact h
  | connect => exact invariant_connect h
  | settle call =>
    simp only [next]
    split
    · next version hpublished =>
      split_ifs with hidle
      · exact invariant_settle h hpublished hidle
      · exact h
    · exact h
  | disconnect =>
    have hno : ∀ {p : Prop}, (false = true → p) := fun hf => absurd hf Bool.false_ne_true
    exact ⟨h.sorted, h.bounded, h.same, h.holder, h.lock, h.published, h.since, hno, hno, hno⟩

theorem invariant_init (status : σ) : Invariant (init status) := by
  have hno : ∀ {p : Prop}, (false = true → p) := fun hf => absurd hf Bool.false_ne_true
  refine ⟨List.Pairwise.nil, ?_, ?_, ?_, ?_, fun call v hv => ?_, Nat.le_refl _, hno, hno, hno⟩
  · exact fun a ha => absurd ha List.not_mem_nil
  · exact fun a ha => absurd ha List.not_mem_nil
  · rintro x r ⟨⟩
  · rintro x st ⟨⟩
  · cases hv

/-! ### Acknowledgements -/

/-- The publisher thread processes an entry of the override. -/
def Processing (b : MQTTBridge σ) : Prop :=
  b.worker = .got .override ∨ b.worker = .sending ∨ b.worker = .finishing .override

/-- The call of `_on_connect` that set `_connected` has not looked at the pending flag. -/
def Replaying (b : MQTTBridge σ) : Prop := ∃ call, b.connection = some call ∧
  (b.replays[call]? = some Replay.sending ∨ ∃ v, b.replays[call]? = some (Replay.published v))

/-- The acknowledgements are in order, and none is lost. -/
structure Delivered (b : MQTTBridge σ) : Prop where
  /-- No status is followed by an older one. -/
  inOrder : b.handed.Pairwise (·.version ≤ ·.version)
  /-- What was given to the client last is not newer than the latest status, and is it where it has its
  version. -/
  genuine : ∀ h ∈ b.handed, h.version ≤ b.latest.version ∧ (h.version = b.latest.version → h = b.latest)
  notLost : b.connected = true → HandedNow b ∨ b.pending = true ∨ Entry.override ∈ b.queue ∨
    Processing b ∨ Replaying b

/-- **Override acknowledgements are ordered and not lost.** -/
theorem acknowledged [DecidableEq σ] (status : σ) (es : List (Event σ)) :
    Delivered (exec next (init status) es) := by
  have h : Invariant (exec next (init status) es) :=
    exec_invariant (P := Invariant) (invariant_init status) fun x _ h => invariant_next h x.input
  refine ⟨h.sorted, fun a ha => ⟨h.bounded a ha, h.same a ha⟩, fun hc => ?_⟩
  rcases h.kept hc with hpending | hnow | hm | hw | ⟨call, hcon, hsending, -⟩
  · exact Or.inr (Or.inl hpending)
  · exact Or.inl hnow
  · exact Or.inr (Or.inr (Or.inl hm))
  · exact Or.inr (Or.inr (Or.inr (Or.inl (hw.imp id fun hs => Or.inl hs.1))))
  · exact Or.inr (Or.inr (Or.inr (Or.inr ⟨call, hcon, Or.inl hsending⟩)))

end InverterControl.Bridge.Acknowledged
