import InverterControl.Ess.Coherent

/-!
# Selections, publications and runs

The programs of the ESS threads keep the rules, so in every run an observation that anyone gets was
read after every write of every selection that was over (`looks_are_current`), a publication pairs
an observation with the receipts of its own moment (`publications_are_paired`), a redelivered
request is not carried out again (`requests_carried_out_once`) and no selection writes in DRY mode
(`selections_are_live`).
-/

namespace InverterControl.Ess.Serialized

open Lib.Calls Lib.Threads Lib.History Lib.Runs Model Shared Threads Coherent

variable {T : Type} {dryRun : Bool} {t : T} {d : Depths}

/-- No lock is taken. -/
def free : Depths := fun _ => 0

theorem held_free (s : State T) : Held free s := fun hd => absurd hd (Nat.lt_irrefl 0)

theorem held_release {name : LockName} (hname : name ≠ .selection) {s : State T} {l : Lock T}
    (h : Held (more d name) s) : Held d (releaseLock t name s l) := by
  intro hd
  refine cacheFresh_release name (h ?_)
  rwa [more_of_ne d hname.symm]

theorem opened_more (name : LockName) {requestId : String} {s : State T} (h : Opened t d requestId s) :
    Opened t (more d name) requestId s := by
  refine ⟨?_, h.2⟩
  by_cases hname : name = .receipts
  · simp [hname]
  · rw [more_of_ne d (Ne.symm hname)]
    exact h.1

theorem opened_release {name : LockName} (hname : name ≠ .receipts) {requestId : String} {s : State T}
    {l : Lock T} (h : Opened t (more d name) requestId s) :
    Opened t d requestId (releaseLock t name s l) := by
  obtain ⟨hd, hopen⟩ := h
  rw [more_of_ne d hname.symm] at hd
  refine ⟨hd, ?_⟩
  unfold releaseLock
  split_ifs
  · rw [openRequest_record (s := setLock s name l) rfl]
    exact hopen
  · exact hopen

theorem live_record {request : Option String} {s : State T} {e : Event T} (h : Live t d request s)
    (he : newsOfRequest e = none) : Live t d request (record s e) := by
  intro requestId hid
  obtain ⟨hdry, hd, hopen⟩ := h requestId hid
  refine ⟨hdry, hd, ?_⟩
  rw [openRequest_record he]
  exact hopen

/-- A toggle. -/
theorem live_none (s : State T) : Live t d none s := nofun

/-! ### Writing -/

variable {request : Option String}

/-- Before the first write. -/
def Ready (t : T) (d : Depths) (request : Option String) (s : State T) : Prop :=
  CacheFresh s ∧ Live t d request s

/-- What a thread knows around a critical section of the selection lock that writes. -/
def Before (t : T) (d : Depths) (request : Option String) (s : State T) : Prop :=
  Held d s ∧ Live t d request s

theorem before_release {s : State T} {l : Lock T} (h : Ready t (more d .selection) request s) :
    Before t d request (releaseLock t .selection s l) := by
  refine ⟨held_of_cacheFresh (cacheFresh_release .selection h.1), fun requestId hid => ?_⟩
  obtain ⟨⟨hd, hdry⟩, hopened⟩ := h.2 requestId hid
  rw [more_of_ne d (by decide)] at hd
  refine ⟨⟨hd, ?_⟩, opened_release (by decide) hopened⟩
  unfold releaseLock
  split_ifs <;> exact hdry

variable [DecidableEq T]

theorem stable_ready (hd : 0 < d .selection) : Stable t d (Ready t d request) :=
  (stable_cacheFresh hd).and (stable_live request)

theorem holds_quiet {op : Op} (hop : Lockless op) (hd : 0 < d .selection)
    (hallowed : ∀ s : State T, Allowed t s op)
    (hsame : ∀ (s s' : State T) i r, answer t op s i = some (r, s') →
      s' = s ∨ ∃ e, s' = record s e ∧ writer e = none ∧ newsOfRequest e = none) :
    Holds dryRun t d (Ready t d request) (perform op) (Yields fun _ => Ready t d request) := by
  refine Holds.perform hop (stable_ready hd) (fun _ => stable_ready hd) (fun s _ => hallowed s)
    fun s i r s' h hinv ha => ?_
  rcases hsame s s' i r ha with rfl | ⟨e, rfl, hwriter, hnews⟩
  · exact h.2
  · exact ⟨cacheFresh_record h.2.1 hwriter, live_record h.2.2 hnews⟩

theorem holds_dbusGet (service path : String) (hd : 0 < d .selection) :
    Holds dryRun t d (Ready t d request) (perform (.dbusGet service path))
      (Yields fun _ => Ready t d request) := by
  refine holds_quiet trivial hd (fun _ => trivial) fun s s' i r ha => Or.inr ?_
  simp only [answer, Option.some.injEq, Prod.mk.injEq] at ha
  exact ⟨_, ha.2.symm, rfl, rfl⟩

theorem holds_vebusService (hd : 0 < d .selection) :
    Holds dryRun t d (Ready t d request) (perform .vebusService)
      (Yields fun _ => Ready t d request) := by
  refine holds_quiet trivial hd (fun _ => trivial) fun s s' i r ha => Or.inl ?_
  simp only [answer, Option.some.injEq, Prod.mk.injEq] at ha
  exact ha.2.symm

/-- `_ess_mode_writes` writes nothing. -/
theorem holds_essModeWrites (mode : Mode) (hd : 0 < d .selection) :
    Holds dryRun t d (Ready t d request) (essModeWrites mode)
      (Outcome (fun _ => Ready t d request) (Ready t d request)) := by
  have hraise : ∀ e : Exception, Holds dryRun t d (Ready t d request)
      (.raise e : Code (List (String × String × ℤ)))
      (Outcome (fun _ => Ready t d request) (Ready t d request)) :=
    fun e => Holds.raise (stable_ready hd) fun _ h => h
  have hdone : ∀ writes : List (String × String × ℤ), Holds dryRun t d (Ready t d request) (.done writes)
      (Outcome (fun _ => Ready t d request) (Ready t d request)) :=
    fun writes => Holds.done (stable_ready hd) fun _ h => h
  unfold essModeWrites
  by_cases hswitch : mode = .off ∨ mode = .on
  · rw [if_pos hswitch]
    refine Holds.next (holds_vebusService hd) fun service => ?_
    cases service with
    | none => exact hraise _
    | some name =>
      by_cases hname : name = ""
      · simp only [switchWrites, if_pos hname]
        exact hraise _
      · simp only [switchWrites, if_neg hname]
        refine Holds.next (holds_dbusGet name "/ModeIsAdjustable" hd) fun adjustable => ?_
        by_cases hone : adjustable = some "1"
        · rw [if_pos hone]
          exact hdone _
        · rw [if_neg hone]
          exact hraise _
  · rw [if_neg hswitch]
    refine Holds.next (holds_dbusGet settingsService hub4ModePath hd) fun raw => ?_
    by_cases hraw : raw ≠ some "1" ∧ raw ≠ some "2" ∧ raw ≠ some "3"
    · rw [if_pos hraw]
      exact hraise _
    · rw [if_neg hraw]
      by_cases hexternal : mode = .externalControl
      · rw [if_pos hexternal]
        exact hdone _
      · rw [if_neg hexternal]
        exact hdone _

theorem holds_dbusSet (service path : String) (value : ℤ) (hd : 0 < d .selection) :
    Holds dryRun t d (Live t d request) (perform (.dbusSet service path value request))
      (Yields fun _ => Live t d request) := by
  refine Holds.perform trivial (stable_live request) (fun _ => stable_live request)
    (fun s h => ⟨by rwa [h.1], fun requestId hid => ?_⟩) fun s i r s' h hinv ha => ?_
  · obtain ⟨⟨-, hdry⟩, -, hopen⟩ := h.2 requestId hid
    exact ⟨hdry, hopen⟩
  · simp only [answer, Option.some.injEq, Prod.mk.injEq] at ha
    rw [← ha.2]
    exact live_record h.2 rfl

theorem holds_writeAll (hd : 0 < d .selection) : ∀ writes : List (String × String × ℤ),
    Holds dryRun t d (Live t d request) (writeAll request writes)
      (Outcome (fun _ => Live t d request) (Live t d request))
  | [] => Holds.done (stable_live request) fun _ h => h
  | (service, path, value) :: rest => by
    refine Holds.next (holds_dbusSet service path value hd) fun ok => ?_
    split_ifs
    · exact holds_writeAll hd rest
    · exact Holds.raise (stable_live request) fun _ h => h

/-- The cache is emptied. -/
theorem holds_forget (request : Option String) (hd : 0 < d .selection) :
    Holds dryRun t d (Live t d request) (perform (.storeCache none 0))
      (Yields fun _ => Ready t d request) := by
  refine Holds.perform trivial (stable_live request) (fun _ => stable_ready hd)
    (fun s h => ⟨by rwa [h.1], fun m hm => absurd hm (by simp)⟩) fun s i r s' h hinv ha => ?_
  simp only [answer, Option.some.injEq, Prod.mk.injEq] at ha
  rw [← ha.2]
  exact ⟨fun m hm => absurd hm (by simp), h.2⟩

theorem stable_before : Stable t d (Before t d request) := stable_held.and (stable_live request)

theorem ready_acquire {s : State T} {l : Lock T} (h : Knows t d (Before t d request) s)
    (hinv : Inv dryRun s) (hl : Lock.acquire t (s.locks .selection) = some l) :
    Ready t (more d .selection) request (setLock s .selection l) := by
  refine ⟨cacheFresh_acquire ⟨h.1, h.2.1⟩ hinv hl, fun requestId hid => ?_⟩
  obtain ⟨hdry, hopened⟩ := h.2.2 requestId hid
  rw [more_of_ne d (by decide)]
  exact ⟨hdry, opened_more (s := setLock s .selection l) .selection hopened⟩

/-- A critical section of the selection lock that ends with a fresh or an empty cache. -/
theorem holds_selection {α : Type} {body : Code α}
    (hbody : Holds dryRun t (more d .selection) (Ready t (more d .selection) request) body
      (Outcome (fun _ => Ready t (more d .selection) request) (Ready t (more d .selection) request))) :
    Holds dryRun t d (Before t d request) (withLock .selection body)
      (Outcome (fun _ => Before t d request) (Before t d request)) := by
  have hd : 0 < more d .selection .selection := by simp
  refine Holds.withLock (L := Ready t (more d .selection) request) stable_before
    (stable_outcome (fun _ => stable_before) stable_before)
    (stable_outcome (fun _ => stable_ready hd) (stable_ready hd))
    (fun s l h hinv hl => ready_acquire h hinv hl) hbody (fun _ r s hr => ?_) fun r s l hr => ?_
  · cases r with
    | ok a => exact hr.1
    | error e => exact hr.1
  · cases r with
    | ok a => exact before_release hr
    | error e => exact before_release hr

/-- `victron.select_ess_mode` -/
theorem holds_selectEssMode (mode : Mode) :
    Holds dryRun t d (Before t d request) (selectEssMode mode request)
      (Outcome (fun _ => Before t d request) (Before t d request)) := by
  have hd : 0 < more d .selection .selection := by simp
  refine holds_selection (Holds.bind (holds_essModeWrites mode hd) (fun writes => ?_) fun _ _ h => h)
  refine Holds.ensure ((holds_writeAll hd writes).mono (fun s h => h.2) fun _ _ h => h)
    (stable_outcome (fun _ => stable_ready hd) (stable_ready hd)) (fun r => ?_) fun r e s h => ?_
  · refine (holds_forget request hd).mono (fun s h => ?_) fun r' s h => ?_
    · cases r with
      | ok a => exact h
      | error e => exact h
    · cases r' with
      | error e => exact h.elim
      | ok u =>
        cases r with
        | ok a => exact h
        | error e => exact h
  · cases r with
    | ok a => exact h
    | error e => exact h

/-- `set_ess_mode` -/
theorem holds_setEssMode (external : Bool) :
    Holds dryRun t d (Before t d none) (setEssMode external)
      (Outcome (fun _ => Before t d none) (Before t d none)) := by
  have hd : 0 < more d .selection .selection := by simp
  have hset : ∀ service path value, Holds dryRun t (more d .selection) (Live t (more d .selection) none)
      (perform (.dbusSet service path value none)) (Yields fun _ => Live t (more d .selection) none) :=
    fun service path value => holds_dbusSet service path value hd
  refine holds_selection (Holds.next (F := fun _ => Live t (more d .selection) none) ?_ fun result => ?_)
  · unfold legacyWrites
    split_ifs
    · exact (hset _ _ _).mono (fun s h => h.2) fun _ _ h => h
    · refine Holds.next ((hset _ _ _).mono (fun s h => h.2) fun _ _ h => h) fun success1 => ?_
      exact Holds.next (hset _ _ _) fun success2 => Holds.done (stable_live none) fun _ h => h
  · exact Holds.next (holds_forget none hd) fun _ => Holds.done (stable_ready hd) fun _ h => h

/-! ### The calls -/

/-- A request is being carried out, and its writes are ahead. -/
def Ahead (t : T) (d : Depths) (requestId : String) (s : State T) : Prop :=
  Held d s ∧ Opened t d requestId s

theorem stable_ahead (requestId : String) : Stable t d (Ahead t d requestId) :=
  stable_held.and (stable_opened requestId)

/-- `write` of `controller.select_ess_mode` -/
theorem holds_writeSelection (mode : Mode) (requestId : String) :
    Holds dryRun t d (Ahead t d requestId) (writeSelection mode requestId)
      (Outcome (fun _ => Ahead t d requestId) (Ahead t d requestId)) := by
  have hw : 0 < more d .watchdog .watchdog := by simp
  have hahead : Stable t (more d .watchdog) (Ahead t (more d .watchdog) requestId) :=
    stable_ahead requestId
  refine Holds.withLock (L := Ahead t (more d .watchdog) requestId)
    (R := Outcome (fun _ => Ahead t (more d .watchdog) requestId) (Ahead t (more d .watchdog) requestId))
    (stable_ahead requestId) (stable_outcome (fun _ => stable_ahead requestId) (stable_ahead requestId))
    (stable_outcome (fun _ => hahead) hahead)
    (fun s l h _ _ => ⟨held_more .watchdog (by decide) h.2.1,
      opened_more (s := setLock s .watchdog l) .watchdog h.2.2⟩) ?_ nofun fun r s l hr => ?_
  · let F : Bool → State T → Prop := fun b s =>
      Ahead t (more d .watchdog) requestId s ∧ (b = false → s.dryRun = false)
    have hF : ∀ b, Stable t (more d .watchdog) (F b) := by
      intro b
      refine hahead.and fun s s' h hrely hb => ?_
      rw [hrely.watchdog (by rwa [h.1])]
      exact h.2 hb
    refine Holds.next (F := F) (Holds.perform trivial hahead hF (fun _ _ => trivial)
      fun s i r s' h hinv ha => ?_) fun b => ?_
    · simp only [answer, Option.some.injEq, Prod.mk.injEq] at ha
      obtain ⟨rfl, rfl⟩ := ha
      exact ⟨h.2, fun hb => hb⟩
    · split_ifs with hb
      · exact Holds.raise (hF b) fun s h => h.1
      · have hselect : Holds dryRun t (more d .watchdog) (F b) (selectEssMode mode (some requestId))
            (Outcome (fun _ => Ahead t (more d .watchdog) requestId)
              (Ahead t (more d .watchdog) requestId)) := by
          refine (holds_selectEssMode mode).mono (fun s h => ⟨h.1.1, fun id hid => ?_⟩) fun r s h => ?_
          · obtain rfl := Option.some.inj hid
            exact ⟨⟨hw, h.2 (by simpa using hb)⟩, h.1.2⟩
          · cases r with
            | ok u => exact ⟨h.1, (h.2 requestId rfl).2⟩
            | error e => exact ⟨h.1, (h.2 requestId rfl).2⟩
        refine Holds.bind hselect (fun _ => ?_) fun _ _ h => h
        refine Holds.perform trivial hahead (fun _ => hahead) (fun _ _ => trivial)
          fun s i r s' h hinv ha => ?_
        simp only [answer, Option.some.injEq, Prod.mk.injEq] at ha
        rw [← ha.2]
        exact h.2
  · cases r with
    | ok a => exact ⟨held_release (by decide) hr.1, opened_release (by decide) hr.2⟩
    | error e => exact ⟨held_release (by decide) hr.1, opened_release (by decide) hr.2⟩

theorem rest_iff {s : State T} : Rest t s ↔ Knows t free (fun _ => True) s :=
  ⟨fun h => ⟨h, trivial⟩, fun h => h.1⟩

/-- The receipt of the request that the thread carries out. -/
theorem holds_receipt (requestId : String) (result : Except Exception Unit)
    (hselection : d .selection = 0) :
    Holds dryRun t d (Opened t d requestId) (receipt requestId result) fun _ _ => True := by
  have hstatus : ∀ error, Holds dryRun t d (Opened t d requestId)
      (perform (.setStatus ⟨some requestId, error⟩)) fun _ _ => True := by
    intro error
    refine Holds.perform trivial (stable_opened requestId) (fun _ => stable_true)
      (fun s h => ⟨by rw [h.1]; exact h.2.1, by rw [h.1, hselection], fun id hid => ?_⟩)
      fun _ _ _ _ _ _ _ => trivial
    obtain rfl := Option.some.inj hid
    exact h.2.2
  cases result with
  | ok u => exact hstatus none
  | error e =>
    cases e with
    | valueError text => exact hstatus (some text)
    | runtimeError text => exact hstatus (some text)
    | typeError => exact Holds.raise (stable_opened requestId) fun _ _ => trivial

/-- `EssSelection.apply` -/
theorem holds_applySelection (mode : Mode) (requestId : String) :
    Holds dryRun t free (fun _ : State T => True) (applySelection mode requestId) fun _ _ => True := by
  have hr : 0 < more free .receipts .receipts := by simp
  have hselection : more free .receipts .selection = 0 := more_of_ne free (by decide)
  have hheld : ∀ s : State T, Held (more free .receipts) s := by
    intro s hd
    rw [hselection] at hd
    omega
  refine Holds.withLock (L := fun _ => True) (R := fun _ _ => True) stable_true (fun _ => stable_true)
    (fun _ => stable_true) (fun _ _ _ _ _ => trivial) ?_ nofun fun _ _ _ _ => trivial
  refine Holds.next (F := fun seen s => s.seen = seen) (Holds.perform trivial stable_true
    (fun seen => stable_seen seen hr) (fun _ _ => trivial) fun s i r s' h hinv ha => ?_) fun seen => ?_
  · simp only [answer, Option.some.injEq, Prod.mk.injEq] at ha
    obtain ⟨rfl, rfl⟩ := ha
    rfl
  split_ifs with hseen
  · exact Holds.done (stable_seen seen hr) fun _ _ => trivial
  · refine Holds.next (F := fun _ => Opened t (more free .receipts) requestId) (Holds.perform trivial
      (stable_seen seen hr) (fun _ => stable_opened requestId)
      (fun s h => ⟨by rw [h.1]; exact hr, by rw [h.2]; exact hseen⟩)
      fun s i r s' h hinv ha => ⟨hr, ?_⟩) fun _ => ?_
    · simp only [answer, Option.some.injEq, Prod.mk.injEq] at ha
      rw [← ha.2]
      simp [openRequest, record, newsOfRequest]
    · refine Holds.next ((holds_writeSelection mode requestId).attempt.mono (fun s h => ⟨hheld s, h⟩)
        fun _ _ h => h) fun result => ?_
      refine (holds_receipt requestId result hselection).mono (fun s h => ?_) fun _ _ h => h
      cases result with
      | ok u => exact h.2
      | error e => exact h.2

theorem holds_get : Holds dryRun t free (fun _ : State T => True) getEssMode fun _ _ => True :=
  holds_getEssMode.mono (fun s _ => held_free s) fun _ _ _ => trivial

theorem holds_toggle : Holds dryRun t free (fun _ : State T => True) toggleEssMode fun _ _ => True := by
  refine Holds.bind holds_get (fun current => ?_) fun _ _ h => h
  refine Holds.bind ((holds_setEssMode (!current.isExternal)).mono
    (fun s _ => ⟨held_free s, live_none s⟩) fun _ _ _ => trivial)
    (fun changed => ?_) fun _ _ h => h
  split_ifs
  · exact holds_get
  · exact Holds.done stable_true fun _ _ => trivial

theorem holds_poll : Holds dryRun t free (fun _ : State T => True) pollEssMode fun _ _ => True := by
  refine Holds.next (F := fun _ _ => True) (Holds.perform trivial stable_true (fun _ => stable_true)
    (fun _ _ => trivial) fun _ _ _ _ _ _ _ => trivial) fun now => ?_
  refine Holds.next (holds_cache.mono (fun s _ => held_free s) fun _ _ h => h) fun cache => ?_
  split_ifs
  · exact holds_reconcile.mono (fun s _ => held_free s) fun _ _ _ => trivial
  · exact Holds.done (stable_looked cache) fun _ _ => trivial

/-- `EssSelection.observe` -/
theorem holds_observe : Holds dryRun t free (fun _ : State T => True) observe
    (Outcome (fun pair s => Paired s.log pair.1 pair.2) fun _ => True) := by
  have hr : 0 < more free .receipts .receipts := by simp
  have hheld : ∀ s : State T, Held (more free .receipts) s := by
    intro s hd
    rw [more_of_ne free (by decide)] at hd
    exact absurd hd (Nat.lt_irrefl 0)
  refine Holds.withLock (L := fun _ => True)
    (R := Outcome (fun pair s => Paired s.log pair.1 pair.2) fun _ => True) stable_true
    (stable_outcome (fun pair => stable_paired pair.1 pair.2) stable_true)
    (stable_outcome (fun pair => stable_paired pair.1 pair.2) stable_true)
      (fun _ _ _ _ _ => trivial) ?_ nofun
    fun r s l hpair => ?_
  · refine Holds.bind (holds_getEssMode.mono (fun s _ => hheld s) fun _ _ h => h) (fun mode => ?_)
      fun _ _ _ => trivial
    refine Holds.next (F := fun status s => Paired s.log mode status) (Holds.perform trivial
      (stable_got mode) (fun status => stable_paired mode status) (fun _ _ => trivial)
      fun s i r s' h hinv ha => ?_) fun status => ?_
    · simp only [answer, Option.some.injEq, Prod.mk.injEq] at ha
      obtain ⟨rfl, rfl⟩ := ha
      obtain ⟨a, c, hlog, hcurrent, hlast⟩ := h.2.1
      exact ⟨a, c, hlog, hcurrent, hlast hr⟩
    · exact Holds.done (stable_paired mode status) fun s h => h
  · cases r with
    | error e => trivial
    | ok pair =>
      obtain ⟨c, hlog, -⟩ := release_log (t := t) .receipts s l
      have hafter : Paired (releaseLock t .receipts s l).log pair.1 pair.2 := by
        rw [hlog]
        exact Paired.later hpair
      exact hafter

theorem holds_publish : Holds dryRun t free (fun _ : State T => True) publishState fun _ _ => True := by
  refine Holds.bind holds_observe (fun pair => ?_) fun _ _ h => h
  exact Holds.perform trivial (stable_paired pair.1 pair.2) (fun _ => stable_true) (fun s h => h.2)
    fun _ _ _ _ _ _ _ => trivial

/-- A critical section of the watchdog's lock around anything that leaves nothing behind. -/
theorem holds_watchdog {body : Code Unit}
    (h : Holds dryRun t (more free .watchdog) (fun _ : State T => True) body fun _ _ => True) :
    Holds dryRun t free (fun _ : State T => True) (withLock .watchdog body) fun _ _ => True :=
  Holds.withLock stable_true (fun _ => stable_true) (fun _ => stable_true)
    (fun _ _ _ _ _ => trivial) h nofun
    fun _ _ _ _ => trivial

theorem holds_trimGate : Holds dryRun t free (fun _ : State T => True) trimGate fun _ _ => True := by
  refine holds_watchdog (Holds.bind (R := fun _ _ => True) (holds_getEssMode.mono (fun s _ hd => ?_)
    fun _ _ _ => trivial) (fun _ => Holds.done stable_true fun _ _ => trivial) fun _ _ h => h)
  rw [more_of_ne free (by decide)] at hd
  exact absurd hd (Nat.lt_irrefl 0)

theorem holds_setDryRun (enabled : Bool) :
    Holds dryRun t free (fun _ : State T => True) (setDryRun enabled) fun _ _ => True := by
  have hw : 0 < more free .watchdog .watchdog := by simp
  exact holds_watchdog (Holds.perform trivial stable_true (fun _ => stable_true)
    (fun s h => by rw [Allowed, h.1]; exact hw) fun _ _ _ _ _ _ _ => trivial)

/-- **Every call keeps the rules.** -/
theorem holds_program (c : Call) :
    Holds dryRun t free (fun _ : State T => True) (program c) fun _ _ => True := by
  cases c with
  | select payload =>
    simp only [program, selectFromPayload]
    cases validateSelection payload with
    | ok chosen => exact holds_applySelection chosen.1 chosen.2
    | error e => exact Holds.raise stable_true fun _ _ => trivial
  | toggle =>
    exact Holds.bind holds_toggle (fun _ => Holds.done stable_true fun _ _ => trivial) fun _ _ h =>
      h
  | get => exact Holds.bind holds_get (fun _ => Holds.done stable_true fun _ _ => trivial) fun _ _ h => h
  | poll => exact holds_poll
  | publish => exact holds_publish
  | trimGate => exact holds_trimGate
  | setDryRun enabled => exact holds_setDryRun enabled

/-! ### Runs -/

/-- The daemon after its start. -/
def start (dryRun : Bool) : State T := { dryRun := dryRun }

/-- What is shared after a run: any threads, any calls, any order, any replies. -/
def run (dryRun : Bool) (is : List (Input T Call Reply)) : State T :=
  (exec (step program answer) (idle (start dryRun)) is).shared

theorem inv_start (dryRun : Bool) : Inv dryRun (start dryRun : State T) where
  coherent := nofun
  sound := each_nil
  status := rfl
  seen := by simp [start, requests, lastN]
  dryRun := rfl

theorem inv_run (dryRun : Bool) (is : List (Input T Call Reply)) : Inv dryRun (run dryRun is) := by
  have hprogram : ∀ t c s, (discipline dryRun).inv s → (discipline dryRun).rest t s →
      Safe (discipline dryRun) answer t (fun _ => (discipline (T := T) dryRun).rest t) (program c) s :=
    fun t c s _ hrest => (holds_program c s (rest_iff.mp hrest)).mono fun _ _ h => rest_iff.mpr h
  exact (exec_kept hprogram (idle_kept (inv_start dryRun) fun _ _ => rfl) is).inv

/-- Whoever looks at the cache gets an observation that is current. -/
def LooksAreCurrent (log : List (Event T)) : Prop :=
  ∀ a t mode c, log = a ++ .loaded t mode :: c → Current a mode

/-- **No stale observation.** -/
theorem looks_are_current (dryRun : Bool) (is : List (Input T Call Reply)) :
    LooksAreCurrent (run dryRun is).log :=
  fun a t mode c hlog => (inv_run dryRun is).sound a (.loaded t mode) c hlog

/-- Every publication goes back to one moment at which its observation was current and its status
was that of the last receipt. -/
def PublicationsArePaired (log : List (Event T)) : Prop :=
  ∀ a t mode status c, log = a ++ .published t mode status :: c → Paired a mode status

/-- **Observations and receipts belong together.** -/
theorem publications_are_paired (dryRun : Bool) (is : List (Input T Call Reply)) :
    PublicationsArePaired (run dryRun is).log :=
  fun a t mode status c hlog => (inv_run dryRun is).sound a (.published t mode status) c hlog

/-- Two events carry out one request: either they are of one selection, with no receipt and no other
request between them, or the request was remembered anew in between, and 128 others at least before
that. -/
def RequestsCarriedOutOnce (log : List (Event T)) : Prop :=
  ∀ a e b f c requestId, log = a ++ e :: b ++ f :: c → carriesOut e = some requestId →
    carriesOut f = some requestId → (∀ x ∈ e :: b, newsOfRequest x = none) ∨
      ∃ b₁ t b₂, b = b₁ ++ .remembered t requestId :: b₂ ∧ 128 ≤ (requests b₁).length

/-- **No redelivered request is carried out again.** -/
theorem requests_carried_out_once (dryRun : Bool) (is : List (Input T Call Reply)) :
    RequestsCarriedOutOnce (run dryRun is).log := by
  intro a e b f c requestId hlog he hf
  have hsound := (inv_run dryRun is).sound
  obtain ⟨t, hopen⟩ := openRequest_of_carriesOut (hsound a e (b ++ f :: c) (by simp [hlog])) he
  obtain ⟨t', hopen'⟩ := openRequest_of_carriesOut (hsound (a ++ e :: b) f c hlog) hf
  obtain ⟨p, q, hp, hq⟩ := of_openRequest hopen
  obtain ⟨p', q', hp', hq'⟩ := of_openRequest hopen'
  -- where the request of the second event was remembered
  rcases List.append_eq_append_iff.mp hp' with ⟨z, rfl, hz⟩ | ⟨z, ha, hz⟩
  · rcases z with _ | ⟨y, b₁⟩
    · obtain ⟨rfl, -⟩ := List.cons.inj hz
      simp [carriesOut] at he
    · obtain ⟨rfl, rfl⟩ := List.cons.inj hz
      refine Or.inr ⟨b₁, t', q', rfl, ?_⟩
      have hnew : requestId ∉ lastN 128 (requests (a ++ e :: b₁)) :=
        hsound (a ++ e :: b₁) (.remembered t' requestId) (q' ++ f :: c) (by simp [hlog])
      have hact : requestOf e = none := by
        cases e with
        | remembered u id => simp [carriesOut] at he
        | _ => rfl
      have hrequests : requests (a ++ e :: b₁) = requests p ++ requestId :: requests b₁ := by
        calc requests (a ++ e :: b₁)
            = requests a ++ requests b₁ := by
              rw [requests, List.filterMap_append, List.filterMap_cons_none hact]
              rfl
          _ = (requests p ++ [requestId]) ++ requests b₁ := by
              rw [hp, requests, List.filterMap_append, List.filterMap_cons_some (f := requestOf) rfl]
              exact congrArg (fun l => (requests p ++ requestId :: l) ++ requests b₁)
                (requests_of_quiet hq)
          _ = requests p ++ requestId :: requests b₁ := by simp
      rw [hrequests] at hnew
      exact le_length_of_notMem_lastN hnew
  · refine Or.inl fun x hx => hq' x ?_
    rcases z with _ | ⟨y, z⟩
    · obtain ⟨rfl, -⟩ := List.cons.inj hz
      simp [carriesOut] at he
    · obtain ⟨-, rfl⟩ := List.cons.inj hz
      exact List.mem_append_right _ hx

/-- A write that carries out a request comes while DRY mode is off. -/
def SelectionsAreLive (dryRun : Bool) (log : List (Event T)) : Prop :=
  ∀ a t service path value accepted requestId c,
    log = a ++ .wrote t service path value accepted (some requestId) :: c →
      latest newsOfDryRun dryRun a = false

/-- **No selection writes in DRY mode.** -/
theorem selections_are_live (dryRun : Bool) (is : List (Input T Call Reply)) :
    SelectionsAreLive dryRun (run dryRun is).log :=
  fun a t service path value accepted requestId c hlog =>
    ((inv_run dryRun is).sound a (.wrote t service path value accepted (some requestId)) c hlog
      requestId rfl).1

/-- One thread selects external control and is asked a second time, then the other one publishes. -/
example :
    let chosen : Call := .select (some [("mode", .str "external_control"), ("request_id", .str "r1")])
    let reply (text : Option String) : Reply := { text := text, accepted := true, now := 1 }
    let select : List (Input Bool Call Reply) :=
      .start false chosen :: .replicate 15 (.go false (reply (some "1")))
    let publish : List (Input Bool Call Reply) := .start true .publish ::
      (List.replicate 5 none ++ [some "3", some "10", some "vebus", some "3"] ++
        List.replicate 9 none).map
        fun text => .go true (reply text)
    (run false (select ++ select ++ publish)).log =
      [.remembered false "r1", .read false settingsService hub4ModePath (some "1"),
        .wrote false settingsService hub4ModePath 3 true (some "r1"), .released false,
        .receipt false ⟨some "r1", none⟩, .read true settingsService hub4ModePath (some "3"),
        .read true settingsService batteryLifePath (some "10"), .read true "vebus" "/Mode" (some "3"),
        .loaded true (observation (some 3) (some 10) (some 3)), .released true,
        .published true (observation (some 3) (some 10) (some 3)) ⟨some "r1", none⟩] := by
  decide

end InverterControl.Ess.Serialized
