import InverterControl.Ess.Threads

/-!
# Observations

What the readers of the ESS mode know while they hold the selection lock, and what `get_ess_mode`
returns: an observation that was read after every write of every selection that was over.
-/

namespace InverterControl.Ess.Coherent

open Lib.Calls Lib.Threads Lib.History Lib.Runs Model Shared Threads

variable {T : Type} {dryRun : Bool} {t : T} {d : Depths}

/-! ### Facts that no other thread can take away -/

/-- Since some moment nobody has written, and `R` holds of the events since then. -/
def Since (R : List (Event T) → Prop) (s : State T) : Prop :=
  ∃ p q, s.log = p ++ q ∧ (∀ e ∈ q, writer e = none) ∧ R q

/-- More events leave `R`. -/
def Grows (R : List (Event T) → Prop) : Prop := ∀ q c, R q → R (q ++ c)

/-- `R`, and one reply. -/
def WithRead (t : T) (service path : String) (reply : Option String) (R : List (Event T) → Prop)
    (q : List (Event T)) : Prop := R q ∧ .read t service path reply ∈ q

theorem grows_withRead (t : T) (service path : String) (reply : Option String)
    {R : List (Event T) → Prop} (h : Grows R) : Grows (WithRead t service path reply R) :=
  fun q c hq => ⟨h q c hq.1, List.mem_append_left _ hq.2⟩

/-- `R`, and a reading of the switch. -/
def WithVebus (vebusMode : Option ℤ) (R : List (Event T) → Prop) (q : List (Event T)) : Prop :=
  R q ∧ VebusReading q vebusMode

theorem grows_withVebus (vebusMode : Option ℤ) {R : List (Event T) → Prop} (h : Grows R) :
    Grows (WithVebus vebusMode R) := by
  rintro q c ⟨hq, hread⟩
  refine ⟨h q c hq, hread.imp id ?_⟩
  rintro ⟨u, service, raw, hmem, hraw⟩
  exact ⟨u, service, raw, List.mem_append_left _ hmem, hraw⟩

theorem fresh_snoc {log : List (Event T)} {mode : EssMode} {e : Event T} (h : Fresh log mode)
    (he : writer e = none) : Fresh (log ++ [e]) mode := by
  obtain ⟨p, q, rfl, hread, hno⟩ := h
  refine ⟨p, q ++ [e], by simp, hread.mono fun x hx => List.mem_append_left _ hx, fun x hx => ?_⟩
  rcases List.mem_append.mp hx with hx | hx
  · exact hno x hx
  · rw [List.mem_singleton.mp hx]
    exact he

/-- An observation that was current at some moment, since which the holder of the receipts has seen no
new one. -/
def Loaded (d : Depths) (mode : EssMode) (s : State T) : Prop :=
  ∃ a c, s.log = a ++ c ∧ Current a mode ∧ (0 < d .receipts → lastReceipt a = s.status)

theorem loaded_later {s s' : State T} {mode : EssMode} {c : List (Event T)} (h : Loaded d mode s)
    (hlog : s'.log = s.log ++ c) (hstatus : s'.status = s.status) : Loaded d mode s' := by
  obtain ⟨a, c', ha, hcurrent, hlast⟩ := h
  exact ⟨a, c' ++ c, by rw [hlog, ha, List.append_assoc], hcurrent, by rwa [hstatus]⟩

/-- Whoever has the selection lock knows that the cache is fresh. -/
def Held (d : Depths) (s : State T) : Prop := 0 < d .selection → CacheFresh s

theorem held_more (name : LockName) (hname : name ≠ .selection) {s : State T} (h : Held d s) :
    Held (more d name) s := by
  intro hd
  rw [more_of_ne d hname.symm] at hd
  exact h hd

theorem held_of_cacheFresh {s : State T} (h : CacheFresh s) : Held d s := fun _ => h

theorem cacheFresh_record {s : State T} {e : Event T} (h : CacheFresh s) (he : writer e = none) :
    CacheFresh (record s e) := fun mode hmode => fresh_snoc (h mode hmode) he

theorem release_log (name : LockName) (s : State T) (l : Lock T) :
    ∃ c, (releaseLock t name s l).log = s.log ++ c ∧ (releaseLock t name s l).status = s.status := by
  unfold releaseLock
  split_ifs
  · exact ⟨[.released t], rfl, rfl⟩
  · exact ⟨[], by simp [setLock], rfl⟩

theorem cacheFresh_release {s : State T} {l : Lock T} (name : LockName) (h : CacheFresh s) :
    CacheFresh (releaseLock t name s l) := by
  unfold releaseLock
  split_ifs
  · exact cacheFresh_record (s := setLock s name l) h rfl
  · exact h

variable [DecidableEq T]

theorem stable_since {R : List (Event T) → Prop} (hR : Grows R) (hd : 0 < d .selection) :
    Stable t d (Since R) := by
  rintro s s' ⟨hlocks, p, q, hlog, hno, hq⟩ hrely
  obtain ⟨c, hlog', hc⟩ := hrely.log
  refine ⟨p, q ++ c, by rw [hlog', hlog, List.append_assoc], fun e he => ?_, hR q c hq⟩
  rcases List.mem_append.mp he with he | he
  · exact hno e he
  · exact hc (by rwa [hlocks]) e he

theorem fresh_later {s s' : State T} {mode : EssMode} (h : Fresh s.log mode) (hrely : Rely t s s')
    (hd : 0 < Lock.depth t (s.locks .selection)) : Fresh s'.log mode := by
  obtain ⟨p, q, hlog, hread, hno⟩ := h
  obtain ⟨c, hlog', hc⟩ := hrely.log
  refine ⟨p, q ++ c, by rw [hlog', hlog, List.append_assoc],
    hread.mono fun e he => List.mem_append_left _ he, fun e he => ?_⟩
  rcases List.mem_append.mp he with he | he
  · exact hno e he
  · exact hc hd e he

theorem stable_cacheFresh (hd : 0 < d .selection) : Stable t d (CacheFresh (T := T)) := by
  rintro s s' ⟨hlocks, h⟩ hrely mode hmode
  have hdepth : 0 < Lock.depth t (s.locks .selection) := by rwa [hlocks]
  rw [hrely.selection hdepth] at hmode
  exact fresh_later (h mode hmode) hrely hdepth

theorem stable_loaded (mode : EssMode) : Stable t d (Loaded d mode) := by
  rintro s s' ⟨hlocks, a, c, hlog, hcurrent, hstatus⟩ hrely
  obtain ⟨c', hlog', -⟩ := hrely.log
  refine ⟨a, c ++ c', by rw [hlog', hlog, List.append_assoc], hcurrent, fun hd => ?_⟩
  rw [hstatus hd, (hrely.receipts (by rwa [hlocks])).2.1]

theorem stable_paired (mode : EssMode) (status : Status) :
    Stable t d fun s => Paired s.log mode status := by
  rintro s s' ⟨-, h⟩ hrely
  obtain ⟨c, hlog, -⟩ := hrely.log
  simp only [hlog]
  exact h.later

/-- The thread carries out the request, under the lock of the receipts. -/
def Opened (t : T) (d : Depths) (requestId : String) (s : State T) : Prop :=
  0 < d .receipts ∧ openRequest s.log = some (t, requestId)

theorem stable_opened (requestId : String) : Stable t d (Opened t d requestId) := by
  rintro s s' ⟨hlocks, hd, hopen⟩ hrely
  refine ⟨hd, ?_⟩
  rw [(hrely.receipts (by rwa [hlocks])).2.2]
  exact hopen

/-- What a thread knows while it writes: its request, and that DRY mode is off.  A toggle has no
request. -/
def Live (t : T) (d : Depths) (request : Option String) (s : State T) : Prop :=
  ∀ requestId, request = some requestId → (0 < d .watchdog ∧ s.dryRun = false) ∧ Opened t d requestId s

theorem stable_live (request : Option String) : Stable t d (Live t d request) := by
  rintro s s' ⟨hlocks, h⟩ hrely requestId hid
  obtain ⟨⟨hd, hdry⟩, hopened⟩ := h requestId hid
  refine ⟨⟨hd, ?_⟩, stable_opened requestId s s' ⟨hlocks, hopened⟩ hrely⟩
  rw [hrely.watchdog (by rwa [hlocks])]
  exact hdry

theorem stable_seen (seen : List String) (hd : 0 < d .receipts) :
    Stable t d fun s => s.seen = seen := by
  rintro s s' ⟨hlocks, h⟩ hrely
  rw [(hrely.receipts (by rwa [hlocks])).1]
  exact h

/-! ### Reading -/

/-- A reply is added to what is known since the last write. -/
theorem holds_read {service path : String} {R : List (Event T) → Prop} (hR : Grows R)
    (hd : 0 < d .selection) :
    Holds dryRun t d (Since R) (perform (.dbusGet service path))
      (Yields fun reply => Since (WithRead t service path reply R)) := by
  refine Holds.perform trivial (stable_since hR hd)
    (fun r => stable_since (grows_withRead t service path r hR) hd)
    (fun _ _ => trivial) fun s i r s' h hinv ha => ?_
  simp only [answer, Option.some.injEq, Prod.mk.injEq] at ha
  obtain ⟨rfl, rfl⟩ := ha
  obtain ⟨p, q, hlog, hno, hq⟩ := h.2
  refine ⟨p, q ++ [.read t service path i.text], by simp [record, hlog], fun e he => ?_,
    hR q _ hq, by simp⟩
  rcases List.mem_append.mp he with he | he
  · exact hno e he
  · rw [List.mem_singleton.mp he]
    rfl

theorem holds_readVebusMode (service : Option String) {R : List (Event T) → Prop} (hR : Grows R)
    (hd : 0 < d .selection) :
    Holds dryRun t d (Since R) (readVebusMode service)
      (Yields fun vebusMode => Since (WithVebus vebusMode R)) := by
  have hnone : ∀ s, Since R s → Since (WithVebus none R) s := by
    rintro s ⟨p, q, hlog, hno, hq⟩
    exact ⟨p, q, hlog, hno, hq, Or.inl rfl⟩
  cases service with
  | none => exact Holds.done (stable_since hR hd) hnone
  | some name =>
    simp only [readVebusMode]
    split_ifs
    · exact Holds.done (stable_since hR hd) hnone
    · refine Holds.next (F := fun raw => Since (WithVebus (raw.bind intOfText) R)) ?_ fun raw => ?_
      · refine Holds.perform trivial (stable_since hR hd)
          (fun r => stable_since (grows_withVebus _ hR) hd)
          (fun _ _ => trivial) fun s i r s' h hinv ha => ?_
        simp only [answer, Option.some.injEq, Prod.mk.injEq] at ha
        obtain ⟨rfl, rfl⟩ := ha
        obtain ⟨p, q, hlog, hno, hq⟩ := h.2
        refine ⟨p, q ++ [.read t name "/Mode" i.text], by simp [record, hlog], fun e he => ?_, hR q _ hq,
          Or.inr ⟨t, name, i.text, by simp, rfl⟩⟩
        rcases List.mem_append.mp he with he | he
        · exact hno e he
        · rw [List.mem_singleton.mp he]
          rfl
      · exact Holds.done (stable_since (grows_withVebus (raw.bind intOfText) hR) hd) fun s h => h

/-- `_read_ess_mode` leaves an observation that was read after every write. -/
theorem holds_readEssMode (hd : 0 < d .selection) :
    Holds dryRun t d (fun _ => True) readEssMode (Yields fun _ => CacheFresh) := by
  have hempty : ∀ s : State T, Since (fun _ => True) s := fun s => ⟨s.log, [], by simp, by simp, trivial⟩
  have hgrows : Grows fun _ : List (Event T) => True := fun _ _ _ => trivial
  refine Holds.next ((holds_read hgrows hd).mono (fun s _ => hempty s) fun _ _ h => h) fun hub4 => ?_
  refine Holds.next (holds_read (grows_withRead t settingsService hub4ModePath hub4 hgrows) hd)
    fun bl => ?_
  have hreads := grows_withRead t settingsService batteryLifePath bl
    (grows_withRead t settingsService hub4ModePath hub4 hgrows)
  refine Holds.next (F := fun _ => Since _) (Holds.perform trivial (stable_since hreads hd)
    (fun _ => stable_since hreads hd) (fun _ _ => trivial) fun s i r s' h hinv ha =>
      ?_) fun service => ?_
  · simp only [answer, Option.some.injEq, Prod.mk.injEq] at ha
    rw [← ha.2]
    exact h.2
  refine Holds.next (holds_readVebusMode service hreads hd) fun vebusMode => ?_
  have hall := grows_withVebus vebusMode hreads
  refine Holds.next (F := fun _ => Since _) (Holds.perform trivial (stable_since hall hd)
    (fun _ => stable_since hall hd) (fun _ _ => trivial) fun s i r s' h hinv ha => ?_) fun now => ?_
  · simp only [answer, Option.some.injEq, Prod.mk.injEq] at ha
    rw [← ha.2]
    exact h.2
  have hfresh : ∀ s, Since (WithVebus vebusMode (WithRead t settingsService batteryLifePath bl
      (WithRead t settingsService hub4ModePath hub4 fun _ => True))) s →
      Fresh s.log (observation (hub4.bind intOfText) (bl.bind intOfText) vebusMode) := by
    rintro s ⟨p, q, hlog, hno, ⟨⟨-, hhub4⟩, hbl⟩, hvebus⟩
    exact ⟨p, q, hlog, ⟨t, hub4, bl, vebusMode, hhub4, hbl, hvebus, rfl⟩, hno⟩
  refine Holds.perform trivial (stable_since hall hd) (fun _ => stable_cacheFresh hd)
    (fun s h => ⟨by rwa [h.1], ?_⟩) fun s i r s' h hinv ha => ?_
  · rintro m ⟨⟩
    exact hfresh s h.2
  · simp only [answer, Option.some.injEq, Prod.mk.injEq] at ha
    rw [← ha.2]
    rintro m ⟨⟩
    exact hfresh s h.2

theorem stable_held : Stable t d (Held (T := T) d) := by
  intro s s' h hrely hd
  exact stable_cacheFresh hd s s' ⟨h.1, h.2 hd⟩ hrely

/-- With the lock taken nobody else is writing. -/
theorem cacheFresh_acquire {s : State T} {l : Lock T} (h : Knows t d (Held d) s) (hinv : Inv dryRun s)
    (hl : Lock.acquire t (s.locks .selection) = some l) : CacheFresh (setLock s .selection l) := by
  intro mode hmode
  rcases Nat.eq_zero_or_pos (d .selection) with hd | hd
  · obtain ⟨p, q, hlog, hread, -, hopen⟩ := hinv.coherent mode hmode
    refine ⟨p, q, hlog, hread, fun e he => ?_⟩
    cases hw : writer e with
    | none => rfl
    | some u =>
      have hu := hopen e he u hw
      by_cases hut : u = t
      · rw [hut, h.1, hd] at hu
        omega
      · have := (Lock.depth_acquire_other hut hl).2
        omega
  · exact h.2 hd mode hmode

/-- `_reconcile_ess_mode` -/
theorem holds_reconcile :
    Holds dryRun t d (Held (T := T) d) reconcileEssMode (Yields fun _ => Held d) := by
  have hd : 0 < more d .selection .selection := by simp
  refine Holds.withLock (L := fun _ => True) (R := Yields fun _ => CacheFresh) stable_held
    (stable_yields fun _ => stable_held) (stable_yields fun _ => stable_cacheFresh hd)
    (fun _ _ _ _ _ => trivial) (holds_readEssMode hd) (fun _ r s hr => ?_) fun r s l hr => ?_
  · cases r with
    | ok u => exact hr
    | error e => exact hr.elim
  · cases r with
    | ok u => exact held_of_cacheFresh (cacheFresh_release .selection hr)
    | error e => exact hr.elim

/-! ### Looking at the cache -/

/-- A look at the cache. -/
def Looked (d : Depths) (cache : Option EssMode × ℚ) (s : State T) : Prop :=
  (∀ mode, cache.1 = some mode → Loaded d mode s) ∧ Held d s

theorem stable_looked (cache : Option EssMode × ℚ) : Stable t d (Looked (T := T) d cache) :=
  fun s s' h hrely => ⟨fun mode hmode => stable_loaded mode s s' ⟨h.1, h.2.1 mode hmode⟩ hrely,
    stable_held s s' ⟨h.1, h.2.2⟩ hrely⟩

theorem holds_cache : Holds dryRun t d (Held (T := T) d) (perform .cache) (Yields (Looked d)) := by
  refine Holds.perform trivial stable_held (fun r => stable_looked r) (fun _ _ => trivial)
    fun s i r s' h hinv ha => ?_
  simp only [answer, Option.some.injEq, Prod.mk.injEq] at ha
  obtain ⟨rfl, rfl⟩ := ha
  refine ⟨fun mode (hmode : s.cache = some mode) => ?_, fun hd => ?_⟩
  · simp only [loadCache, hmode]
    refine ⟨s.log, [_], rfl, (hinv.coherent mode hmode).current, fun _ => ?_⟩
    exact hinv.status.symm
  · unfold loadCache
    cases hc : s.cache with
    | none => exact h.2 hd
    | some m => exact cacheFresh_record (h.2 hd) rfl

/-- What `get_ess_mode` returns. -/
def Got (d : Depths) (mode : EssMode) (s : State T) : Prop := Loaded d mode s ∧ Held d s

theorem stable_got (mode : EssMode) :
    Stable t d (Got (T := T) d mode) := (stable_loaded mode).and stable_held

theorem usable_some {cache : Option EssMode × ℚ} {mode : EssMode} (h : usable cache = some mode) :
    cache.1 = some mode := by
  unfold usable at h
  split_ifs at h
  exact h

theorem holds_cached (cache : Option EssMode × ℚ) :
    Holds dryRun t d (Looked (T := T) d cache) (cached cache) (Outcome (Got d) (Held d)) := by
  unfold cached
  cases hc : cache.1 with
  | some mode => exact Holds.done (stable_looked cache) fun s h => ⟨h.1 mode hc, h.2⟩
  | none => exact Holds.raise (stable_looked cache) fun s h => h.2

theorem holds_readMissing :
    Holds dryRun t d (Held (T := T) d) readMissing (Outcome (Got d) (Held d)) := by
  refine Holds.next holds_cache fun cache => ?_
  cases hu : usable cache with
  | some mode => exact Holds.done (stable_looked cache) fun s h => ⟨h.1 mode (usable_some hu), h.2⟩
  | none =>
    refine Holds.next (holds_reconcile.mono (fun s h => h.2) fun _ _ h => h) fun _ => ?_
    exact Holds.next holds_cache fun cache' => holds_cached cache'

/-- `get_ess_mode` -/
theorem holds_getEssMode :
    Holds dryRun t d (Held (T := T) d) getEssMode (Outcome (Got d) (Held d)) := by
  refine Holds.next holds_cache fun cache => ?_
  cases hu : usable cache with
  | some mode => exact Holds.done (stable_looked cache) fun s h => ⟨h.1 mode (usable_some hu), h.2⟩
  | none =>
    have hd : 0 < more d .selection .selection := by simp
    have hreceipts : more d .selection .receipts = d .receipts := more_of_ne d (by decide)
    refine Holds.withLock (L := Held (more d .selection)) (stable_looked cache)
      (stable_outcome stable_got stable_held) (stable_outcome stable_got stable_held)
      (fun s l h hinv hl => held_of_cacheFresh (cacheFresh_acquire ⟨h.1, h.2.2⟩ hinv hl))
        holds_readMissing
      (fun _ r s hr => ?_) fun r s l hr => ?_
    · cases r with
      | ok mode => exact hr.2 hd
      | error e => exact hr hd
    · cases r with
      | error e => exact held_of_cacheFresh (cacheFresh_release .selection (hr hd))
      | ok mode =>
        refine ⟨?_, held_of_cacheFresh (cacheFresh_release .selection (hr.2 hd))⟩
        have hloaded : Loaded d mode s := by
          obtain ⟨a, c, hlog, hcurrent, hlast⟩ := hr.1
          exact ⟨a, c, hlog, hcurrent, by rwa [hreceipts] at hlast⟩
        obtain ⟨c, hlog, hstatus⟩ := release_log (t := t) .selection s l
        exact loaded_later hloaded hlog hstatus

end InverterControl.Ess.Coherent
