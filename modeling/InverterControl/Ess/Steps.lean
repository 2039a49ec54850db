import InverterControl.Ess.Shared

/-!
# What one call keeps

Every call that a thread is allowed to make keeps the invariant and what the other threads rely on
(`answer_keeps`).  A call adds at most one event to the log, so the cases are the events.
-/

namespace InverterControl.Ess.Shared

open Lib.Calls Lib.Threads Lib.History Model

variable {T : Type} {d : Bool} {t u : T} {s s' : State T} {e : Event T} {mode : EssMode}

/-! ### Logs that grow -/

theorem remember_lastN (l : List String) (requestId : String) :
    remember (lastN 128 l) requestId = lastN 128 (l ++ [requestId]) := by
  have hlen : (lastN 128 l).length = min 128 l.length := length_lastN 128 l
  have hsnoc : lastN 128 (l ++ [requestId]) = lastN 127 l ++ [requestId] := lastN_snoc 127 l requestId
  simp only [remember, List.length_append, List.length_singleton]
  rw [hsnoc]
  split_ifs with hlong
  · -- the oldest of 128 goes
    have hne : lastN 128 l ≠ [] := by
      intro hnil
      rw [hnil] at hlong
      simp at hlong
    have hdrop : l.length - 128 + 1 = l.length - 127 := by omega
    rw [List.tail_append_of_ne_nil hne, lastN, lastN, List.tail_drop, hdrop]
  · have hdrop : l.length - 128 = l.length - 127 := by omega
    rw [lastN, lastN, hdrop]

theorem requests_snoc (log : List (Event T)) (e : Event T) :
    requests (log ++ [e]) = requests log ++ (requestOf e).toList := by
  unfold requests
  rw [List.filterMap_append]
  cases h : requestOf e with
  | none => simp [h]
  | some requestId => simp [h]

/-- What has been remembered since an open request has no receipt. -/
theorem of_openRequest {log : List (Event T)} {t : T} {requestId : String}
    (h : openRequest log = some (t, requestId)) :
    ∃ p q, log = p ++ .remembered t requestId :: q ∧ ∀ x ∈ q, newsOfRequest x = none := by
  obtain ⟨p, e, q, hlog, he, hq⟩ := latest_eq_some h
  cases e with
  | remembered u id =>
    obtain ⟨rfl, rfl⟩ : u = t ∧ id = requestId := by simpa [newsOfRequest] using he
    exact ⟨p, q, hlog, hq⟩
  | _ => simp [newsOfRequest] at he

theorem requests_of_quiet {q : List (Event T)} (h : ∀ x ∈ q, newsOfRequest x = none) :
    requests q = [] := by
  refine List.filterMap_eq_nil_iff.mpr fun x hx => ?_
  have hnews := h x hx
  cases x with
  | remembered t requestId => simp [newsOfRequest] at hnews
  | _ => rfl

/-- Whatever carries out a request comes after the request was remembered, with no other request and no
receipt in between. -/
theorem openRequest_of_carriesOut {a : List (Event T)} {e : Event T} {requestId : String}
    (h : Sound d a e) (he : carriesOut e = some requestId) : ∃ t, openRequest a =
      some (t, requestId) := by
  cases e with
  | wrote t service path value accepted request => exact ⟨t, (h requestId he).2⟩
  | receipt t status => exact ⟨t, h requestId he⟩
  | _ => simp [carriesOut] at he

theorem Readings.mono {q q' : List (Event T)} (h : Readings q mode) (hq : ∀ e ∈ q, e ∈ q') :
    Readings q' mode := by
  obtain ⟨t, hub4, bl, vebusMode, h1, h2, h3, rfl⟩ := h
  refine ⟨t, hub4, bl, vebusMode, hq _ h1, hq _ h2, ?_, rfl⟩
  rcases h3 with h3 | ⟨v, service, raw, h3, h4⟩
  · exact Or.inl h3
  · exact Or.inr ⟨v, service, raw, hq _ h3, h4⟩

theorem pairwise_snoc {q : List (Event T)} (h : q.Pairwise fun e f => ¬ Finishes e f)
    (he : ∀ x ∈ q, ¬ Finishes x e) : (q ++ [e]).Pairwise fun e f => ¬ Finishes e f := by
  rw [List.pairwise_append]
  refine ⟨h, List.pairwise_singleton _ _, fun x hx y hy => ?_⟩
  rw [List.mem_singleton.mp hy]
  exact he x hx

/-- An event that is no write and ends none is no news to an observation. -/
theorem not_finishes {x : Event T} (h : e ≠ .released t ∧ ∀ st, e ≠ .receipt t st)
    (hx : writer x = some t) : ¬ Finishes x e := by
  rintro ⟨v, hv, hend⟩
  obtain rfl : t = v := by simpa [hx] using hv
  rcases hend with hend | ⟨st, hend⟩
  · exact h.1 hend
  · exact h.2 st hend

theorem pairwise_of_unwritten {q : List (Event T)} (h : ∀ e ∈ q, writer e = none) :
    q.Pairwise fun e f => ¬ Finishes e f := by
  rw [List.pairwise_iff_forall_sublist]
  rintro x y hsub ⟨v, hv, -⟩
  rw [h x (hsub.subset (by simp))] at hv
  cases hv

theorem Paired.later {log c : List (Event T)} {status : Status} (h : Paired log mode status) :
    Paired (log ++ c) mode status := by
  obtain ⟨a, b, rfl, hcurrent, hstatus⟩ := h
  exact ⟨a, b ++ c, by simp, hcurrent, hstatus⟩

theorem openRequest_record (h : newsOfRequest e = none) :
    openRequest (record s e).log = openRequest s.log := by
  simp [openRequest, record, h]

variable [DecidableEq T]

theorem Coherent.current (h : Coherent s mode) : Current s.log mode := by
  obtain ⟨p, q, hlog, hq, hpair, -⟩ := h
  exact ⟨p, q, hlog, hq, hpair⟩

/-- A cached observation, after one more event. -/
theorem Coherent.next (h : Coherent s mode) (hlog : s'.log = s.log ++ [e])
    (hlocks : ∀ v, 0 < Lock.depth v (s.locks .selection) → 0 < Lock.depth v (s'.locks .selection))
    (hwriter : ∀ v, writer e = some v → 0 < Lock.depth v (s'.locks .selection))
    (hends : ∀ v, 0 < Lock.depth v (s.locks .selection) → e ≠ .released v ∧ ∀ st, e ≠ .receipt v st) :
    Coherent s' mode := by
  obtain ⟨p, q, hq, hread, hpair, hopen⟩ := h
  refine ⟨p, q ++ [e], by simp [hlog, hq], hread.mono fun x hx => List.mem_append_left _ hx,
    pairwise_snoc hpair fun x hx => ?_, fun x hx v hv => ?_⟩
  · cases hw : writer x with
    | none => exact fun ⟨v, hv, _⟩ => by simp [hw] at hv
    | some v => exact not_finishes (hends v (hopen x hx v hw)) hw
  · rcases List.mem_append.mp hx with hx | hx
    · exact hlocks v (hopen x hx v hv)
    · rw [List.mem_singleton.mp hx] at hv
      exact hwriter v hv

/-- A cached observation, where no event is added. -/
theorem Coherent.frame (h : Coherent s mode) (hlog : s'.log = s.log)
    (hlocks : ∀ v, 0 < Lock.depth v (s.locks .selection) → 0 < Lock.depth v (s'.locks .selection)) :
    Coherent s' mode := by
  obtain ⟨p, q, hq, hread, hpair, hopen⟩ := h
  exact ⟨p, q, hlog.trans hq, hread, hpair, fun e he v hv => hlocks v (hopen e he v hv)⟩

theorem Fresh.coherent (h : Fresh s.log mode) (hlog : s'.log = s.log) : Coherent s' mode := by
  obtain ⟨p, q, hq, hread, hno⟩ := h
  refine ⟨p, q, hlog.trans hq, hread, pairwise_of_unwritten hno, fun e he v hv => ?_⟩
  rw [hno e he] at hv
  cases hv

/-! ### The invariant -/

theorem Inv.next (h : Inv d s) (hcoherent : ∀ m, s'.cache = some m → Coherent s' m)
    (hlog : s'.log = s.log ++ [e]) (hsound : Sound d s.log e)
    (hstatus : s'.status = (newsOfReceipt e).getD s.status)
    (hseen : s'.seen = lastN 128 (requests s.log ++ (requestOf e).toList))
    (hdry : s'.dryRun = (newsOfDryRun e).getD s.dryRun) : Inv d s' where
  coherent := hcoherent
  sound := by
    rw [hlog, each_snoc]
    exact ⟨h.sound, hsound⟩
  status := by rw [hstatus, hlog, lastReceipt, latest_snoc, h.status, lastReceipt]
  seen := by rw [hseen, hlog, requests_snoc]
  dryRun := by rw [hdry, hlog, latest_snoc, ← h.dryRun]

theorem Inv.frame (h : Inv d s) (hcoherent : ∀ m, s'.cache = some m → Coherent s' m)
    (hlog : s'.log = s.log) (hstatus : s'.status = s.status) (hseen : s'.seen = s.seen)
    (hdry : s'.dryRun = s.dryRun) : Inv d s' where
  coherent := hcoherent
  sound := by rw [hlog]; exact h.sound
  status := by rw [hstatus, hlog, h.status]
  seen := by rw [hseen, hlog, h.seen]
  dryRun := by rw [hdry, hlog, h.dryRun]

/-- Recording an event that only the log keeps. -/
theorem record_keeps (h : Inv d s) (hsound : Sound d s.log e) (hreceipt : newsOfReceipt e = none)
    (hrequest : requestOf e = none) (hdry : newsOfDryRun e = none)
    (hwriter : ∀ v, writer e = some v → 0 < Lock.depth v (s.locks .selection))
    (hends : ∀ v, e ≠ .released v) : Inv d (record s e) := by
  refine Inv.next h (fun m hm => ?_) rfl hsound (by simp [hreceipt, record])
    (by simp [hrequest, record, h.seen]) (by simp [hdry, record])
  refine (h.coherent m hm).next rfl (fun v hv => hv) hwriter fun v _ => ⟨hends v, fun st hst => ?_⟩
  rw [hst] at hreceipt
  cases hreceipt

theorem record_rely (hnews : newsOfRequest e = none)
    (hwriter : ∀ v, writer e = some v → 0 < Lock.depth v (s.locks .selection) ∧ v ≠ u) :
    Rely u s (record s e) := by
  refine ⟨fun _ => rfl, ⟨[e], rfl, fun hd x hx => ?_⟩, fun _ => rfl,
    fun _ => ⟨rfl, rfl, openRequest_record hnews⟩, fun _ => rfl⟩
  rw [List.mem_singleton.mp hx]
  cases hw : writer e with
  | none => rfl
  | some v => exact absurd (Lock.depth_exclusive (hwriter v hw).1 hd) (hwriter v hw).2

/-! ### The calls -/

/-- What a call owes the others. -/
def Keeps (d : Bool) (t : T) (s s' : State T) : Prop := Inv d s' ∧ ∀ u, u ≠ t → Rely u s s'

theorem keeps_same (h : Inv d s) : Keeps d t s s := ⟨h, fun u _ => Rely.refl u s⟩

theorem read_keeps (h : Inv d s) (service path : String) (reply : Option String) :
    Keeps d t s (record s (.read t service path reply)) :=
  ⟨record_keeps h trivial rfl rfl rfl nofun nofun, fun _ _ => record_rely rfl nofun⟩

theorem write_keeps (h : Inv d s) {service path : String} {value : ℤ} {request : Option String}
    (hallowed : Allowed t s (.dbusSet service path value request)) (accepted : Bool) :
    Keeps d t s (record s (.wrote t service path value accepted request)) := by
  obtain ⟨hselection, hrequest⟩ := hallowed
  have hwriter : ∀ v, some t = some v → 0 < Lock.depth v (s.locks .selection) := by
    rintro v ⟨⟩
    exact hselection
  refine ⟨record_keeps h (fun requestId hid => ?_) rfl rfl rfl hwriter nofun, fun u hu =>
    record_rely rfl fun v hv => ⟨hwriter v hv, ?_⟩⟩
  · rw [← h.dryRun]
    exact hrequest requestId hid
  · obtain rfl : t = v := by simpa [writer] using hv
    exact hu.symm

theorem cache_keeps (h : Inv d s) : Keeps d t s (loadCache t s) := by
  unfold loadCache
  cases hc : s.cache with
  | none => exact keeps_same h
  | some m =>
    exact ⟨record_keeps h (h.coherent m hc).current rfl rfl rfl nofun nofun,
      fun u _ => record_rely rfl nofun⟩

theorem store_keeps (h : Inv d s) {m : Option EssMode} {time : ℚ}
    (hallowed : Allowed t s (.storeCache m time)) :
    Keeps d t s { s with cache := m, cacheTime := time } := by
  obtain ⟨hselection, hfresh⟩ := hallowed
  refine ⟨h.frame (fun m' hm' => (hfresh m' hm').coherent rfl) rfl rfl rfl rfl, fun u hu => ?_⟩
  refine ⟨fun _ => rfl, ⟨[], by simp, by simp⟩, fun hd => ?_, fun _ => ⟨rfl, rfl, rfl⟩, fun _ => rfl⟩
  exact absurd (Lock.depth_exclusive hd hselection) hu

theorem remember_keeps (h : Inv d s) {requestId : String}
    (hallowed : Allowed t s (.remember requestId)) :
    Keeps d t s (record { s with seen := remember s.seen requestId } (.remembered t requestId)) := by
  obtain ⟨hreceipts, hnew⟩ := hallowed
  refine ⟨Inv.next h (fun m hm => ?_) rfl ?_ rfl ?_ rfl, fun u hu => ?_⟩
  · exact (h.coherent m hm).next rfl (fun v hv => hv) nofun fun v _ => ⟨nofun, fun _ => nofun⟩
  · rw [h.seen] at hnew
    exact hnew
  · show remember s.seen requestId = _
    rw [h.seen, remember_lastN]
    rfl
  · refine ⟨fun _ => rfl, ⟨_, rfl, fun _ x hx => ?_⟩, fun _ => rfl, fun hd => ?_, fun _ => rfl⟩
    · rw [List.mem_singleton.mp hx]
      rfl
    · exact absurd (Lock.depth_exclusive hd hreceipts) hu

theorem setStatus_keeps (h : Inv d s) {status : Status} (hallowed : Allowed t s (.setStatus status)) :
    Keeps d t s (record { s with status := status } (.receipt t status)) := by
  obtain ⟨hreceipts, hselection, hrequest⟩ := hallowed
  refine ⟨Inv.next h (fun m hm => ?_) rfl hrequest rfl ?_ rfl, fun u hu => ?_⟩
  · refine (h.coherent m hm).next rfl (fun v hv => hv) nofun fun v hv => ⟨nofun, fun st hst => ?_⟩
    -- the receipt comes after the selection lock is given back
    obtain rfl : t = v := by
      injection hst
    omega
  · show s.seen = _
    rw [h.seen]
    simp [requestOf]
  · refine ⟨fun _ => rfl, ⟨_, rfl, fun _ x hx => ?_⟩, fun _ => rfl, fun hd => ?_, fun _ => rfl⟩
    · rw [List.mem_singleton.mp hx]
      rfl
    · exact absurd (Lock.depth_exclusive hd hreceipts) hu

theorem setDryRun_keeps (h : Inv d s) {enabled : Bool} (hallowed : Allowed t s (.setDryRun enabled)) :
    Keeps d t s (record { s with dryRun := enabled } (.dryRunSet enabled)) := by
  refine ⟨Inv.next h (fun m hm => ?_) rfl trivial rfl ?_ rfl, fun u hu => ?_⟩
  · exact (h.coherent m hm).next rfl (fun v hv => hv) nofun fun v _ => ⟨nofun, fun _ => nofun⟩
  · show s.seen = _
    rw [h.seen]
    simp [requestOf]
  · refine ⟨fun _ => rfl, ⟨_, rfl, fun _ x hx => ?_⟩, fun _ => rfl,
      fun _ => ⟨rfl, rfl, openRequest_record (s := { s with dryRun := enabled }) rfl⟩, fun hd => ?_⟩
    · rw [List.mem_singleton.mp hx]
      rfl
    · exact absurd (Lock.depth_exclusive hd hallowed) hu

theorem publish_keeps (h : Inv d s) {status : Status} (hallowed : Allowed t s (.publish mode status)) :
    Keeps d t s (record s (.published t mode status)) :=
  ⟨record_keeps h hallowed rfl rfl rfl nofun nofun, fun _ _ => record_rely rfl nofun⟩

theorem setLock_depth (name name' : LockName) (l : Lock T) :
    Lock.depth u ((setLock s name l).locks name') =
      if name' = name then Lock.depth u l else Lock.depth u (s.locks name') := by
  unfold setLock
  by_cases h : name' = name
  · subst h
    simp
  · simp [h]

/-- A lock changes hands: nothing but the depths of one thread changes. -/
theorem setLock_rely {name : LockName} {l : Lock T}
    (h : Lock.depth u l = Lock.depth u (s.locks name)) : Rely u s (setLock s name l) := by
  refine ⟨fun name' => ?_, ⟨[], by simp [setLock], by simp⟩, fun _ => rfl, fun _ => ⟨rfl, rfl, rfl⟩,
    fun _ => rfl⟩
  rw [setLock_depth]
  split_ifs with hname
  · rw [h, hname]
  · rfl

theorem acquire_keeps (h : Inv d s) {name : LockName} {l : Lock T}
    (hacquire : Lock.acquire t (s.locks name) = some l) : Keeps d t s (setLock s name l) := by
  refine ⟨h.frame (fun m hm => (h.coherent m hm).frame rfl fun v hv => ?_) rfl rfl rfl rfl,
    fun u hu => ?_⟩
  · rw [setLock_depth]
    split_ifs with hname
    · subst hname
      by_cases hvt : v = t
      · subst hvt
        rw [Lock.depth_acquire hacquire]
        omega
      · have := (Lock.depth_acquire_other hvt hacquire).2
        omega
    · exact hv
  · obtain ⟨h1, h2⟩ := Lock.depth_acquire_other hu hacquire
    exact setLock_rely (h1.trans h2.symm)

theorem release_keeps (h : Inv d s) {name : LockName} {l : Lock T}
    (hallowed : Allowed t s (.release name)) (hrelease : Lock.release t (s.locks name) = some l) :
    Keeps d t s (releaseLock t name s l) := by
  have hothers : ∀ u, u ≠ t → Rely u s (setLock s name l) := by
    intro u hu
    obtain ⟨h1, h2⟩ := Lock.depth_release_other hu hrelease
    exact setLock_rely (h1.trans h2.symm)
  have hcoherent : ∀ m, s.cache = some m → Coherent (setLock s name l) m := by
    intro m hm
    by_cases hname : name = .selection
    · subst hname
      exact (hallowed m hm).coherent rfl
    · refine (h.coherent m hm).frame rfl fun v hv => ?_
      rw [setLock_depth, if_neg (Ne.symm hname)]
      exact hv
  have hinv : Inv d (setLock s name l) := h.frame hcoherent rfl rfl rfl rfl
  unfold releaseLock
  split_ifs with hlast
  · obtain ⟨rfl, rfl⟩ := hlast
    refine ⟨Inv.next hinv (fun m hm => ?_) rfl trivial rfl ?_ rfl, fun u hu => ?_⟩
    · refine (hcoherent m hm).next rfl (fun v hv => hv) nofun fun v hv => ?_
      rw [setLock_depth] at hv
      simp [Lock.depth] at hv
    · show s.seen = _
      simp [setLock, requestOf, h.seen]
    · exact (hothers u hu).trans (record_rely rfl nofun)
  · exact ⟨hinv, hothers⟩

/-- **One call** of a thread that keeps the rules. -/
theorem answer_keeps (h : Inv d s) {op : Op} {i : Reply} {r : Ret op} (hallowed : Allowed t s op)
    (hanswer : answer t op s i = some (r, s')) : Keeps d t s s' := by
  cases op with
  | acquire name =>
    simp only [answer, Option.map_eq_some_iff, Prod.mk.injEq] at hanswer
    obtain ⟨l, hl, -, rfl⟩ := hanswer
    exact acquire_keeps h hl
  | release name =>
    simp only [answer, Option.map_eq_some_iff, Prod.mk.injEq] at hanswer
    obtain ⟨l, hl, -, rfl⟩ := hanswer
    exact release_keeps h hallowed hl
  | dbusGet service path =>
    simp only [answer, Option.some.injEq, Prod.mk.injEq] at hanswer
    rw [← hanswer.2]
    exact read_keeps h service path i.text
  | dbusGetNativeOnly service path =>
    simp only [answer, Option.some.injEq, Prod.mk.injEq] at hanswer
    rw [← hanswer.2]
    exact read_keeps h service path i.text
  | dbusSet service path value request =>
    simp only [answer, Option.some.injEq, Prod.mk.injEq] at hanswer
    rw [← hanswer.2]
    exact write_keeps h hallowed i.accepted
  | cache =>
    simp only [answer, Option.some.injEq, Prod.mk.injEq] at hanswer
    rw [← hanswer.2]
    exact cache_keeps h
  | storeCache m time =>
    simp only [answer, Option.some.injEq, Prod.mk.injEq] at hanswer
    rw [← hanswer.2]
    exact store_keeps h hallowed
  | remember requestId =>
    simp only [answer, Option.some.injEq, Prod.mk.injEq] at hanswer
    rw [← hanswer.2]
    exact remember_keeps h hallowed
  | setStatus status =>
    simp only [answer, Option.some.injEq, Prod.mk.injEq] at hanswer
    rw [← hanswer.2]
    exact setStatus_keeps h hallowed
  | setDryRun enabled =>
    simp only [answer, Option.some.injEq, Prod.mk.injEq] at hanswer
    rw [← hanswer.2]
    exact setDryRun_keeps h hallowed
  | publish m status =>
    simp only [answer, Option.some.injEq, Prod.mk.injEq] at hanswer
    rw [← hanswer.2]
    exact publish_keeps h hallowed
  | nextGeneration =>
    simp only [answer, Option.some.injEq, Prod.mk.injEq] at hanswer
    rw [← hanswer.2]
    exact ⟨h.frame (fun m hm => (h.coherent m hm).frame rfl fun _ hv => hv) rfl rfl rfl rfl, fun u _ =>
      ⟨fun _ => rfl, ⟨[], by simp, by simp⟩, fun _ => rfl, fun _ => ⟨rfl, rfl, rfl⟩, fun _ => rfl⟩⟩
  | vebusService =>
    simp only [answer, Option.some.injEq, Prod.mk.injEq] at hanswer
    rw [← hanswer.2]
    exact keeps_same h
  | time =>
    simp only [answer, Option.some.injEq, Prod.mk.injEq] at hanswer
    rw [← hanswer.2]
    exact keeps_same h
  | dryRun =>
    simp only [answer, Option.some.injEq, Prod.mk.injEq] at hanswer
    rw [← hanswer.2]
    exact keeps_same h
  | seen =>
    simp only [answer, Option.some.injEq, Prod.mk.injEq] at hanswer
    rw [← hanswer.2]
    exact keeps_same h
  | status =>
    simp only [answer, Option.some.injEq, Prod.mk.injEq] at hanswer
    rw [← hanswer.2]
    exact keeps_same h

end InverterControl.Ess.Shared
