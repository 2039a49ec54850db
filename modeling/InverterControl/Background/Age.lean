import InverterControl.Background.Model
import Mathlib.Tactic.Linarith

/-!
# What a read can return

A read returns the unknown values or those of a current refresh (`Current`), unless a failed refresh
met a call of `request_stop` between its two steps (`Noticed`, `read_current`).  A refresh that is
going on when the flag is set never publishes (`Stuck`): the flag is cleared only when no thread is
alive.
-/

namespace InverterControl.Background.Age

open InverterControl.Lib.Runs InverterControl.Background.Model

variable {V : Type} {unknown : Values V} {maxAge : ℚ} {r : BackgroundReader V}

abbrev Step (V : Type) := Lib.Runs.Taken (BackgroundReader V) (Event V)

/-! ### Refreshes -/

def IsWorker (x : Step V) : Prop := ∃ i, x.input = .worker i

/-- The worker begins a refresh. -/
def Begins (started : ℚ) (x : Step V) : Prop :=
  ∃ i, x.input = .worker i ∧ x.before.worker = .looping ∧ x.before.stop = false ∧ i.now = started

/-- The refresh returns values. -/
def Returns (unknown : Values V) (started : ℚ) (values : Values V) (x : Step V) : Prop :=
  ∃ i v, x.input = .worker i ∧ x.before.worker = .refreshing started ∧ i.outcome = .returned v ∧
    values = merged unknown v

/-- A failed refresh is over, with its part under the lock. -/
def Fails (x : Step V) : Prop := IsWorker x ∧ ∃ publish, x.before.worker = .locked none publish

/-- Every call of `request_stop` in these steps is still going on. -/
def Uncompleted (xs : List (Step V)) (r : BackgroundReader V) : Prop :=
  ∀ x ∈ xs, ∀ call, x.input = .requestStop call → call ∈ r.stopping

/-- The refresh began, returned these values, none has failed since, and `P` holds of the steps since it
began. -/
def RefreshedSince (unknown : Values V) (past : List (Step V)) (s : Snapshot V)
    (P : List (Step V) → Prop) : Prop :=
  ∃ a begin b answer c, past = a ++ begin :: (b ++ answer :: c) ∧ Begins s.1 begin ∧
    (∀ x ∈ b, ¬ IsWorker x) ∧ Returns unknown s.1 s.2 answer ∧ (∀ x ∈ c, ¬ Fails x) ∧
    P (b ++ answer :: c)

/-- The values are those of a refresh that began at `started`; every `request_stop` since is still
going on, and no refresh has failed since. -/
def Current (unknown : Values V) (past : List (Step V)) (r : BackgroundReader V) (started : ℚ)
    (values : Values V) : Prop :=
  RefreshedSince unknown past (started, values) fun xs => Uncompleted xs r

/-- A read at `now` returns current values that are young enough, or the unknown ones. -/
def ReadsCurrent (unknown : Values V) (maxAge : ℚ) (past : List (Step V)) (r : BackgroundReader V)
    (now : ℚ) :
    Prop :=
  Model.read unknown maxAge r now = unknown ∨
    ∃ started, now - maxAge < started ∧ Current unknown past r started (Model.read unknown maxAge r now)

/-- No failed refresh meets the flag while there is a snapshot. -/
def Noticed (x : Step V) : Prop :=
  IsWorker x → x.before.worker = .refreshed none → x.before.stop = true → x.before.snapshot = none

/-! ### The invariant -/

/-- No call of `request_stop` set the flag in these steps. -/
def NoRequest (xs : List (Step V)) : Prop := ∀ x ∈ xs, ∀ call, x.input ≠ .requestStop call

/-- The refresh began at `started` and is going on. -/
def Begun (past : List (Step V)) (r : BackgroundReader V) (started : ℚ) : Prop :=
  ∃ a begin b, past = a ++ begin :: b ∧ Begins started begin ∧ (∀ x ∈ b, ¬ IsWorker x) ∧
    (r.stop = false → NoRequest b)

/-- What the worker has in hand. -/
def InHand (unknown : Values V) (past : List (Step V)) (r : BackgroundReader V) : Prop :=
  match r.worker with
  | .refreshing started => Begun past r started
  | .refreshed (some s) => RefreshedSince unknown past s fun xs => r.stop = false → NoRequest xs
  | .locked (some s) publish => RefreshedSince unknown past s fun xs => publish = true → Uncompleted xs r
  | .locked none publish => publish = false → r.snapshot = none
  | _ => True

/-- While `start` goes on no thread is alive. -/
def Owned (r : BackgroundReader V) : Prop := r.starter ≠ .idle → r.worker = .absent

theorem Owned.next (h : Owned r) (e : Event V) : Owned (next unknown r e) := by
  cases e with
  | worker i =>
    intro hs
    have hs' : r.starter ≠ .idle := by
      intro hidle
      refine hs ?_
      simp only [Model.next, run]
      split
      all_goals exact hidle
    simp only [Model.next, run, h hs']
  | start =>
    unfold Owned
    simp only [Model.next, start]
    cases hstarter : r.starter with
    | idle =>
      simp only
      split_ifs with halive
      · exact h
      · intro _
        unfold alive at halive
        split at halive
        · next hw => exact hw
        · exact absurd rfl halive
    | checked => exact fun _ => h (by rw [hstarter]; exact Starter.noConfusion)
    | cleared => exact fun hs => absurd rfl hs
  | requestStop call => exact h
  | drop call =>
    simp only [Model.next, drop]
    split_ifs
    · exact h
    · exact h

structure Invariant (unknown : Values V) (past : List (Step V)) (r : BackgroundReader V) : Prop where
  snapshot : ∀ s, r.snapshot = some s → RefreshedSince unknown past s fun xs => Uncompleted xs r
  inHand : InHand unknown past r
  starter : Owned r

theorem invariant_init : Invariant unknown [] {} where
  snapshot := fun _ h => nomatch h
  inHand := trivial
  starter := fun h => absurd rfl h

variable {past : List (Step V)} {x : Step V} {s : Snapshot V} {P Q : List (Step V) → Prop}

/-- One more step after the refresh returned. -/
theorem RefreshedSince.snoc (h : RefreshedSince unknown past s P) (hx : ¬ Fails x)
    (hPQ : ∀ xs, P xs → Q (xs ++ [x])) :
    RefreshedSince unknown (past ++ [x]) s Q := by
  obtain ⟨a, begin, b, answer, c, rfl, hbegin, hb, hanswer, hc, hP⟩ := h
  refine ⟨a, begin, b, answer, c ++ [x], by simp, hbegin, hb, hanswer, fun y hy => ?_, ?_⟩
  · rcases List.mem_append.mp hy with hy | hy
    · exact hc y hy
    · rw [List.mem_singleton.mp hy]
      exact hx
  · have hsnoc := hPQ _ hP
    rwa [List.append_assoc, List.cons_append] at hsnoc

theorem NoRequest.snoc {xs : List (Step V)} (h : NoRequest xs)
    (hx : ∀ call, x.input ≠ .requestStop call) :
    NoRequest (xs ++ [x]) := by
  intro y hy
  rcases List.mem_append.mp hy with hy | hy
  · exact h y hy
  · rw [List.mem_singleton.mp hy]
    exact hx

theorem NoRequest.uncompleted {xs : List (Step V)} (h : NoRequest xs) : Uncompleted xs r :=
  fun y hy call hcall => absurd hcall (h y hy call)

/-- More calls are going on, the one of this step too. -/
theorem Uncompleted.snoc {r' : BackgroundReader V} {xs : List (Step V)} (h : Uncompleted xs r)
    (hr : ∀ call ∈ r.stopping, call ∈ r'.stopping)
    (hx : ∀ call, x.input = .requestStop call → call ∈ r'.stopping) : Uncompleted (xs ++ [x]) r' := by
  intro y hy call hcall
  rcases List.mem_append.mp hy with hy | hy
  · exact hr call (h y hy call hcall)
  · rw [List.mem_singleton.mp hy] at hcall
    exact hx call hcall

/-- A step of another thread that does not clear the flag, nor drops the snapshot under the lock. -/
theorem InHand.other {r' : BackgroundReader V} (h : InHand unknown past r) (hx : ¬ IsWorker x)
    (hworker : r'.worker = r.worker)
    (hstop : r'.stop = false → r.stop = false ∧ ∀ call, x.input ≠ .requestStop call)
    (hlocked : free r = false → (∀ call ∈ r.stopping, call ∈ r'.stopping) ∧
      (∀ call, x.input = .requestStop call → call ∈ r'.stopping) ∧
      (r.snapshot = none → r'.snapshot = none)) :
    InHand unknown (past ++ [x]) r' := by
  have hfails : ¬ Fails x := fun hf => hx hf.1
  unfold InHand at h ⊢
  rw [hworker]
  cases hw : r.worker with
  | absent => trivial
  | looping => trivial
  | refreshing started =>
    simp only [hw] at h
    obtain ⟨a, begin, b, rfl, hbegin, hb, hnone⟩ := h
    refine ⟨a, begin, b ++ [x], by simp, hbegin, fun y hy => ?_, fun hs => ?_⟩
    · rcases List.mem_append.mp hy with hy | hy
      · exact hb y hy
      · rw [List.mem_singleton.mp hy]
        exact hx
    · obtain ⟨hs, hreq⟩ := hstop hs
      exact (hnone hs).snoc hreq
  | refreshed snapshot =>
    cases snapshot with
    | none => trivial
    | some s =>
      simp only [hw] at h
      refine h.snoc hfails fun xs hxs hs => ?_
      obtain ⟨hs, hreq⟩ := hstop hs
      exact (hxs hs).snoc hreq
  | locked snapshot publish =>
    simp only [hw] at h
    obtain ⟨hmono, hreq, hnone⟩ := hlocked (by rw [free, hw])
    cases snapshot with
    | none => exact fun hp => hnone (h hp)
    | some s => exact h.snoc hfails fun xs hxs hp => (hxs hp).snoc hmono hreq
  | waiting => trivial

/-! ### The steps -/

theorem Invariant.start (h : Invariant unknown past r) :
    Invariant unknown (past ++ [⟨r, .start⟩]) (start r) := by
  have hx : ¬ IsWorker (⟨r, .start⟩ : Step V) := fun ⟨i, hi⟩ => nomatch hi
  have hnone : ∀ call, (⟨r, .start⟩ : Step V).input ≠ .requestStop call := fun call hc => nomatch hc
  have hsnapshot {r' : BackgroundReader V} (hs : r'.snapshot = r.snapshot)
      (hr : r'.stopping = r.stopping) :
      ∀ s, r'.snapshot = some s → RefreshedSince unknown (past ++ [⟨r, .start⟩]) s fun xs =>
        Uncompleted xs r' := by
    intro s h'
    refine (h.snapshot s (hs.symm.trans h')).snoc (fun hf => hx hf.1) fun xs hxs => ?_
    exact hxs.snoc (fun call hcall => by rwa [hr]) fun call hcall => absurd hcall (hnone call)
  have hhand : InHand unknown (past ++ [⟨r, .start⟩]) r :=
    h.inHand.other hx rfl (fun hs => ⟨hs, hnone⟩)
      fun _ => ⟨fun _ hcall => hcall, fun call hcall => absurd hcall (hnone call), id⟩
  unfold Model.start
  cases hstarter : r.starter with
  | idle =>
    simp only
    split_ifs with halive
    · exact ⟨hsnapshot rfl rfl, hhand, h.starter⟩
    · have habsent : r.worker = .absent := by
        unfold alive at halive
        split at halive
        · next hw => exact hw
        · exact absurd rfl halive
      refine ⟨hsnapshot rfl rfl, ?_, fun _ => habsent⟩
      unfold InHand
      simp only [habsent]
  | checked =>
    have habsent := h.starter (by rw [hstarter]; exact Starter.noConfusion)
    refine ⟨hsnapshot rfl rfl, ?_, fun _ => habsent⟩
    unfold InHand
    simp only [habsent]
  | cleared => exact ⟨hsnapshot rfl rfl, trivial, fun hs => absurd rfl hs⟩

theorem Invariant.requestStop (h : Invariant unknown past r) (call : ℕ) :
    Invariant unknown (past ++ [⟨r, .requestStop call⟩]) (requestStop call r) := by
  have hx : ¬ IsWorker (⟨r, .requestStop call⟩ : Step V) := fun ⟨i, hi⟩ => nomatch hi
  have hmono : ∀ c ∈ r.stopping, c ∈ (Model.requestStop call r).stopping := fun c hc =>
    List.mem_cons_of_mem call hc
  have hreq : ∀ c, (⟨r, .requestStop call⟩ : Step V).input = .requestStop c →
      c ∈ (Model.requestStop call r).stopping := by
    intro c hc
    obtain rfl := Event.requestStop.inj hc
    exact List.mem_cons_self
  refine ⟨fun s hs => ?_, ?_, h.starter⟩
  · exact (h.snapshot s hs).snoc (fun hf => hx hf.1) fun xs hxs => hxs.snoc hmono hreq
  · exact h.inHand.other hx rfl (fun hs => nomatch hs) fun _ => ⟨hmono, hreq, id⟩

theorem Invariant.drop (h : Invariant unknown past r) (call : ℕ) :
    Invariant unknown (past ++ [⟨r, .drop call⟩]) (drop call r) := by
  have hx : ¬ IsWorker (⟨r, .drop call⟩ : Step V) := fun ⟨i, hi⟩ => nomatch hi
  have hnone : ∀ c, (⟨r, .drop call⟩ : Step V).input ≠ .requestStop c := fun c hc => nomatch hc
  unfold Model.drop
  split_ifs with hdrop
  · refine ⟨fun _ hs => (nomatch hs), ?_, h.starter⟩
    refine h.inHand.other hx rfl (fun hs => ⟨hs, hnone⟩) fun hlocked => ?_
    exact absurd hdrop.2 (by rw [hlocked]; exact Bool.false_ne_true)
  · refine ⟨fun s hs => ?_, ?_, h.starter⟩
    · refine (h.snapshot s hs).snoc (fun hf => hx hf.1) fun xs hxs => ?_
      exact hxs.snoc (fun _ hc => hc) fun c hc => absurd hc (hnone c)
    · exact h.inHand.other hx rfl (fun hs => ⟨hs, hnone⟩)
        fun _ => ⟨fun _ hc => hc, fun c hc => absurd hc (hnone c), id⟩

/-- The worker keeps the snapshot. -/
theorem Invariant.keep (h : Invariant unknown past r) {i : Inputs V} {r' : BackgroundReader V}
    (hfails : ¬ Fails (⟨r, .worker i⟩ : Step V)) (hsnapshot : r'.snapshot = r.snapshot)
    (hstopping : r'.stopping = r.stopping) (hhand : InHand unknown (past ++ [⟨r, .worker i⟩]) r')
    (hstarter : r'.starter = .idle ∨ r'.worker = .absent) :
    Invariant unknown (past ++ [⟨r, .worker i⟩]) r' where
  snapshot := by
    intro s hs
    refine (h.snapshot s (hsnapshot.symm.trans hs)).snoc hfails fun xs hxs => ?_
    exact hxs.snoc (fun call hcall => by rwa [hstopping]) fun call hcall => nomatch hcall
  inHand := hhand
  starter := fun hne => hstarter.resolve_left hne

theorem Owned.idle (h : Owned r) (hw : r.worker ≠ .absent) : r.starter = .idle := by
  by_contra hs
  exact hw (h hs)

theorem not_fails {e : Event V} (hw : ∀ publish, r.worker ≠ .locked none publish) :
    ¬ Fails (⟨r, e⟩ : Step V) := by
  rintro ⟨-, publish, hlocked⟩
  exact hw publish hlocked

theorem worker_ne_requestStop (i : Inputs V) (call : ℕ) :
    (⟨r, .worker i⟩ : Step V).input ≠ .requestStop call := fun hc => nomatch hc

/-- A refresh begins, unless the flag is set. -/
theorem inHand_looping (hw : r.worker = .looping) (i : Inputs V) :
    InHand unknown (past ++ [⟨r, .worker i⟩]) (run unknown i r) := by
  simp only [run, hw]
  unfold InHand
  simp only
  split_ifs with hstop
  · trivial
  · refine ⟨past, _, [], rfl, ⟨i, rfl, hw, ?_, rfl⟩, fun x hx => absurd hx List.not_mem_nil,
      fun _ x hx => absurd hx List.not_mem_nil⟩
    exact Bool.not_eq_true _ ▸ hstop

/-- The refresh is over. -/
theorem InHand.refreshing {started : ℚ} (h : InHand unknown past r) (hw : r.worker = .refreshing started)
    (i : Inputs V) : InHand unknown (past ++ [⟨r, .worker i⟩]) (run unknown i r) := by
  unfold InHand at h
  simp only [hw] at h
  simp only [run, hw, refreshed]
  unfold InHand
  cases houtcome : i.outcome with
  | returned values =>
    obtain ⟨a, begin, b, rfl, hbegin, hb, hreq⟩ := h
    refine ⟨a, begin, b, ⟨r, .worker i⟩, [], by simp, hbegin, hb, ⟨i, values, rfl, hw, houtcome, rfl⟩,
      fun x hx => absurd hx List.not_mem_nil, fun hs => ?_⟩
    exact (hreq hs).snoc (worker_ne_requestStop i)
  | raised => trivial
  | exited => trivial

/-- The worker takes the lock. -/
theorem InHand.refreshed {snapshot : Option (Snapshot V)} (h : InHand unknown past r)
    (hw : r.worker = .refreshed snapshot) (i : Inputs V) (hnoticed : Noticed (⟨r, .worker i⟩ : Step V)) :
    InHand unknown (past ++ [⟨r, .worker i⟩]) (run unknown i r) := by
  unfold InHand at h
  simp only [run, hw]
  unfold InHand
  cases snapshot with
  | none =>
    intro hpublish
    exact hnoticed ⟨i, rfl⟩ hw (by simpa using hpublish)
  | some s =>
    simp only [hw] at h
    have hfails : ¬ Fails (⟨r, .worker i⟩ : Step V) := not_fails (by simp [hw])
    refine h.snoc hfails fun xs hxs hpublish => ?_
    have hclear : r.stop = false := by simpa using hpublish
    exact ((hxs hclear).snoc (worker_ne_requestStop i)).uncompleted

/-- What is published under the lock. -/
theorem Invariant.locked {snapshot : Option (Snapshot V)} {publish : Bool} (h : Invariant unknown past r)
    (hw : r.worker = .locked snapshot publish) (i : Inputs V) :
    ∀ s, (Model.run unknown i r).snapshot = some s → RefreshedSince unknown (past ++ [⟨r, .worker i⟩]) s
      fun xs => Uncompleted xs (Model.run unknown i r) := by
  intro s hs
  have hhand := h.inHand
  unfold InHand at hhand
  simp only [hw] at hhand
  simp only [Model.run, hw] at hs ⊢
  cases snapshot with
  | none =>
    -- a failed refresh leaves no snapshot
    split_ifs at hs with hpublish
    rw [hhand (Bool.not_eq_true _ ▸ hpublish)] at hs
    exact nomatch hs
  | some s' =>
    have hfails : ¬ Fails (⟨r, .worker i⟩ : Step V) := not_fails (by simp [hw])
    have hsnoc (xs : List (Step V)) (hxs : Uncompleted xs r) : Uncompleted (xs ++ [⟨r, .worker i⟩]) r :=
      hxs.snoc (fun _ hc => hc) fun call hc => absurd hc (worker_ne_requestStop i call)
    split_ifs at hs with hpublish
    · obtain rfl := Option.some.inj hs
      exact hhand.snoc hfails fun xs hxs => hsnoc xs (hxs hpublish)
    · exact (h.snapshot s hs).snoc hfails hsnoc

/-- **A step of the worker**, unless a failed refresh meets the flag. -/
theorem Invariant.run (h : Invariant unknown past r) (i : Inputs V)
    (hnoticed : Noticed (⟨r, .worker i⟩ : Step V)) :
    Invariant unknown (past ++ [⟨r, .worker i⟩]) (run unknown i r) := by
  cases hw : r.worker with
  | absent =>
    have hrun : Model.run unknown i r = r := by rw [Model.run, hw]
    rw [hrun]
    refine h.keep (not_fails (by simp [hw])) rfl rfl ?_ (Or.inr hw)
    unfold InHand
    simp only [hw]
  | looping =>
    have hidle := h.starter.idle (by simp [hw])
    refine h.keep (not_fails (by simp [hw])) ?_ ?_ (inHand_looping hw i) (Or.inl ?_)
    all_goals simp only [Model.run, hw, hidle]
  | refreshing started =>
    have hidle := h.starter.idle (by simp [hw])
    refine h.keep (not_fails (by simp [hw])) ?_ ?_ (h.inHand.refreshing hw i) (Or.inl ?_)
    all_goals simp only [Model.run, hw, hidle]
  | refreshed snapshot =>
    have hidle := h.starter.idle (by simp [hw])
    refine h.keep (not_fails (by simp [hw])) ?_ ?_ (h.inHand.refreshed hw i hnoticed) (Or.inl ?_)
    all_goals simp only [Model.run, hw, hidle]
  | locked snapshot publish =>
    have hidle := h.starter.idle (by simp [hw])
    refine ⟨h.locked hw i, ?_, fun hne => absurd ?_ hne⟩
    · unfold InHand
      simp only [Model.run, hw]
    · simp only [Model.run, hw, hidle]
  | waiting =>
    have hidle := h.starter.idle (by simp [hw])
    refine h.keep (not_fails (by simp [hw])) ?_ ?_ ?_ (Or.inl ?_)
    · simp only [Model.run, hw]
    · simp only [Model.run, hw]
    · unfold InHand
      simp only [Model.run, hw]
    · simp only [Model.run, hw, hidle]

theorem invariant_exec (es : List (Event V)) (h : ∀ x ∈ trace (next unknown) {} es, Noticed x) :
    Invariant unknown (trace (next unknown) {} es) (exec (next unknown) {} es) := by
  induction es using List.reverseRecOn with
  | nil => exact invariant_init
  | append_singleton es e ih =>
    rw [trace_snoc] at h
    have hpast := ih fun x hx => h x (List.mem_append_left _ hx)
    have hlast := h _ (List.mem_append_right _ (List.mem_singleton.mpr rfl))
    rw [trace_snoc, exec_snoc]
    cases e with
    | worker i => exact hpast.run i hlast
    | start => exact hpast.start
    | requestStop call => exact hpast.requestStop call
    | drop call => exact hpast.drop call

/-! ### A refresh that is stuck -/

/-- Since the flag was set during a refresh no other refresh has begun: the worker does not publish. -/
def Barred (r : BackgroundReader V) : Prop :=
  match r.worker with
  | .absent => True
  | .looping => True
  | .locked _ publish => r.stop = true ∧ publish = false
  | _ => r.stop = true

theorem Barred.run (h : Barred r) {i : Inputs V} (hbegins : ∀ started, ¬ Begins started ⟨r, .worker i⟩) :
    Barred (run unknown i r) := by
  unfold Barred at h
  unfold Model.run
  cases hw : r.worker with
  | absent =>
    unfold Barred
    simp only [hw]
  | looping =>
    have hs : r.stop = true := by
      by_contra hs
      exact hbegins i.now ⟨i, rfl, hw, Bool.not_eq_true _ ▸ hs, rfl⟩
    simp only [if_pos hs]
    exact trivial
  | refreshing started =>
    simp only [hw] at h
    unfold Barred refreshed
    cases i.outcome with
    | returned values => exact h
    | raised => exact h
    | exited => trivial
  | refreshed snapshot =>
    simp only [hw] at h
    exact ⟨h, by rw [h]; rfl⟩
  | locked snapshot publish =>
    simp only [hw] at h
    exact h.1
  | waiting => trivial

theorem Barred.next (h : Barred r) (howned : Owned r) {e : Event V}
    (hbegins : ∀ started, ¬ Begins started ⟨r, e⟩) : Barred (next unknown r e) := by
  cases e with
  | worker i => exact h.run hbegins
  | start =>
    simp only [Model.next, start]
    cases hstarter : r.starter with
    | idle =>
      simp only
      split_ifs
      · exact h
      · exact h
    | checked =>
      have habsent := howned (by rw [hstarter]; exact Starter.noConfusion)
      unfold Barred
      simp only [habsent]
    | cleared => trivial
  | requestStop call =>
    unfold Barred at h ⊢
    simp only [Model.next, requestStop]
    cases hw : r.worker with
    | absent => trivial
    | looping => trivial
    | refreshing started => trivial
    | refreshed snapshot => trivial
    | locked snapshot publish =>
      simp only [hw] at h
      exact ⟨trivial, h.2⟩
    | waiting => trivial
  | drop call =>
    simp only [Model.next, drop]
    split_ifs
    · exact h
    · exact h

theorem owned_exec (es : List (Event V)) : Owned (exec (next unknown) {} es) :=
  exec_invariant (P := Owned) (fun h => absurd rfl h) fun x _ h => h.next x.input

/-- **A refresh that is going on when the flag is set never publishes**: until another one begins
the worker does not go to its lock to store a snapshot. -/
theorem stuck_never_publishes {a b : List (Event V)} {call : ℕ} {started : ℚ}
    (hstuck : (exec (next unknown) {} a).worker = .refreshing started)
    (hb : ∀ x ∈ trace (next unknown) (exec (next unknown) {} (a ++ [.requestStop call])) b,
      ∀ started', ¬ Begins started' x) (snapshot : Option (Snapshot V)) :
    (exec (next unknown) {} (a ++ .requestStop call :: b)).worker ≠ .locked snapshot true := by
  have hbarred : Barred (exec (next unknown) {} (a ++ .requestStop call :: b)) := by
    rw [List.append_cons, exec_append]
    refine (exec_invariant (P := fun t : BackgroundReader V => Barred t ∧ Owned t) ⟨?_, owned_exec _⟩
      fun x hx h => ⟨h.1.next h.2 (hb x hx), h.2.next x.input⟩).1
    rw [exec_snoc]
    unfold Barred
    simp only [Model.next, requestStop, hstuck]
  intro hlocked
  unfold Barred at hbarred
  simp only [hlocked] at hbarred
  exact nomatch hbarred.2

/-! ### Every run -/

/-- What the reader promises in a state: its reads, and that a refresh that was going on when a call
set the flag has not got as far as to publish. -/
structure Bounded (unknown : Values V) (maxAge : ℚ) (es : List (Event V)) : Prop where
  reads : ∀ now, ReadsCurrent unknown maxAge (trace (next unknown) {} es) (exec (next unknown) {} es) now
  stuck : ∀ a call b started, es = a ++ .requestStop call :: b →
    (exec (next unknown) {} a).worker = .refreshing started →
    (∀ x ∈ trace (next unknown) (exec (next unknown) {} (a ++ [.requestStop call])) b,
      ∀ started', ¬ Begins started' x) →
    ∀ snapshot, (exec (next unknown) {} es).worker ≠ .locked snapshot true

/-- **Reads are bounded in age and end with the reader**, in every run in which no failed refresh meets a
`request_stop` between its two steps. -/
theorem bounded_exec (es : List (Event V)) (h : ∀ x ∈ trace (next unknown) {} es, Noticed x) :
    Bounded unknown maxAge es := by
  have hinv := invariant_exec es h
  constructor
  · intro now
    unfold ReadsCurrent Model.read
    cases hs : (exec (next unknown) {} es).snapshot with
    | none => exact Or.inl rfl
    | some s =>
      simp only
      split_ifs with hage
      · exact Or.inl rfl
      · exact Or.inr ⟨s.1, by linarith, hinv.snapshot s hs⟩
  · rintro a call b started rfl hstuck hb snapshot
    exact stuck_never_publishes hstuck hb snapshot

/-! The reader of the charger, whose first refresh returns 7. -/

def unknownPower : Values ℕ := fun _ => none

def sevenWatts : Values ℕ := fun _ => some 7

/-- The worker is started and publishes; the next refresh begins. -/
def publishedRun : List (Event ℕ) :=
  [.start, .start, .start, .worker { now := 0 }, .worker { outcome := .returned sevenWatts }, .worker {},
    .worker {}, .worker {}, .worker { now := 2 }]

theorem bounded_exec_published :
    Model.read unknownPower 4 (exec (next unknownPower) {} publishedRun) 3 "power" = some 7 ∧
      Bounded unknownPower 4 publishedRun := by
  refine ⟨by decide +kernel, bounded_exec publishedRun fun x hx => ?_⟩
  simp only [publishedRun, trace_cons, trace_nil, List.mem_cons, List.not_mem_nil, or_false] at hx
  rcases hx with rfl | rfl | rfl | rfl | rfl | rfl | rfl | rfl | rfl
  all_goals exact fun _ _ hs => absurd hs (by decide +kernel)

/-- The flag is set, then the second refresh fails. -/
def failedRun : List (Event ℕ) := publishedRun ++ [.requestStop 0, .worker {}, .worker {}, .worker {}]

def isReturn (x : Step V) : Bool :=
  match x.input, x.before.worker with
  | .worker ⟨_, .returned _⟩, .refreshing _ => true
  | _, _ => false

def isFailure (x : Step V) : Bool :=
  match x.input, x.before.worker with
  | .worker _, .locked none _ => true
  | _, _ => false

theorem isReturn_of_returns {started : ℚ} {values : Values V} (h : Returns unknown started values x) :
    isReturn x = true := by
  obtain ⟨⟨now, outcome⟩, v, hi, hw, hv, -⟩ := h
  obtain rfl := hv
  simp only [isReturn, hi, hw]

theorem fails_of_isFailure (h : isFailure x = true) : Fails x := by
  unfold isFailure at h
  split at h
  · next i publish hi hw => exact ⟨⟨i, hi⟩, publish, hw⟩
  · exact nomatch h

/-- Before the snapshot is dropped a read returns the values of the first refresh, although the
second one has failed. -/
theorem failed_refresh_kept : ¬ Bounded unknownPower 4 failedRun := by
  intro h
  have hfailed : ∀ a x b, trace (next unknownPower) {} failedRun = a ++ x :: b → isReturn x = true →
      ∃ y ∈ b, isFailure y = true := by
    decide +kernel
  rcases h.reads 3 with hread | ⟨started, -, a, begin, b, answer, c, htrace, -, -, hanswer, hc, -⟩
  · exact absurd (congrFun hread "power") (by decide +kernel)
  · rw [← List.cons_append, ← List.append_assoc] at htrace
    obtain ⟨y, hy, hfails⟩ := hfailed _ _ _ htrace (isReturn_of_returns hanswer)
    exact hc y hy (fails_of_isFailure hfails)

end InverterControl.Background.Age
