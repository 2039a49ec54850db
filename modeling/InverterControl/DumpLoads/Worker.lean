import InverterControl.DumpLoads.Model

/-!
# The worker keeps to the newest intent

`Inv` says that the slot and the event are set and cleared together and that the slot holds the
newest intent.  A batch that is retired issues at most the call whose check had passed
(`starts_le`), and a request for the same direction changes nothing that a check looks at
(`sameDirection_keeps`); `requests_exec` states all of it for every run.
-/

namespace InverterControl.DumpLoads.Worker

open InverterControl.Lib.Runs InverterControl.Python InverterControl.DumpLoads.Model

variable {entities : List String} {c : HomeAssistantClient} {e : Event}

abbrev Step := Lib.Runs.Taken HomeAssistantClient Event

/-! ### The slot and the event -/

/-- The request that the worker is busy with. -/
def busyWith : Worker → Option Request
  | .checking r _ => some r
  | .ready r _ _ => some r
  | .calling r _ _ => some r
  | _ => none

structure Inv (c : HomeAssistantClient) : Prop where
  /-- A request that waits has set the event. -/
  wakeup : c.pending ≠ none → c.wakeup = true
  /-- It is the newest intent. -/
  newest : ∀ r, c.pending = some r → r.generation = c.generation ∧ c.intent = some r.turnOn
  /-- So was the batch of the worker, unless it is superseded. -/
  busy : ∀ r, busyWith c.worker = some r → r.generation ≤ c.generation ∧
    (r.generation = c.generation → c.intent = some r.turnOn)

theorem Inv.init : Inv {} where
  wakeup := fun h => absurd rfl h
  newest := fun _ h => nomatch h
  busy := fun _ h => nomatch h

theorem supersede_cases (turnOn : Bool) (c : HomeAssistantClient) :
    (c.intent = some turnOn ∧ supersede turnOn c = c.generation) ∨
      (c.intent ≠ some turnOn ∧ supersede turnOn c = c.generation + 1) := by
  unfold supersede
  split_ifs with h
  · exact Or.inr ⟨h, rfl⟩
  · exact Or.inl ⟨not_not.mp h, rfl⟩

/-- A request is refused, or sets the slot and the event. -/
theorem request_cases (entities : List String) (turnOn : PyValue) (now : ℚ) (c : HomeAssistantClient) :
    (requestDumpLoads entities turnOn now c).1 = c ∨ ∃ b, accepts entities turnOn c = some b ∧
      (requestDumpLoads entities turnOn now c).1 =
        { c with
          generation := supersede b c
          intent := some b
          pending := some ⟨b, supersede b c, now + dumpLoadRequestTtl⟩
          wakeup := true } := by
  unfold requestDumpLoads
  cases h : accepts entities turnOn c with
  | none => exact Or.inl rfl
  | some b => exact Or.inr ⟨b, rfl, rfl⟩

theorem Inv.request (h : Inv c) (turnOn : PyValue) (now : ℚ) :
    Inv (requestDumpLoads entities turnOn now c).1 := by
  rcases request_cases entities turnOn now c with heq | ⟨b, -, heq⟩
  · rw [heq]
    exact h
  · rw [heq]
    refine ⟨fun _ => rfl, fun r hr => ?_, fun r hr => ?_⟩
    · obtain rfl := Option.some.inj hr
      exact ⟨rfl, rfl⟩
    · obtain ⟨hle, hintent⟩ := h.busy r hr
      simp only
      rcases supersede_cases b c with ⟨hsame, hgen⟩ | ⟨-, hgen⟩
      · rw [hgen]
        exact ⟨hle, fun hg => hsame.symm.trans (hintent hg)⟩
      · rw [hgen]
        exact ⟨by omega, fun hg => by omega⟩

theorem Inv.cancel (h : Inv c) : Inv (cancelDumpLoads c) where
  wakeup := fun hp => absurd rfl hp
  newest := fun _ hr => nomatch hr
  busy := by
    intro r hr
    obtain ⟨hle, -⟩ := h.busy r hr
    simp only [cancelDumpLoads]
    exact ⟨by omega, fun hg => by omega⟩

theorem Inv.requestStop (h : Inv c) (stage : Stopping) : Inv (requestStop stage c) := by
  cases stage with
  | running => exact ⟨h.wakeup, h.newest, h.busy⟩
  | event => exact ⟨h.wakeup, h.newest, h.busy⟩
  | cancel => exact h.cancel
  | wakeup => exact ⟨fun _ => rfl, h.newest, h.busy⟩

/-- The worker goes on with the same batch, or with none. -/
theorem Inv.goOn (h : Inv c) {w : Worker} (hw : ∀ r, busyWith w = some r → busyWith c.worker = some r) :
    Inv { c with worker := w } :=
  ⟨h.wakeup, h.newest, fun r hr => h.busy r (hw r hr)⟩

theorem Inv.take (h : Inv c) : Inv (take entities c) where
  wakeup := fun hp => absurd rfl hp
  newest := fun _ hr => nomatch hr
  busy := by
    intro r hr
    simp only [Model.take] at hr ⊢
    cases hp : c.pending with
    | none =>
      rw [hp] at hr
      exact nomatch hr
    | some r' =>
      rw [hp] at hr
      obtain rfl := Option.some.inj hr
      obtain ⟨hgen, hintent⟩ := h.newest r' hp
      exact ⟨hgen.le, fun _ => hintent⟩

theorem Inv.worker (h : Inv c) (now : ℚ) : Inv (dumpLoadLoop entities now c) := by
  unfold dumpLoadLoop
  split
  · refine h.goOn fun r hr => ?_
    split_ifs at hr
    · exact nomatch hr
    · exact nomatch hr
  · split_ifs
    · exact h.goOn fun r hr => nomatch hr
    · exact h
  · exact h.take
  · exact h.goOn fun r hr => nomatch hr
  · next r load loads hw =>
    refine h.goOn fun r' hr => ?_
    rw [hw]
    split_ifs at hr
    · exact hr
    · exact nomatch hr
  · next hw => exact h.goOn fun r' hr => by rw [hw]; exact hr
  · next hw => exact h.goOn fun r' hr => by rw [hw]; exact hr
  · exact h

theorem Inv.next (h : Inv c) (e : Event) : Inv (next entities c e) := by
  cases e with
  | request turnOn now => exact h.request turnOn now
  | cancel => exact h.cancel
  | requestStop stage => exact h.requestStop stage
  | worker now => exact h.worker now

theorem inv_exec (es : List Event) : Inv (exec (next entities) {} es) :=
  exec_invariant (P := Inv) Inv.init fun x _ h => h.next x.input

/-! ### Retired batches -/

/-- No other event moves the worker. -/
theorem next_worker (he : ∀ now, e ≠ .worker now) : (next entities c e).worker = c.worker := by
  cases e with
  | request turnOn now =>
    show (requestDumpLoads entities turnOn now c).1.worker = c.worker
    rcases request_cases entities turnOn now c with heq | ⟨b, -, heq⟩
    · rw [heq]
    · rw [heq]
  | cancel => rfl
  | requestStop stage => cases stage <;> rfl
  | worker now => exact absurd rfl (he now)

/-- The worker does not change the generation, the intent and the stop event. -/
theorem dumpLoadLoop_frame (entities : List String) (now : ℚ) (c : HomeAssistantClient) :
    (dumpLoadLoop entities now c).generation = c.generation ∧
      (dumpLoadLoop entities now c).intent = c.intent ∧ (dumpLoadLoop entities now c).stop = c.stop := by
  unfold dumpLoadLoop
  split
  · exact ⟨rfl, rfl, rfl⟩
  · split_ifs
    · exact ⟨rfl, rfl, rfl⟩
    · exact ⟨rfl, rfl, rfl⟩
  all_goals exact ⟨rfl, rfl, rfl⟩

theorem generation_le (c : HomeAssistantClient) (e : Event) :
    c.generation ≤ (next entities c e).generation := by
  cases e with
  | request turnOn now =>
    rcases request_cases entities turnOn now c with heq | ⟨b, -, heq⟩
    · exact (congrArg HomeAssistantClient.generation heq).ge
    · refine le_of_le_of_eq ?_ (congrArg HomeAssistantClient.generation heq).symm
      rcases supersede_cases b c with ⟨-, hgen⟩ | ⟨-, hgen⟩
      · exact hgen.ge
      · exact (Nat.le_succ _).trans hgen.ge
  | cancel => exact Nat.le_succ _
  | requestStop stage =>
    cases stage with
    | cancel => exact Nat.le_succ _
    | _ => exact le_rfl
  | worker now => exact (dumpLoadLoop_frame entities now c).1.ge

/-- A batch that the worker is busy with, or that waits in the slot. -/
def Outstanding (c : HomeAssistantClient) (r : Request) : Prop :=
  busyWith c.worker = some r ∨ c.pending = some r

/-- `cancel_dump_loads`, or a request for the opposite direction that is accepted. -/
def Retires (entities : List String) (c : HomeAssistantClient) (r : Request) (e : Event) : Prop :=
  e = .cancel ∨ e = .requestStop .cancel ∨
    ∃ turnOn now, e = .request turnOn now ∧ accepts entities turnOn c = some (!r.turnOn)

theorem Inv.outstanding (h : Inv c) {r : Request} (hr : Outstanding c r) :
    r.generation ≤ c.generation ∧ (r.generation = c.generation → c.intent = some r.turnOn) := by
  rcases hr with hr | hr
  · exact h.busy r hr
  · obtain ⟨hgen, hintent⟩ := h.newest r hr
    exact ⟨hgen.le, fun _ => hintent⟩

theorem generation_of_retires {r : Request} (hinv : Inv c) (hr : Outstanding c r)
    (h : Retires entities c r e) : r.generation < (next entities c e).generation := by
  obtain ⟨hle, hintent⟩ := hinv.outstanding hr
  rcases h with rfl | rfl | ⟨turnOn, now, rfl, haccepts⟩
  · exact Nat.lt_succ_of_le hle
  · exact Nat.lt_succ_of_le hle
  · simp only [next, requestDumpLoads, haccepts]
    rcases supersede_cases (!r.turnOn) c with ⟨hsame, hgen⟩ | ⟨-, hgen⟩
    · -- the opposite direction is the intent already: the batch is an earlier one
      have hne : r.generation ≠ c.generation := fun hc => by
        have hopposite := Option.some.inj (hsame.symm.trans (hintent hc))
        exact absurd hopposite (Bool.not_ne_self r.turnOn)
      omega
    · omega

theorem worker_of_retires {r : Request} (h : Retires entities c r e) :
    (next entities c e).worker = c.worker := by
  refine next_worker fun now' he => ?_
  rcases h with rfl | rfl | ⟨turnOn, now, rfl, -⟩
  · exact nomatch he
  · exact nomatch he
  · exact nomatch he

/-- The worker issues a call for a request of the generation `g` or an earlier one. -/
def startsOld (g : ℕ) (x : Step) : Bool :=
  match x.input, x.before.worker with
  | .worker _, .ready r _ _ => r.generation ≤ g
  | _, _ => false

/-- One call of such a request has passed its check. -/
def owed (g : ℕ) (w : Worker) : ℕ :=
  match w with
  | .ready r _ _ => if r.generation ≤ g then 1 else 0
  | _ => 0

theorem owed_le_one (g : ℕ) (w : Worker) : owed g w ≤ 1 := by
  unfold owed
  split
  · split_ifs
    · exact le_rfl
    · exact Nat.zero_le 1
  · exact Nat.zero_le 1

/-- **A step after the batch is retired** issues no call but the one that has passed its check. -/
theorem owed_next (entities : List String) {g : ℕ} (hg : g < c.generation) (e : Event) :
    (if startsOld g ⟨c, e⟩ then 1 else 0) + owed g (next entities c e).worker ≤ owed g c.worker := by
  by_cases he : ∃ now, e = .worker now
  · obtain ⟨now, rfl⟩ := he
    cases hw : c.worker with
    | looping =>
      simp only [next, dumpLoadLoop, startsOld, hw, Bool.false_eq_true, if_false]
      split_ifs
      · exact le_rfl
      · exact le_rfl
    | waiting =>
      simp only [next, dumpLoadLoop, startsOld, hw, Bool.false_eq_true, if_false]
      split_ifs
      · exact le_rfl
      · rw [hw]
        exact le_rfl
    | woken =>
      simp only [next, dumpLoadLoop, startsOld, hw, take, Bool.false_eq_true, if_false]
      cases c.pending with
      | none => exact le_rfl
      | some r => exact le_rfl
    | checking r loads =>
      cases loads with
      | nil =>
        simp only [next, dumpLoadLoop, startsOld, hw, Bool.false_eq_true, if_false]
        exact le_rfl
      | cons load loads =>
        simp only [next, dumpLoadLoop, startsOld, hw, Bool.false_eq_true, if_false]
        split_ifs with hcurrent
        · -- the check passes for the newest generation only
          have hgen : r.generation = c.generation := (of_decide_eq_true hcurrent).2.1
          have hnot : ¬ r.generation ≤ g := by omega
          simp only [owed, if_neg hnot]
          exact le_rfl
        · exact le_rfl
    | ready r load loads =>
      simp only [next, dumpLoadLoop, startsOld, hw, owed, decide_eq_true_eq]
      exact le_rfl
    | calling r load loads =>
      simp only [next, dumpLoadLoop, startsOld, hw, Bool.false_eq_true, if_false]
      exact le_rfl
    | ended =>
      simp only [next, dumpLoadLoop, startsOld, hw, Bool.false_eq_true, if_false]
      exact le_rfl
  · have hno : ∀ now, e ≠ .worker now := fun now hc => he ⟨now, hc⟩
    rw [next_worker hno]
    have hstarts : startsOld g ⟨c, e⟩ = false := by
      unfold startsOld
      split
      · next now _ _ _ hc _ => exact absurd hc (hno now)
      · rfl
    rw [hstarts]
    exact (Nat.zero_add _).le

theorem starts_le (entities : List String) {g : ℕ} (b : List Event) (c : HomeAssistantClient)
    (hg : g < c.generation) :
    (trace (next entities) c b).countP (startsOld g) ≤ owed g c.worker := by
  induction b generalizing c with
  | nil => exact Nat.zero_le _
  | cons e b ih =>
    have hrest := ih (next entities c e) (hg.trans_le (generation_le c e))
    have hstep := owed_next entities hg e
    rw [trace_cons, List.countP_cons]
    omega

/-! ### The check of a call -/

/-- The last step of the worker was the check of this call, and it found the deadline ahead. -/
def Checked (entities : List String) (es : List Event) (r : Request) (load : String)
    (loads : List String) :
    Prop :=
  ∃ a now b, es = a ++ .worker now :: b ∧
    (exec (next entities) {} a).worker = .checking r (load :: loads) ∧
    (exec (next entities) {} a).stop = false ∧ r.generation = (exec (next entities) {} a).generation ∧
    now < r.expires ∧ ∀ e ∈ b, ∀ now', e ≠ .worker now'

theorem checked_exec (es : List Event) {r : Request} {load : String} {loads : List String}
    (h : (exec (next entities) {} es).worker = .ready r load loads) :
    Checked entities es r load loads := by
  induction es using List.reverseRecOn with
  | nil => exact nomatch h
  | append_singleton es e ih =>
    rw [exec_snoc] at h
    by_cases he : ∃ now, e = .worker now
    · obtain ⟨now, rfl⟩ := he
      simp only [next, dumpLoadLoop] at h
      split at h
      · simp only at h
        split_ifs at h
      · split_ifs at h
        next hw _ => exact nomatch hw.symm.trans h
      · simp only [take] at h
        split at h
        · exact nomatch h
        · exact nomatch h
      · exact nomatch h
      · next r' load' loads' hw =>
        simp only at h
        split_ifs at h with hcurrent
        obtain ⟨rfl, rfl, rfl⟩ := Worker.ready.inj h
        obtain ⟨hstop, hgen, hnow⟩ := of_decide_eq_true hcurrent
        exact ⟨es, now, [], rfl, hw, hstop, hgen, hnow, fun e he => absurd he List.not_mem_nil⟩
      · exact nomatch h
      · exact nomatch h
      · next hw => exact nomatch hw.symm.trans h
    · have hno : ∀ now, e ≠ .worker now := fun now hc => he ⟨now, hc⟩
      rw [next_worker hno] at h
      obtain ⟨a, now, b, rfl, hw, hstop, hgen, hnow, hb⟩ := ih h
      refine ⟨a, now, b ++ [e], by simp, hw, hstop, hgen, hnow, fun e' he' => ?_⟩
      rcases List.mem_append.mp he' with he' | he'
      · exact hb e' he'
      · rw [List.mem_singleton.mp he']
        exact hno

/-! ### Requests for the same direction -/

/-- The worker goes on, or the same direction is asked for once more. -/
def Repeats (turnOn : Bool) (e : Event) : Prop :=
  (∃ now, e = .worker now) ∨ ∃ now, e = .request (.bool turnOn) now

theorem repeats_keeps (entities : List String) {turnOn : Bool} (hintent : c.intent = some turnOn)
    (he : Repeats turnOn e) :
    (next entities c e).generation = c.generation ∧ (next entities c e).intent = some turnOn ∧
      (next entities c e).stop = c.stop := by
  rcases he with ⟨now, rfl⟩ | ⟨now, rfl⟩
  · obtain ⟨hgen, hkeep, hstop⟩ := dumpLoadLoop_frame entities now c
    exact ⟨hgen, hkeep.trans hintent, hstop⟩
  · simp only [next]
    rcases request_cases entities (.bool turnOn) now c with heq | ⟨b, haccepts, heq⟩
    · rw [heq]
      exact ⟨rfl, hintent, rfl⟩
    · obtain rfl : turnOn = b := by
        simp only [accepts] at haccepts
        split_ifs at haccepts
        exact Option.some.inj haccepts
      rw [heq]
      refine ⟨?_, rfl, rfl⟩
      rcases supersede_cases turnOn c with ⟨-, hgen⟩ | ⟨hne, -⟩
      · exact hgen
      · exact absurd hintent hne

theorem repeats_exec (entities : List String) {turnOn : Bool} (b : List Event) (c : HomeAssistantClient)
    (hintent : c.intent = some turnOn) (hb : ∀ e ∈ b, Repeats turnOn e) :
    (exec (next entities) c b).generation = c.generation ∧ (exec (next entities) c b).stop = c.stop := by
  induction b generalizing c with
  | nil => exact ⟨rfl, rfl⟩
  | cons e b ih =>
    obtain ⟨hgen, hkeep, hstop⟩ := repeats_keeps entities hintent (hb e List.mem_cons_self)
    obtain ⟨hgen', hstop'⟩ := ih _ hkeep fun e' he' => hb e' (List.mem_cons_of_mem e he')
    rw [exec_cons]
    exact ⟨hgen'.trans hgen, hstop'.trans hstop⟩

/-- **A batch is not interrupted by requests for its own direction**: its next check passes while its
deadline is ahead. -/
theorem sameDirection_keeps {a b : List Event} {r : Request} {load : String} {loads : List String}
    {now : ℚ} (hbusy : busyWith (exec (next entities) {} a).worker = some r)
    (hgen : r.generation = (exec (next entities) {} a).generation)
    (hstop : (exec (next entities) {} a).stop = false) (hb : ∀ e ∈ b, Repeats r.turnOn e)
    (hw : (exec (next entities) {} (a ++ b)).worker = .checking r (load :: loads))
    (hnow : now < r.expires) :
    (exec (next entities) {} (a ++ b ++ [.worker now])).worker = .ready r load loads := by
  have hintent := ((inv_exec a).busy r hbusy).2 hgen
  obtain ⟨hgen', hstop'⟩ := repeats_exec entities b _ hintent hb
  rw [← exec_append] at hgen' hstop'
  have hcurrent : current r now (exec (next entities) {} (a ++ b)) = true :=
    decide_eq_true ⟨hstop'.trans hstop, hgen.trans hgen'.symm, hnow⟩
  rw [exec_snoc]
  simp only [next, dumpLoadLoop, hw, if_pos hcurrent]

/-! ### Every run -/

/-- What the requests promise in a run. -/
structure Requests (entities : List String) (es : List Event) : Prop where
  /-- A request that waits has set the event. -/
  wakes : (exec (next entities) {} es).pending ≠ none → (exec (next entities) {} es).wakeup = true
  /-- It is the newest intent. -/
  newest : ∀ r, (exec (next entities) {} es).pending = some r →
    r.generation = (exec (next entities) {} es).generation ∧
      (exec (next entities) {} es).intent = some r.turnOn
  /-- Once a batch is retired, at most one call of it or of an earlier one is issued, and that only
  where its check had passed before. -/
  retired : ∀ a e b r, es = a ++ e :: b → Outstanding (exec (next entities) {} a) r →
    Retires entities (exec (next entities) {} a) r e →
    (trace (next entities) (exec (next entities) {} (a ++ [e])) b).countP (startsOld r.generation) ≤
        owed r.generation (exec (next entities) {} a).worker ∧
      owed r.generation (exec (next entities) {} a).worker ≤ 1
  /-- Every call is issued right after its own check, which found the deadline ahead. -/
  checked : ∀ a now b r load loads, es = a ++ .worker now :: b →
    (exec (next entities) {} a).worker = .ready r load loads → Checked entities a r load loads
  /-- A batch goes on while nothing but its own direction is asked for. -/
  repeated : ∀ a b now c r load loads, es = a ++ (b ++ .worker now :: c) →
    busyWith (exec (next entities) {} a).worker = some r →
    r.generation = (exec (next entities) {} a).generation → (exec (next entities) {} a).stop = false →
    (∀ e ∈ b, Repeats r.turnOn e) →
    (exec (next entities) {} (a ++ b)).worker = .checking r (load :: loads) → now < r.expires →
    (exec (next entities) {} (a ++ b ++ [.worker now])).worker = .ready r load loads

/-- **Newest intent, no replay, no lost wake-up**, in every run. -/
theorem requests_exec (entities : List String) (es : List Event) : Requests entities es where
  wakes := (inv_exec es).wakeup
  newest := (inv_exec es).newest
  retired := by
    rintro a e b r rfl hr hretires
    have hstarts := starts_le entities b _ (generation_of_retires (inv_exec a) hr hretires)
    rw [worker_of_retires hretires] at hstarts
    rw [exec_snoc]
    exact ⟨hstarts, owed_le_one _ _⟩
  checked := fun a _ _ _ _ _ _ hw => checked_exec a hw
  repeated := fun _ _ _ _ _ _ _ _ hbusy hgen hstop hb hw hnow =>
    sameDirection_keeps hbusy hgen hstop hb hw hnow

end InverterControl.DumpLoads.Worker
