import InverterControl.Subscriptions.Model

/-!
# Healthy subscriptions are on the current connection

A rule that is armed was accepted for the current connection, except while a new connection has not
cleared the old rules yet (`settled`), and unless a thread records on one connection what was
accepted on another (`crosses`).  So `subscriptions_healthy` is right in every run without such a
record (`armed_on_current`).
-/

namespace InverterControl.Subscriptions.Healthy

open InverterControl.Lib.Runs InverterControl.Subscriptions.Model

variable {rule : String} {c c' : NativeDbusClient} {e : Event} {n : ℕ} {k : Connecting}

/-! ### What goes wrong -/

/-- The old rules are still armed on a new connection. -/
def unsettled : Stage → Bool
  | .made => true
  | .checked => true
  | .clearing => true
  | _ => false

def settled (c : NativeDbusClient) : Bool := c.connecting.all fun k => !unsettled k.stage

/-- A call records the rule on a connection that has not accepted it for this call. -/
def crosses (rule : String) (c : NativeDbusClient) : Event → Bool
  | .stepCall n _ =>
    match c.calls n with
    | .recording asked bus => asked = rule && settled c && c.bus.any (· ≠ bus)
    | _ => false
  | _ => false

theorem same_bus {answer : Answer} {b bus : ℕ} (h : crosses rule c (.stepCall n answer) = false)
    (hcall : c.calls n = .recording rule b) (hsettled : settled c = true) (hbus : c.bus = some bus) :
    bus = b := by
  simpa [crosses, hcall, hsettled, hbus] using h

/-! ### The invariant -/

/-- What the thread that makes a connection knows of the rules that it goes through. -/
def Asked (rule : String) (c : NativeDbusClient) : Stage → Prop
  | .replaying rest => rule ∈ rest → rule ∈ c.subscriptions
  | .waiting rest asked bus => (rule = asked ∨ rule ∈ rest → rule ∈ c.subscriptions) ∧ c.bus = some bus
  | .answered rest asked bus =>
    (rule = asked ∨ rule ∈ rest → rule ∈ c.subscriptions) ∧ c.bus = some bus ∧
      (rule = asked → rule ∈ c.accepted bus)
  | _ => True

/-- A call was told that the daemon has the rule for that connection. -/
def Told (rule : String) (bus : ℕ) (call : Call) : Prop :=
  call = .answered rule bus ∨ call = .recording rule bus

structure Inv (rule : String) (c : NativeDbusClient) : Prop where
  armed : settled c = true → ∀ bus, c.bus = some bus → rule ∈ c.armedSubscriptions →
    rule ∈ c.accepted bus
  remembered : rule ∈ c.armedSubscriptions → rule ∈ c.subscriptions
  told : ∀ n bus, Told rule bus (c.calls n) → rule ∈ c.accepted bus
  kept : ∀ n bus, c.calls n = .recording rule bus → rule ∈ c.subscriptions
  asked : ∀ k, c.connecting = some k → Asked rule c k.stage

theorem Inv.init : Inv rule {} where
  armed := by simp
  remembered := by simp
  told := by simp [Told]
  kept := by simp
  asked := by simp

/-- What was known to be subscribed and accepted stays so. -/
structure Grows (c c' : NativeDbusClient) : Prop where
  subscriptions : ∀ rule ∈ c.subscriptions, rule ∈ c'.subscriptions
  accepted : ∀ bus, ∀ rule ∈ c.accepted bus, rule ∈ c'.accepted bus

theorem Asked.grows {stage : Stage} (h : Asked rule c stage) (hg : Grows c c') (hbus : c'.bus = c.bus) :
    Asked rule c' stage := by
  cases stage with
  | replaying rest => exact fun hr => hg.subscriptions _ (h hr)
  | waiting rest asked bus => exact ⟨fun hr => hg.subscriptions _ (h.1 hr), hbus.trans h.2⟩
  | answered rest asked bus =>
    exact ⟨fun hr => hg.subscriptions _ (h.1 hr), hbus.trans h.2.1, fun hr => hg.accepted _ _ (h.2.2 hr)⟩
  | dialing => trivial
  | made => trivial
  | checked => trivial
  | clearing => trivial
  | cleared => trivial

/-- The armed rules stay, on the same connection or on none. -/
theorem Inv.keeps (h : Inv rule c) (hg : Grows c c') (hbus : c'.bus = c.bus ∨ c'.bus = none)
    (harmed : c'.armedSubscriptions = c.armedSubscriptions)
    (hcalls : ∀ n bus, Told rule bus (c'.calls n) → c'.calls n = c.calls n)
    (hsettled : settled c' = true → settled c = true ∨ rule ∉ c.armedSubscriptions ∨ c'.bus = none)
    (hasked : ∀ k, c'.connecting = some k → Asked rule c' k.stage) : Inv rule c' where
  armed := by
    intro hs bus hb hr
    rw [harmed] at hr
    rcases hbus with hbus | hbus
    · rcases hsettled hs with hs | hno | hno
      · exact hg.accepted _ _ (h.armed hs bus (hbus ▸ hb) hr)
      · exact absurd hr hno
      · rw [hno] at hb
        exact absurd hb (by simp)
    · rw [hbus] at hb
      exact absurd hb (by simp)
  remembered := by
    intro hr
    rw [harmed] at hr
    exact hg.subscriptions _ (h.remembered hr)
  told := by
    intro n bus ht
    have hsame := hcalls n bus ht
    rw [hsame] at ht
    exact hg.accepted _ _ (h.told n bus ht)
  kept := by
    intro n bus hr
    have hsame := hcalls n bus (Or.inr hr)
    exact hg.subscriptions _ (h.kept n bus (hsame ▸ hr))
  asked := hasked

theorem grows_subscriptions (asked : String) :
    Grows c { c with subscriptions := c.subscriptions.insert asked } :=
  ⟨fun _ h => List.mem_insert_of_mem h, fun _ _ h => h⟩

theorem mem_accept {bus b : ℕ} {asked : String} :
    rule ∈ (accept c bus asked).accepted b ↔ (b = bus ∧ rule = asked) ∨ rule ∈ c.accepted b := by
  by_cases hb : b = bus
  · subst hb
    simp [accept]
  · simp [accept, hb]

theorem grows_accept (bus : ℕ) (asked : String) : Grows c (accept c bus asked) :=
  ⟨fun _ h => h, fun _ _ h => mem_accept.mpr (Or.inr h)⟩

/-! ### The calls -/

/-- A call goes on, and knows of no acceptance. -/
theorem Inv.setCall (h : Inv rule c) (n : ℕ) {call : Call} (hcall : ∀ bus, ¬ Told rule bus call) :
    Inv rule (setCall c n call) := by
  refine h.keeps ⟨fun _ h => h, fun _ _ h => h⟩ (Or.inl rfl) rfl ?_ Or.inl fun k hk => ?_
  · intro m bus ht
    by_cases hm : m = n
    · subst hm
      simp only [Model.setCall, Function.update_self] at ht
      exact absurd ht (hcall bus)
    · simp [Model.setCall, hm]
  · exact (h.asked k hk).grows ⟨fun _ h => h, fun _ _ h => h⟩ rfl

theorem Inv.subscribed (h : Inv rule c) (asked : String) :
    Inv rule { c with subscriptions := c.subscriptions.insert asked } :=
  h.keeps (grows_subscriptions asked) (Or.inl rfl) rfl (fun _ _ _ => rfl) Or.inl fun k hk =>
    (h.asked k hk).grows (grows_subscriptions asked) rfl

theorem Inv.optional (h : Inv rule c) (optional : List String) :
    Inv rule { c with optionalSubscriptions := optional } :=
  h.keeps ⟨fun _ h => h, fun _ _ h => h⟩ (Or.inl rfl) rfl (fun _ _ _ => rfl) Or.inl fun k hk =>
    (h.asked k hk).grows ⟨fun _ h => h, fun _ _ h => h⟩ rfl

theorem Inv.accept (h : Inv rule c) (bus : ℕ) (asked : String) : Inv rule (accept c bus asked) :=
  h.keeps (grows_accept bus asked) (Or.inl rfl) rfl (fun _ _ _ => rfl) Or.inl fun k hk =>
    (h.asked k hk).grows (grows_accept bus asked) rfl

/-- The reply of the daemon. -/
theorem Inv.answered (h : Inv rule c) (n bus : ℕ) (asked : String) :
    Inv rule (Model.setCall (Model.accept c bus asked) n (.answered asked bus)) where
  armed := (h.accept bus asked).armed
  remembered := (h.accept bus asked).remembered
  told := by
    intro m b ht
    by_cases hm : m = n
    · subst hm
      have heq : asked = rule ∧ bus = b := by simpa [Told, Model.setCall] using ht
      exact mem_accept.mpr (Or.inl ⟨heq.2.symm, heq.1.symm⟩)
    · exact (h.accept bus asked).told m b (by simpa [Model.setCall, hm] using ht)
  kept := by
    intro m b hr
    by_cases hm : m = n
    · subst hm
      simp [Model.setCall] at hr
    · exact (h.accept bus asked).kept m b (by simpa [Model.setCall, hm] using hr)
  asked := fun k hk => ((h.accept bus asked).asked k hk).grows ⟨fun _ h => h, fun _ _ h => h⟩ rfl

theorem Inv.recording (h : Inv rule c) {bus : ℕ} {asked : String}
    (hcall : c.calls n = .answered asked bus) :
    Inv rule (Model.setCall { c with subscriptions := c.subscriptions.insert asked } n
      (.recording asked bus)) where
  armed := (h.subscribed asked).armed
  remembered := (h.subscribed asked).remembered
  told := by
    intro m b ht
    by_cases hm : m = n
    · subst hm
      have heq : asked = rule ∧ bus = b := by simpa [Told, Model.setCall] using ht
      obtain ⟨rfl, rfl⟩ := heq
      exact h.told m bus (Or.inl hcall)
    · exact h.told m b (by simpa [Model.setCall, hm] using ht)
  kept := by
    intro m b hr
    by_cases hm : m = n
    · subst hm
      have heq : asked = rule ∧ bus = b := by simpa [Model.setCall] using hr
      exact List.mem_insert_iff.mpr (Or.inl heq.1.symm)
    · exact (h.subscribed asked).kept m b (by simpa [Model.setCall, hm] using hr)
  asked := fun k hk => ((h.subscribed asked).asked k hk).grows ⟨fun _ h => h, fun _ _ h => h⟩ rfl

/-- A rule is armed that was accepted for this connection. -/
theorem Inv.arm (h : Inv rule c) {asked : String} (hsub : rule = asked → rule ∈ c.subscriptions)
    (hacc : rule = asked → settled c = true → ∀ bus, c.bus = some bus → rule ∈ c.accepted bus) :
    Inv rule (arm c asked) where
  armed := by
    intro hs bus hb hr
    rcases List.mem_insert_iff.mp hr with heq | hr
    · exact hacc heq hs bus hb
    · exact h.armed hs bus hb hr
  remembered := by
    intro hr
    rcases List.mem_insert_iff.mp hr with heq | hr
    · exact hsub heq
    · exact h.remembered hr
  told := h.told
  kept := h.kept
  asked := fun k hk => (h.asked k hk).grows ⟨fun _ h => h, fun _ _ h => h⟩ rfl

theorem Inv.startConnect (h : Inv rule c) (hfree : c.connecting = none) (call : Option ℕ) :
    Inv rule (startConnect c call) := by
  refine h.keeps ⟨fun _ h => h, fun _ _ h => h⟩ (Or.inl rfl) rfl (fun _ _ _ => rfl)
    (fun _ => Or.inl ?_) ?_
  · simp [settled, hfree]
  · intro k hk
    obtain rfl := Option.some.inj hk
    trivial

/-- A step of a call. -/
theorem Inv.stepCall (h : Inv rule c) (n : ℕ) (answer : Answer)
    (hcross : crosses rule c (.stepCall n answer) = false) : Inv rule (stepCall c n answer) := by
  unfold Model.stepCall
  split
  next asked hcall => exact (h.optional _).setCall n (by simp [Told])
  next asked hcall => exact (h.subscribed asked).setCall n (by simp [Told])
  next asked hcall =>
    by_cases hfree : c.connecting = none
    · rw [if_pos hfree]
      by_cases hcooled : cooled c = false
      · rw [if_pos hcooled]
        exact h.setCall n (by simp [Told])
      · rw [if_neg hcooled]
        by_cases hlive : live c = true
        · rw [if_pos hlive]
          exact h.setCall n (by simp [Told])
        · rw [if_neg hlive]
          exact (h.startConnect hfree _).setCall n (by simp [Told])
    · rw [if_neg hfree]
      exact h
  next asked hcall =>
    refine h.setCall n fun bus => ?_
    split <;> simp [Told]
  next hcall =>
    refine h.setCall n fun bus => ?_
    split <;> simp [Told]
  next asked hcall =>
    split
    · exact h.setCall n (by simp [Told])
    · exact h.setCall n (by simp [Told])
  next asked bus hcall =>
    cases answer with
    | methodReturn => exact h.answered n bus asked
    | lost => exact (h.accept bus asked).setCall n (by simp [Told])
    | refused => exact h.setCall n (by simp [Told])
  next asked bus hcall => exact h.recording hcall
  next asked bus hcall =>
    have harm : Inv rule (Model.arm c asked) := by
      refine h.arm (fun heq => h.kept n bus (heq ▸ hcall)) fun heq hsettled b hb => ?_
      subst heq
      rw [same_bus hcross hcall hsettled hb]
      exact h.told n bus (Or.inr hcall)
    exact harm.setCall n (by simp [Told])
  next => exact h

/-! ### Making a connection -/

theorem Inv.setStage (h : Inv rule c) (hk : c.connecting = some k) {stage : Stage}
    (hset : unsettled k.stage = true → unsettled stage = true) (hasked : Asked rule c stage) :
    Inv rule (setStage c k stage) := by
  refine h.keeps ⟨fun _ h => h, fun _ _ h => h⟩ (Or.inl rfl) rfl (fun _ _ _ => rfl)
    (fun hs => Or.inl ?_) ?_
  · have hno : unsettled stage = false := by simpa [settled, Model.setStage] using hs
    simp only [settled, hk, Option.all_some, Bool.not_eq_true']
    exact Bool.eq_false_iff.mpr fun hyes => by simp [hset hyes] at hno
  · intro k' hk'
    obtain rfl := Option.some.inj hk'
    exact hasked.grows ⟨fun _ h => h, fun _ _ h => h⟩ rfl

/-- The lock is free again. -/
theorem Inv.release (h : Inv rule c) (made : Bool)
    (hsettled : settled c = true ∨ rule ∉ c.armedSubscriptions ∨ c.bus = none) :
    Inv rule (release c k made) := by
  have hfree : Inv rule { c with connecting := none } :=
    h.keeps ⟨fun _ h => h, fun _ _ h => h⟩ (Or.inl rfl) rfl (fun _ _ _ => rfl) (fun _ => hsettled)
      fun _ hk => absurd hk (by simp)
  unfold Model.release
  split
  · exact hfree
  · split
    · refine hfree.setCall _ fun bus => ?_
      split <;> simp [Told]
    · exact hfree

theorem Inv.giveUp (h : Inv rule c)
    (hasked : ∀ k, c.connecting = some k → Asked rule (giveUp c) k.stage) :
    Inv rule (giveUp c) :=
  h.keeps ⟨fun _ h => h, fun _ _ h => h⟩ (Or.inr rfl) rfl (fun _ _ _ => rfl)
    (fun _ => Or.inr (Or.inr rfl))
    hasked

/-- A step of the thread that makes a connection. -/
theorem Inv.stepConnect (h : Inv rule c) (hk : c.connecting = some k) (made : Bool) (asked : String)
    (answer : Answer) : Inv rule (stepConnect c k made asked answer) := by
  have hstage := h.asked k hk
  -- a failure, from a stage that has asked for nothing yet
  have hfail : (∀ c' : NativeDbusClient, Asked rule c' k.stage) →
      Inv rule (Model.release (Model.giveUp c) k false) := by
    intro hany
    refine (h.giveUp fun k' hk' => ?_).release false (Or.inr (Or.inr rfl))
    obtain rfl : k = k' := Option.some.inj (hk.symm.trans hk')
    exact hany _
  unfold Model.stepConnect
  split
  next hs =>
    by_cases hmade : made = true
    · rw [if_pos hmade]
      exact ⟨by simp [settled, Model.setStage, unsettled], h.remembered, h.told, h.kept, by
        intro k' hk'
        obtain rfl := Option.some.inj hk'
        trivial⟩
    · rw [if_neg hmade]
      exact hfail fun c' => by rw [hs]; trivial
  next hs =>
    by_cases hlive : live c = true
    · rw [if_pos hlive]
      exact h.setStage hk (fun _ => rfl) trivial
    · rw [if_neg hlive]
      exact hfail fun c' => by rw [hs]; trivial
  next hs =>
    by_cases hnone : c.subscriptions = []
    · rw [if_pos hnone]
      refine h.release true (Or.inr (Or.inl fun hr => ?_))
      have hsub := h.remembered hr
      rw [hnone] at hsub
      exact absurd hsub (by simp)
    · rw [if_neg hnone]
      exact h.setStage hk (fun _ => rfl) trivial
  next hs =>
    refine ⟨fun _ _ _ hr => ?_, fun hr => ?_, h.told, h.kept, ?_⟩
    · exact absurd hr (by simp [Model.setStage])
    · exact absurd hr (by simp [Model.setStage])
    · intro k' hk'
      obtain rfl := Option.some.inj hk'
      trivial
  next hs =>
    refine h.setStage hk (by simp [hs, unsettled]) fun hr => ?_
    exact (List.mem_filter.mp hr).1
  next rest hs =>
    rw [hs] at hstage
    have hsettled : settled c = true := by simp [settled, hk, hs, unsettled]
    by_cases hnil : rest = []
    · rw [if_pos hnil]
      exact h.release true (Or.inl hsettled)
    · rw [if_neg hnil]
      by_cases hmem : asked ∈ rest
      · rw [if_pos hmem]
        split
        next bus hbus =>
          refine h.setStage hk (by simp [hs, unsettled]) ⟨?_, hbus⟩
          rintro (rfl | hr)
          · exact hstage hmem
          · exact hstage (List.mem_filter.mp hr).1
        next hbus =>
          exact h.setStage hk (by simp [hs, unsettled]) fun hr => hstage (List.mem_filter.mp hr).1
      · rw [if_neg hmem]
        exact h
  next rest asked bus hs =>
    rw [hs] at hstage
    cases answer with
    | methodReturn =>
      refine (h.accept bus asked).setStage hk (by simp [hs, unsettled])
        ⟨hstage.1, hstage.2, fun heq => ?_⟩
      exact mem_accept.mpr (Or.inl ⟨rfl, heq⟩)
    | lost =>
      exact (h.accept bus asked).setStage hk (by simp [hs, unsettled]) fun hr =>
        hstage.1 (Or.inr hr)
    | refused => exact h.setStage hk (by simp [hs, unsettled]) fun hr => hstage.1 (Or.inr hr)
  next rest asked bus hs =>
    rw [hs] at hstage
    obtain ⟨hsub, hbus, hacc⟩ := hstage
    have harm : Inv rule (Model.arm c asked) := by
      refine h.arm (fun heq => hsub (Or.inl heq)) fun heq _ b hb => ?_
      obtain rfl := Option.some.inj (hbus.symm.trans hb)
      exact hacc heq
    exact harm.setStage hk (by simp [hs, unsettled]) fun hr => hsub (Or.inr hr)

/-! ### Runs -/

theorem Inv.next (h : Inv rule c) (hcross : crosses rule c e = false) : Inv rule (next c e) := by
  cases e with
  | tick d =>
    exact h.keeps ⟨fun _ h => h, fun _ _ h => h⟩ (Or.inl rfl) rfl (fun _ _ _ => rfl) Or.inl fun k hk =>
      (h.asked k hk).grows ⟨fun _ h => h, fun _ _ h => h⟩ rfl
  | connect =>
    by_cases hstart : c.connecting = none ∧ cooled c = true ∧ live c = false
    · rw [Model.next, if_pos hstart]
      exact h.startConnect hstart.1 _
    · rw [Model.next, if_neg hstart]
      exact h
  | stepConnect made asked answer =>
    cases hk : c.connecting with
    | none =>
      have heq : Model.next c (.stepConnect made asked answer) = c := by simp [Model.next, hk]
      rw [heq]
      exact h
    | some k =>
      have heq : Model.next c (.stepConnect made asked answer) =
        Model.stepConnect c k made asked answer := by
        simp [Model.next, hk]
      rw [heq]
      exact h.stepConnect hk made asked answer
  | subscribeSignal n service member path required =>
    by_cases hidle : c.calls n = .idle
    · rw [Model.next, if_pos hidle]
      unfold Model.subscribeSignal
      split
      · exact (h.optional _).setCall n (by simp [Told])
      · refine h.setCall n fun bus => ?_
        split <;> simp [Told]
    · rw [Model.next, if_neg hidle]
      exact h
  | addNameOwnerHandler n =>
    by_cases hidle : c.calls n = .idle
    · rw [Model.next, if_pos hidle]
      exact (h.subscribed _).setCall n (by simp [Told])
    · rw [Model.next, if_neg hidle]
      exact h
  | stepCall n answer => exact h.stepCall n answer hcross
  | markFailure bus =>
    by_cases hmark : c.connecting = none ∧ c.bus = some bus
    · rw [Model.next, if_pos hmark]
      exact h.giveUp fun k hk => absurd hk (by simp [hmark.1])
    · rw [Model.next, if_neg hmark]
      exact h
  | close =>
    by_cases hfree : c.connecting = none
    · rw [Model.next, if_pos hfree]
      exact h.keeps ⟨fun _ h => h, fun _ _ h => h⟩ (Or.inr rfl) rfl (fun _ _ _ => rfl)
        (fun _ => Or.inr (Or.inr rfl)) fun k hk => absurd hk (by simp [hfree])
    · rw [Model.next, if_neg hfree]
      exact h
  | disconnect bus =>
    exact h.keeps ⟨fun _ h => h, fun _ _ h => h⟩ (Or.inl rfl) rfl (fun _ _ _ => rfl) Or.inl fun k hk =>
      (h.asked k hk).grows ⟨fun _ h => h, fun _ _ h => h⟩ rfl

/-- **Healthy means armed**: where `subscriptions_healthy` says so, a required rule was accepted by
the daemon for the connection that is there, unless a new connection is just about to clear the old
rules, or the rule was once recorded on another connection than the one that accepted it. -/
theorem armed_on_current (rule : String) (es : List Event)
    (hcross : ∀ x ∈ trace next {} es, crosses rule x.before x.input = false)
    (hhealthy : subscriptionsHealthy (exec next {} es) = true)
    (hsettled : settled (exec next {} es) = true) (hrequired : rule ∈ required (exec next {} es)) :
    ∃ bus, (exec next {} es).bus = some bus ∧ bus ∉ (exec next {} es).disconnected ∧
      rule ∈ (exec next {} es).accepted bus := by
  have hinv : Inv rule (exec next {} es) :=
    exec_invariant Inv.init fun x hx hbefore => hbefore.next (hcross x hx)
  simp only [subscriptionsHealthy, isConnected, live, Bool.and_eq_true, List.all_eq_true,
    decide_eq_true_eq, Option.any_eq_true] at hhealthy
  obtain ⟨⟨⟨bus, hbus, halive⟩, -⟩, hall⟩ := hhealthy
  exact ⟨bus, hbus, halive, hinv.armed hsettled bus hbus (hall rule hrequired)⟩

def systemRule : String := buildRule "com.victronenergy.system" "ItemsChanged" "/"

/-- A rule is asked for on a first connection, and again on the next one. -/
def reconnected : List Event :=
  .subscribeSignal 0 "com.victronenergy.system" "ItemsChanged" "/" true :: .stepCall 0 .refused ::
    List.replicate 3 (.stepConnect true systemRule .methodReturn) ++
    List.replicate 5 (.stepCall 0 .methodReturn) ++ .disconnect 0 :: .connect ::
    List.replicate 9 (.stepConnect true systemRule .methodReturn)

theorem armed_on_current_reconnected : ∃ bus, (exec next {} reconnected).bus = some bus ∧
    bus ∉ (exec next {} reconnected).disconnected ∧
    systemRule ∈ (exec next {} reconnected).accepted bus :=
  armed_on_current systemRule reconnected (by decide +kernel) (by decide +kernel) (by decide +kernel)
    (by decide +kernel)

/-- The first rule of all is accepted on one connection and recorded on the next, which had no rule
to ask for. -/
example :
    let c := exec next {} <|
      .subscribeSignal 0 "com.victronenergy.system" "ItemsChanged" "/" true :: .stepCall 0 .refused ::
        List.replicate 3 (.stepConnect true systemRule .methodReturn) ++
        List.replicate 3 (.stepCall 0 .methodReturn) ++ .disconnect 0 :: .connect ::
        List.replicate 3 (.stepConnect true systemRule .methodReturn) ++
        List.replicate 2 (.stepCall 0 .methodReturn)
    subscriptionsHealthy c = true ∧ c.bus = some 1 ∧ c.accepted 1 = [] := by
  decide +kernel

end InverterControl.Subscriptions.Healthy
